import ScopedTensor.Element.Interchange
import ScopedTensor.Proofs.Knowledge.Histories

/-! What is remembered of arrays never drifts from their engines, in any history. An array is
remembered as it was asked for or as an engine told it, and what was looked up once is told again
for as long as there is the array. -/

namespace ScopedTensor

open ScopedTensor.Action Session Relation

section

variable {half : HalfPrecision}

section Lookups

variable {σ α : Type} {C : Custody σ} {W : Watch σ} {s u : Session σ} {id : ArrayId}
variable {t : Trait} {x : Library.Answer} {a : Tensor σ}
variable {known : Tensor σ → Option α} {remember : α → Tensor σ → Tensor σ}
variable {load : Library σ → Handle → Action σ α} {answer : α → Library.Answer}

def Trait.lookup (id : ArrayId) : Trait → Action (Session σ) Library.Answer
  | shape => .shape <$> Session.shape id
  | type => .type <$> Session.type id
  | device => .device <$> Session.device id
  | storage => .storage <$> Session.storage id

theorem remembered_known (ha : s.arrays.get? id = some a) (hx : (known a).map answer = some x) :
    (answer <$> remembered known remember load id) s = .ok x s := by
  obtain ⟨y, hy, rfl⟩ := Option.map_eq_some_iff.1 hx
  have hknown : remembered known remember load id s = .ok y s := by
    refine (bind_of_ok (array_eq ha)).trans ?_
    rw [hy]
    rfl
  exact bind_of_ok hknown

theorem lookup_known (ha : s.arrays.get? id = some a) (hx : t.known a = some x) :
    t.lookup id s = .ok x s := by
  cases t <;> exact remembered_known ha hx

/-- The array is there, and the answer is remembered. -/
structure Session.Told (s u : Session σ) (id : ArrayId) (t : Trait) (x : Library.Answer) :
    Prop where
  array : ∃ a, u.arrays.get? id = some a ∧ t.known a = some x
  keys : u.arrays.keys = s.arrays.keys
  lastId : u.lastId = s.lastId

theorem told_remembered (hknown : ∀ a, t.known a = (known a).map answer)
    (hremember : ∀ y a, known (remember y a) = some y) :
    Meets (· = s) (remembered known remember load id) (fun y u => s.Told u id t (answer y))
      fun _ => True := by
  refine (meets_array id fun _ _ => trivial).bind fun a => .of_state fun u ⟨ha, hu⟩ => ?_
  subst hu
  cases hk : known a with
  | some y => exact .done ⟨⟨a, ha, by rw [hknown, hk, Option.map_some]⟩, rfl, rfl⟩
  | none =>
    let asked (v : Session σ) : Prop := v.arrays = u.arrays ∧ v.lastId = u.lastId
    have hasked : ∀ h, Keeps asked (callFor id fun lib => load lib h) := fun h =>
      (meets_array id fun _ hv => hv).bind fun b => .zoom fun v hv => by split <;> exact hv.2
    have hhandle : Meets (· = u) (handle id) (fun _ => asked) fun _ => True :=
      (meets_handle id).imp (fun _ hv => hv) (fun _ v hv => hv.2 ▸ ⟨rfl, rfl⟩) fun _ _ => trivial
    refine hhandle.bind fun h => ((hasked h).imp (fun _ hv => hv) (fun _ _ hv => hv)
      fun _ _ => trivial).bind fun y => .modify_bind (I := fun v => u.Told v id t (answer y))
        (fun v ⟨harrays, hid⟩ => ?_) (.pure fun _ hv => hv)
    refine ⟨⟨remember y a, ?_, by rw [hknown, hremember, Option.map_some]⟩, ?_, hid⟩
    · exact Table.get?_modify_eq_some.2 (.inl ⟨rfl, a, harrays ▸ ha, rfl⟩)
    · exact (Table.keys_modify _ _ _).trans (congrArg Table.keys harrays)

theorem lookup_told (hr : t.lookup id s = .ok x u) : s.Told u id t x := by
  have htold : Meets (· = s) (t.lookup id) (fun x u => s.Told u id t x) fun _ => True := by
    cases t <;> exact .map (told_remembered (fun _ => rfl) fun _ _ => rfl)
  exact htold.of_ok rfl hr

theorem tended_lookup (t : Trait) (id : ArrayId) : Keeps (Tended C W) (t.lookup id) := by
  cases t with
  | shape => exact .map (tended_shape id)
  | type => exact .map (tended_type id)
  | device => exact .map (tended_device id)
  | storage => exact .map (tended_storage id)

end Lookups

namespace History

open Backends

variable {load : Foreign.Loader} {g g' : History} {s u : Session Backends}
variable {described described' : List ArrayId}

theorem Stirred.faithful (h : Stirred s described u described') (hs : s.Faithful described) :
    u.Faithful described' := by
  cases h with
  | native hn => exact hs.grows hn.grows
  | wrapped e h known =>
    cases known with
    | none => exact faithful_wrapped hs nofun
    | some d =>
      intro id a ha hid
      obtain ⟨hnew, hid⟩ := not_or.1 (mt List.mem_cons.2 hid)
      rcases Table.get?_insert_eq_some.1 ha with ⟨rfl, -⟩ | ⟨-, ha⟩
      · exact absurd rfl hnew
      · exact hs id a ha hid

theorem Stirred.recalls (h : Stirred s described u described') : s.Recalls u := by
  cases h with
  | native hn => exact ⟨Nat.le_refl _, fun _ b hb => .inr ⟨b, hb, fun _ _ hx => hx⟩⟩
  | wrapped e h known => exact recalls_wrapped s e h known

theorem Next.faithful (hnext : Next load g g') (hg : g.Employs)
    (hs : g.session.Faithful g.described) : g'.session.Faithful g'.described := by
  obtain ⟨s, hstirred, hleads⟩ := hnext.leads hg
  exact (hleads.work.faithful hleads.numbered (hstirred.faithful hs)).2

theorem Next.recalls (hnext : Next load g g') (hg : g.Employs) :
    g.session.Recalls g'.session := by
  obtain ⟨s, hstirred, hleads⟩ := hnext.leads hg
  exact hstirred.recalls.trans (recalls_of_moves hleads.work.moves)

theorem employs_faithful_reached (hg : ReflTransGen (Next load) start g) :
    g.Employs ∧ g.session.Faithful g.described := by
  induction hg with
  | refl => exact ⟨employs_start, fun _ _ ha => absurd ha nofun⟩
  | tail _ hnext ih => exact ⟨hnext.employs ih.1, hnext.faithful ih.1 ih.2⟩

theorem recalls_reached (hg : g.Employs) (hlater : ReflTransGen (Next load) g g') :
    g'.Employs ∧ g.session.Recalls g'.session := by
  induction hlater with
  | refl => exact ⟨hg, .refl _⟩
  | tail _ hnext ih => exact ⟨hnext.employs ih.1, ih.2.trans (hnext.recalls ih.1)⟩

theorem answers_of_vouches {W : Watch Backends} (hs : Tended custody W s) {id : ArrayId}
    {a : Tensor Backends} (ha : s.arrays.get? id = some a) (hopen : a.owned.isReleased = false)
    {t : Trait} {x : Library.Answer}
    (hv : s.native.Vouches a.engine.library a.owned.handle t x) :
    (t.call a.owned.handle).perform a.engine.library s.native = .ok x s.native := by
  obtain ⟨i, gpus, hi, hlib, hv⟩ := hv
  obtain ⟨j, gpus', e, hj, hlib', he⟩ := exists_entry hs ha (OwnedHandle.get_eq_ok.2 ⟨hopen, rfl⟩)
  obtain rfl := place_inj hi (hlib.symm.trans hlib')
  rw [hlib, referenceLibrary, Library.perform_zoom]
  exact zoom_ok.2 ⟨_, hv.told e he ▸ Reference.perform_trait gpus t he,
    Backends.set_reference_self hi⟩

theorem reaches_turned {p q : Program Backends}
    (h : ReflTransGen (Program.Turn (openLibrary load) Operation.Sized) p q) :
    ReflTransGen (Next load) ⟨p, described⟩ ⟨q, described⟩ := by
  induction h with
  | refl => exact .refl
  | @tail p q _ hturn ih =>
    have hlast : Next load ⟨p, described⟩ ⟨q, described⟩ := .turned hturn
    exact ih.tail hlast

end History

/-- Whatever program runs over reference engines, what is remembered of an array that still has its
handle is what the engine answers, unless the program described the array itself. What was looked up
once is told again, and nobody is asked, for as long as there is the array. -/
theorem remembered_never_drifts [HalfPrecision] (load : Foreign.Loader) {g : History}
    (hg : ReflTransGen (History.Next load) .start g) :
    (∀ id a, g.session.arrays.get? id = some a → id ∉ g.described → a.owned.isReleased = false →
      ∀ (t : Trait) x, t.known a = some x →
        (t.call a.owned.handle).perform a.engine.library g.session.native =
          .ok x g.session.native) ∧
    ∀ id (t : Trait) x s, t.lookup id g.session = .ok x s →
      ∀ g', ReflTransGen (History.Next load) (g.resume s) g' → id ∈ g'.session.arrays.keys →
        t.lookup id g'.session = .ok x g'.session := by
  obtain ⟨⟨W, hW, hs⟩, hfaithful⟩ := History.employs_faithful_reached hg
  constructor
  · intro id a ha hid hopen t x hx
    exact History.answers_of_vouches hs ha hopen (hfaithful id a ha hid hopen t x hx)
  · intro id t x s hr g' hlater hid
    have htold := lookup_told hr
    obtain ⟨a, ha, hx⟩ := htold.array
    have hresumed : (g.resume s).Employs := ⟨W, hW, (tended_lookup t id).of_ok hs hr⟩
    obtain ⟨-, hrecalls⟩ := History.recalls_reached hresumed hlater
    obtain ⟨b, hb⟩ := (Table.mem_keys_iff _ _).1 hid
    have hold : id ≤ s.lastId :=
      htold.lastId ▸ hs.bounded id (htold.keys ▸ (Table.mem_keys_iff _ _).2 ⟨a, ha⟩)
    rcases hrecalls.arrays id b hb with hlt | ⟨a', ha', hknown⟩
    · exact absurd hold (Nat.not_le.2 hlt)
    · obtain rfl : a' = a := Option.some.inj (ha'.symm.trans ha)
      exact lookup_known hb (hknown t x hx)

end

open Interchange

/-- A view whose shape was asked for, in front of an array that was asked for with its shape. -/
theorem remembered_never_drifts_view :
    ∃ (g : History) (a b : Tensor Backends), g.session.arrays.get? 3 = some a ∧
      g.session.arrays.get? 4 = some b ∧ a.shape = some ⟨[2, 3]⟩ ∧ b.shape = some ⟨[3]⟩ ∧
      (Library.Call.shape a.owned.handle).perform a.engine.library g.session.native =
        .ok (.shape ⟨[2, 3]⟩) g.session.native ∧
      (Library.Call.shape b.owned.handle).perform b.engine.library g.session.native =
        .ok (.shape ⟨[3]⟩) g.session.native ∧
      Trait.shape.lookup 4 g.session = .ok (.shape ⟨[3]⟩) g.session := by
  let load : Foreign.Loader := fun _ => .ok []
  obtain ⟨p, hp, -, htest⟩ := Program.exists_turned (Backends.openLibrary load) Operation.Sized
    .initial (c := .standard) rfl [.create 2 ⟨[2, 3]⟩ .f32, .row 3 1, .shape 4]
    (by simp [Operation.Sized]) (fun s => (s.arrays.get? 3).any fun a : Tensor Backends =>
      (s.arrays.get? 4).any fun b : Tensor Backends =>
        decide (a.shape = some ⟨[2, 3]⟩ ∧ b.shape = some ⟨[3]⟩ ∧ a.owned.isReleased = false ∧
          b.owned.isReleased = false))
    (by decide +kernel)
  obtain ⟨a, ha, hboth⟩ := (Option.any_eq_true _ _).1 htest
  obtain ⟨b, hb, hone⟩ := (Option.any_eq_true _ _).1 hboth
  obtain ⟨hshape, hshape', hopen, hopen'⟩ := of_decide_eq_true hone
  let g : History := ⟨p, []⟩
  have hundescribed : ∀ id, id ∉ g.described := fun _ => List.not_mem_nil
  have hkept := remembered_never_drifts load (g := g) (History.reaches_turned hp)
  have hknown : Trait.shape.known a = some (.shape ⟨[2, 3]⟩) := congrArg (Option.map _) hshape
  have hknown' : Trait.shape.known b = some (.shape ⟨[3]⟩) := congrArg (Option.map _) hshape'
  have htold : Trait.shape.lookup 4 g.session = .ok (.shape ⟨[3]⟩) g.session :=
    lookup_known hb hknown'
  have hagain := hkept.2 4 .shape _ _ htold g .refl ((Table.mem_keys_iff _ _).2 ⟨b, hb⟩)
  exact ⟨g, a, b, ha, hb, hshape, hshape', hkept.1 3 a ha (hundescribed 3) hopen .shape _ hknown,
    hkept.1 4 b hb (hundescribed 4) hopen' .shape _ hknown', hagain⟩

end ScopedTensor
