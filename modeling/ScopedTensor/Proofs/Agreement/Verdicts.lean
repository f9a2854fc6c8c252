import ScopedTensor.Element.Interchange
import ScopedTensor.Proofs.Agreement.Buffers
import ScopedTensor.Proofs.Agreement.Reports

/-! Two verdicts on the same arguments. Operations are checked against what is remembered of arrays,
and then again by the engine against what it holds; in every state that a program reaches both say
the same. -/

namespace ScopedTensor

open ScopedTensor.Action Session Backends Relation

section

variable {half : HalfPrecision}
variable {gpus : Nat → Nat} {W : Watch Backends} {s t : Session Backends}
variable {id : ArrayId} {a : Tensor Backends} {h : Handle} {i : Nat} {e : Reference.Entry}

namespace Session

theorem Stands.shape_ok (hst : Stands gpus s id h i e) : ∃ y t, shape id s = .ok y t := by
  obtain ⟨a, ha, hh, hlib⟩ := hst.array
  obtain ⟨hopen, rfl⟩ := OwnedHandle.get_eq_ok.1 hh
  obtain ⟨y, n, hy, -⟩ := bind_ok.1 (hst.perform .shape)
  have hasked := hst.callFor_eq (f := fun lib => lib.shape a.owned.handle) (.refl s) hy
  have hmeets : Meets (· = s) (shape id) (fun _ _ => True) fun _ => False := by
    refine Meets.bind (Q := fun b u => b = a ∧ u = s) (.of_eq (array_eq ha) ⟨rfl, rfl⟩) fun b =>
      .of_state fun u ⟨hb, hu⟩ => ?_
    subst hb hu
    split
    · exact .pure fun _ _ => trivial
    · refine Meets.bind (Q := fun v w => v = b.owned.handle ∧ w = u)
        (.of_eq (handle_eq ha hopen) ⟨rfl, rfl⟩) fun v => .of_state fun w ⟨hv, hw⟩ => ?_
      subst hv hw
      refine Meets.bind (.of_eq (Q := fun _ _ => True) hasked trivial) fun _ => ?_
      exact Meets.bind (Q := fun _ _ => True) (.modify fun _ _ => trivial) fun _ =>
        .pure fun _ _ => trivial
  obtain ⟨y, t, hshape, -⟩ := hmeets.ok rfl
  exact ⟨y, t, hshape⟩

theorem Asked.joinScope_ok {R : Regime Backends} (hs : Sound R {} s) (ht : Asked s t)
    (ha : s.arrays.get? id = some a) (n : Backends) (v : Handle) :
    ∃ new u, joinScope id v none { t with native := n } = .ok new u := by
  obtain ⟨b, hb, hbare⟩ := ht.symm.alike.array ha
  have hadmits : Admits b.owner { t with native := n } := by
    intro S hS
    show t.scopes.openAt S = true
    rw [ht.alike.scopes]
    exact hs.admits_owner ha S (Tensor.owner_of_bare hbare ▸ hS)
  have hfound : array id { t with native := n } = .ok b { t with native := n } := array_eq hb
  exact ⟨_, _, (bind_of_ok hfound).trans (wrap_attach_eq hadmits b.engine v none)⟩

theorem perform_fails_iff {R : Regime Backends} (hs : InStep gpus W s) (hsound : Sound R {} s)
    (hst : Stands gpus s id h i e) (k : Viewing) :
    (∃ x t, k.perform id s = .error x t) ↔ k.Misses e.view.shape := by
  obtain ⟨y, t, hshape⟩ := hst.shape_ok
  have hread := reads_shape hs id s hs.reads
  rw [hshape] at hread
  obtain ⟨ht, hy⟩ := hread
  obtain rfl : e.view.shape = y := hst.shape_eq hy
  rw [k.perform_eq, keeping_fails_iff]
  have hattempt : k.attempt id s = _ := bind_of_ok hshape
  rw [hattempt]
  by_cases hmisses : k.Misses e.view.shape
  · rw [if_pos hmisses]
    exact ⟨fun _ => hmisses, fun _ => ⟨_, _, rfl⟩⟩
  · rw [if_neg hmisses]
    refine ⟨fun ⟨x, u, hfailed⟩ => ?_, fun h => absurd h hmisses⟩
    obtain ⟨a, ha, hh, -⟩ := hst.array
    obtain ⟨b, hb, hbare⟩ := ht.asked.symm.alike.array ha
    obtain ⟨hopen, rfl⟩ := OwnedHandle.get_eq_ok.1 (Tensor.owned_of_bare hbare ▸ hh)
    obtain ⟨v, m, hasked⟩ := (hst.ask_iff k).2 hmisses
    have hcall := hst.callFor_eq (f := fun lib => k.ask lib b.owned.handle) ht.asked hasked
    obtain ⟨new, w, hjoined⟩ := ht.asked.joinScope_ok hsound ha m v
    have hview : view id (fun lib h => k.ask lib h) t = .ok new w :=
      (bind_of_ok (handle_eq hb hopen)).trans ((bind_of_ok hcall).trans hjoined)
    exact absurd (hview.symm.trans hfailed) nofun

theorem ask_fails_iff (hst : Stands gpus s id h i e) (k : Viewing) :
    (∃ x n, k.ask (referenceLibrary i (gpus i)) h s.native = .error x n) ↔
      k.Misses e.view.shape := by
  rw [Action.fails_iff, hst.ask_iff k, not_not]

end Session

/-- The operation checks its arguments before it calls the engine. -/
inductive Operation.Vetted : Operation → Prop
  | row (id : ArrayId) (index : Nat) : Vetted (.row id index)
  | slice (id : ArrayId) (first last : Nat) : Vetted (.slice id first last)
  | reshape (id : ArrayId) (target : List Int) : Vetted (.reshape id target)
  | pairwise (f : Arithmetic) (a b : ArrayId) : Vetted (.arithmetic (Operator.pairwise f).name a b)
  | scalar (f : Arithmetic) (x : Binary.Binary64) (id : ArrayId) :
      Vetted (.unary (Operator.scalar f).name (Params.empty.set "scalar" (.float x)) id)
  | negative (id : ArrayId) : Vetted (.unary Operator.negative.name .empty id)
  | reduce (r : Reduction) (id : ArrayId) : Vetted (.unary (Operator.reduce r).name .empty id)
  | zerosLike (id : ArrayId) : Vetted (.unary Operator.zerosLike.name .empty id)
  | onesLike (id : ArrayId) : Vetted (.unary Operator.onesLike.name .empty id)
  | copyTo (source target : ArrayId) : Vetted (.copyTo source target)
  | toType (id : ArrayId) (target : ElementType) (copy : Bool) : Vetted (.toType id target copy)
  | set (id : ArrayId) (t : HostType) (values : List (HostValue t)) : Vetted (.set id t values)
  | setBytes (id : ArrayId) (bytes : Bytes) : Vetted (.setBytes id bytes)
  | toBytes (id : ArrayId) : Vetted (.toBytes id)
  | toValues (id : ArrayId) (t : HostType) : Vetted (.toValues id t)
  | toDoubles (id : ArrayId) : Vetted (.toDoubles id)
  | dump (id : ArrayId) : Vetted (.dump id)
  | attachGrad (id : ArrayId) (request : GradRequest) (storage : Option Storage) :
      Vetted (.attachGrad id request storage)
  | gradient (id : ArrayId) : Vetted (.gradient id)
  | waitToRead (id : ArrayId) : Vetted (.waitToRead id)
  | waitToWrite (id : ArrayId) : Vetted (.waitToWrite id)
  | waitAll (id : ArrayId) : Vetted (.waitAll id)

theorem Operation.Vetted.checks {op : Operation} (h : op.Vetted) (e : Engine Backends) :
    Checks (InStep gpus W) (op.perform e) fun _ _ => True := by
  cases h with
  | row id index => exact .map (checks_viewing (.row index) id)
  | slice id first last => exact .map (checks_viewing (.slice first last) id)
  | reshape id target => exact .map (checks_viewing (.reshape target) id)
  | pairwise f a b => exact .map (checks_arithmetic f a b)
  | scalar f x id =>
    have hinfer : ∀ sig : Signature, (Operator.scalar f).infer [sig]
        (Params.empty.set "scalar" (.float x)) = .ok [sig] := fun _ => rfl
    exact .map (checks_unary (fun sig => ⟨sig, hinfer sig⟩) id)
  | negative id => exact .map (checks_unary (fun sig => ⟨sig, rfl⟩) id)
  | reduce r id => exact .map (checks_unary (fun sig => ⟨_, rfl⟩) id)
  | zerosLike id => exact .map (checks_unary (fun sig => ⟨sig, rfl⟩) id)
  | onesLike id => exact .map (checks_unary (fun sig => ⟨sig, rfl⟩) id)
  | copyTo source target => exact checks_settled (checks_copyInto source target)
  | toType id target copy => exact .map (checks_toType id target copy)
  | set id t values => exact checks_set id t values
  | setBytes id bytes => exact checks_setBytes id bytes
  | toBytes id => exact .map (checks_toBytes id)
  | toValues id t => exact .map (checks_toValues id t)
  | toDoubles id => exact .map (checks_toDoubles id)
  | dump id => exact .map (checks_dump id)
  | attachGrad id request storage => exact checks_attachGrad id request storage
  | gradient id => exact .map (checks_gradient id)
  | waitToRead id => exact checks_waitToRead id
  | waitToWrite id => exact checks_waitToWrite id
  | waitAll id => exact checks_waitAll id

/-- In every state that a program reaches, operations that check their arguments fail for these
alone. Engines never fail so, and so none of them has refused what had passed. A view of an array
that has its handle is refused exactly when the engine would refuse it. -/
theorem checks_agree [HalfPrecision] (load : Foreign.Loader) {p : Program Backends}
    (hp : ReflTransGen (Program.Turn (openLibrary load) Operation.Sized) (.start .initial) p) :
    (∀ (op : Operation) (e : Engine Backends), op.Vetted →
      ∀ x s, op.perform e p.session = .error x s → x.OfArguments) ∧
    ∀ id a, p.session.arrays.get? id = some a →
      (∀ (c : Library.Call) n x m, c.perform a.engine.library n = .error x m → ¬ x.OfArguments) ∧
      (a.owned.isReleased = false → ∀ k : Viewing,
        (∃ x s, k.perform id p.session = .error x s) ↔
          ∃ x n, k.ask a.engine.library a.owned.handle p.session.native = .error x n) := by
  obtain ⟨gpus, ⟨W, -, hs⟩, -, -⟩ := Program.inStep_reached hp
  have hsound := Backends.sound_reached (hp.lift id fun _ _ hturn => Program.Turn.next hturn)
  refine ⟨fun op e hop x s hfailed => (hop.checks e).error hs hfailed, fun id a ha => ⟨?_, ?_⟩⟩
  · intro c n x m hfailed
    obtain ⟨i, hlib⟩ := (hs.equipped.arrays id a ha).library
    rw [hlib] at hfailed
    exact (Backends.reports_perform c i (gpus i) n x m hfailed).not_ofArguments
  · intro hopen k
    obtain ⟨i, e, hst⟩ := hs.stands ha (OwnedHandle.get_eq_ok.2 ⟨hopen, rfl⟩)
    obtain ⟨a', ha', -, hlib⟩ := hst.array
    obtain rfl : a' = a := Option.some.inj (ha'.symm.trans ha)
    rw [hlib]
    exact (perform_fails_iff hs hsound hst k).trans (ask_fails_iff hst k).symm

end

open Interchange

/-- A row past the last, and bytes that are too few. -/
theorem checks_agree_matrix :
    let load : Foreign.Loader := fun _ => .ok []
    ∃ (p : Program Backends) (e : Engine Backends) (a : Tensor Backends),
      ReflTransGen (Program.Turn (openLibrary load) Operation.Sized) (.start .initial) p ∧
      p.session.arrays.get? 3 = some a ∧
      (∃ x s, (Operation.setBytes 3 [0]).perform e p.session = .error x s ∧ x.OfArguments) ∧
      ∃ x n, (Viewing.row 5).ask a.engine.library a.owned.handle p.session.native = .error x n := by
  intro load
  obtain ⟨p, hp, hengines, htest⟩ := Program.exists_turned (openLibrary load) Operation.Sized
    .initial (c := .standard) rfl [.create 2 ⟨[2, 3]⟩ .f32] (by simp [Operation.Sized])
    (fun s => (s.arrays.get? 3).any fun a : Tensor Backends => !a.owned.isReleased &&
      (match Viewing.perform 3 (.row 5) s with | .ok _ _ => false | .error _ _ => true) &&
      (match Session.setBytes 3 [0] s with | .ok _ _ => false | .error _ _ => true))
    (by decide +kernel)
  obtain ⟨e, -⟩ := List.exists_mem_of_ne_nil _ hengines
  obtain ⟨a, ha, hall⟩ := (Option.any_eq_true _ _).1 htest
  simp only [Bool.and_eq_true, Bool.not_eq_true'] at hall
  obtain ⟨⟨hopen, hrow⟩, hbytes⟩ := hall
  have hagree := checks_agree load hp
  refine ⟨p, e, a, hp, ha, ?_, ((hagree.2 3 a ha).2 hopen (.row 5)).1 ?_⟩
  · cases hr : Session.setBytes 3 [0] p.session with
    | ok x s => simp [hr] at hbytes
    | error x s => exact ⟨x, s, hr, hagree.1 _ e (.setBytes 3 [0]) x s hr⟩
  · cases hr : Viewing.perform 3 (.row 5) p.session with
    | ok x s => simp [hr] at hrow
    | error x s => exact ⟨x, s, rfl⟩

end ScopedTensor
