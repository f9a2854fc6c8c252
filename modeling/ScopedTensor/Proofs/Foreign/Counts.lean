import ScopedTensor.Proofs.Foreign.Widths

/-! Lists on their way into a foreign engine, whose functions take a count and a place in memory,
one count for lists that go together. The lists arrive as the caller gives them. Their counts are
right as long as a word can hold them and there are as many head gradients as heads, or none; and
what the engine allocates reaches the caller unless an empty list of outputs was given. -/

namespace ScopedTensor

open Foreign

namespace Foreign

/-- An entry of a list that is passed. -/
inductive Item where
  | natural (n : Nat)
  | integer (i : Int)
  | handle (h : Handle)
  | text (s : String)
  deriving DecidableEq

/-- As many entries as are counted, or no list at all. -/
def Listing.Exact {α : Type} (l : Listing α) : Prop :=
  ∀ xs, l.entries = some xs → l.count = xs.length

/-- The list has these entries; only an empty one may be missing. -/
def Listing.Holds {α : Type} (l : Listing α) (xs : List α) : Prop :=
  l.entries = some xs ∨ l.entries = none ∧ xs = []

def signed (n : Nat) : Int := Int.bmod n word

namespace Call

/-- The lists of a call, each with the count that its function reads for it. Some functions count
in signed words. -/
def listings : Call → List (Listing Item)
  | create dims rank _ _ _ => [⟨rank, some (dims.map .natural)⟩]
  | createSparse _ dims rank _ _ _ n types ranks auxiliaryDims =>
    [⟨rank, some (dims.map .natural)⟩, ⟨n, some (types.map .integer)⟩,
      ⟨n, some (ranks.map .natural)⟩, ⟨n, some (auxiliaryDims.map .natural)⟩]
  | reshape _ rank dims _ => [⟨signed rank, some (dims.map .integer)⟩]
  | invoke _ inputCount inputs outputCount outputs paramCount keys values =>
    [⟨signed inputCount, some (inputs.map .handle)⟩,
      ⟨signed outputCount, outputs.map fun hs => hs.map .handle⟩,
      ⟨signed paramCount, some (keys.map .text)⟩, ⟨signed paramCount, some (values.map .text)⟩]
  | markVariables count vars requests gradients =>
    [⟨count, some (vars.map .handle)⟩, ⟨count, some (requests.map .natural)⟩,
      ⟨count, some (gradients.map .handle)⟩]
  | backward count heads headGradients _ _ =>
    [⟨count, some (heads.map .handle)⟩, ⟨count, headGradients.map fun gs => gs.map .handle⟩]
  | _ => []

def Allocates : Call → Prop
  | invoke _ _ _ _ outputs _ _ _ => outputs = none
  | _ => False

def allocated : (c : Call) → c.Out → List Handle
  | invoke _ _ _ _ none _ _ _, produced => Listing.toList produced
  | _, _ => []

end Call
end Foreign

namespace Library.Call

def lists : Call → List (List Item)
  | create _ s _ .dense _ => [s.dims.map .natural]
  | create _ s _ sparse _ =>
    let n := sparse.auxiliaryCount
    [s.dims.map .natural, List.replicate n (.integer indexType), List.replicate n (.natural 1),
      List.replicate n (.natural 0)]
  | reshape _ dims _ => [dims.map .integer]
  | invoke _ inputs outputs params =>
    [inputs.map .handle, (outputs.getD []).map .handle, params.native.1.map .text,
      params.native.2.map .text]
  | markVariables vars requests gradients =>
    [vars.map .handle, (requests.map GradRequest.code).map .natural, gradients.map .handle]
  | backward heads headGradients _ _ =>
    [heads.map .handle, (headGradients.map fun g => g.getD ⟨0⟩).map .handle]
  | _ => []

/-- Lists that a word can count, with as many head gradients as heads or none. -/
def Tallied : Call → Prop
  | create _ s _ _ _ => s.dims.length < word
  | reshape _ dims _ => dims.length < half
  | invoke _ inputs outputs params =>
    inputs.length < half ∧ (outputs.getD []).length < half ∧ params.native.1.length < half
  | markVariables vars _ _ => vars.length < word
  | backward heads headGradients _ _ =>
    heads.length < word ∧ (headGradients = [] ∨ headGradients.length = heads.length)
  | _ => True

end Library.Call

namespace Foreign

section Counts

variable {α β : Type} {n : Int} {xs : List α} {f : α → β}

theorem exact_none : (⟨n, none⟩ : Listing α).Exact := nofun

theorem exact_some : (⟨n, some xs⟩ : Listing α).Exact ↔ n = xs.length := by
  constructor
  · exact fun h => h xs rfl
  · rintro h _ ⟨⟩
    exact h

theorem counted_iff : counted xs = xs.length ↔ xs.length < word := mod_word_iff xs.length

theorem signed_counted_iff : signed (counted xs) = xs.length ↔ xs.length < half := by
  unfold signed counted
  rw [Int.natCast_emod, Int.emod_bmod]
  exact bmod_word_iff xs.length

theorem exact_optional :
    (⟨n, (if xs.isEmpty then none else some xs).map fun ys => ys.map f⟩ : Listing β).Exact ↔
      xs = [] ∨ n = xs.length := by
  cases xs with
  | nil => exact iff_of_true exact_none (.inl rfl)
  | cons x xs =>
    change (⟨n, some ((x :: xs).map f)⟩ : Listing β).Exact ↔ _
    rw [exact_some, List.length_map]
    exact (or_iff_right nofun).symm

theorem holds_optional :
    (⟨n, (if xs.isEmpty then none else some xs).map fun ys => ys.map f⟩ : Listing β).Holds
      (xs.map f) := by
  cases xs with
  | nil => exact .inr ⟨rfl, rfl⟩
  | cons x xs => exact .inl rfl

end Counts

variable {σ : Type} (host : Host σ) (c : Library.Call) (s : σ)

theorem holds_exchange :
    List.Forall₂ Listing.Holds (exchange c).call.listings c.lists := by
  have hall {l : List Item} {n : Int} : (⟨n, some l⟩ : Listing Item).Holds l := .inl rfl
  cases c with
  | create device shape type storage delayed =>
    cases storage with
    | dense => exact .cons hall .nil
    | rowSparse | csr => exact .cons hall (.cons hall (.cons hall (.cons hall .nil)))
  | invoke op inputs outputs params =>
    exact .cons hall (.cons holds_optional (.cons hall (.cons hall .nil)))
  | reshape h dims reverse => exact .cons hall .nil
  | markVariables vars requests gradients => exact .cons hall (.cons hall (.cons hall .nil))
  | backward heads headGradients retain training => exact .cons hall (.cons holds_optional .nil)
  | _ => exact .nil

theorem exact_exchange_iff (h : c.Fit) :
    (∀ l ∈ (exchange c).call.listings, l.Exact) ↔ c.Tallied := by
  cases c with
  | create device shape type storage delayed =>
    cases storage with
    | dense | rowSparse | csr =>
      simp only [exchange, Call.listings, Library.Call.Tallied, List.forall_mem_cons, exact_some,
        Int.natCast_inj]
      simp [counted_iff]
  | reshape h dims reverse =>
    simp [exchange, Call.listings, Library.Call.Tallied, exact_some, signed_counted_iff]
  | invoke op inputs outputs params =>
    have hempty : outputs.getD [] = [] → (outputs.getD []).length < half := by
      intro h
      rw [h]
      exact Nat.two_pow_pos 31
    simp only [exchange, Call.listings, Library.Call.Tallied, List.forall_mem_cons, exact_some,
      exact_optional, List.length_map, ← params.length_native, signed_counted_iff,
      or_iff_right_of_imp hempty]
    simp
  | markVariables vars requests gradients =>
    obtain ⟨hrequests, hgradients⟩ := h
    simp only [exchange, Call.listings, Library.Call.Tallied, List.forall_mem_cons, exact_some,
      List.length_map, ← hrequests, ← hgradients, Int.natCast_inj, counted_iff]
    simp
  | backward heads headGradients retain training =>
    simp only [exchange, Call.listings, Library.Call.Tallied, List.forall_mem_cons, exact_some,
      exact_optional, List.length_map, List.map_eq_nil_iff, Int.natCast_inj, counted_iff]
    refine and_congr_right fun hheads => ?_
    rw [counted_iff.2 hheads, eq_comm (a := heads.length)]
    simp
  | _ => exact iff_of_true nofun trivial

/-- Whatever outputs the engine allocates, the caller gets their handles. -/
def Delivers : Prop :=
  ∀ h ∈ (exchange c).call.allocated (host.call (exchange c).call s).1.out,
    ∃ hs, c.reply (library host) s = .ok (.handles hs) ∧ h ∈ hs

variable {c} {s} {op : OpHandle} {inputs : List Handle} {outputs : Option (List Handle)}
variable {params : Params}

theorem allocates_iff :
    (exchange (.invoke op inputs outputs params)).call.Allocates ↔ outputs.getD [] = [] := by
  change (if (outputs.getD []).isEmpty then none else some (outputs.getD [])) = none ↔ _
  cases outputs.getD [] with
  | nil => exact iff_of_true rfl rfl
  | cons h hs => exact iff_of_false nofun nofun

theorem reply_of_success (h : c.Fit) (hstatus : (host.call (exchange c).call s).1.status = 0) :
    c.reply (library host) s =
      (exchange c).conclude (host.call (exchange c).call s).1.out := by
  have hrun : (exchange c).run host s =
      Action.ofExcept ((exchange c).conclude (host.call (exchange c).call s).1.out)
        (host.call (exchange c).call s).2 :=
    Action.bind_of_ok (ask_of_success host hstatus)
  unfold Library.Call.reply
  rw [perform_of_fit host h, hrun]
  cases (exchange c).conclude (host.call (exchange c).call s).1.out <;> rfl

theorem reply_invoke (hc : c = .invoke op inputs outputs params) (h : c.Fit)
    (hstatus : (host.call (exchange c).call s).1.status = 0) :
    c.reply (library host) s = .ok (.handles (outputs.getD
      ((exchange c).call.allocated (host.call (exchange c).call s).1.out))) := by
  rw [reply_of_success host h hstatus]
  subst hc
  match outputs with
  | none | some [] | some (_ :: _) => rfl

theorem delivers_iff (hc : c = .invoke op inputs outputs params) (h : c.Fit)
    (hstatus : (host.call (exchange c).call s).1.status = 0) :
    Delivers host c s ↔ (outputs = some [] →
      (exchange c).call.allocated (host.call (exchange c).call s).1.out = []) := by
  unfold Delivers
  rw [reply_invoke host hc h hstatus]
  subst hc
  match outputs with
  | none => exact iff_of_true (fun h hh => ⟨_, rfl, hh⟩) nofun
  | some [] =>
    constructor
    · intro hall _
      refine List.eq_nil_iff_forall_not_mem.2 fun h hh => ?_
      obtain ⟨_, ⟨⟩, hmem⟩ := hall h hh
      exact List.not_mem_nil hmem
    · intro hnone h hh
      rw [hnone rfl] at hh
      exact absurd hh List.not_mem_nil
  | some (_ :: _) => exact iff_of_true nofun nofun

/-- Of every call that is made each list arrives with its entries in order, parameters in their
textual form. All counts are right exactly if words can hold them and the head gradients are none or
as many as the heads. The engine allocates outputs exactly if no output is given; the caller gets
their handles, unless it gave an empty list and gets none back. -/
theorem lists_counted (host : Host σ) (c : Library.Call) (s : σ) :
    let question := (exchange c).call
    let answer := (host.call question s).1
    (∀ call, .call call ∈ asked host c s ↔ c.Fit ∧ call = question) ∧
    List.Forall₂ Listing.Holds question.listings c.lists ∧
    (c.Fit → ((∀ l ∈ question.listings, l.Exact) ↔ c.Tallied)) ∧
    ∀ op inputs outputs params, c = .invoke op inputs outputs params →
      (question.Allocates ↔ outputs.getD [] = []) ∧
      (c.Fit → answer.status = 0 →
        c.reply (library host) s =
          .ok (.handles (outputs.getD (question.allocated answer.out))) ∧
        (Delivers host c s ↔ (outputs = some [] → question.allocated answer.out = []))) := by
  refine ⟨call_mem_asked host c s, holds_exchange c, exact_exchange_iff c, ?_⟩
  intro op inputs outputs params hc
  refine ⟨by rw [hc]; exact allocates_iff, fun hfit hstatus => ?_⟩
  exact ⟨reply_invoke host hc hfit hstatus, delivers_iff host hc hfit hstatus⟩

/-- Two heads are counted where one head gradient is passed, and an output that the engine allocates
for an empty list is lost. -/
theorem lists_miscounted :
    let script : Script := { Script.empty with replies := [{ Reply.silent with handles := some [7] }] }
    let c : Library.Call := .invoke ⟨1⟩ [⟨1⟩] (some []) .empty
    asked Script.host (.backward [⟨5⟩, ⟨6⟩] [some ⟨7⟩] false true) .empty =
      [.call (.backward 2 [⟨5⟩, ⟨6⟩] (some [⟨7⟩]) false true)] ∧
    ¬ (∀ l ∈ (Call.backward 2 [⟨5⟩, ⟨6⟩] (some [⟨7⟩]) false true).listings, l.Exact) ∧
    asked Script.host c script = [.call (.invoke ⟨1⟩ 1 [⟨1⟩] 0 none 0 [] [])] ∧
    c.reply (library Script.host) script = .ok (.handles []) ∧
    ¬ Delivers Script.host c script := by
  intro script c
  refine ⟨rfl, fun h => ?_, rfl, rfl, fun h => ?_⟩
  · have hgradients := h ⟨2, some [.handle ⟨7⟩]⟩ (List.mem_cons_of_mem _ List.mem_cons_self)
    exact absurd (hgradients _ rfl) (by decide)
  · obtain ⟨_, ⟨⟩, hmem⟩ := h ⟨7⟩ (List.mem_singleton.2 rfl)
    exact List.not_mem_nil hmem

end Foreign
end ScopedTensor
