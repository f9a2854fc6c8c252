import ScopedTensor.Proofs.Agreement.Upkeep

/-! What the reference engine accepts, condition by condition: which views it makes of an array,
which host buffers fit one, and when an operator whose inputs fit is run. -/

namespace ScopedTensor

open ScopedTensor.Action

variable {half : HalfPrecision}

/-- A view that can be asked for. -/
inductive Viewing where
  | row (index : Nat)
  | slice (first last : Nat)
  | reshape (target : List Int)

namespace Viewing

variable {σ : Type}

def ask (lib : Library σ) (h : Handle) : Viewing → Action σ Handle
  | row index => lib.row h index
  | slice first last => lib.slice h first last
  | reshape target => lib.reshape h target false

def seen : Viewing → View → Except Error View
  | row index => Reference.rowOf index
  | slice first last => Reference.sliceOf first last
  | reshape target => Reference.reshapeOf target

/-- Arrays of the shape have no such view. -/
def Misses (s : Shape) : Viewing → Prop
  | row index => s.isScalar ∨ s.head ≤ index
  | slice first last => s.isScalar ∨ last ≤ first ∨ s.head < last
  | reshape target => (s.reshape? target).isNone

instance (k : Viewing) (s : Shape) : Decidable (k.Misses s) :=
  match k with
  | row index => inferInstanceAs (Decidable (s.isScalar ∨ s.head ≤ index))
  | slice first last => inferInstanceAs (Decidable (s.isScalar ∨ last ≤ first ∨ s.head < last))
  | reshape target => inferInstanceAs (Decidable ((s.reshape? target).isNone))

theorem ask_referenceLibrary (k : Viewing) (i gpus : Nat) (h : Handle) :
    k.ask (Backends.referenceLibrary i gpus) h = Backends.inPlace i (Reference.derive h k.seen) := by
  cases k <;> rfl

theorem exists_seen_iff (k : Viewing) (v : View) :
    (∃ w, k.seen v = .ok w) ↔ ¬ k.Misses v.shape := by
  obtain ⟨buffer, offset, ⟨dims⟩, type⟩ := v
  cases k with
  | row index =>
    cases dims with
    | nil => simp [seen, Misses, Reference.rowOf, Shape.isScalar]
    | cons n rest =>
      by_cases hn : n ≤ index <;>
        simp [seen, Misses, Reference.rowOf, Shape.isScalar, Shape.head, hn]
  | slice first last =>
    cases dims with
    | nil => simp [seen, Misses, Reference.sliceOf, Shape.isScalar]
    | cons n rest =>
      by_cases hn : last ≤ first ∨ n < last <;>
        simp [seen, Misses, Reference.sliceOf, Shape.isScalar, Shape.head, hn]
  | reshape target =>
    cases hr : Shape.reshape? ⟨dims⟩ target <;>
      simp [seen, Misses, Reference.reshapeOf, hr]

end Viewing

namespace Reference

open State

variable {gpus : Nat} {s t u : State} {h g v : Handle} {e d : Entry}

theorem derive_eq_ok {f : View → Except Error View} :
    derive h f s = .ok v t ↔ ∃ e w, s.entries.get? h.id = some e ∧ f e.view = .ok w ∧
      s.insert { e with view := w } = (v, t) := by
  refine transition_ok.trans ⟨fun hr => ?_, fun ⟨e, w, he, hw, hr⟩ => ?_⟩
  · obtain ⟨e, he, hr⟩ := bind_eq_ok.1 hr
    obtain ⟨w, hw, hr⟩ := bind_eq_ok.1 hr
    exact ⟨e, w, entry_eq_ok.1 he, hw, pure_eq_ok.1 hr⟩
  · exact bind_eq_ok.2 ⟨e, entry_eq_ok.2 he, bind_eq_ok.2 ⟨w, hw, pure_eq_ok.2 hr⟩⟩

theorem exists_derive_iff (he : s.entries.get? h.id = some e) (k : Viewing) :
    (∃ v t, derive h k.seen s = .ok v t) ↔ ¬ k.Misses e.view.shape := by
  rw [← k.exists_seen_iff]
  constructor
  · rintro ⟨v, t, hr⟩
    obtain ⟨e', w, he', hw, -⟩ := derive_eq_ok.1 hr
    obtain rfl : e' = e := Option.some.inj (he'.symm.trans he)
    exact ⟨w, hw⟩
  · rintro ⟨w, hw⟩
    exact ⟨_, _, derive_eq_ok.2 ⟨e, w, he, hw, rfl⟩⟩

theorem entryOf_eq (he : s.entries.get? h.id = some e) : entryOf h s = .ok e s :=
  query_ok.2 ⟨entry_eq_ok.2 he, rfl⟩

theorem viewOf_eq (he : s.entries.get? h.id = some e) : viewOf h s = .ok e.view s :=
  bind_of_ok (entryOf_eq he)

theorem copyIn_accepted (hs : s.Orderly) (he : s.entries.get? h.id = some e) {bytes : Bytes}
    (hbytes : bytes.length = e.view.type.storageBytes e.view.size) :
    ∃ t, copyIn h bytes e.view.size s = .ok ⟨⟩ t := by
  have hfits : ¬ (e.view.size ≠ e.view.size ∨ bytes.length ≠ e.view.size * e.view.type.bytes) := by
    rw [hbytes, ElementType.storageBytes, Nat.mul_comm]
    simp
  unfold copyIn
  rw [bind_of_ok (viewOf_eq he), if_neg hfits]
  exact ⟨_, hs.drain_bind _⟩

theorem copyOut_accepted [HalfPrecision] (hs : s.Orderly) (he : s.entries.get? h.id = some e) :
    copyOut h (e.view.type.storageBytes e.view.size) e.view.size s =
      .ok (e.view.type.encode (s.drained.memory.read e.view)) s.drained := by
  have hfits : ¬ (e.view.size ≠ e.view.size ∨
      e.view.type.storageBytes e.view.size ≠ e.view.size * e.view.type.bytes) := by
    rw [ElementType.storageBytes, Nat.mul_comm]
    simp
  unfold copyOut
  rw [bind_of_ok (viewOf_eq he), if_neg hfits]
  exact hs.drain_bind _

theorem wait_accepted (hs : s.Orderly) (he : s.entries.get? h.id = some e) :
    ∃ t, wait h s = .ok ⟨⟩ t := by
  have hwaiting : State.Orderly { s with waits := s.waits + 1 } := ⟨hs.tasks, hs.entries, hs.marks⟩
  unfold wait
  rw [bind_of_ok (entryOf_eq he)]
  exact ⟨_, (bind_of_ok (a := modify _) rfl).trans hwaiting.drain_eq⟩

theorem waitAll_accepted (hs : s.Orderly) : ∃ t, waitAll s = .ok ⟨⟩ t := by
  have hwaiting : State.Orderly { s with waitAlls := s.waitAlls + 1 } :=
    ⟨hs.tasks, hs.entries, hs.marks⟩
  exact ⟨_, (bind_of_ok (a := modify _) rfl).trans hwaiting.drain_eq⟩

def Entry.signature (e : Entry) : Signature := ⟨e.view.shape, e.view.type⟩

section Operators

variable {op : Operator} {inputs hs : List Handle} {outputs : Option (List Handle)}
variable {params : Params} {task : Task} {entries : List Entry} {sig : Signature}

theorem invoke_of_submit (h : submit gpus s op inputs outputs params = .ok (hs, task, t)) :
    invoke .deferred gpus ⟨op.number⟩ inputs outputs params s = .ok hs (t.enqueue task) := by
  have hnumber : operatorOf ⟨op.number⟩ = .ok op := by
    unfold operatorOf
    rw [Operator.ofNumber?_number]
  have hhanded : handIn gpus ⟨op.number⟩ inputs outputs params s = .ok (hs, task, t) :=
    bind_eq_ok.2 ⟨op, hnumber, h⟩
  have haccepted : accept gpus ⟨op.number⟩ inputs outputs params s = .ok (hs, t.enqueue task) :=
    map_eq_ok.2 ⟨_, hhanded, rfl⟩
  rw [invoke_eq]
  exact bind_of_ok (transition_ok.2 haccepted)

theorem submit_of_outputs {outs : List (Handle × View)} {inferred : List Signature}
    (hentries : inputs.mapM s.entry = .ok entries)
    (hinferred : op.infer (entries.map Entry.signature) params = .ok inferred)
    (houts : outputsOf gpus s op entries inferred outputs params = .ok (outs, t)) :
    ∃ task u, submit gpus s op inputs outputs params = .ok (outs.map Prod.fst, task, u) ∧
      u.entries = t.entries ∧ u.lastId = t.lastId :=
  ⟨_, _, bind_eq_ok.2 ⟨entries, hentries, bind_eq_ok.2 ⟨inferred, hinferred,
    bind_eq_ok.2 ⟨(outs, t), houts, rfl⟩⟩⟩, rfl, rfl⟩

theorem invoke_makes (hentries : inputs.mapM s.entry = .ok entries)
    (hinferred : op.infer (entries.map Entry.signature) params = .ok [sig])
    (hdevice : checkDevice gpus (outputDevice entries params) = .ok ()) :
    ∃ h t, invoke .deferred gpus ⟨op.number⟩ inputs none params s = .ok [h] t ∧
      t.Vouches h .shape (.shape sig.shape) := by
  have hall : ∀ o ∈ (allocateAll (outputDevice entries params) [sig] s).1,
      (allocateAll (outputDevice entries params) [sig] s).2.Vouches o.1 .shape (.shape sig.shape) :=
    fun o ho => vouches_allocateAll (.dense sig.shape sig.type (outputDevice entries params)) rfl
      (fun _ h => List.mem_singleton.1 h) s o ho .shape
  have houts : outputsOf gpus s op entries [sig] none params =
      .ok (allocateAll (outputDevice entries params) [sig] s) := bind_eq_ok.2 ⟨⟨⟩, hdevice, rfl⟩
  obtain ⟨h, v, u, hmade⟩ : ∃ h v u,
      allocateAll (outputDevice entries params) [sig] s = ([(h, v)], u) := ⟨_, _, _, rfl⟩
  rw [hmade] at hall houts
  obtain ⟨task, w, hsubmit, hsame, hlast⟩ := submit_of_outputs hentries hinferred houts
  have hvouches : (w.enqueue task).Vouches h .shape (.shape sig.shape) :=
    (hall (h, v) List.mem_cons_self).numbers (.of_eq hlast hsame)
  exact ⟨h, _, invoke_of_submit hsubmit, hvouches⟩

theorem invoke_copies [HalfPrecision] (gpus : Nat) (he : s.entries.get? h.id = some e)
    (hd : s.entries.get? g.id = some d) (hsize : d.view.size = e.view.size) :
    ∃ tape, invoke .deferred gpus ⟨Operator.copyTo.number⟩ [h] (some [g]) .empty s =
      .ok [g] (State.enqueue { s with tape } ⟨.copyTo, .empty, [e.view], [d.view]⟩) := by
  have hentries : [h].mapM s.entry = .ok [e] := mapM_eq_ok.2 (.cons (entry_eq_ok.2 he) .nil)
  have hgiven : givenOutputs s .copyTo [g] [e.signature] = .ok [(g, d.view)] := by
    unfold givenOutputs
    rw [if_neg (by simp)]
    refine mapM_eq_ok.2 (.cons (bind_eq_ok.2 ⟨d, entry_eq_ok.2 hd, ?_⟩) .nil)
    exact if_neg (not_not.2 hsize)
  have houts : outputsOf gpus s .copyTo [e] [e.signature] (some [g]) .empty =
      .ok ([(g, d.view)], s) := bind_eq_ok.2 ⟨_, hgiven, rfl⟩
  have hinferred : Operator.copyTo.infer [e.signature] .empty = .ok [e.signature] := rfl
  have hsubmit : submit gpus s .copyTo [h] (some [g]) .empty =
      .ok ([g], ⟨.copyTo, .empty, [e.view], [d.view]⟩,
        { s with tape := s.tape.record (nodeOf .copyTo .empty [h] [e] [(g, d.view)]) }) :=
    bind_eq_ok.2 ⟨[e], hentries, bind_eq_ok.2 ⟨[e.signature], hinferred,
      bind_eq_ok.2 ⟨([(g, d.view)], s), houts, rfl⟩⟩⟩
  exact ⟨_, invoke_of_submit hsubmit⟩

end Operators

theorem markVariables_accepted (he : s.entries.get? h.id = some e) (hg : s.entries.get? g.id = some d)
    (hshape : d.view.shape = e.view.shape) (request : GradRequest) :
    ∃ t, markVariables [h] [request] [g] s = .ok ⟨⟩ t := by
  have hone : markOne h request g s =
      .ok ⟨⟩ { s with tape := s.tape.mark h.id ⟨request, d.view⟩ } := by
    refine transition_ok.2 (bind_eq_ok.2 ⟨e, entry_eq_ok.2 he, bind_eq_ok.2 ⟨d,
      entry_eq_ok.2 hg, ?_⟩⟩)
    exact if_neg (not_not.2 hshape)
  exact ⟨_, bind_of_ok hone⟩

theorem getGrad_accepted (he : s.entries.get? h.id = some e) : ∃ g t, getGrad h s = .ok g t := by
  cases hm : s.tape.marks.get? h.id with
  | none =>
    refine ⟨none, s, transition_ok.2 (bind_eq_ok.2 ⟨e, entry_eq_ok.2 he, ?_⟩)⟩
    simp only [hm]
    rfl
  | some m =>
    have hmade : getGrad h s = .ok (some (s.insert ⟨m.gradient, e.device, .dense⟩).1)
        (s.insert ⟨m.gradient, e.device, .dense⟩).2 := by
      refine transition_ok.2 (bind_eq_ok.2 ⟨e, entry_eq_ok.2 he, ?_⟩)
      simp only [hm]
      rfl
    exact ⟨_, _, hmade⟩

end Reference
end ScopedTensor
