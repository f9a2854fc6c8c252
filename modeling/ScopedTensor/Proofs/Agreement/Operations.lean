import ScopedTensor.Proofs.Agreement.Contents
import ScopedTensor.Proofs.Agreement.Operators

/-! Operations that check their arguments before they call the engine. What passes is accepted
there, so none of them ever fails because of the engine. -/

namespace ScopedTensor

open ScopedTensor.Action Session Backends Relation

variable {half : HalfPrecision}
variable {gpus : Nat → Nat} {W : Watch Backends} {s t : Session Backends}
variable {id : ArrayId} {a : Tensor Backends} {h : Handle} {i : Nat} {e : Reference.Entry}

namespace Viewing

variable {σ : Type}

def perform (id : ArrayId) : Viewing → Action (Session σ) ArrayId
  | row index => Session.row id index
  | slice first last => Session.slice id first last
  | reshape target => Session.reshape id target

def refusal (s : Shape) : Viewing → Refusal
  | row index => .index index s
  | slice first last => .range first last s
  | reshape target => .reshape s target

def attempt (k : Viewing) (id : ArrayId) : Action (Session σ) ArrayId := do
  let s ← Session.shape id
  if k.Misses s then throw (.invalid (k.refusal s))
  view id fun lib h => k.ask lib h

theorem perform_eq (k : Viewing) (id : ArrayId) :
    (k.perform id : Action (Session σ) ArrayId) = keeping (k.attempt id) := by
  cases k <;> rfl

end Viewing

theorem Readiness.wait_ok {σ : Type} (r : Readiness) {call : Action σ Unit} {s t : σ}
    (h : call s = .ok ⟨⟩ t) : ∃ r' t, r.wait call s = .ok r' t := by
  unfold Readiness.wait
  split
  · exact ⟨r, s, rfl⟩
  · exact ⟨.marked, t, bind_of_ok h⟩

namespace Session

theorem Stands.ask_iff (hst : Stands gpus s id h i e) (k : Viewing) :
    (∃ v n, k.ask (referenceLibrary i (gpus i)) h s.native = .ok v n) ↔
      ¬ k.Misses e.view.shape := by
  rw [k.ask_referenceLibrary, ← Reference.exists_derive_iff hst.entry k]
  constructor
  · rintro ⟨v, n, hasked⟩
    obtain ⟨m, hmade, -⟩ := inPlace_ok.1 hasked
    exact ⟨v, m, hmade⟩
  · rintro ⟨v, m, hmade⟩
    exact ⟨v, _, inPlace_ok.2 ⟨m, hmade, rfl⟩⟩

theorem checks_viewing (k : Viewing) (id : ArrayId) :
    Checks (InStep gpus W) (k.perform id) fun _ _ => True := by
  rw [k.perform_eq]
  refine checks_keeping (.of_state fun s hs => Checks.start ?_ hs.reads)
  refine (reads_shape hs id).bind_fact fun y hy => .guard (.invalid _) fun hfits => ?_
  refine (reads_handle hs id).bind_fact fun h ⟨i, e, hst⟩ => ?_
  obtain ⟨v, m, hasked⟩ := (hst.ask_iff k).2 (hst.shape_eq hy ▸ hfits)
  exact Checks.bind (reads_callFor hst hasked) fun v => checks_joinScope id v none

theorem checks_unary {op : Operator} {params : Params}
    (hinfer : ∀ sig : Signature, ∃ sig', op.infer [sig] params = .ok [sig']) (id : ArrayId) :
    Checks (InStep gpus W) (unary op.name params id) fun _ _ => True := by
  refine checks_keeping (.of_state fun s hs => Checks.start ?_ hs.reads)
  refine (reads_outputOf (C := fun _ => True) hs id fun i entries hentries => ?_).imp
    (fun _ ht => ht) fun _ _ _ => trivial
  obtain ⟨e, -, rfl⟩ := forall₂_singleton_left hentries
  obtain ⟨sig, hsig⟩ := hinfer e.signature
  exact ⟨sig, hsig, trivial⟩

theorem checks_arithmetic (f : Arithmetic) (a b : ArrayId) :
    Checks (InStep gpus W) (arithmetic (Operator.pairwise f).name a b) fun _ _ => True := by
  refine checks_keeping (.of_state fun s hs => Checks.start ?_ hs.reads)
  refine (reads_shape hs a).bind_fact fun y hy => (reads_shape hs b).bind_fact fun y' hy' => ?_
  refine .guard (.invalid _) fun hshape => ?_
  refine (reads_type hs a).bind_fact fun z hz => (reads_type hs b).bind_fact fun z' hz' => ?_
  refine .guard (.invalid _) fun htype => ?_
  refine (reads_outputOf (C := fun _ => True) hs a fun i entries hentries => ?_).imp
    (fun _ ht => ht) fun _ _ _ => trivial
  obtain ⟨d, _, ⟨g, hd⟩, hrest, rfl⟩ := List.forall₂_cons_left_iff.1 hentries
  obtain ⟨e, ⟨h, he⟩, rfl⟩ := forall₂_singleton_left hrest
  have hsame : d.view.shape = e.view.shape := by
    rw [hd.shape_eq hy, he.shape_eq hy', not_not.1 hshape]
  have halike : d.view.type = e.view.type := by
    rw [hd.type_eq hz, he.type_eq hz', not_not.1 htype]
  refine ⟨d.signature, ?_, trivial⟩
  simp [Operator.infer, Reference.Entry.signature, hsame, halike]

theorem checks_markReady {P : Session Backends → Prop} (id : ArrayId) :
    Checks P (markReady id) fun _ _ => True := checks_modifyArray id _

theorem checks_setBytes (id : ArrayId) (bytes : Bytes) :
    Checks (InStep gpus W) (setBytes id bytes) fun _ _ => True := by
  refine .of_state fun s hs => Checks.start ?_ hs.reads
  refine (reads_size hs id).bind_fact fun n ⟨y, hn, hy⟩ => (reads_type hs id).bind_fact fun z hz => ?_
  refine .guard (.invalid _) fun hlength => (reads_handle hs id).bind_fact fun h ⟨i, e, hst⟩ => ?_
  obtain rfl : e.view.shape = y := hst.shape_eq hy
  obtain rfl : e.view.type = z := hst.type_eq hz
  subst hn
  obtain ⟨u, hu⟩ := Reference.copyIn_accepted (hs.maintained.orderly i) hst.entry (not_not.1 hlength)
  have hcopied : (referenceLibrary i (gpus i)).copyIn h bytes e.view.size s.native = _ :=
    inPlace_ok.2 ⟨u, hu, rfl⟩
  exact Checks.bind (reads_callFor hst hcopied) fun _ => checks_markReady id

theorem checks_toBytes (id : ArrayId) : Checks (InStep gpus W) (toBytes id) fun _ _ => True := by
  refine .of_state fun s hs => Checks.start ?_ hs.reads
  refine (reads_size hs id).bind_fact fun n ⟨y, hn, hy⟩ => (reads_type hs id).bind_fact fun z hz => ?_
  refine (reads_handle hs id).bind_fact fun h ⟨i, e, hst⟩ => ?_
  obtain rfl : e.view.shape = y := hst.shape_eq hy
  obtain rfl : e.view.type = z := hst.type_eq hz
  subst hn
  have hout := Reference.copyOut_accepted (hs.maintained.orderly i) hst.entry
  have hcopied : (referenceLibrary i (gpus i)).copyOut h
      (e.view.type.storageBytes e.view.size) e.view.size s.native = _ := inPlace_ok.2 ⟨_, hout, rfl⟩
  refine Checks.bind (reads_callFor hst hcopied) fun bytes => ?_
  exact (checks_markReady id).bind fun _ => checks_pure fun _ _ => trivial

theorem checks_type_bind {α : Type} {f : ElementType → Action (Session Backends) α} (id : ArrayId)
    (hf : ∀ t, Checks (InStep gpus W) (f t) fun _ _ => True) :
    Checks (InStep gpus W) (type id >>= f) fun _ _ => True := by
  refine .of_state fun s hs => Checks.start ?_ hs.reads
  exact (reads_type hs id).bind fun t => (hf t).imp (fun _ ht => ht.1.inStep) fun _ _ ht => ht

theorem checks_set (id : ArrayId) (t : HostType) (values : List (HostValue t)) :
    Checks (InStep gpus W) (set id t values) fun _ _ => True :=
  checks_type_bind id fun _ => .guard (.typeMismatch _ _) fun _ => checks_setBytes id _

theorem checks_toValues (id : ArrayId) (t : HostType) :
    Checks (InStep gpus W) (toValues id t) fun _ _ => True :=
  checks_type_bind id fun _ => .guard (.typeMismatch _ _) fun _ =>
    (checks_toBytes id).bind fun _ => checks_pure fun _ _ => trivial

theorem checks_toDoubles (id : ArrayId) : Checks (InStep gpus W) (toDoubles id) fun _ _ => True :=
  checks_type_bind id fun _ => (checks_toBytes id).bind fun _ => checks_pure fun _ _ => trivial

theorem checks_dump (id : ArrayId) : Checks (InStep gpus W) (dump id) fun _ _ => True := by
  refine .of_state fun s hs => Checks.start ?_ hs.reads
  refine (reads_shape hs id).bind_fact fun y hy => (reads_type hs id).bind_fact fun z hz => ?_
  refine (reads_device hs id).bind_fact fun d _ => ?_
  split
  · exact checks_pure fun _ _ => trivial
  · refine (reads_handle hs id).bind_fact fun h ⟨i, e, hst⟩ => ?_
    have hshape : e.view.shape = y := hst.shape_eq hy
    have htype : e.view.type = z := hst.type_eq hz
    have hnumbered := numbered_tended hs.tended i hst.place
    have hretained : Retains i (s.native.reference i) s.native :=
      ⟨hst.place, hs.maintained.orderly i, hnumbered, Nat.le_refl _, fun _ _ => rfl⟩
    have hshown := Dump.shows_level (i := i) (n := gpus i) z y.dims 0 hnumbered hst.entry htype hshape
    obtain ⟨text, n, hlevel, -⟩ := hshown.ok hretained
    exact Checks.bind (reads_callFor hst hlevel) fun _ => checks_pure fun _ _ => trivial

theorem reads_waitBy (hst : Stands gpus s id h i e)
    {wait : Readiness → Library Backends → Action Backends Readiness}
    (hwait : ∀ r, ∃ r' n, wait r (referenceLibrary i (gpus i)) s.native = .ok r' n) :
    Checks (Reads gpus W s) (waitBy wait id) fun _ _ => True := by
  refine (reads_array id).bind_fact fun a _ => ?_
  obtain ⟨r, n, hr⟩ := hwait a.readiness
  exact Checks.bind (reads_callFor hst hr) fun _ => checks_modifyArray id _

theorem checks_wait (wait : Library Backends → Handle → Action Backends Unit)
    (hwait : ∀ i n h, wait (referenceLibrary i n) h = inPlace i (Reference.wait h)) (id : ArrayId) :
    Checks (InStep gpus W) (do
      let h ← handle id
      waitBy (fun r lib => r.wait (wait lib h)) id) fun _ _ => True := by
  refine .of_state fun s hs => Checks.start ?_ hs.reads
  refine (reads_handle hs id).bind_fact fun h ⟨i, e, hst⟩ => reads_waitBy hst fun r => ?_
  obtain ⟨n, hn⟩ := Reference.wait_accepted (hs.maintained.orderly i) hst.entry
  exact Readiness.wait_ok r (hwait i (gpus i) h ▸ inPlace_ok.2 ⟨n, hn, rfl⟩)

theorem checks_waitToRead (id : ArrayId) : Checks (InStep gpus W) (waitToRead id) fun _ _ => True :=
  checks_wait Library.waitToRead (fun _ _ _ => rfl) id

theorem checks_waitToWrite (id : ArrayId) :
    Checks (InStep gpus W) (waitToWrite id) fun _ _ => True :=
  checks_wait Library.waitToWrite (fun _ _ _ => rfl) id

theorem checks_waitAll (id : ArrayId) : Checks (InStep gpus W) (waitAll id) fun _ _ => True := by
  refine .of_state fun s hs => Checks.start ?_ hs.reads
  refine (reads_handle hs id).bind_fact fun h ⟨i, e, hst⟩ => reads_waitBy hst fun r => ?_
  obtain ⟨n, hn⟩ := Reference.waitAll_accepted (hs.maintained.orderly i)
  have hwaited : (referenceLibrary i (gpus i)).waitAll s.native = _ := inPlace_ok.2 ⟨n, hn, rfl⟩
  exact ⟨.marked, _, bind_of_ok hwaited⟩

end Session
end ScopedTensor
