import ScopedTensor.Element.Interchange
import ScopedTensor.Proofs.Delivery.Deliveries
import ScopedTensor.Proofs.Passes.Failures

/-! Backward passes that are made again. A pass that keeps the tape does what one that drops it does.
If what it writes is none of what it reads, and nothing is added up, the next one over the same tape
finds the same gradients and leaves everything as it is. -/

namespace ScopedTensor

open Binary

variable {m m' : Memory} {nodes : List Node}

theorem Node.visit_congr {n : Node} (h : ∀ i ∈ n.inputs ++ n.outputs, m'.read i.view = m.read i.view)
    (gs : Gradients) : n.visit m' gs = n.visit m gs := by
  have hoperand : ∀ i ∈ n.inputs ++ n.outputs, i.operand m' = i.operand m := by
    intro i hi
    unfold Tracked.operand
    rw [h i hi]
  unfold visit contributions
  rw [List.map_congr_left fun i hi => hoperand i (List.mem_append_left _ hi),
    List.map_congr_left fun i hi => hoperand i (List.mem_append_right _ hi)]

theorem Tape.gradients_congr
    (h : ∀ n ∈ nodes, ∀ i ∈ n.inputs ++ n.outputs, m'.read i.view = m.read i.view)
    (seeds : List (Nat × Values)) :
    Tape.gradients m' nodes seeds = Tape.gradients m nodes seeds := by
  induction nodes with
  | nil => rfl
  | cons n rest ih =>
    rw [Tape.gradients_cons, Tape.gradients_cons, ih fun n hn => h n (List.mem_cons_of_mem _ hn)]
    exact bind_congr fun gs => Node.visit_congr (h n List.mem_cons_self) gs

namespace Reference

open ScopedTensor.Action State Library

section

variable {half : HalfPrecision}
variable {gpus : Nat} {s t : State} {heads : List Handle} {headGradients : List (Option Handle)}

theorem seedsOf_congr (he : t.entries = s.entries)
    (hread : ∀ g, some g ∈ headGradients → ∀ k, s.entry g = .ok k →
      t.memory.read k.view = s.memory.read k.view) :
    seedsOf t heads headGradients = seedsOf s heads headGradients := by
  have hentry : ∀ h, t.entry h = s.entry h := by
    intro h
    unfold State.entry
    rw [he]
  refine congrArg (heads.zipIdx.mapM ·) (funext fun ⟨head, i⟩ => ?_)
  simp only
  unfold seedOf
  rw [hentry head]
  refine bind_congr fun e => ?_
  cases hg : headGradients[i]?.join with
  | none => rfl
  | some g =>
    simp only [hentry g]
    cases hk : s.entry g with
    | error x => rfl
    | ok k =>
      have hmem : some g ∈ headGradients :=
        List.mem_of_getElem? (Option.join_eq_some_iff.1 hg)
      change (if (t.memory.read k.view).length ≠ e.view.size then _ else _) = _
      rw [hread g hmem k hk]
      rfl

theorem State.Bounded.seedable_iff (hs : s.Bounded) : s.Seedable heads headGradients ↔
    ∃ seeds, seedsOf s.drained heads headGradients = .ok seeds := by
  refine ⟨fun h => h.exists_seeds hs, fun ⟨seeds, hseeds⟩ i head hi => ?_⟩
  have hmem : (head, i) ∈ heads.zipIdx := List.mem_zipIdx_iff_getElem?.2 hi
  obtain ⟨seed, hseed⟩ := isOk_of_mapM_eq_ok hseeds hmem
  obtain ⟨e, he, hseed⟩ := bind_eq_ok.1 hseed
  refine ⟨e, he, fun g hg => ?_⟩
  simp only [hg, Option.join_some] at hseed
  obtain ⟨k, hk, hseed⟩ := bind_eq_ok.1 hseed
  have hlength : (s.drained.memory.read k.view).length = k.view.size :=
    hs.length_contents (.entry (entry_eq_ok.1 hk))
  refine ⟨k, hk, ?_⟩
  by_contra hne
  rw [← hlength] at hne
  rw [if_pos hne] at hseed
  exact absurd hseed nofun

section Calls

variable (gpus) (hs : s.Orderly)
include hs

theorem perform_backward_drained (retain training : Bool) :
    (Call.backward heads headGradients retain training).perform (library gpus) s.drained =
      (Call.backward heads headGradients retain training).perform (library gpus) s := by
  have hsame : backward .asMarked heads headGradients retain s.drained =
      backward .asMarked heads headGradients retain s := by
    unfold backward
    rw [hs.drain_bind, hs.settled.orderly.drain_bind, drained_eq (s := s.drained) rfl]
  change EStateM.map _ (backward .asMarked heads headGradients retain) s.drained =
    EStateM.map _ (backward .asMarked heads headGradients retain) s
  unfold EStateM.map
  rw [hsame]

theorem backward_refuses {x : Error}
    (hseeds : seedsOf s.drained heads headGradients = .error x) (retain training : Bool) :
    let c : Call := .backward heads headGradients retain training
    c.reply (library gpus) s = .error x ∧ c.step (library gpus) s = s.drained := by
  intro c
  have hcall : c.perform (library gpus) =
      (fun _ => Answer.done) <$> backward .asMarked heads headGradients retain := rfl
  have hrun : backward .asMarked heads headGradients retain s = .error x s.drained := by
    unfold backward
    rw [hs.drain_bind]
    exact bind_error (query_error hseeds)
  exact ⟨Call.reply_of_error hcall hrun, (Call.step_of_map hcall s).trans (after_error hrun)⟩

/-- Otherwise it is only the tape after the pass that depends on whether it was to be kept. -/
theorem backward_accepts {seeds : List (Nat × Values)}
    (hseeds : seedsOf s.drained heads headGradients = .ok seeds) :
    ∃ (r : Except Error Answer) (memory : Memory), ∀ retain training : Bool,
      let c : Call := .backward heads headGradients retain training
      c.reply (library gpus) s = r ∧ c.step (library gpus) s =
        { s.drained with tape := s.tape.afterPass retain, memory } := by
  have hanswers := backward_answers gpus hs hseeds
  cases hpass : Tape.backward s.drained.memory s.tape.nodes s.tape.marks seeds with
  | ok memory =>
    rw [hpass] at hanswers
    exact ⟨_, memory, hanswers⟩
  | error x =>
    rw [hpass] at hanswers
    exact ⟨_, s.drained.memory, hanswers⟩

theorem backward_dropping (heads : List Handle) (headGradients : List (Option Handle))
    (training : Bool) :
    let keeping : Call := .backward heads headGradients true training
    let dropping : Call := .backward heads headGradients false training
    let t := keeping.step (library gpus) s
    dropping.reply (library gpus) s = keeping.reply (library gpus) s ∧ t.tape = s.tape ∧
      match seedsOf s.drained heads headGradients with
      | .ok _ => dropping.step (library gpus) s = { t with tape := { t.tape with nodes := [] } }
      | .error _ => dropping.step (library gpus) s = t := by
  intro keeping dropping t
  cases hseeds : seedsOf s.drained heads headGradients with
  | error x =>
    obtain ⟨hreply, ht⟩ := backward_refuses gpus hs hseeds true training
    obtain ⟨hreply', hstep⟩ := backward_refuses gpus hs hseeds false training
    have htape : t.tape = s.drained.tape := by rw [show t = s.drained from ht]
    exact ⟨hreply'.trans hreply.symm, htape, hstep.trans ht.symm⟩
  | ok seeds =>
    obtain ⟨r, memory, hcalls⟩ := backward_accepts gpus hs hseeds
    obtain ⟨hreply, ht⟩ := hcalls true training
    obtain ⟨hreply', hstep⟩ := hcalls false training
    have ht : t = { s.drained with memory } := ht
    have htape : t.tape = s.drained.tape := by rw [ht]
    refine ⟨hreply'.trans hreply.symm, htape, hstep.trans ?_⟩
    rw [ht]
    rfl

end Calls

/-- No gradient goes to a cell that a recorded operator reads or has written, or that a head gradient
is made of. -/
structure State.Undisturbed (s : State) (headGradients : List (Option Handle)) : Prop where
  operands : ∀ e ∈ s.tape.marks.entries, ∀ n ∈ s.tape.nodes, ∀ i ∈ n.inputs ++ n.outputs,
    i.view.Disjoint e.2.gradient
  seeds : ∀ e ∈ s.tape.marks.entries, ∀ g, some g ∈ headGradients → ∀ k, s.entry g = .ok k →
    k.view.Disjoint e.2.gradient

section Again

variable {seeds : List (Nat × Values)} {memory : Memory}

theorem State.Bounded.read_apart (hs : s.Bounded)
    (hpass : Tape.backward s.drained.memory s.tape.nodes s.tape.marks seeds = .ok memory) {v : View}
    (hv : s.Holds v) (hdisjoint : ∀ e ∈ s.tape.marks.entries, v.Disjoint e.2.gradient) :
    memory.read v = s.drained.memory.read v := by
  have hbuffer : v.buffer < s.drained.memory.buffers.length :=
    ((writes_runAll s.queue s.memory).fits (hs v hv)).buffer
  refine (writes_backward hpass).read_disjoint hbuffer fun w hw => ?_
  obtain ⟨e, he, -, rfl⟩ := mem_of_target hw
  exact hdisjoint e he

theorem State.Undisturbed.backward_again (heads : List Handle) (h : s.Undisturbed headGradients)
    (hs : s.Bounded)
    (hkeys : s.tape.marks.keys.Nodup) (hunshared : Unshared s.tape.marks)
    (hrequest : ∀ e ∈ s.tape.marks.entries, e.2.request ≠ .add)
    (hpass : Tape.backward s.drained.memory s.tape.nodes s.tape.marks seeds = .ok memory) :
    seedsOf { s.drained with memory } heads headGradients =
        seedsOf s.drained heads headGradients ∧
      Tape.backward memory s.tape.nodes s.tape.marks seeds = .ok memory := by
  constructor
  · exact seedsOf_congr rfl fun g hg k hk =>
      hs.read_apart hpass (.entry (entry_eq_ok.1 hk)) fun e he => h.seeds e he g hg k hk
  · have hgradients : Tape.gradients memory s.tape.nodes seeds =
        Tape.gradients s.drained.memory s.tape.nodes seeds :=
      Tape.gradients_congr (fun n hn i hi =>
        hs.read_apart hpass (.node hn hi) fun e he => h.operands e he n hn i hi) seeds
    obtain ⟨gs, hgs, hdelivered⟩ := bind_eq_ok.1 hpass
    obtain rfl := pure_eq_ok.1 hdelivered
    exact bind_eq_ok.2 ⟨gs, hgradients.trans hgs,
      congrArg Except.ok (hunshared.deliver_again hkeys hrequest _)⟩

theorem State.Undisturbed.keeping_again (h : s.Undisturbed headGradients) (gpus : Nat)
    (ho : s.Orderly) (hs : s.Bounded) (hkeys : s.tape.marks.keys.Nodup)
    (hunshared : Unshared s.tape.marks) (hrequest : ∀ e ∈ s.tape.marks.entries, e.2.request ≠ .add)
    (training : Bool) :
    let keeping : Call := .backward heads headGradients true training
    let t := keeping.step (library gpus) s
    keeping.step (library gpus) t = t ∧
      keeping.reply (library gpus) t = keeping.reply (library gpus) s := by
  intro keeping t
  have hdrained : t = s.drained → keeping.step (library gpus) t = t ∧
      keeping.reply (library gpus) t = keeping.reply (library gpus) s := by
    intro ht
    have hperform : keeping.perform (library gpus) t = keeping.perform (library gpus) s := by
      rw [ht]
      exact perform_backward_drained gpus ho true training
    have hstep : keeping.step (library gpus) t = keeping.step (library gpus) s := by
      unfold Call.step after
      rw [hperform]
    refine ⟨hstep, ?_⟩
    unfold Call.reply
    rw [hperform]
  cases hseeds : seedsOf s.drained heads headGradients with
  | error x => exact hdrained (backward_refuses gpus ho hseeds true training).2
  | ok seeds =>
    have hfirst := backward_answers gpus ho hseeds true training
    cases hpass : Tape.backward s.drained.memory s.tape.nodes s.tape.marks seeds with
    | error x =>
      rw [hpass] at hfirst
      exact hdrained hfirst.2
    | ok memory =>
      rw [hpass] at hfirst
      obtain ⟨hreply, ht⟩ := hfirst
      have ht : t = { s.drained with memory } := ht
      obtain ⟨hseeds', hpass'⟩ :=
        h.backward_again heads hs hkeys hunshared hrequest hpass
      have hto : t.Orderly := ht ▸ ho.settled.orderly.withMemory (length_backward hpass)
      have hqueue : t.drained = t := drained_eq (by rw [ht]; rfl)
      have hmemory : t.drained.memory = memory := by rw [hqueue, ht]
      have htape : t.tape = s.tape := by rw [ht]; rfl
      have hnext : seedsOf t.drained heads headGradients = .ok seeds := by
        rw [hqueue, ht, hseeds', hseeds]
      have hsecond := backward_answers gpus hto hnext true training
      rw [hmemory, htape, hpass'] at hsecond
      refine ⟨hsecond.2.trans ?_, hsecond.1.trans hreply.symm⟩
      rw [hqueue, ht]
      rfl

end Again

/-- After any calls, let no cell be part of the gradients of two variables. A backward pass that does
not keep the tape answers like one that does, and every view shows the same after it, in whatever
order the marked variables are served. The states differ only if heads and head gradients are
accepted, and then only in that the tape was emptied by the one pass and kept by the other. If besides
no gradient goes where recorded operators or head gradients have their numbers, and none is to be
added up, then a pass that keeps the tape can be made once more: it answers as before and leaves the
state as it is. -/
theorem backward_repeatable [HalfPrecision] (gpus : Nat) (cs : List Call) (heads : List Handle)
    (headGradients : List (Option Handle)) (training : Bool)
    (hunshared : Unshared (Call.run (library gpus) cs .initial).tape.marks) :
    let s := Call.run (library gpus) cs .initial
    let keeping : Call := .backward heads headGradients true training
    let dropping : Call := .backward heads headGradients false training
    let t := keeping.step (library gpus) s
    dropping.reply (library gpus) s = keeping.reply (library gpus) s ∧
    (∀ v, (dropping.step (library gpus) s).contents v = t.contents v) ∧
    t.tape = s.tape ∧
    (s.Seedable heads headGradients →
      dropping.step (library gpus) s = { t with tape := { t.tape with nodes := [] } }) ∧
    (¬ s.Seedable heads headGradients → dropping.step (library gpus) s = t) ∧
    (∀ (seeds : List (Nat × Values)) (gs : Gradients) (es : List (Nat × Mark)),
      seedsOf s.drained heads headGradients = .ok seeds →
      Tape.gradients s.drained.memory s.tape.nodes seeds = .ok gs →
      es.Perm s.tape.marks.entries →
        es.foldl (fun m e => e.2.deliver gs m e.1) s.drained.memory = t.memory) ∧
    (s.Undisturbed headGradients → (∀ e ∈ s.tape.marks.entries, e.2.request ≠ .add) →
      keeping.step (library gpus) t = t ∧
        keeping.reply (library gpus) t = keeping.reply (library gpus) s) := by
  intro s keeping dropping t
  have ho : s.Orderly := orderly_run orderly_initial
  have hbounded : s.Bounded := bounded_run gpus cs
  have hkeys : s.tape.marks.keys.Nodup := (coherent_run gpus cs).keys
  obtain ⟨hreply, htape, hdropped⟩ := backward_dropping gpus ho heads headGradients training
  have hdropping : (s.Seedable heads headGradients →
      dropping.step (library gpus) s = { t with tape := { t.tape with nodes := [] } }) ∧
      (¬ s.Seedable heads headGradients → dropping.step (library gpus) s = t) := by
    rw [hbounded.seedable_iff]
    cases hseeds : seedsOf s.drained heads headGradients with
    | error x =>
      rw [hseeds] at hdropped
      exact ⟨fun ⟨_, h⟩ => absurd h nofun, fun _ => hdropped⟩
    | ok seeds =>
      rw [hseeds] at hdropped
      exact ⟨fun _ => hdropped, fun h => absurd ⟨seeds, rfl⟩ h⟩
  refine ⟨hreply, fun v => ?_, htape, hdropping.1, hdropping.2, fun seeds gs es hseeds hgs hes => ?_,
    fun h hrequest => h.keeping_again gpus ho hbounded hkeys hunshared hrequest training⟩
  · by_cases h : s.Seedable heads headGradients
    · rw [hdropping.1 h]
      rfl
    · rw [hdropping.2 h]
  · have hpass : Tape.backward s.drained.memory s.tape.nodes s.tape.marks seeds = .ok _ :=
      bind_eq_ok.2 ⟨gs, hgs, rfl⟩
    have hkeeping := backward_answers gpus ho hseeds true training
    rw [hpass] at hkeeping
    exact (hunshared.deliver_perm hkeys hes _).trans (congrArg State.memory hkeeping.2).symm

end

open Interchange

/-- The square of a variable that wants its gradient written, with a head gradient. -/
theorem backward_repeatable_square :
    let array : Call := .create .cpu ⟨[2]⟩ .f32 .dense false
    let s := Call.run (library 0) [array, array, array, .markVariables [⟨1⟩] [.write] [⟨2⟩],
      .setRecording true, .invoke ⟨(Operator.pairwise .mul).number⟩ [⟨1⟩, ⟨1⟩] none .empty] .initial
    let pass : Call := .backward [⟨4⟩] [some ⟨3⟩] true true
    Unshared s.tape.marks ∧ s.Undisturbed [some ⟨3⟩] ∧
      (∀ e ∈ s.tape.marks.entries, e.2.request ≠ .add) ∧ pass.reply (library 0) s = .ok .done ∧
      pass.step (library 0) (pass.step (library 0) s) = pass.step (library 0) s := by
  intro array s pass
  have hmarks : ∀ id k, s.tape.marks.get? id = some k → id = 1 := by
    have hkeys : s.tape.marks.keys = [1] := by decide +kernel
    intro id k hk
    exact List.mem_singleton.1 (hkeys ▸ (Table.mem_keys_iff _ _).2 ⟨k, hk⟩)
  have hunshared : Unshared s.tape.marks := fun id id' k k' hk hk' hne =>
    absurd ((hmarks id k hk).trans (hmarks id' k' hk').symm) hne
  have hoperands : ∀ e ∈ s.tape.marks.entries, ∀ n ∈ s.tape.nodes, ∀ i ∈ n.inputs ++ n.outputs,
      i.view.Apart e.2.gradient := by decide +kernel
  have hseed : s.entry ⟨3⟩ = .ok ⟨⟨2, 0, ⟨[2]⟩, .f32⟩, .cpu, .dense⟩ :=
    entry_eq_ok.2 (by decide +kernel)
  have hseeds : ∀ e ∈ s.tape.marks.entries,
      View.Apart ⟨2, 0, ⟨[2]⟩, .f32⟩ e.2.gradient := by decide +kernel
  have hundisturbed : s.Undisturbed [some ⟨3⟩] := by
    refine ⟨fun e he n hn i hi => (hoperands e he n hn i hi).disjoint, fun e he g hg k hk => ?_⟩
    obtain rfl := Option.some.inj (List.mem_singleton.1 hg)
    obtain rfl := Except.ok.inj (hseed.symm.trans hk)
    exact (hseeds e he).disjoint
  have hrequest : ∀ e ∈ s.tape.marks.entries, e.2.request ≠ .add := by decide +kernel
  have hanswer : pass.reply (library 0) s = .ok .done := eq_ok_of_toOption (by decide +kernel)
  have hrepeat := backward_repeatable 0 _ [⟨4⟩] [some ⟨3⟩] true hunshared
  exact ⟨hunshared, hundisturbed, hrequest, hanswer,
    (hrepeat.2.2.2.2.2.2 hundisturbed hrequest).1⟩

end Reference
end ScopedTensor
