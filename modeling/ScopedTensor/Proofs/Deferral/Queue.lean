import ScopedTensor.Proofs.Calls
import ScopedTensor.Proofs.Deferral.Tasks

/-! States whose waiting tasks can all be run, and what running them leaves alone. -/

namespace ScopedTensor.Reference

open ScopedTensor.Action State

variable {half : HalfPrecision}

/-- Tasks that wait are sound, and what a handle or a mark shows lies in a buffer that is there. -/
structure State.Orderly (s : State) : Prop where
  tasks : ∀ t ∈ s.queue, t.Sound s.memory.buffers.length
  entries : ∀ id e, s.entries.get? id = some e → e.view.buffer < s.memory.buffers.length
  marks : ∀ id k, s.tape.marks.get? id = some k → k.gradient.buffer < s.memory.buffers.length

/-- A state in which no task waits. -/
structure State.Settled (s : State) : Prop where
  orderly : s.Orderly
  empty : s.queue = []

variable {s : State} {h : Handle} {e : Entry}

theorem orderly_initial : initial.Orderly where
  tasks := nofun
  entries := nofun
  marks := nofun

theorem entry_eq_ok : s.entry h = .ok e ↔ s.entries.get? h.id = some e := by
  unfold State.entry
  cases s.entries.get? h.id with
  | none => exact ⟨nofun, nofun⟩
  | some e' =>
    exact ⟨fun he => congrArg some (Except.ok.inj he),
      fun he => congrArg Except.ok (Option.some.inj he)⟩

theorem State.Orderly.entry_bound (hs : s.Orderly) (he : s.entry h = .ok e) :
    e.view.buffer < s.memory.buffers.length := hs.entries _ _ (entry_eq_ok.1 he)

/-- The queue runs to its end, with or without more buffers behind those in use. -/
theorem State.Orderly.runs [HalfPrecision] (hs : s.Orderly) (fresh : List Values) :
    Runs s.queue fresh s.memory s.drained.memory := by
  obtain ⟨m, h⟩ := runAll_grow hs.tasks fresh s.memory (Nat.le_refl _)
  have hm : s.drained.memory = m := congrArg Prod.fst h.run
  exact hm ▸ h

theorem State.Orderly.length_drained [HalfPrecision] (hs : s.Orderly) :
    s.drained.memory.buffers.length = s.memory.buffers.length := (hs.runs []).length

theorem State.Orderly.drain_eq (hs : s.Orderly) : s.drain = .ok () s.drained := by
  unfold drain
  rw [(hs.runs []).run]

theorem State.Orderly.drain_bind {α : Type} (hs : s.Orderly) (k : Unit → Action State α) :
    (drain >>= k) s = k () s.drained := by
  change EStateM.bind drain k s = k () s.drained
  unfold EStateM.bind
  rw [hs.drain_eq]

theorem State.Orderly.settled [HalfPrecision] (hs : s.Orderly) : s.drained.Settled where
  orderly :=
    { tasks := nofun
      entries := fun id e he => hs.length_drained ▸ hs.entries id e he
      marks := fun id k hk => hs.length_drained ▸ hs.marks id k hk }
  empty := rfl

theorem State.drained_eq (hq : s.queue = []) : s.drained = s := by
  unfold drained
  rw [hq]
  cases s
  simp_all [runAll, breaksOff]

theorem State.Orderly.drained_grow [HalfPrecision] (hs : s.Orderly) (fresh : List Values) :
    State.drained { s with memory := s.memory.grow fresh } =
      { s.drained with memory := s.drained.memory.grow fresh } := by
  have hruns := hs.runs fresh
  have hmemory := congrArg Prod.fst hruns.grown
  unfold drained at hmemory ⊢
  simp only [hmemory, hruns.breaksOff]

theorem State.Orderly.grow (hs : s.Orderly) (fresh : List Values) :
    State.Orderly { s with memory := s.memory.grow fresh } := by
  have hle : s.memory.buffers.length ≤ (s.memory.grow fresh).buffers.length := by
    simp [Memory.grow]
  exact
    { tasks := fun t ht => (hs.tasks t ht).mono hle
      entries := fun id e he => Nat.lt_of_lt_of_le (hs.entries id e he) hle
      marks := fun id k hk => Nat.lt_of_lt_of_le (hs.marks id k hk) hle }

theorem State.Orderly.insert (hs : s.Orderly) (he : e.view.buffer < s.memory.buffers.length) :
    (s.insert e).2.Orderly where
  tasks := hs.tasks
  entries id e' he' := by
    rcases Table.get?_insert_eq_some.1 he' with ⟨-, rfl⟩ | ⟨-, he'⟩
    · exact he
    · exact hs.entries id e' he'
  marks := hs.marks

theorem State.Orderly.allocate (hs : s.Orderly) (shape : Shape) (type : ElementType)
    (device : Device) (storage : Storage) : (s.allocate shape type device storage).2.Orderly := by
  refine (hs.grow [List.replicate shape.size .zero]).insert ?_
  simp [Memory.grow]

def State.enqueue (s : State) (t : Task) : State := { s with queue := s.queue ++ [t] }

theorem State.Orderly.enqueue (hs : s.Orderly) {t : Task}
    (ht : t.Sound s.memory.buffers.length) : (s.enqueue t).Orderly where
  tasks u hu := by
    rcases List.mem_append.1 hu with hu | hu
    · exact hs.tasks u hu
    · rw [List.mem_singleton.1 hu]
      exact ht
  entries := hs.entries
  marks := hs.marks

/-- A task that comes last may as well find the queue run already. -/
theorem State.Orderly.drained_enqueue (hs : s.Orderly) (t : Task) :
    (s.drained.enqueue t).drained = (s.enqueue t).drained := by
  obtain ⟨hrun, hbreaks⟩ := runAll_append (hs.runs []).run [t]
  unfold State.enqueue State.drained at *
  simp only [List.nil_append, hrun, hbreaks, Bool.or_assoc]

theorem State.insert_drained (s : State) (e : Entry) :
    s.drained.insert e = ((s.insert e).1, (s.insert e).2.drained) := rfl

theorem State.Orderly.allocate_drained [HalfPrecision] (hs : s.Orderly) (shape : Shape)
    (type : ElementType) (device : Device) (storage : Storage) :
    s.drained.allocate shape type device storage =
      ((s.allocate shape type device storage).1,
        (s.allocate shape type device storage).2.drained) := by
  have hgrow := hs.drained_grow [List.replicate shape.size .zero]
  calc s.drained.allocate shape type device storage
      = State.insert { s.drained with
            memory := s.drained.memory.grow [List.replicate shape.size .zero] }
          ⟨⟨s.drained.memory.buffers.length, 0, shape, type⟩, device, storage⟩ := rfl
    _ = (State.drained { s with memory := s.memory.grow [List.replicate shape.size .zero] }).insert
          ⟨⟨s.memory.buffers.length, 0, shape, type⟩, device, storage⟩ := by
        rw [hgrow, hs.length_drained]
    _ = _ := State.insert_drained _ _

theorem allocateAll_cons (device : Device) (sig : Signature) (sigs : List Signature) (s : State) :
    allocateAll device (sig :: sigs) s =
      let r := s.allocate sig.shape sig.type device .dense
      let rest := allocateAll device sigs r.2
      ((r.1, ⟨s.memory.buffers.length, 0, sig.shape, sig.type⟩) :: rest.1, rest.2) := rfl

/-- From `s` on the cells of `outs` were made ready to be written, in fresh buffers or in old ones;
the waiting tasks and the old buffers are as they were. -/
structure State.Readies (s : State) (outs : List (Handle × View)) (t : State) : Prop where
  orderly : t.Orderly
  queue : t.queue = s.queue
  halted : t.halted = s.halted
  memory : ∃ fresh, t.memory = s.memory.grow fresh
  bound : ∀ o ∈ outs, o.2.buffer < t.memory.buffers.length

theorem State.Readies.length_le {outs : List (Handle × View)} {t : State} (h : s.Readies outs t) :
    s.memory.buffers.length ≤ t.memory.buffers.length := by
  obtain ⟨fresh, hfresh⟩ := h.memory
  simp [hfresh, Memory.grow]

theorem State.Orderly.allocateAll_readies (device : Device) (sigs : List Signature) :
    ∀ {s : State}, s.Orderly →
      s.Readies (allocateAll device sigs s).1 (allocateAll device sigs s).2 := by
  induction sigs with
  | nil =>
    intro s hs
    exact ⟨hs, rfl, rfl, ⟨[], (Memory.grow_nil _).symm⟩, nofun⟩
  | cons sig sigs ih =>
    intro s hs
    have hrest := ih (hs.allocate sig.shape sig.type device .dense)
    obtain ⟨fresh, hfresh⟩ := hrest.memory
    rw [allocateAll_cons]
    refine ⟨hrest.orderly, hrest.queue, hrest.halted,
      ⟨_, hfresh.trans (Memory.grow_grow _ _ _)⟩, ?_⟩
    intro o ho
    rcases List.mem_cons.1 ho with rfl | ho
    · refine Nat.lt_of_lt_of_le ?_ hrest.length_le
      simp [State.allocate, State.insert, Memory.allocate]
    · exact hrest.bound o ho

theorem State.Orderly.allocateAll_drained (device : Device) (sigs : List Signature) :
    ∀ {s : State}, s.Orderly →
      allocateAll device sigs s.drained =
        ((allocateAll device sigs s).1, (allocateAll device sigs s).2.drained) := by
  induction sigs with
  | nil => intro s _; rfl
  | cons sig sigs ih =>
    intro s hs
    rw [allocateAll_cons, allocateAll_cons, hs.allocate_drained, hs.length_drained]
    simp only [ih (hs.allocate sig.shape sig.type device .dense)]

section Submission

variable {gpus : Nat} {op : Operator} {inputs : List Handle} {outputs : Option (List Handle)}
variable {params : Params} {entries : List Entry} {inferred : List Signature} {t : State}
variable {outs : List (Handle × View)} {hs : List Handle} {task : Task}

theorem State.Orderly.readies_outputsOf (h : s.Orderly)
    (ht : outputsOf gpus s op entries inferred outputs params = .ok (outs, t)) :
    s.Readies outs t := by
  cases outputs with
  | some given =>
    obtain ⟨hfound, rfl⟩ := outputsOf_some_ok ht
    refine ⟨h, rfl, rfl, ⟨[], (Memory.grow_nil _).symm⟩, fun o ho => ?_⟩
    unfold givenOutputs at hfound
    split at hfound
    · exact absurd hfound nofun
    · obtain ⟨⟨g, sig⟩, -, hg⟩ := exists_of_mapM_eq_ok hfound ho
      obtain ⟨e, he, hview⟩ := bind_eq_ok.1 hg
      simp only at hview
      split at hview
      · exact absurd hview nofun
      · rw [← pure_eq_ok.1 hview]
        exact h.entry_bound he
  | none =>
    have hr := h.allocateAll_readies (outputDevice entries params) inferred
    rw [outputsOf_none_ok ht] at hr
    exact hr

theorem State.Orderly.outputsOf_drained (h : s.Orderly) :
    outputsOf gpus s.drained op entries inferred outputs params =
      (outputsOf gpus s op entries inferred outputs params).map fun r => (r.1, r.2.drained) := by
  unfold outputsOf
  cases outputs with
  | some given =>
    have hgiven : givenOutputs s.drained op given inferred = givenOutputs s op given inferred := rfl
    simp only [hgiven]
    cases givenOutputs s op given inferred <;> rfl
  | none =>
    simp only [h.allocateAll_drained]
    cases checkDevice gpus (outputDevice entries params) <;> rfl

/-- In `t` an operator was accepted that `s` was asked for. It became a task that can be run, on
cells that are there; those it reads were there before. -/
structure State.Takes (s : State) (task : Task) (t : State) : Prop where
  orderly : t.Orderly
  queue : t.queue = s.queue
  halted : t.halted = s.halted
  memory : ∃ fresh, t.memory = s.memory.grow fresh
  inputs : ∀ v ∈ task.inputs, v.buffer < s.memory.buffers.length
  sound : task.Sound t.memory.buffers.length

theorem State.Orderly.submit_ok (h : s.Orderly)
    (hsubmit : submit gpus s op inputs outputs params = .ok (hs, task, t)) : s.Takes task t := by
  obtain ⟨entries, inferred, outs, u, hentries, hinferred, houts, rfl, rfl, rfl⟩ :=
    submit_eq_ok hsubmit
  have hr := h.readies_outputsOf houts
  have hinputs : ∀ v ∈ entries.map Entry.view, v.buffer < s.memory.buffers.length := by
    intro v hv
    obtain ⟨e, he, rfl⟩ := List.mem_map.1 hv
    obtain ⟨x, -, hx⟩ := exists_of_mapM_eq_ok hentries he
    exact h.entry_bound hx
  refine ⟨⟨hr.orderly.tasks, hr.orderly.entries, ?_⟩, hr.queue, hr.halted, hr.memory, hinputs, ?_⟩
  · simpa only [Tape.marks_record] using hr.orderly.marks
  · refine ⟨⟨inferred, by simpa [Function.comp_def, View.signature] using hinferred⟩,
      fun v hv => Nat.lt_of_lt_of_le (hinputs v hv) hr.length_le, fun v hv => ?_⟩
    obtain ⟨o, ho, rfl⟩ := List.mem_map.1 hv
    exact hr.bound o ho

theorem State.Orderly.submit_drained (h : s.Orderly) :
    submit gpus s.drained op inputs outputs params =
      (submit gpus s op inputs outputs params).map fun r => (r.1, r.2.1, r.2.2.drained) := by
  unfold submit
  have hinputs : inputs.mapM s.drained.entry = inputs.mapM s.entry := rfl
  rw [hinputs]
  cases inputs.mapM s.entry with
  | error e => rfl
  | ok entries =>
    simp only [h.outputsOf_drained]
    cases hinfer : op.infer (entries.map fun e => ⟨e.view.shape, e.view.type⟩) params with
    | error e => simp only [hinfer, bind, Except.bind, Except.map]
    | ok inferred =>
      cases houts : outputsOf gpus s op entries inferred outputs params with
      | error e => simp only [hinfer, houts, bind, Except.bind, Except.map]
      | ok r => simp only [hinfer, houts, bind, Except.bind, Except.map]; rfl

end Submission

end ScopedTensor.Reference
