import ScopedTensor.Proofs.Adjoint.Contributions
import ScopedTensor.Proofs.Deferral.Simulation

/-! What the engine records. Handles are numbered upwards and never again, so a node whose outputs
the engine allocated has outputs numbered above its inputs and all nodes recorded before it. -/

namespace ScopedTensor.Reference

open ScopedTensor.Action State Library

variable {half : HalfPrecision}
variable {α : Type} {s t u : State}

/-- From `s` to `t` handles may be freed, and new ones come with higher numbers. -/
structure State.Numbers (s t : State) : Prop where
  lastId : s.lastId ≤ t.lastId
  entries : ∀ id e, t.entries.get? id = some e →
    s.entries.get? id = some e ∨ s.lastId < id ∧ id ≤ t.lastId

theorem State.Numbers.of_eq (hid : t.lastId = s.lastId) (he : t.entries = s.entries) :
    s.Numbers t := ⟨Nat.le_of_eq hid.symm, fun _ _ h => .inl (he ▸ h)⟩

theorem State.Numbers.refl (s : State) : s.Numbers s := .of_eq rfl rfl

theorem State.Numbers.trans (h : s.Numbers t) (hu : t.Numbers u) : s.Numbers u where
  lastId := Nat.le_trans h.lastId hu.lastId
  entries id e he := by
    rcases hu.entries id e he with ht | ⟨hlt, hle⟩
    · rcases h.entries id e ht with hs | ⟨hlt, hle⟩
      · exact .inl hs
      · exact .inr ⟨hlt, Nat.le_trans hle hu.lastId⟩
    · exact .inr ⟨Nat.lt_of_le_of_lt h.lastId hlt, hle⟩

theorem State.numbers_insert (s : State) (e : Entry) : s.Numbers (s.insert e).2 where
  lastId := Nat.le_succ _
  entries id e' he := by
    rcases Table.get?_insert_eq_some.1 he with ⟨rfl, -⟩ | ⟨-, he⟩
    · exact .inr ⟨Nat.lt_succ_self _, Nat.le_refl _⟩
    · exact .inl he

/-- From `s` to `t` nothing was recorded. -/
structure State.Evolves (s t : State) : Prop extends State.Numbers s t where
  nodes : t.tape.nodes = s.tape.nodes ∨ t.tape.nodes = []

theorem State.Evolves.of_eq (hid : t.lastId = s.lastId) (he : t.entries = s.entries)
    (hn : t.tape.nodes = s.tape.nodes) : s.Evolves t := ⟨.of_eq hid he, .inl hn⟩

theorem State.Evolves.refl (s : State) : s.Evolves s := .of_eq rfl rfl rfl

theorem State.Evolves.trans (h : s.Evolves t) (hu : t.Evolves u) : s.Evolves u where
  toNumbers := h.toNumbers.trans hu.toNumbers
  nodes := by
    rcases hu.nodes with hn | hn
    · rw [hn]
      exact h.nodes
    · exact .inr hn

instance : Trans State.Evolves State.Evolves State.Evolves := ⟨State.Evolves.trans⟩

abbrev Quiet (a : Action State α) : Prop := Within State.Evolves a

theorem State.evolves_insert (s : State) (e : Entry) : s.Evolves (s.insert e).2 :=
  ⟨s.numbers_insert e, .inl rfl⟩

theorem State.evolves_allocate (s : State) (shape : Shape) (type : ElementType) (device : Device)
    (storage : Storage) : s.Evolves (s.allocate shape type device storage).2 := by
  have hmemory : s.Evolves { s with memory := (s.memory.allocate shape type).2 } :=
    .of_eq rfl rfl rfl
  exact hmemory.trans (State.evolves_insert _ ⟨(s.memory.allocate shape type).1, device, storage⟩)

theorem quiet_create (gpus : Nat) (device : Device) (shape : Shape) (type : ElementType)
    (storage : Storage) : Quiet (create gpus device shape type storage) := by
  refine (create_does device shape type storage).within fun t x u hu => ?_
  obtain rfl := congrArg Prod.snd hu
  exact t.evolves_allocate shape type device storage

theorem quiet_free (h : Handle) : Quiet (free h) := by
  refine .of_after fun s => ?_
  obtain ⟨marks, hafter⟩ := after_free h s
  rw [hafter]
  exact ⟨⟨Nat.le_refl _, fun id e' he => .inl (Table.get?_erase_eq_some.1 he).2⟩, .inl rfl⟩

theorem quiet_drain : Quiet drain := by
  refine .of_after fun s => ?_
  rw [after_drain]
  exact .of_eq rfl rfl rfl

theorem quiet_derive (h : Handle) (f : View → Except Error View) : Quiet (derive h f) := by
  refine (derive_does h f).within fun t x u hu => ?_
  obtain ⟨e, w, -, -, hu⟩ := hu
  obtain rfl := congrArg Prod.snd hu
  exact t.evolves_insert _

theorem quiet_viewOf (h : Handle) : Quiet (viewOf h) := .map _ (.query _)

theorem quiet_copyIn (h : Handle) (bytes : Bytes) (length : Nat) :
    Quiet (copyIn h bytes length) := by
  refine (quiet_viewOf h).bind fun view => .guard (quiet_drain.bind fun _ => ?_)
  exact .modify fun _ => .of_eq rfl rfl rfl

theorem quiet_copyOut (h : Handle) (room length : Nat) : Quiet (copyOut h room length) := by
  refine (quiet_viewOf h).bind fun view => .guard (quiet_drain.bind fun _ => ?_)
  exact Within.get.bind fun _ => .pure _

theorem quiet_wait (h : Handle) : Quiet (wait h) := by
  refine Within.bind (.query _) fun _ => .bind (.modify fun _ => ?_) fun _ => quiet_drain
  exact .of_eq rfl rfl rfl

theorem quiet_waitAll : Quiet waitAll :=
  .bind (.modify fun _ => .of_eq rfl rfl rfl) fun _ => quiet_drain

theorem quiet_markOne (var : Handle) (request : GradRequest) (grad : Handle) :
    Quiet (markOne var request grad) := by
  refine (markOne_does var request grad).within fun t x u hu => ?_
  obtain ⟨v, g, -, -, -, rfl⟩ := hu
  exact .of_eq rfl rfl rfl

theorem quiet_markVariables (vars : List Handle) (requests : List GradRequest)
    (grads : List Handle) : Quiet (markVariables vars requests grads) :=
  .ite (.throw _) (.forM (fun _ => quiet_markOne _ _ _) _)

theorem quiet_backward (order : MarkOrder) (heads : List Handle)
    (headGradients : List (Option Handle)) (retain : Bool) :
    Quiet (backward order heads headGradients retain) := by
  refine quiet_drain.bind fun _ => Within.bind (.query _) fun seeds => Within.get.bind fun s => ?_
  refine Within.bind (.modify fun t => ⟨.of_eq rfl rfl, t.tape.nodes_afterPass retain⟩) fun _ => ?_
  refine .transition fun t x u hu => ?_
  obtain ⟨m, -, hu⟩ := bind_eq_ok.1 hu
  obtain rfl := congrArg Prod.snd (pure_eq_ok.1 hu)
  exact .of_eq rfl rfl rfl

theorem quiet_getGrad (h : Handle) : Quiet (getGrad h) := by
  refine (getGrad_does h).within fun t x u hu => ?_
  rcases hu with ⟨e, -, ⟨-, rfl⟩ | ⟨m, -, hu⟩⟩
  · exact .refl _
  · obtain rfl := congrArg Prod.snd hu
    exact t.evolves_insert _

theorem quiet_setRecording (on : Bool) : Quiet (setRecording on) := by
  refine .of_after fun s => ⟨.of_eq rfl rfl, ?_⟩
  change (s.tape.setRecording on).nodes = _ ∨ (s.tape.setRecording on).nodes = []
  unfold Tape.setRecording
  simp only
  split
  · exact .inr rfl
  · exact .inl rfl

theorem quiet_setTraining (on : Bool) : Quiet (setTraining on) :=
  .of_after fun _ => .of_eq rfl rfl rfl

theorem quiet_call [HalfPrecision] (gpus : Nat) (c : Call)
    (hc : ∀ h inputs outputs params, c ≠ .invoke h inputs outputs params) :
    Quiet (c.perform (library gpus)) := by
  cases c with
  | invoke h inputs outputs params => exact absurd rfl (hc h inputs outputs params)
  | version => exact .pure _
  | gpuCount => exact .pure _
  | listOps => exact .pure _
  | getOp name => exact .map _ (.ofExcept _)
  | create d s t st delayed => exact .map _ (quiet_create gpus d s t st)
  | free h => exact .map _ (quiet_free h)
  | shape h => exact .map _ (.map _ (quiet_viewOf h))
  | type h => exact .map _ (.map _ (quiet_viewOf h))
  | device h => exact .map _ (.map _ (.query _))
  | storage h => exact .map _ (.map _ (.query _))
  | copyIn h bytes length => exact .map _ (quiet_copyIn h bytes length)
  | copyOut h room length => exact .map _ (quiet_copyOut h room length)
  | waitToRead h => exact .map _ (quiet_wait h)
  | waitToWrite h => exact .map _ (quiet_wait h)
  | waitAll => exact .map _ quiet_waitAll
  | row h index => exact .map _ (quiet_derive h _)
  | slice h first last => exact .map _ (quiet_derive h _)
  | reshape h dims reverse => exact .map _ (quiet_derive h _)
  | markVariables vars requests grads => exact .map _ (quiet_markVariables vars requests grads)
  | backward heads grads retain training => exact .map _ (quiet_backward _ heads grads retain)
  | getGrad h => exact .map _ (quiet_getGrad h)
  | setRecording on => exact .map _ (quiet_setRecording on)
  | setTraining on => exact .map _ (quiet_setTraining on)
  | randomSeed seed => exact .map _ (.modify fun _ => .of_eq rfl rfl rfl)

theorem allocateAll_numbers (device : Device) (sigs : List Signature) :
    ∀ s : State, s.Numbers (allocateAll device sigs s).2 ∧
      (allocateAll device sigs s).2.tape = s.tape ∧
      (allocateAll device sigs s).1.length = sigs.length ∧
      ∀ o ∈ (allocateAll device sigs s).1, s.lastId < o.1.id := by
  induction sigs with
  | nil => intro s; exact ⟨.refl s, rfl, rfl, nofun⟩
  | cons sig sigs ih =>
    intro s
    have hfirst := (s.evolves_allocate sig.shape sig.type device .dense).toNumbers
    obtain ⟨hnumbers, htape, hlength, hfresh⟩ := ih (s.allocate sig.shape sig.type device .dense).2
    rw [allocateAll_cons]
    refine ⟨hfirst.trans hnumbers, htape, congrArg (· + 1) hlength, fun o ho => ?_⟩
    rcases List.mem_cons.1 ho with rfl | ho
    · exact Nat.lt_succ_self _
    · exact Nat.lt_of_le_of_lt hfirst.lastId (hfresh o ho)

variable {gpus : Nat} {op : Operator} {inputs hs : List Handle} {outputs : Option (List Handle)}
variable {params : Params} {task : Task} {inferred : List Signature} {entries : List Entry}
variable {outs : List (Handle × View)}

theorem outputsOf_numbers
    (h : outputsOf gpus s op entries inferred outputs params = .ok (outs, t)) :
    s.Numbers t ∧ t.tape = s.tape ∧
      (outputs = none → outs.length = inferred.length ∧ ∀ o ∈ outs, s.lastId < o.1.id) := by
  cases outputs with
  | some given =>
    obtain ⟨-, rfl⟩ := outputsOf_some_ok h
    exact ⟨.refl _, rfl, nofun⟩
  | none =>
    have hall := allocateAll_numbers (outputDevice entries params) inferred s
    rw [outputsOf_none_ok h] at hall
    exact ⟨hall.1, hall.2.1, fun _ => hall.2.2⟩

/-- A node as an accepted operator leaves it: made of arrays that were there, with outputs numbered
above all of these if the engine allocated them. -/
structure Recordable (s : State) (allocated : Prop) (n : Node) : Prop where
  inputs : ∀ i ∈ n.inputs, ∃ e, s.entries.get? i.id = some e
  accepted : allocated → n.Accepted
  fresh : allocated → ∀ o ∈ n.outputs, s.lastId < o.id

theorem submit_records (h : submit gpus s op inputs outputs params = .ok (hs, task, t)) :
    ∃ n u, s.Numbers u ∧ u.tape = s.tape ∧ t = { u with tape := s.tape.record n } ∧
      Recordable s (outputs = none) n := by
  obtain ⟨entries, inferred, outs, u, hentries, hinferred, houts, -, -, ht⟩ := submit_eq_ok h
  obtain ⟨hnumbers, htape, hallocated⟩ := outputsOf_numbers houts
  rw [htape] at ht
  refine ⟨_, u, hnumbers, htape, ht, ?_, fun hnone => ?_, fun hnone => ?_⟩
  · intro i hi
    obtain ⟨p, hp, rfl⟩ := List.mem_map.1 hi
    obtain ⟨e, he⟩ := isOk_of_mapM_eq_ok hentries (List.of_mem_zip hp).1
    exact ⟨e, entry_eq_ok.1 he⟩
  · have hviews : ((inputs.zip (entries.map Entry.view)).map fun p => p.2.signature) =
        entries.map fun e => ⟨e.view.shape, e.view.type⟩ := by
      have hle : (entries.map Entry.view).length ≤ inputs.length :=
        Nat.le_of_eq (by rw [List.length_map, length_of_mapM_eq_ok hentries])
      have hsnd := congrArg (List.map View.signature) (List.map_snd_zip hle)
      rw [List.map_map, List.map_map] at hsnd
      exact hsnd
    refine ⟨inferred, ?_, ?_⟩
    · unfold nodeOf
      rw [List.map_map]
      exact (congrArg (op.infer · params) hviews).trans hinferred
    · unfold nodeOf
      rw [List.length_map]
      exact (hallocated hnone).1.symm
  · intro o ho
    obtain ⟨p, hp, rfl⟩ := List.mem_map.1 ho
    exact (hallocated hnone).2 p hp

end ScopedTensor.Reference
