import ScopedTensor.Element.Interchange
import ScopedTensor.Proofs.Adjoint.Recording
import ScopedTensor.Proofs.Deferral.Runs

/-! Backward passes of the engine, over whatever its calls have recorded. -/

namespace ScopedTensor

open Binary Gradients

variable {m : Memory} {nodes : List Node} {seeds : List (Nat × Values)} {gs : Gradients}

theorem Tape.gradients_append (before rest : List Node) :
    Tape.gradients m (before ++ rest) seeds =
      Tape.gradients m rest seeds >>= fun gs =>
        before.reverse.foldlM (fun gs n => n.visit m gs) gs := by
  unfold Tape.gradients
  rw [List.reverse_append, List.foldlM_append]

theorem Tape.gradients_cons (n : Node) (rest : List Node) :
    Tape.gradients m (n :: rest) seeds =
      Tape.gradients m rest seeds >>= fun gs => n.visit m gs := by
  refine (Tape.gradients_append [n] rest).trans (bind_congr fun gs => ?_)
  rw [List.reverse_singleton, List.foldlM_cons]
  exact bind_pure _

/-- The gradients of a pass are the one solution of the adjoint equations. A head has one, and so
has every input of a node that is reached, where the node's results depend on it. From the moment a
node is visited on, when only the nodes behind it have been, the gradients of its outputs are the
final ones. -/
structure Solved (m : Memory) (nodes : List Node) (seeds : List (Nat × Values)) (gs : Gradients) :
    Prop where
  adjoint : Adjoint m nodes seeds gs.get?
  unique : ∀ f, Adjoint m nodes seeds f → f = gs.get?
  isSome_iff : ∀ id, (gs.get? id).isSome ↔ id ∈ seeds.map Prod.fst ∨
    ∃ n ∈ nodes, n.Reached gs.get? ∧ n.op.Depends ∧ ∃ i ∈ n.inputs, i.id = id
  complete : ∀ n late, n :: late <:+ nodes → ∀ visited, late <:+ visited → visited <:+ nodes →
    ∃ gs', Tape.gradients m visited seeds = .ok gs' ∧ ∀ o ∈ n.outputs, gs'.get? o.id = gs.get? o.id

theorem Ascending.complete (h : Ascending nodes) (hgs : Tape.gradients m nodes seeds = .ok gs)
    {n : Node} {late visited : List Node} (hn : n :: late <:+ nodes) (hlate : late <:+ visited)
    (hvisited : visited <:+ nodes) :
    ∃ gs', Tape.gradients m visited seeds = .ok gs' ∧
      ∀ o ∈ n.outputs, gs'.get? o.id = gs.get? o.id := by
  obtain ⟨before, rfl⟩ := hvisited
  obtain ⟨front, hfront⟩ := hn
  obtain ⟨between, rfl⟩ := hlate
  -- what is still to be visited is the node itself or was recorded before it
  have hsplit : before ++ between = front ++ [n] := by
    have hall : before ++ between ++ late = front ++ [n] ++ late := by simpa using hfront.symm
    exact List.append_cancel_right hall
  rw [Tape.gradients_append] at hgs
  obtain ⟨gs', hgs', hrest⟩ := bind_eq_ok.1 hgs
  refine ⟨gs', hgs', fun o ho => (get?_foldlM_visit hrest fun a ha i hi => ?_).symm⟩
  have ha : a ∈ front ++ [n] := hsplit ▸ List.mem_append_left _ (List.mem_reverse.1 ha)
  have hearlier := h.earlier
  rw [← hfront, List.pairwise_append] at hearlier
  have hnode : n ∈ before ++ (between ++ late) :=
    hfront ▸ List.mem_append_right _ List.mem_cons_self
  refine Nat.ne_of_lt ?_
  rcases List.mem_append.1 ha with ha | ha
  · exact hearlier.2.2 a ha n List.mem_cons_self o ho i hi
  · rw [List.mem_singleton.1 ha] at hi
    exact h.own n hnode o ho i hi

theorem Ascending.solved (h : Ascending nodes) (hnodes : ∀ n ∈ nodes, n.Accepted)
    (hgs : Tape.gradients m nodes seeds = .ok gs) : Solved m nodes seeds gs where
  adjoint := h.descending.adjoint hgs
  unique _ hf := h.descending.unique hf (h.descending.adjoint hgs)
  isSome_iff := (h.descending.adjoint hgs).isSome_iff hnodes
  complete _ _ hn _ hlate hvisited := h.complete hgs hn hlate hvisited

namespace Reference

open ScopedTensor.Action State Library

section

variable {half : HalfPrecision}
variable {gpus : Nat} {s t : State} {c : Call}

/-- Live handles have been given out. -/
def State.Numbered (s : State) : Prop := ∀ id e, s.entries.get? id = some e → id ≤ s.lastId

/-- What is on the tape was recorded with outputs that the engine allocated. -/
structure State.Taped (s : State) : Prop where
  ascending : Ascending s.tape.nodes
  accepted : ∀ n ∈ s.tape.nodes, n.Accepted
  inputs : ∀ n ∈ s.tape.nodes, ∀ i ∈ n.inputs, i.id ≤ s.lastId

theorem State.Numbers.numbered (h : s.Numbers t) (hs : s.Numbered) : t.Numbered := by
  intro id e he
  rcases h.entries id e he with hse | ⟨-, hle⟩
  · exact Nat.le_trans (hs id e hse) h.lastId
  · exact hle

theorem State.taped_of_nil (h : s.tape.nodes = []) : s.Taped := by
  constructor
  · rw [h]
    exact ⟨nofun, List.Pairwise.nil⟩
  · rw [h]
    exact nofun
  · rw [h]
    exact nofun

theorem State.Taped.of_nodes (hs : s.Taped) (hid : s.lastId ≤ t.lastId)
    (hn : t.tape.nodes = s.tape.nodes) : t.Taped where
  ascending := hn ▸ hs.ascending
  accepted := hn ▸ hs.accepted
  inputs n hmem i hi := Nat.le_trans (hs.inputs n (hn ▸ hmem) i hi) hid

theorem State.Taped.evolves (hs : s.Taped) (h : s.Evolves t) : t.Taped := by
  rcases h.nodes with hn | hn
  · exact hs.of_nodes h.lastId hn
  · exact taped_of_nil hn

theorem State.Taped.record (hs : s.Taped) (hnum : s.Numbered) {n : Node} {u : State}
    (hn : Recordable s True n) (hu : s.Numbers u) :
    State.Taped { u with tape := s.tape.record n } := by
  have hinputs : ∀ i ∈ n.inputs, i.id ≤ s.lastId := by
    intro i hi
    obtain ⟨e, he⟩ := hn.inputs i hi
    exact hnum i.id e he
  unfold Tape.record
  cases s.tape.recording with
  | false => exact hs.of_nodes hu.lastId rfl
  | true =>
    refine ⟨hs.ascending.snoc ?_ ?_, ?_, ?_⟩
    · exact fun o ho i hi => Nat.lt_of_le_of_lt (hinputs i hi) (hn.fresh trivial o ho)
    · exact fun a ha o ho i hi => Nat.lt_of_le_of_lt (hs.inputs a ha i hi) (hn.fresh trivial o ho)
    · intro a ha
      rcases List.mem_append.1 ha with ha | ha
      · exact hs.accepted a ha
      · rw [List.mem_singleton.1 ha]
        exact hn.accepted trivial
    · intro a ha i hi
      refine Nat.le_trans ?_ hu.lastId
      rcases List.mem_append.1 ha with ha | ha
      · exact hs.inputs a ha i hi
      · rw [List.mem_singleton.1 ha] at hi
        exact hinputs i hi

theorem step_invoke_cases (gpus : Nat) (s : State) (h : OpHandle) (inputs : List Handle)
    (outputs : Option (List Handle)) (params : Params) :
    (Call.invoke h inputs outputs params).step (library gpus) s = s ∨
      ∃ n u task, s.Numbers u ∧ Recordable s (outputs = none) n ∧
        (Call.invoke h inputs outputs params).step (library gpus) s =
          State.enqueue { u with tape := s.tape.record n } task := by
  have hstep : (Call.invoke h inputs outputs params).step (library gpus) s = _ := step_invoke
  unfold after Action.transition accept at hstep
  cases hin : handIn gpus h inputs outputs params s with
  | error e =>
    rw [hin] at hstep
    exact .inl hstep
  | ok r =>
    obtain ⟨hs, task, t⟩ := r
    rw [hin] at hstep
    obtain ⟨op, -, hsubmit⟩ := bind_eq_ok.1 hin
    obtain ⟨n, u, hnumbers, -, rfl, hrecordable⟩ := submit_records hsubmit
    exact .inr ⟨n, u, task, hnumbers, hrecordable, hstep⟩

theorem numbers_step [HalfPrecision] (gpus : Nat) (s : State) (c : Call) :
    s.Numbers (c.step (library gpus) s) := by
  by_cases hc : ∃ h inputs outputs params, c = .invoke h inputs outputs params
  · obtain ⟨h, inputs, outputs, params, rfl⟩ := hc
    rcases step_invoke_cases gpus s h inputs outputs params with hstep | ⟨n, u, task, hu, -, hstep⟩
    · rw [hstep]
      exact .refl s
    · rw [hstep]
      exact hu.trans (.of_eq rfl rfl)
  · have hquiet := quiet_call gpus c fun h inputs outputs params hcall =>
      hc ⟨h, inputs, outputs, params, hcall⟩
    exact (hquiet.after (.refl s)).toNumbers

def namesOutputs : Call → Bool
  | .invoke _ _ (some _) _ => true
  | _ => false

theorem State.Taped.step (hs : s.Taped) (hnum : s.Numbered) (c : Call)
    (hc : namesOutputs c = true → (c.step (library gpus) s).tape.nodes = s.tape.nodes) :
    (c.step (library gpus) s).Taped := by
  by_cases hinvoke : ∃ h inputs outputs params, c = .invoke h inputs outputs params
  · obtain ⟨h, inputs, outputs, params, rfl⟩ := hinvoke
    cases outputs with
    | some given => exact hs.of_nodes (numbers_step gpus s _).lastId (hc rfl)
    | none =>
      rcases step_invoke_cases gpus s h inputs none params with hstep | ⟨n, u, task, hu, hn, hstep⟩
      · rwa [hstep]
      · have hn : Recordable s True n :=
          ⟨hn.inputs, fun _ => hn.accepted rfl, fun _ => hn.fresh rfl⟩
        rw [hstep]
        exact (hs.record hnum hn hu).of_nodes (Nat.le_refl _) rfl
  · have hquiet := quiet_call gpus c fun h inputs outputs params hcall =>
      hinvoke ⟨h, inputs, outputs, params, hcall⟩
    exact hs.evolves (hquiet.after (.refl s))

theorem numbered_run {cs : List Call} :
    ∀ {s : State}, s.Numbered → (Call.run (library gpus) cs s).Numbered := by
  induction cs with
  | nil => intro s hs; exact hs
  | cons c cs ih => intro s hs; exact ih ((numbers_step gpus s c).numbered hs)

theorem State.Taped.run {cs : List Call} :
    ∀ {s : State}, s.Taped → s.Numbered →
      (∀ p ∈ Call.trace (library gpus) cs s, namesOutputs p.1 = true →
        (p.1.step (library gpus) p.2).tape.nodes = p.2.tape.nodes) →
      (Call.run (library gpus) cs s).Taped := by
  induction cs with
  | nil => intro s hs _ _; exact hs
  | cons c cs ih =>
    intro s hs hnum h
    have hstep := hs.step hnum c (h (c, s) List.mem_cons_self)
    have hnum' := (numbers_step gpus s c).numbered hnum
    exact ih hstep hnum' fun p hp => h p (List.mem_cons_of_mem _ hp)

theorem backward_ok (hs : s.Orderly) {heads : List Handle} {headGradients : List (Option Handle)}
    {retain : Bool} (h : backward .asMarked heads headGradients retain s = .ok () t) :
    ∃ seeds, seedsOf s.drained heads headGradients = .ok seeds ∧
      Tape.backward s.drained.memory s.tape.nodes s.tape.marks seeds = .ok t.memory := by
  unfold backward at h
  rw [hs.drain_bind] at h
  obtain ⟨seeds, u, hquery, h⟩ := bind_ok.1 h
  obtain ⟨hseeds, rfl⟩ := query_ok.1 hquery
  obtain ⟨_, _, hget, h⟩ := bind_ok.1 h
  cases hget
  obtain ⟨_, _, hmodify, h⟩ := bind_ok.1 h
  cases hmodify
  have hpass := transition_ok.1 h
  obtain ⟨memory, hmemory, ht⟩ := bind_eq_ok.1 hpass
  obtain rfl := congrArg Prod.snd (pure_eq_ok.1 ht)
  have hmarks : (s.drained.tape.afterPass retain).marks = s.tape.marks := by cases retain <;> rfl
  rw [← hmarks]
  exact ⟨seeds, hseeds, hmemory⟩

/-- Let a tape hold nothing but operators whose outputs the engine allocated: since it was last
empty, no call that named outputs was recorded. Then every pass over it that succeeds, from any
heads and seeds, delivers the solution of the adjoint equations. The engine's own passes are such
passes. -/
theorem backward_solves [HalfPrecision] (gpus : Nat) (before after : List Call)
    (hclear : (Call.run (library gpus) before .initial).tape.nodes = [])
    (hallocated : ∀ p ∈ Call.trace (library gpus) after (Call.run (library gpus) before .initial),
      namesOutputs p.1 = true → (p.1.step (library gpus) p.2).tape.nodes = p.2.tape.nodes) :
    let s := Call.run (library gpus) after (Call.run (library gpus) before .initial)
    (∀ m marks seeds m', Tape.backward m s.tape.nodes marks seeds = .ok m' →
      ∃ gs, Tape.gradients m s.tape.nodes seeds = .ok gs ∧ Solved m s.tape.nodes seeds gs ∧
        m' = marks.entries.foldl (fun m e => e.2.deliver gs m e.1) m) ∧
    ∀ heads headGradients retain training t,
      (library gpus).backward heads headGradients retain training s = .ok () t →
        ∃ seeds, seedsOf s.drained heads headGradients = .ok seeds ∧
          Tape.backward s.drained.memory s.tape.nodes s.tape.marks seeds = .ok t.memory := by
  intro s
  have hnum : (Call.run (library gpus) before .initial).Numbered := numbered_run nofun
  have htaped : s.Taped := (taped_of_nil hclear).run hnum hallocated
  refine ⟨fun m marks seeds m' h => ?_, fun heads headGradients retain training t h => ?_⟩
  · obtain ⟨gs, hgs, hm⟩ := bind_eq_ok.1 h
    exact ⟨gs, hgs, htaped.ascending.solved htaped.accepted hgs, (pure_eq_ok.1 hm).symm⟩
  · exact backward_ok (orderly_run (orderly_run orderly_initial)) h

end

open Interchange

/-- A square that is cut in two, with one of the parts as the head. -/
theorem backward_solves_square :
    let calls : List Call := [.setRecording true, .create .cpu ⟨[2]⟩ .f32 .dense false,
      .invoke ⟨(Operator.pairwise .mul).number⟩ [⟨1⟩, ⟨1⟩] none .empty,
      .invoke ⟨Operator.split.number⟩ [⟨2⟩] none ⟨[("axis", .int 0), ("num_outputs", .int 2)]⟩]
    let s := Call.run (library 0) calls (Call.run (library 0) [] .initial)
    ∃ gs, (gs.get? 1).isSome = true ∧ Solved s.drained.memory s.tape.nodes [(3, [.one])] gs := by
  intro calls s
  have hallocated : ∀ p ∈ Call.trace (library 0) calls (Call.run (library 0) [] .initial),
      namesOutputs p.1 = true → (p.1.step (library 0) p.2).tape.nodes = p.2.tape.nodes := by
    decide +kernel
  have hpass : (match Tape.gradients s.drained.memory s.tape.nodes [(3, [.one])] with
      | .ok gs => (gs.get? 1).isSome
      | .error _ => false) = true := by decide +kernel
  have hsolves := (backward_solves 0 [] calls rfl hallocated).1 s.drained.memory s.tape.marks
    [(3, [.one])]
  cases hgs : Tape.gradients s.drained.memory s.tape.nodes [(3, [.one])] with
  | error e =>
    rw [hgs] at hpass
    exact absurd hpass nofun
  | ok gs =>
    rw [hgs] at hpass
    obtain ⟨gs', hgs', hsolved, -⟩ := hsolves _ (bind_eq_ok.2 ⟨gs, hgs, rfl⟩)
    obtain rfl : gs = gs' := Except.ok.inj (hgs.symm.trans hgs')
    exact ⟨gs, hpass, hsolved⟩

end Reference
end ScopedTensor
