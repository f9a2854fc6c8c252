import ScopedTensor.Element.Interchange
import ScopedTensor.Proofs.Adjoint.DataFlow
import ScopedTensor.Proofs.Adjoint.Frames
import ScopedTensor.Proofs.Adjoint.Operands

/-! Gradients of what was computed. A pass reads its operands when it is made, not when the
operators ran, and in between their cells may have been written. Along a run it is kept for each
recorded operator what memory was like when the operator ran and what has been written since;
gradients come out as they should as long as nothing was written that they are made of. -/

namespace ScopedTensor

open Binary Gradients

/-- When an operator ran: the memory that it found, the one that it left, and the views through
which has been written since. -/
structure Moment where
  before : Memory
  after : Memory
  since : List View

def Moment.wrote (ws : List View) (k : Moment) : Moment := { k with since := k.since ++ ws }

namespace Node

/-- What a node hands to its inputs, made of what was in its operands when it ran. -/
def contributionsThen (k : Moment) (n : Node) (gs : List (Option Values)) :
    Except Error (List (Option Values)) :=
  n.op.gradient n.params (n.inputs.map (Tracked.operand k.before))
    (n.outputs.map (Tracked.operand k.after)) gs

def visitThen (k : Moment) (gs : Gradients) (n : Node) : Except Error Gradients :=
  if (n.outputGradients gs.get?).all Option.isNone then .ok gs
  else (n.contributionsThen k (n.outputGradients gs.get?)).map fun cs =>
    gs.accumulateAll (n.inputs.zip cs)

end Node

/-- The gradients of the computation that was recorded, whatever is in memory by now. -/
def Tape.gradientsThen (past : List (Node × Moment)) (seeds : List (Nat × Values)) :
    Except Error Gradients :=
  past.reverse.foldlM (fun gs p => p.1.visitThen p.2 gs) (Gradients.seeded seeds)

/-- A moment that led to memory `m`. -/
structure Moment.LeadsTo (m : Memory) (k : Moment) (n : Node) : Prop where
  inputs : ∀ i ∈ n.inputs, i.view.buffer < k.before.buffers.length
  outputs : ∀ o ∈ n.outputs, o.view.buffer < k.after.buffers.length
  before : Memory.Writes (n.outputs.map Tracked.view ++ k.since) k.before m
  after : Memory.Writes k.since k.after m

/-- Nothing was written to the numbers that a node's gradients are made of: not to its outputs since
it ran, nor to its inputs, by itself or since. -/
structure Moment.Intact (k : Moment) (n : Node) : Prop where
  inputs : n.op.looksAtInputs = true →
    ∀ i ∈ n.inputs, ∀ w ∈ n.outputs.map Tracked.view ++ k.since, i.view.Apart w
  outputs : n.op.looksAtOutputs = true → ∀ o ∈ n.outputs, ∀ w ∈ k.since, o.view.Apart w

instance (k : Moment) (n : Node) : Decidable (k.Intact n) :=
  decidable_of_iff (_ ∧ _) ⟨fun h => ⟨h.1, h.2⟩, fun h => ⟨h.inputs, h.outputs⟩⟩

variable {m m' : Memory} {k : Moment} {n : Node} {gs gs' : Gradients} {f : Nat → Option Values}
variable {past : List (Node × Moment)} {seeds : List (Nat × Values)}

theorem alike_of_writes {ws : List View} {looks : Bool} {ts : List Tracked}
    (hw : Memory.Writes ws m m') (hbound : ∀ t ∈ ts, t.view.buffer < m.buffers.length)
    (happart : looks = true → ∀ t ∈ ts, ∀ w ∈ ws, t.view.Apart w) :
    List.Forall₂ (Operand.Alike looks) (ts.map (Tracked.operand m'))
      (ts.map (Tracked.operand m)) := by
  rw [List.forall₂_map_left_iff, List.forall₂_map_right_iff, List.forall₂_same]
  exact fun t ht => ⟨rfl, hw.length_read (hbound t ht),
    fun hlooks => hw.read_eq (hbound t ht) (happart hlooks t ht)⟩

theorem Moment.LeadsTo.contributions_eq (h : k.LeadsTo m n) (hk : k.Intact n)
    (gs : List (Option Values)) : n.contributions m gs = n.contributionsThen k gs :=
  Operator.gradient_congr (alike_of_writes h.before h.inputs hk.inputs)
    (alike_of_writes h.after h.outputs hk.outputs) gs

theorem Moment.LeadsTo.visit_eq (h : k.LeadsTo m n) (hk : n.Reached gs.get? → k.Intact n) :
    n.visit m gs = n.visitThen k gs := by
  unfold Node.visit Node.visitThen
  simp only
  by_cases hn : n.Reached gs.get?
  · rw [h.contributions_eq (hk hn)]
    rfl
  · rw [Node.reached_iff, Bool.not_eq_false] at hn
    have hall : (n.outputs.map fun o => gs.get? o.id).all Option.isNone = true := hn
    rw [if_pos hn, if_pos hall]

theorem Tape.gradientsThen_cons (p : Node × Moment) :
    Tape.gradientsThen (p :: past) seeds =
      Tape.gradientsThen past seeds >>= fun gs => p.1.visitThen p.2 gs := by
  unfold Tape.gradientsThen
  rw [List.reverse_cons, List.foldlM_append]
  refine bind_congr fun gs => ?_
  rw [List.foldlM_cons]
  exact bind_pure _

theorem gradientsThen_eq :
    ∀ {gs : Gradients}, Tape.gradients m (past.map Prod.fst) seeds = .ok gs →
      (∀ p ∈ past, p.2.LeadsTo m p.1) → (∀ p ∈ past, p.1.Reached f → p.2.Intact p.1) →
      (∀ id, (gs.get? id).isSome → (f id).isSome) → Tape.gradientsThen past seeds = .ok gs := by
  induction past with
  | nil => exact fun h _ _ _ => h
  | cons p past ih =>
    intro gs h hleads hintact hsub
    rw [List.map_cons, Tape.gradients_cons] at h
    obtain ⟨gs₀, hgs₀, hvisit⟩ := bind_eq_ok.1 h
    have hsub₀ := fun id hid => hsub id (Node.isSome_of_visit hvisit id hid)
    have hrest := ih hgs₀ (fun q hq => hleads q (List.mem_cons_of_mem _ hq))
      (fun q hq => hintact q (List.mem_cons_of_mem _ hq)) hsub₀
    have hp := hleads p List.mem_cons_self
    rw [hp.visit_eq fun hn => hintact p List.mem_cons_self (hn.mono hsub₀)] at hvisit
    rw [Tape.gradientsThen_cons]
    exact bind_eq_ok.2 ⟨gs₀, hrest, hvisit⟩

theorem Moment.LeadsTo.step {ws : List View} (h : k.LeadsTo m n) (hw : Memory.Writes ws m m') :
    (k.wrote ws).LeadsTo m' n where
  inputs := h.inputs
  outputs := h.outputs
  before := by
    unfold wrote
    rw [← List.append_assoc]
    exact (h.before.mono fun _ => List.mem_append_left _).trans
      (hw.mono fun _ => List.mem_append_right _)
  after := (h.after.mono fun _ => List.mem_append_left _).trans
    (hw.mono fun _ => List.mem_append_right _)

namespace Reference

open ScopedTensor.Action State Library

section

variable {half : HalfPrecision}

def remember [HalfPrecision] (gpus : Nat) (s : State) (c : Call) (past : List (Node × Moment)) :
    List (Node × Moment) :=
  let t := c.step (library gpus) s
  let past := past.map fun p => (p.1, p.2.wrote (written gpus s c))
  match t.tape.nodes[s.tape.nodes.length]? with
  | some n => past ++ [(n, ⟨s.drained.memory, t.drained.memory, []⟩)]
  | none => past.take t.tape.nodes.length

/-- The recorded operators after some calls, with what memory was like when each of them ran and
what was written since. -/
def history [HalfPrecision] (gpus : Nat) (cs : List Call) : List (Node × Moment) :=
  (Call.trace (library gpus) cs .initial).foldl (fun past p => remember gpus p.2 p.1 past) []

variable {gpus : Nat} {s t : State}

/-- The tape, with moments that led to what is in memory once nothing waits. -/
structure Remembers [HalfPrecision] (s : State) (past : List (Node × Moment)) : Prop where
  nodes : past.map Prod.fst = s.tape.nodes
  leads : ∀ p ∈ past, p.2.LeadsTo s.drained.memory p.1

/-- A node that has just been recorded: it ran on what was in memory and wrote its outputs. -/
structure Ran [HalfPrecision] (s t : State) (n : Node) : Prop where
  inputs : ∀ i ∈ n.inputs, i.view.buffer < s.drained.memory.buffers.length
  outputs : ∀ o ∈ n.outputs, o.view.buffer < t.drained.memory.buffers.length
  writes : Memory.Writes (n.outputs.map Tracked.view) s.drained.memory t.drained.memory

theorem State.Orderly.ran_handIn (ho : s.Orderly) {h : OpHandle} {inputs hs : List Handle}
    {outputs : Option (List Handle)} {params : Params} {task : Task}
    (hin : handIn gpus h inputs outputs params s = .ok (hs, task, t)) :
    ∃ n, t.tape = s.tape.record n ∧ Ran s (t.enqueue task) n := by
  have htakes := ho.handIn_ok hin
  have hwrites := ho.writes_handIn hin
  have hlength := (htakes.orderly.enqueue htakes.sound).length_drained
  obtain ⟨op, -, hsubmit⟩ := bind_eq_ok.1 hin
  obtain ⟨entries, inferred, outs, u, hentries, -, houts, -, rfl, rfl⟩ := submit_eq_ok hsubmit
  obtain ⟨-, htape, -⟩ := outputsOf_numbers houts
  have hviews : (nodeOf op params inputs entries outs).outputs.map Tracked.view =
      outs.map Prod.snd := by
    unfold nodeOf
    rw [List.map_map]
    rfl
  refine ⟨_, by rw [htape], fun i hi => ?_, fun o hmem => ?_, by rw [hviews]; exact hwrites⟩
  · obtain ⟨p, hp, rfl⟩ := List.mem_map.1 hi
    obtain ⟨e, he, hv⟩ := List.mem_map.1 (List.of_mem_zip hp).2
    obtain ⟨x, -, hx⟩ := exists_of_mapM_eq_ok hentries he
    rw [ho.length_drained]
    exact hv ▸ ho.entry_bound hx
  · rw [hlength]
    exact htakes.sound.outputs o.view (hviews ▸ List.mem_map_of_mem hmem)

theorem nodes_step (gpus : Nat) (hs : s.Orderly) (c : Call) :
    (c.step (library gpus) s).tape.nodes = s.tape.nodes ∨
      (c.step (library gpus) s).tape.nodes = [] ∨
      ∃ n, (c.step (library gpus) s).tape.nodes = s.tape.nodes ++ [n] ∧
        Ran s (c.step (library gpus) s) n := by
  by_cases hinvoke : ∃ h inputs outputs params, c = .invoke h inputs outputs params
  · obtain ⟨h, inputs, outputs, params, rfl⟩ := hinvoke
    have hstep : (Call.invoke h inputs outputs params).step (library gpus) s = _ := step_invoke
    unfold after Action.transition accept at hstep
    cases hin : handIn gpus h inputs outputs params s with
    | error e =>
      rw [hin] at hstep
      exact .inl (by rw [hstep]; rfl)
    | ok r =>
      obtain ⟨hs', task, t⟩ := r
      rw [hin] at hstep
      obtain ⟨n, htape, hran⟩ := hs.ran_handIn hin
      have hnodes : (t.enqueue task).tape.nodes = (s.tape.record n).nodes := by rw [← htape]; rfl
      rw [hstep]
      simp only [Except.map, hnodes]
      unfold Tape.record
      split
      · exact .inr (.inr ⟨n, rfl, hran⟩)
      · exact .inl rfl
  · have hquiet := quiet_call gpus c fun h inputs outputs params hcall =>
      hinvoke ⟨h, inputs, outputs, params, hcall⟩
    rcases (hquiet.after (.refl s)).nodes with hn | hn
    · exact .inl hn
    · exact .inr (.inl hn)

theorem remembers_step (hs : s.Orderly) {past : List (Node × Moment)} (h : Remembers s past)
    (c : Call) : Remembers (c.step (library gpus) s) (remember gpus s c past) := by
  obtain ⟨old, hold⟩ : ∃ old, old = past.map fun p => (p.1, p.2.wrote (written gpus s c)) :=
    ⟨_, rfl⟩
  have hnodes : old.map Prod.fst = s.tape.nodes := by
    rw [← h.nodes, hold, List.map_map]
    rfl
  have hlength : old.length = s.tape.nodes.length := by rw [← hnodes, List.length_map]
  have hleads : ∀ p ∈ old, p.2.LeadsTo (c.step (library gpus) s).drained.memory p.1 := by
    intro p hp
    obtain ⟨q, hq, rfl⟩ := List.mem_map.1 (hold ▸ hp)
    exact (h.leads q hq).step (writes_step hs c)
  unfold remember
  simp only [← hold]
  rcases nodes_step gpus hs c with hn | hn | ⟨n, hn, hran⟩
  · rw [hn, List.getElem?_eq_none (Nat.le_refl _)]
    simp only
    rw [← hlength, List.take_length]
    exact ⟨hnodes.trans hn.symm, hleads⟩
  · rw [hn]
    exact ⟨hn.symm, nofun⟩
  · rw [hn, List.getElem?_append_right (Nat.le_refl _), Nat.sub_self]
    refine ⟨?_, fun p hp => ?_⟩
    · rw [hn, ← hnodes]
      exact List.map_append
    · rcases List.mem_append.1 hp with hp | hp
      · exact hleads p hp
      · rw [List.mem_singleton.1 hp]
        exact ⟨hran.inputs, hran.outputs, by simpa using hran.writes, .refl _⟩

theorem remembers_history [HalfPrecision] (gpus : Nat) (cs : List Call) :
    Remembers (Call.run (library gpus) cs .initial) (history gpus cs) := by
  have key : ∀ (cs : List Call) (s : State) (past : List (Node × Moment)), s.Orderly →
      Remembers s past → Remembers (Call.run (library gpus) cs s)
        ((Call.trace (library gpus) cs s).foldl (fun past p => remember gpus p.2 p.1 past) past) := by
    intro cs
    induction cs with
    | nil => exact fun _ _ _ h => h
    | cons c cs ih => exact fun s past hs h => ih _ _ (orderly_step hs c) (remembers_step hs h c)
  exact key cs .initial [] orderly_initial ⟨rfl, nofun⟩

/-- Let a pass of the engine succeed, over whatever its calls have recorded. If the numbers that the
gradients of the operators it visits are made of have not been written since these ran, nor an
operator's inputs by itself, then the pass delivers the gradients of the computation as it was
recorded. Writes to all other operands make no difference. -/
theorem backward_differentiates_recorded [HalfPrecision] (gpus : Nat) (calls : List Call)
    (heads : List Handle) (headGradients : List (Option Handle)) (retain training : Bool)
    (t : State) (h : (library gpus).backward heads headGradients retain training
      (Call.run (library gpus) calls .initial) = .ok () t) :
    let s := Call.run (library gpus) calls .initial
    (history gpus calls).map Prod.fst = s.tape.nodes ∧
    ∃ seeds gs, seedsOf s.drained heads headGradients = .ok seeds ∧
      Tape.gradients s.drained.memory s.tape.nodes seeds = .ok gs ∧
      t.memory = s.tape.marks.entries.foldl (fun m e => e.2.deliver gs m e.1) s.drained.memory ∧
      ((∀ p ∈ history gpus calls, p.1.Reached gs.get? → p.2.Intact p.1) →
        Tape.gradientsThen (history gpus calls) seeds = .ok gs) := by
  intro s
  have hpast := remembers_history gpus calls
  obtain ⟨seeds, hseeds, hpass⟩ := backward_ok (orderly_run orderly_initial) h
  obtain ⟨gs, hgs, hmemory⟩ := bind_eq_ok.1 hpass
  refine ⟨hpast.nodes, seeds, gs, hseeds, hgs, (pure_eq_ok.1 hmemory).symm, fun hintact => ?_⟩
  rw [← hpast.nodes] at hgs
  exact gradientsThen_eq hgs hpast.leads hintact fun _ hid => hid

end

open Interchange

/-- The largest of some numbers turned negative, after which the numbers themselves change. -/
theorem backward_differentiates_recorded_changed :
    let bytes (xs : Values) : Bytes := ElementType.f64.encode xs
    let calls : List Call := [.create .cpu ⟨[2]⟩ .f64 .dense false,
      .copyIn ⟨1⟩ (bytes [.one, .zero]) 2, .setRecording true,
      .invoke ⟨Operator.negative.number⟩ [⟨1⟩] none .empty,
      .invoke ⟨(Operator.reduce .max).number⟩ [⟨2⟩] none .empty,
      .copyIn ⟨1⟩ (bytes [.zero, .one]) 2]
    let s := Call.run (library 0) calls .initial
    ∃ (t : State) (gs : Gradients),
      (library 0).backward [⟨3⟩] [] false true s = .ok () t ∧
      (∀ p ∈ history 0 calls, p.1.Reached gs.get? → p.2.Intact p.1) ∧
      (history 0 calls).map (fun p => p.2.since) = [[⟨0, 0, ⟨[2]⟩, .f64⟩], [⟨0, 0, ⟨[2]⟩, .f64⟩]] ∧
      Tape.gradientsThen (history 0 calls) [(3, [.one])] = .ok gs := by
  intro bytes calls s
  obtain ⟨_, ht⟩ := Action.exists_ok (by decide +kernel :
    ((library 0).backward [⟨3⟩] [] false true).succeeds s = true)
  obtain ⟨-, seeds, gs, hseeds, -, -, hgradients⟩ :=
    backward_differentiates_recorded 0 calls [⟨3⟩] [] false true _ ht
  have hintact : ∀ p ∈ history 0 calls, p.2.Intact p.1 := by decide +kernel
  have hone : seedsOf s.drained [⟨3⟩] [] = .ok [(3, [.one])] :=
    eq_ok_of_toOption (by decide +kernel)
  obtain rfl := Except.ok.inj (hone.symm.trans hseeds)
  exact ⟨_, gs, ht, fun p hp _ => hintact p hp, by decide +kernel,
    hgradients fun p hp _ => hintact p hp⟩

/-- Without that condition it fails: which of two numbers was the larger is looked up when the pass
is made, after the two have changed places. -/
theorem overwritten_operand_differentiated :
    let bytes (xs : Values) : Bytes := ElementType.f64.encode xs
    let two : Binary64 := .ofNat 2
    let calls : List Call := [.create .cpu ⟨[2]⟩ .f64 .dense false,
      .create .cpu ⟨[2]⟩ .f64 .dense false, .copyIn ⟨1⟩ (bytes [.one, two]) 2,
      .markVariables [⟨1⟩] [.write] [⟨2⟩], .setRecording true,
      .invoke ⟨(Operator.reduce .max).number⟩ [⟨1⟩] none .empty,
      .copyIn ⟨1⟩ (bytes [two, .one]) 2]
    let s := Call.run (library 0) calls .initial
    ∃ (t : State) (gs : Gradients),
      (library 0).backward [⟨3⟩] [] false true s = .ok () t ∧
      seedsOf s.drained [⟨3⟩] [] = .ok [(3, [.one])] ∧
      Tape.gradientsThen (history 0 calls) [(3, [.one])] = .ok gs ∧
      gs.get? 1 = some [.zero, .one] ∧
      t.memory.read ⟨1, 0, ⟨[2]⟩, .f64⟩ = [.one, .zero] := by
  intro bytes two calls s
  obtain ⟨_, ht⟩ := Action.exists_ok (by decide +kernel :
    ((library 0).backward [⟨3⟩] [] false true).succeeds s = true)
  obtain ⟨gs, hgs, hvalues⟩ := exists_ok_of_any (by decide +kernel :
    (Tape.gradientsThen (history 0 calls) [(3, [.one])]).toOption.any (fun gs =>
        gs.get? 1 = some [.zero, .one]) = true)
  exact ⟨_, gs, ht, eq_ok_of_toOption (by decide +kernel), hgs, of_decide_eq_true hvalues,
    by decide +kernel⟩

end Reference
end ScopedTensor
