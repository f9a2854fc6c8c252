import ScopedTensor.Element.Interchange
import ScopedTensor.Proofs.Passes.Exact
import ScopedTensor.Proofs.Passes.Failures

/-! Lengths in a backward pass. At every moment of a pass each gradient is as long as the array it
is for, so a pass that pairs off only what is equally long, looks up only what is there and writes
only to buffers that it fills does the same. -/

namespace ScopedTensor

open Binary Gradients

namespace Exact

variable {half : HalfPrecision}

def accumulate (gs : Gradients) (id : Nat) (g : Values) : Option Gradients :=
  match gs.get? id with
  | some old => return gs.insert id (← zipWith (· + ·) old g)
  | none => some (gs.insert id g)

def accumulateAll (gs : Gradients) (cs : List (Tracked × Option Values)) : Option Gradients :=
  cs.foldlM (fun gs c => match c.2 with
    | some g => accumulate gs c.1.id g
    | none => some gs) gs

def seeded (seeds : List (Nat × Values)) : Option Gradients :=
  seeds.foldlM (fun gs s => accumulate gs s.1 s.2) .empty

def visit (m : Memory) (gs : Gradients) (n : Node) : Attempt Gradients :=
  let outputGradients := n.outputs.map fun o => gs.get? o.id
  if outputGradients.all Option.isNone then pure gs
  else do
    let cs ← gradient n.op n.params (n.inputs.map (Tracked.operand m))
      (n.outputs.map (Tracked.operand m)) outputGradients
    ExceptT.lift (accumulateAll gs (← ExceptT.lift (zipWith Prod.mk n.inputs cs)))

def gradients (m : Memory) (nodes : List Node) (seeds : List (Nat × Values)) :
    Attempt Gradients := do
  nodes.reverse.foldlM (visit m) (← ExceptT.lift (seeded seeds))

def deliver [HalfPrecision] (gs : Gradients) (m : Memory) (id : Nat) (mark : Mark) :
    Option Memory :=
  match gs.get? id with
  | none => some m
  | some g => if g.length = mark.gradient.size then some (mark.deliver gs m id) else none

def backward [HalfPrecision] (m : Memory) (nodes : List Node) (marks : Table Mark)
    (seeds : List (Nat × Values)) : Attempt Memory := do
  let gs ← gradients m nodes seeds
  ExceptT.lift (marks.entries.foldlM (fun m e => deliver gs m e.1 e.2) m)

theorem accumulate_eq {gs : Gradients} {id : Nat} {g : Values}
    (h : ∀ old, gs.get? id = some old → old.length = g.length) :
    accumulate gs id g = some (gs.accumulate id g) := by
  unfold accumulate Gradients.accumulate
  cases hold : gs.get? id with
  | none => rfl
  | some old =>
    have hlength := h old hold
    simp only
    rw [zipWith_eq hlength, ← hlength, List.drop_length, List.append_nil]
    rfl

theorem visit_of_reached {m : Memory} {gs : Gradients} {n : Node} (h : n.Reached gs.get?) :
    visit m gs n = gradient n.op n.params (n.inputs.map (Tracked.operand m))
      (n.outputs.map (Tracked.operand m)) (n.outputGradients gs.get?) >>= fun cs =>
        ExceptT.lift (zipWith Prod.mk n.inputs cs) >>= fun handed =>
          ExceptT.lift (accumulateAll gs handed) :=
  if_neg ((Bool.not_eq_true _).mpr (Node.reached_iff.1 h))

theorem visit_of_not_reached {m : Memory} {gs : Gradients} {n : Node} (h : ¬ n.Reached gs.get?) :
    visit m gs n = pure gs := if_pos (Node.not_reached_iff.1 h)

theorem deliver_eq {gs : Gradients} {id : Nat} {mark : Mark}
    (h : ∀ g, gs.get? id = some g → g.length = mark.gradient.size) (m : Memory) :
    deliver gs m id mark = some (mark.deliver gs m id) := by
  unfold deliver
  cases hg : gs.get? id with
  | none =>
    unfold Mark.deliver
    rw [hg]
  | some g => exact if_pos (h g hg)

theorem foldlM_deliver {gs : Gradients} {es : List (Nat × Mark)}
    (h : ∀ e ∈ es, ∀ g, gs.get? e.1 = some g → g.length = e.2.gradient.size) (m : Memory) :
    es.foldlM (fun m e => deliver gs m e.1 e.2) m =
      some (es.foldl (fun m e => e.2.deliver gs m e.1) m) := by
  induction es generalizing m with
  | nil => rfl
  | cons e es ih =>
    rw [List.foldlM_cons, deliver_eq (h e List.mem_cons_self)]
    exact ih (fun e he => h e (List.mem_cons_of_mem _ he)) _

end Exact

/-- A node that a pass comes to: the nodes recorded behind it have been visited, which gave the
gradients `gs`, some output has one, and the node's rule gives `cs` for its inputs. -/
structure Comes (m : Memory) (nodes : List Node) (seeds : List (Nat × Values)) (n : Node)
    (gs : Gradients) (cs : List (Option Values)) : Prop where
  behind : ∃ front late, nodes = front ++ n :: late ∧ Tape.gradients m late seeds = .ok gs
  reached : n.Reached gs.get?
  contributions : n.contributions m (n.outputGradients gs.get?) = .ok cs

/-- The gradients that a pass goes through, one seed and one contribution after the other. -/
inductive Arises (m : Memory) (nodes : List Node) (seeds : List (Nat × Values)) : Gradients → Prop
  | seed {front : List (Nat × Values)} (hfront : front <+: seeds) :
    Arises m nodes seeds (seeded front)
  | hand {n : Node} {gs : Gradients} {cs : List (Option Values)}
    {front : List (Tracked × Option Values)} (h : Comes m nodes seeds n gs cs)
    (hfront : front <+: n.inputs.zip cs) : Arises m nodes seeds (gs.accumulateAll front)

namespace Reference

open ScopedTensor.Action State Library

section

variable {half : HalfPrecision}
variable {gpus : Nat} {s : State} {m : Memory} {gs : Gradients} {n : Node}

theorem State.Measures.length_eq (h : s.Measures gs) {c : Nat × Values} (hc : s.Suits c)
    {old : Values} (hold : gs.get? c.1 = some old) : old.length = c.2.length := by
  obtain ⟨i, hi, hid, hlength⟩ := hc
  exact (h i hi old (hid ▸ hold)).trans hlength.symm

theorem State.Coherent.exact_take (hs : s.Coherent) (h : s.Fills gs) (cs : List (Nat × Values))
    (hcs : ∀ c ∈ cs, s.Suits c) :
    cs.foldlM (fun gs c => Exact.accumulate gs c.1 c.2) gs = some (gs.take cs) := by
  induction cs generalizing gs with
  | nil => rfl
  | cons c cs ih =>
    have hc := hcs c List.mem_cons_self
    rw [List.foldlM_cons, Exact.accumulate_eq fun old hold => (h.measures hs).length_eq hc hold]
    exact ih (h.accumulate hc) fun c hc => hcs c (List.mem_cons_of_mem _ hc)

theorem exact_accumulateAll (cs : List (Tracked × Option Values)) :
    ∀ gs : Gradients, Exact.accumulateAll gs cs =
      (received cs).foldlM (fun gs c => Exact.accumulate gs c.1 c.2) gs := by
  induction cs with
  | nil => exact fun _ => rfl
  | cons c cs ih =>
    intro gs
    obtain ⟨i, g⟩ := c
    cases g with
    | none => exact ih gs
    | some g =>
      unfold Exact.accumulateAll
      rw [List.foldlM_cons]
      exact bind_congr fun gs => ih gs

theorem State.Coherent.suits_received (hs : s.Coherent) (hm : ∀ i, s.Tells i → m.Fits i.view)
    (h : s.Fills gs) (hn : n ∈ s.tape.nodes) (hreached : n.Reached gs.get?)
    {cs : List (Option Values)} (hcs : n.contributions m (n.outputGradients gs.get?) = .ok cs) :
    ∀ c ∈ received (n.inputs.zip cs), s.Suits c := by
  intro c hc
  rw [← Node.handed_of_contributions hreached hcs] at hc
  exact hs.suits_handed hm (h.measures hs) hn (Node.visit_of_contributions fun _ => ⟨cs, hcs⟩) hc

theorem State.Coherent.exact_visit (hs : s.Coherent) (hm : ∀ i, s.Tells i → m.Fits i.view)
    (h : s.Fills gs) (hn : n ∈ s.tape.nodes) :
    Exact.visit m gs n = some (n.visit m gs) := by
  by_cases hreached : n.Reached gs.get?
  · obtain ⟨sigs, hsigs, hin, hout, hgs⟩ := hs.operands hm (h.measures hs) hn
    have hshapes : (n.inputs.map (Tracked.operand m)).map Operand.shape =
        (n.inputs.map fun i => i.view.signature).map Signature.shape := by
      rw [List.map_map, List.map_map]
      rfl
    have hrule := Exact.gradient_eq hsigs hshapes hin hout hgs
    rw [Node.visit_of_reached hreached, Exact.visit_of_reached hreached, hrule]
    refine Attempt.some_bind _ _ _ fun cs hcs => ?_
    have hlength := ((hs.filled n hn).accepted.passes hreached hcs).1
    have htaken : Exact.accumulateAll gs (n.inputs.zip cs) =
        some (gs.accumulateAll (n.inputs.zip cs)) := by
      rw [exact_accumulateAll, accumulateAll_eq_take]
      exact hs.exact_take h _ (hs.suits_received hm h hn hreached hcs)
    rw [Exact.zipWith_eq hlength.symm]
    change ExceptT.lift (Exact.accumulateAll gs (n.inputs.zip cs)) = _
    rw [htaken]
    rfl
  · rw [Node.visit_of_not_reached hreached, Exact.visit_of_not_reached hreached]
    rfl

theorem State.Coherent.exact_visits (hs : s.Coherent) (hm : ∀ i, s.Tells i → m.Fits i.view)
    (h : s.Fills gs) {visits : List Node} (hvisits : ∀ n ∈ visits, n ∈ s.tape.nodes) :
    visits.foldlM (Exact.visit m) gs = some (visits.foldlM (fun gs n => n.visit m gs) gs) := by
  induction visits generalizing gs with
  | nil => rfl
  | cons n visits ih =>
    have hn := hvisits n List.mem_cons_self
    rw [List.foldlM_cons, List.foldlM_cons, hs.exact_visit hm h hn]
    exact Attempt.some_bind _ _ _ fun gs' hvisit =>
      ih (hs.fills_visit hm h hn hvisit) fun n hn => hvisits n (List.mem_cons_of_mem _ hn)

theorem State.Coherent.exact_backward (hs : s.Coherent) (hm : ∀ i, s.Tells i → m.Fits i.view)
    {seeds : List (Nat × Values)} (hseeds : ∀ c ∈ seeds, s.Suits c) :
    Exact.backward m s.tape.nodes s.tape.marks seeds =
      some (Tape.backward m s.tape.nodes s.tape.marks seeds) := by
  have hseeded : Exact.seeded seeds = some (Gradients.seeded seeds) :=
    hs.exact_take (fills_empty s) seeds hseeds
  have hgs : Exact.gradients m s.tape.nodes seeds = some (Tape.gradients m s.tape.nodes seeds) := by
    unfold Exact.gradients
    rw [hseeded]
    exact hs.exact_visits hm ((fills_empty s).take seeds hseeds) fun n hn => List.mem_reverse.1 hn
  unfold Exact.backward
  rw [hgs]
  refine Attempt.some_bind _ _ _ fun gs hgs => ?_
  have hmeasures := (hs.fills_gradients hm hseeds (fun _ h => h) hgs).measures hs
  rw [Exact.foldlM_deliver fun e he g hg =>
    hs.length_delivered hmeasures (Table.get?_eq_some_of_mem hs.keys he) hg]
  rfl

/-- Where a pass comes to a node, the gradients suit their arrays, and what the rule gives suits the
inputs. -/
theorem State.Coherent.comes (hs : s.Coherent) (hm : ∀ i, s.Tells i → m.Fits i.view)
    {seeds : List (Nat × Values)} (hseeds : ∀ c ∈ seeds, s.Suits c) {cs : List (Option Values)}
    (h : Comes m s.tape.nodes seeds n gs cs) :
    n ∈ s.tape.nodes ∧ s.Fills gs ∧ ∀ c ∈ received (n.inputs.zip cs), s.Suits c := by
  obtain ⟨front, late, hnodes, hgs⟩ := h.behind
  have hmem : ∀ k ∈ n :: late, k ∈ s.tape.nodes := fun k hk => by
    rw [hnodes]
    exact List.mem_append_right _ hk
  have hn := hmem n List.mem_cons_self
  have hfills := hs.fills_gradients hm hseeds (fun k hk => hmem k (List.mem_cons_of_mem _ hk)) hgs
  exact ⟨hn, hfills, hs.suits_received hm hfills hn h.reached h.contributions⟩

theorem State.Coherent.fills_arises (hs : s.Coherent) (hm : ∀ i, s.Tells i → m.Fits i.view)
    {seeds : List (Nat × Values)} (hseeds : ∀ c ∈ seeds, s.Suits c)
    (h : Arises m s.tape.nodes seeds gs) : s.Fills gs := by
  cases h with
  | seed hfront =>
    rw [seeded_eq_take]
    exact (fills_empty s).take _ fun c hc => hseeds c (hfront.subset hc)
  | hand hcomes hfront =>
    obtain ⟨-, hfills, hsuits⟩ := hs.comes hm hseeds hcomes
    rw [accumulateAll_eq_take]
    exact hfills.take _ fun c hc => hsuits c ((hfront.filterMap _).subset hc)

theorem State.Coherent.fitting_comes (hs : s.Coherent) (hm : ∀ i, s.Tells i → m.Fits i.view)
    {seeds : List (Nat × Values)} (hseeds : ∀ c ∈ seeds, s.Suits c) {cs : List (Option Values)}
    (h : Comes m s.tape.nodes seeds n gs cs) :
    List.Forall₂ (fun (i : Tracked) (c : Option Values) => ∀ g, c = some g → g.length = i.view.size)
      n.inputs cs := by
  obtain ⟨hn, -, hsuits⟩ := hs.comes hm hseeds h
  have hcount := ((hs.filled n hn).accepted.passes h.reached h.contributions).1
  refine List.forall₂_iff_zip.2 ⟨hcount.symm, fun {i c} hp g hg => ?_⟩
  have hreceived : (i.id, g) ∈ received (n.inputs.zip cs) :=
    List.mem_filterMap.2 ⟨(i, c), hp, by rw [hg]; rfl⟩
  obtain ⟨j, hj, hid, hlength⟩ := hsuits _ hreceived
  have hi : s.Tells i := .node hn (List.mem_append_left _ (List.of_mem_zip hp).1)
  exact hlength.trans (congrArg View.size (hs.one j i hj hi hid))

/-- A backward pass after any calls, over whatever they recorded. Each rule it applies gives one
entry for each input, none or as long as the input; at every moment each gradient is for an array
and as long as it; and what reaches a marked variable is as long as the buffer it goes to. So the
pass with all lengths checked is never stopped, and does what the engine does. -/
theorem backward_exact [HalfPrecision] (gpus : Nat) (calls : List Call) (heads : List Handle)
    (headGradients : List (Option Handle)) (seeds : List (Nat × Values))
    (hseeds : seedsOf (Call.run (library gpus) calls .initial).drained heads headGradients =
      .ok seeds) :
    let r := Call.run (library gpus) calls .initial
    let s := r.drained
    (∀ n gs cs, Comes s.memory s.tape.nodes seeds n gs cs →
      List.Forall₂ (fun (i : Tracked) (c : Option Values) =>
        ∀ g, c = some g → g.length = i.view.size) n.inputs cs) ∧
    (∀ gs, Arises s.memory s.tape.nodes seeds gs → s.Fills gs ∧ s.Measures gs) ∧
    (∀ gs, Tape.gradients s.memory s.tape.nodes seeds = .ok gs → ∀ id k g,
      s.tape.marks.get? id = some k → gs.get? id = some g → g.length = k.gradient.size) ∧
    ∃ out, Exact.backward s.memory s.tape.nodes s.tape.marks seeds = some out ∧
      ∀ retain training, let c : Call := .backward heads headGradients retain training
        match out with
        | .ok memory => c.reply (library gpus) r = .ok .done ∧
            (c.step (library gpus) r).memory = memory
        | .error e => c.reply (library gpus) r = .error e ∧
            (c.step (library gpus) r).memory = s.memory := by
  intro r s
  have hcoherent : s.Coherent := (coherent_run gpus calls).congr rfl rfl rfl
  have hbounded : r.Bounded := bounded_run gpus calls
  have hm : ∀ i, s.Tells i → s.memory.Fits i.view := fun i hi => hbounded.fits_drained hi
  have hsuits : ∀ c ∈ seeds, s.Suits c := fun c hc => suits_seed hseeds hc
  refine ⟨fun n gs cs h => hcoherent.fitting_comes hm hsuits h, fun gs h => ?_,
    fun gs hgs id k g hk hg => ?_, _, hcoherent.exact_backward hm hsuits,
    fun retain training => ?_⟩
  · have hfills := hcoherent.fills_arises hm hsuits h
    exact ⟨hfills, hfills.measures hcoherent⟩
  · have hfills := hcoherent.fills_gradients hm hsuits (fun _ h => h) hgs
    exact hcoherent.length_delivered (hfills.measures hcoherent) hk hg
  · have hcall := backward_answers gpus (orderly_run orderly_initial) hseeds retain training
    change match Tape.backward s.memory s.tape.nodes s.tape.marks seeds with
      | .ok memory => _ ∧ _
      | .error e => _ ∧ _ at hcall
    cases hpass : Tape.backward s.memory s.tape.nodes s.tape.marks seeds with
    | ok memory =>
      rw [hpass] at hcall
      exact ⟨hcall.1, by rw [hcall.2]⟩
    | error e =>
      rw [hpass] at hcall
      exact ⟨hcall.1, by rw [hcall.2]⟩

end

open Interchange

/-- A softmax copied into an array of another shape, which is then cut with the axis dropped. -/
theorem backward_exact_copied :
    let calls : List Call := [.create .cpu ⟨[2, 3]⟩ .f64 .dense false,
      .create .cpu ⟨[2, 3]⟩ .f64 .dense false, .create .cpu ⟨[3, 2]⟩ .f32 .dense false,
      .markVariables [⟨1⟩] [.add] [⟨2⟩], .setRecording true,
      .invoke ⟨Operator.softmax.number⟩ [⟨1⟩] none .empty,
      .invoke ⟨Operator.copyTo.number⟩ [⟨4⟩] (some [⟨3⟩]) .empty,
      .invoke ⟨Operator.split.number⟩ [⟨3⟩] none
        ⟨[("num_outputs", .int 2), ("squeeze_axis", .bool true)]⟩,
      .invoke ⟨(Operator.reduce .max).number⟩ [⟨6⟩] none .empty]
    let r := Call.run (library 0) calls .initial
    let s := r.drained
    seedsOf s [⟨7⟩] [] = .ok [(7, [.one])] ∧
      ∃ memory,
        Exact.backward s.memory s.tape.nodes s.tape.marks [(7, [.one])] = some (.ok memory) ∧
        ((Call.backward [⟨7⟩] [] false true).step (library 0) r).memory = memory := by
  intro calls r s
  have hseeds : seedsOf s [⟨7⟩] [] = .ok [(7, [.one])] := eq_ok_of_toOption (by decide +kernel)
  have hreply : (Call.backward [⟨7⟩] [] false true).reply (library 0) r = .ok .done :=
    eq_ok_of_toOption (by decide +kernel)
  obtain ⟨-, -, -, out, hexact, hcall⟩ := backward_exact 0 calls [⟨7⟩] [] _ hseeds
  cases out with
  | ok memory => exact ⟨hseeds, memory, hexact, (hcall false true).2⟩
  | error e => exact absurd (hreply.symm.trans (hcall false true).1) nofun

end Reference
end ScopedTensor
