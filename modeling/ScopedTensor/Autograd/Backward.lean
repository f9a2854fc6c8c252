import ScopedTensor.Autograd.Tape

/-! The backward pass. Gradients are gathered per array number, from the heads' seeds on and through
the nodes from the latest to the earliest; only at the end are they written into the buffers of the
marked variables, so a pass that fails writes nothing. -/

namespace ScopedTensor

open Binary

abbrev Gradients := Table Values

namespace Gradients

/-- A further contribution adds to what is there, element by element. -/
def accumulate (gs : Gradients) (id : Nat) (g : Values) : Gradients :=
  match gs.get? id with
  | some old => gs.insert id (old.zipWith (· + ·) g ++ old.drop g.length)
  | none => gs.insert id g

def accumulateAll (gs : Gradients) (contributions : List (Tracked × Option Values)) : Gradients :=
  contributions.foldl (fun gs c => match c.2 with
    | some g => gs.accumulate c.1.id g
    | none => gs) gs

def seeded (seeds : List (Nat × Values)) : Gradients :=
  seeds.foldl (fun gs s => gs.accumulate s.1 s.2) .empty

end Gradients

def Tracked.operand (m : Memory) (t : Tracked) : Operand := ⟨m.read t.view, t.view.shape⟩

namespace Node

/-- What the node hands to its inputs, given the gradients of its outputs. -/
def contributions (m : Memory) (n : Node) (gs : List (Option Values)) :
    Except Error (List (Option Values)) :=
  n.op.gradient n.params (n.inputs.map (Tracked.operand m)) (n.outputs.map (Tracked.operand m)) gs

/-- A node none of whose outputs has a gradient is passed over. -/
def visit (m : Memory) (gs : Gradients) (n : Node) : Except Error Gradients :=
  let outputGradients := n.outputs.map fun o => gs.get? o.id
  if outputGradients.all Option.isNone then .ok gs
  else (n.contributions m outputGradients).map fun cs => gs.accumulateAll (n.inputs.zip cs)

end Node

namespace Tape

def gradients (m : Memory) (nodes : List Node) (seeds : List (Nat × Values)) :
    Except Error Gradients :=
  nodes.reverse.foldlM (fun gs n => n.visit m gs) (Gradients.seeded seeds)

end Tape

def Mark.deliver [HalfPrecision] (gs : Gradients) (m : Memory) (id : Nat) (mark : Mark) : Memory :=
  match gs.get? id with
  | none => m
  | some g =>
    match mark.request with
    | .skip => m
    | .write => m.write mark.gradient g
    | .add => m.accumulate mark.gradient g

/-- Marks are served in the order of the table. The map they stand for promises no order, so that
what shares cells may be left otherwise. -/
def Tape.backward [HalfPrecision] (m : Memory) (nodes : List Node) (marks : Table Mark)
    (seeds : List (Nat × Values)) : Except Error Memory := do
  let gs ← gradients m nodes seeds
  return marks.entries.foldl (fun m e => e.2.deliver gs m e.1) m

end ScopedTensor
