import ScopedTensor.Memory
import ScopedTensor.Operator.Evaluation
import ScopedTensor.Table
import ScopedTensor.Value.Storage

/-! What is recorded for gradients: the operators that ran while recording was on, oldest first, and
the variables that want a gradient with the buffer it goes to. -/

namespace ScopedTensor

/-- An array as an operator saw it: its handle's number and its cells. -/
structure Tracked where
  id : Nat
  view : View
  deriving DecidableEq

structure Node where
  op : Operator
  params : Params
  inputs : List Tracked
  outputs : List Tracked
  deriving DecidableEq

structure Mark where
  request : GradRequest
  gradient : View
  deriving DecidableEq

structure Tape where
  nodes : List Node
  marks : Table Mark
  recording : Bool
  training : Bool

namespace Tape

def empty : Tape := ⟨[], .empty, false, false⟩

variable (t : Tape)

def record (n : Node) : Tape := if t.recording then { t with nodes := t.nodes ++ [n] } else t

/-- Leaving a recording section drops what was recorded in it. -/
def setRecording (on : Bool) : Tape :=
  { t with
    recording := on
    nodes := if t.recording && !on then [] else t.nodes }

def setTraining (on : Bool) : Tape := { t with training := on }

def mark (id : Nat) (m : Mark) : Tape := { t with marks := t.marks.insert id m }

def unmark (id : Nat) : Tape := { t with marks := t.marks.erase id }

def afterPass (retain : Bool) : Tape := if retain then t else { t with nodes := [] }

@[simp] theorem marks_record (n : Node) : (t.record n).marks = t.marks := by
  unfold record
  split <;> rfl

@[simp] theorem marks_afterPass (retain : Bool) : (t.afterPass retain).marks = t.marks := by
  unfold afterPass
  split <;> rfl

theorem nodes_afterPass (retain : Bool) :
    (t.afterPass retain).nodes = t.nodes ∨ (t.afterPass retain).nodes = [] := by
  unfold afterPass
  cases retain
  · exact .inr rfl
  · exact .inl rfl

variable {t}

theorem mem_nodes_record {m n : Node} (h : m ∈ (t.record n).nodes) : m ∈ t.nodes ∨ m = n := by
  unfold record at h
  split at h
  · exact (List.mem_append.1 h).imp id List.mem_singleton.1
  · exact .inl h

end Tape
end ScopedTensor
