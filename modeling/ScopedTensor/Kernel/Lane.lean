import ScopedTensor.Binary.Double

/-! An array seen around one of its axes as outer blocks, positions along the axis and inner
positions. A lane is what one outer and one inner position leave: the elements along the axis. A
chunk is what an equal part of the axis leaves. -/

namespace ScopedTensor

open Binary

abbrev Values := List Binary64

structure Extents where
  outer : Nat
  length : Nat
  inner : Nat
  deriving DecidableEq

namespace Extents

def product (dims : List Nat) : Nat := dims.foldr (· * ·) 1

def around (dims : List Nat) (axis : Nat) : Extents :=
  ⟨product (dims.take axis), dims.getD axis 1, product (dims.drop (axis + 1))⟩

def whole (n : Nat) : Extents := ⟨1, n, 1⟩

variable (e : Extents)

def size : Nat := e.outer * e.length * e.inner

def index (outer k inner : Nat) : Nat := (outer * e.length + k) * e.inner + inner

/-- The number of the lane that a position lies on; lanes count the inner position fastest. -/
def laneOf (position : Nat) : Nat :=
  position / (e.length * e.inner) * e.inner + position % e.inner

def placeOf (position : Nat) : Nat := position / e.inner % e.length

def lane (xs : Values) (outer inner : Nat) : Values :=
  (List.range e.length).map fun k => xs.getD (e.index outer k inner) .zero

def lanes (xs : Values) : List Values :=
  (List.range e.outer).flatMap fun o => (List.range e.inner).map fun i => e.lane xs o i

def assemble (rows : List Values) : Values :=
  (List.range e.size).map fun p => (rows.getD (e.laneOf p) []).getD (e.placeOf p) .zero

def mapLanes (f : Values → Values) (xs : Values) : Values := e.assemble ((e.lanes xs).map f)

/-- Lanes are put back only if there is a row for every one of them. -/
def mapLanes? (f : Values → Option Values) (xs : Values) : Option Values :=
  ((e.lanes xs).mapM f).map e.assemble

def foldLanes (f : Values → Binary64) (xs : Values) : Values := (e.lanes xs).map f

def chunkSize (parts : Nat) : Nat := e.length / parts * e.inner

def split (parts : Nat) (xs : Values) : List Values :=
  (List.range parts).map fun p =>
    (List.range e.outer).flatMap fun o =>
      (xs.drop (o * e.length * e.inner + p * e.chunkSize parts)).take (e.chunkSize parts)

def concat (parts : List Values) : Values :=
  let n := e.chunkSize (Nat.max parts.length 1)
  (List.range e.outer).flatMap fun o => parts.flatMap fun part => (part.drop (o * n)).take n

theorem length_lane (xs : Values) (o i : Nat) : (e.lane xs o i).length = e.length := by
  simp [lane]

theorem length_lanes (xs : Values) : (e.lanes xs).length = e.outer * e.inner := by
  simp [lanes, List.length_flatMap, List.map_const']

theorem length_assemble (rows : List Values) : (e.assemble rows).length = e.size := by
  simp [assemble]

end Extents
end ScopedTensor
