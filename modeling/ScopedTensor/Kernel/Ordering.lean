import ScopedTensor.Kernel.Lane
import ScopedTensor.Sorting.Runs

/-! Lane-wise normalization and ordering: softmax with its gradient, and the positions that would
sort a lane. -/

namespace ScopedTensor

open Binary

namespace Softmax

def ofLane (temperature : Binary64) (xs : Values) : Values :=
  let largest := xs.foldl Binary64.larger .negativeInfinity
  let es := xs.map fun x => ((x - largest) / temperature).exp
  let total := es.foldl (· + ·) Binary64.zero
  es.map (· / total)

def gradientOfLane (temperature : Binary64) (ys gs : Values) : Values :=
  let dot := Binary.sum (gs.zipWith (· * ·) ys)
  ys.zipWith (fun y g => y * (g - dot) / temperature) gs

def apply (xs : Values) (dims : List Nat) (axis : Nat) (temperature : Binary64) : Values :=
  (Extents.around dims axis).mapLanes (ofLane temperature) xs

def gradient (ys gs : Values) (dims : List Nat) (axis : Nat) (temperature : Binary64) : Values :=
  let e := Extents.around dims axis
  e.assemble ((e.lanes ys).zipWith (gradientOfLane temperature) (e.lanes gs))

end Softmax

namespace Argsort

/-- Whether an element comes before another, both with their positions. What is no number stands in
no order. -/
def precedes (ascending : Bool) (a b : Binary64 × Nat) : Bool :=
  if ascending then a.1.less b.1 else b.1.less a.1

/-- Numbers have one stable order, whatever sorts them. With something else among them the procedure
decides, and it may give up. -/
def order (ascending : Bool) (xs : Values) : Option (List Nat) :=
  let less := precedes ascending
  let sorted :=
    if xs.any Binary64.isNaN then Sorting.sort less xs.zipIdx
    else some (xs.zipIdx.mergeSort fun a b => !less b a)
  sorted.map (List.map Prod.snd)

def ofLane (ascending : Bool) (xs : Values) : Option Values :=
  (order ascending xs).map (List.map Binary64.ofNat)

def apply (xs : Values) (dims : List Nat) (axis : Nat) (ascending : Bool) : Option Values :=
  (Extents.around dims axis).mapLanes? (ofLane ascending) xs

end Argsort
end ScopedTensor
