/-! Stable sorting of short lists by a comparison. Where the comparison is an order, every stable
sort gives the same list. Where it is none, the outcome hangs on which elements are compared with
which, so each procedure is meant exactly as it stands, and may notice and give up. -/

namespace ScopedTensor.Sorting

variable {α : Type} (less : α → α → Bool)

def insertBack (x : α) : List α → List α
  | [] => [x]
  | y :: ys => if less x y then y :: insertBack x ys else x :: y :: ys

def insertAll (sorted xs : List α) : List α :=
  (xs.foldl (fun done x => insertBack less x done) sorted.reverse).reverse

/-- Of equals, the left list's element comes first. -/
def mergeForward (l r : List α) : List α := l.merge r fun x y => !less y x

/-- The same from the back, where of equals the right list's element comes first. -/
def mergeBackward (l r : List α) : List α :=
  (r.reverse.merge l.reverse fun y x => !less y x).reverse

def merge (l r : List α) : List α :=
  if l.length ≤ r.length then mergeForward less l r else mergeBackward less l r

def draw (takesLeft : α → α → Bool) : Nat → List α → List α → List α × List α × List α
  | n + 1, x :: l, y :: r =>
    if takesLeft x y then
      let (drawn, rest) := draw takesLeft n l (y :: r)
      (x :: drawn, rest)
    else
      let (drawn, rest) := draw takesLeft n (x :: l) r
      (y :: drawn, rest)
  | _, l, r => ([], l, r)

/-- Merges from both ends at once, as many elements from each as the left list has; the right list
has at most one element more, which is left over in the middle. Ends that draw on the same elements
show that the comparison is no order: then the sort is given up, and nothing comes of it. -/
def meet (l r : List α) : Option (List α) :=
  let n := l.length
  let (front, l', r') := draw (fun x y => !less y x) n l r
  let (back, rightPart, leftPart) := draw (fun y x => !less y x) n r.reverse l.reverse
  let fromLeft := n - l'.length
  let fromRight := r.length - r'.length
  if fromLeft ≤ leftPart.length ∧ fromRight ≤ rightPart.length then
    some (front ++ leftPart.reverse.drop fromLeft ++ rightPart.reverse.drop fromRight ++
      back.reverse)
  else none

def four (p q r s : α) : List α :=
  let (a, b) := if less q p then (q, p) else (p, q)
  let (c, d) := if less s r then (s, r) else (r, s)
  let startsRight := less c a
  let endsLeft := less d b
  let first := if startsRight then c else a
  let last := if endsLeft then b else d
  let left := if startsRight then a else if endsLeft then c else b
  let right := if endsLeft then d else if startsRight then b else c
  if less right left then [first, right, left, last] else [first, left, right, last]

def seed : List α → Option (List α)
  | [a, b, c, d] => some (four less a b c d)
  | [a, b, c, d, e, f, g, h] => meet less (four less a b c d) (four less e f g h)
  | xs => some xs

def half (start : Nat) (xs : List α) : Option (List α) :=
  (seed less (xs.take start)).map fun ys => insertAll less ys (xs.drop start)

/-- Both halves start with eight, four or one sorted elements, and meet. -/
def short (xs : List α) : Option (List α) := do
  let n := xs.length
  let start := if 16 ≤ n then 8 else if 8 ≤ n then 4 else 1
  meet less (← half less start (xs.take (n / 2))) (← half less start (xs.drop (n / 2)))

end ScopedTensor.Sorting
