import ScopedTensor.Sorting.Short

/-! Stable sorting of lists of any length by a comparison that need not be an order: runs that are
there already are kept, the stretches between them are sorted by splitting them around pivots, and
neighbours are merged in an even tree. -/

namespace ScopedTensor.Sorting

variable {α : Type} (less : α → α → Bool)

/-- A stretch of the list; one that is not sorted waits until it is needed in order. -/
structure Run (α : Type) where
  items : List α
  sorted : Bool

def stride (step : α → α → Bool) : α → List α → List α × List α
  | _, [] => ([], [])
  | x, y :: ys =>
    if step x y then
      let (taken, rest) := stride step y ys
      (y :: taken, rest)
    else ([], y :: ys)

/-- The longest start without a step down, or with nothing but steps down and then turned around,
and the rest. -/
def sortedStart : List α → List α × List α
  | x :: y :: ys =>
    if less y x then
      let (run, rest) := stride (fun a b => less b a) x (y :: ys)
      ((x :: run).reverse, rest)
    else
      let (run, rest) := stride (fun a b => !less b a) x (y :: ys)
      (x :: run, rest)
  | xs => (xs, [])

def shortLength : Nat := 32

/-- The first run and the rest. A sorted start is kept when it is long enough; else a stretch is
sorted at once if the sort is eager, and waits if not. -/
def firstRun (eager : Bool) (enough : Nat) (xs : List α) : Option (Run α × List α) :=
  let (run, rest) := sortedStart less xs
  if enough ≤ run.length then some (⟨run, true⟩, rest)
  else if eager then
    (short less (xs.take shortLength)).map fun ys => (⟨ys, true⟩, xs.drop shortLength)
  else some (⟨xs.take enough, false⟩, xs.drop enough)

def cut (eager : Bool) (enough : Nat) : Nat → List α → Option (List (Run α))
  | n + 1, x :: xs => do
    let (run, rest) ← firstRun less eager enough (x :: xs)
    return run :: (← cut eager enough n rest)
  | _, _ => some []

/-- Long enough for a run: half the list, at most 64, and about the square root of a long list. -/
def enoughFor (n : Nat) : Nat :=
  if n ≤ 4096 then min (n - n / 2) 64
  else
    let s := (1 + n.log2) / 2
    (Nat.pow 2 s + n / Nat.pow 2 s) / 2

/-- How deep the joint at `mid` lies in an even tree over `n` positions: the leading bits that the
middles of the runs on both sides have in common. -/
def jointDepth (n left mid right : Nat) : Nat :=
  let scale := (Nat.pow 2 62 + n - 1) / n
  63 - ((scale * (left + mid)) ^^^ (scale * (mid + right))).log2

section Tree

variable (finish : List α → Option (List α)) (room : Nat)

def Run.ordered (r : Run α) : Option (List α) := if r.sorted then some r.items else finish r.items

def join (l r : Run α) : Option (Run α) :=
  if l.sorted || r.sorted || decide (room < l.items.length + r.items.length) then do
    return ⟨merge less (← l.ordered finish) (← r.ordered finish), true⟩
  else some ⟨l.items ++ r.items, false⟩

/-- Closes the joints that lie at least as deep as the next one, the latest first. -/
def closeJoints (depth : Nat) :
    List (Run α × Nat) → Run α → Option (List (Run α × Nat) × Run α)
  | [], r => some ([], r)
  | (l, d) :: before, r =>
    if depth ≤ d then (join less finish room l r).bind fun r => closeJoints depth before r
    else some ((l, d) :: before, r)

/-- Joins runs out of a list of `n` elements. The current run may hold several that were joined; the
latest of them lies between `left` and `mid`. -/
def joinAll (n : Nat) (before : List (Run α × Nat)) (current : Run α) (left mid : Nat) :
    List (Run α) → Option (Run α)
  | [] => (closeJoints less finish room 0 before current).map Prod.snd
  | next :: later => do
    let right := mid + next.items.length
    let depth := jointDepth n left mid right
    let (before, current) ← closeJoints less finish room depth before current
    joinAll n ((current, depth) :: before) next mid right later

def byRuns (eager : Bool) (xs : List α) : Option (List α) := do
  let n := xs.length
  match ← cut less eager (enoughFor n) n xs with
  | [] => return []
  | run :: later =>
    (← joinAll less finish room n [] run 0 run.items.length later).ordered finish

end Tree

def median (a b c : α) : α :=
  if less a b = less a c then if less b c = less a b then b else c else a

variable [Inhabited α]

/-- An element that stands for the `n` elements from `i` on: for eight or more, the middle one of
those that stand for the first, the fifth and the last eighth. -/
def representative (xs : Array α) (n i : Nat) : α :=
  if 8 ≤ n then
    let m := n / 8
    median less (representative xs m i) (representative xs m (i + 4 * m))
      (representative xs m (i + 7 * m))
  else xs.getD i default
termination_by n

/-- Splits around pivots, at most so many times in a row; then runs are tried. No element precedes
`bound`, so a pivot that `bound` does not precede is its equal. Such a pivot, or one that no element
precedes, is split off with its equals. -/
def quicksort : Nat → Option α → List α → Option (List α)
  | 0, _, xs => if xs.length ≤ shortLength then short less xs else byRuns less some 0 true xs
  | limit + 1, bound, xs =>
    if xs.length ≤ shortLength then short less xs
    else
      let pivot := representative less xs.toArray xs.length 0
      let (before, behind) := xs.partition fun x => less x pivot
      if bound.any (fun b => !less b pivot) || before.isEmpty then
        let (upTo, beyond) := xs.partition fun x => !less pivot x
        (quicksort limit none beyond).map (upTo ++ ·)
      else do return (← quicksort limit bound before) ++ (← quicksort limit (some pivot) behind)

def splitSort (xs : List α) : Option (List α) := quicksort less (2 * xs.length.log2) none xs

/-- Sorts stably: by insertion up to twenty elements, by runs above, eagerly up to twice the length
that is sorted in one go. -/
def sort (xs : List α) : Option (List α) :=
  let n := xs.length
  if n ≤ 20 then some (insertAll less [] xs)
  else byRuns less (splitSort less) (max (n - n / 2) (min n 1000000)) (n ≤ 2 * shortLength) xs

end ScopedTensor.Sorting
