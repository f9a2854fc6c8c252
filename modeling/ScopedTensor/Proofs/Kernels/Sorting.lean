import Mathlib.Data.List.Perm.Basic
import ScopedTensor.Sorting.Runs

/-! Sorting by any comparison. Whatever the comparison says, and whether or not it is an order, a list
comes out with the elements that it went in with; and where no element comes before another, it comes
out as it went in. -/

namespace ScopedTensor.Sorting

open List

variable {α : Type} (less : α → α → Bool)

theorem insertBack_perm (x : α) (ys : List α) : insertBack less x ys ~ x :: ys := by
  induction ys with
  | nil => exact .refl _
  | cons y ys ih =>
    unfold insertBack
    split
    · exact (ih.cons y).trans (.swap x y ys)
    · exact .refl _

theorem insertAll_perm (sorted xs : List α) : insertAll less sorted xs ~ sorted ++ xs := by
  have key : ∀ done : List α,
      xs.foldl (fun done x => insertBack less x done) done ~ done ++ xs := by
    induction xs with
    | nil => exact fun done => .of_eq (List.append_nil done).symm
    | cons x xs ih =>
      intro done
      calc (x :: xs).foldl (fun done x => insertBack less x done) done
          ~ insertBack less x done ++ xs := ih _
        _ ~ x :: done ++ xs := (insertBack_perm less x done).append_right xs
        _ ~ done ++ x :: xs := perm_middle.symm
  exact (reverse_perm _).trans ((key _).trans ((reverse_perm sorted).append_right xs))

theorem mergeForward_perm (l r : List α) : mergeForward less l r ~ l ++ r :=
  merge_perm_append _

theorem mergeBackward_perm (l r : List α) : mergeBackward less l r ~ l ++ r :=
  calc mergeBackward less l r
      ~ r.reverse.merge l.reverse fun y x => !less y x := reverse_perm _
    _ ~ r.reverse ++ l.reverse := merge_perm_append _
    _ ~ r ++ l := (reverse_perm r).append (reverse_perm l)
    _ ~ l ++ r := perm_append_comm

theorem merge_perm (l r : List α) : merge less l r ~ l ++ r := by
  unfold merge
  split
  · exact mergeForward_perm less l r
  · exact mergeBackward_perm less l r

theorem draw_perm (takesLeft : α → α → Bool) (n : Nat) (l r : List α) :
    ∃ front front', l = front ++ (draw takesLeft n l r).2.1 ∧
      r = front' ++ (draw takesLeft n l r).2.2 ∧
      (draw takesLeft n l r).1 ~ front ++ front' := by
  induction n generalizing l r with
  | zero => exact ⟨[], [], rfl, rfl, .refl _⟩
  | succ n ih =>
    match l, r with
    | [], r => exact ⟨[], [], rfl, rfl, .refl _⟩
    | x :: l, [] => exact ⟨[], [], rfl, rfl, .refl _⟩
    | x :: l, y :: r =>
      unfold draw
      split
      · obtain ⟨front, front', hl, hr, hdrawn⟩ := ih l (y :: r)
        exact ⟨x :: front, front', congrArg (x :: ·) hl, hr, hdrawn.cons x⟩
      · obtain ⟨front, front', hl, hr, hdrawn⟩ := ih (x :: l) r
        exact ⟨front, y :: front', hl, congrArg (y :: ·) hr, (hdrawn.cons y).trans perm_middle.symm⟩

theorem append_drop_append {a b c d : List α} (h : a ++ b = c ++ d) (hle : a.length ≤ c.length) :
    a ++ (c.drop a.length ++ d) = c ++ d := by
  have htake : (c ++ d).take a.length = c.take a.length := List.take_append_of_le_length hle
  have hfront : c.take a.length = a := by
    rw [← htake, ← h, List.take_left']
    rfl
  rw [← List.append_assoc]
  exact congrArg (· ++ d) ((congrArg (· ++ c.drop a.length) hfront.symm).trans
    (List.take_append_drop _ _))

theorem ends_perm (l₁ left l₂ r₁ right r₂ : List α) :
    l₁ ++ r₁ ++ left ++ right ++ (r₂ ++ l₂) ~ l₁ ++ (left ++ l₂) ++ (r₁ ++ (right ++ r₂)) :=
  calc l₁ ++ r₁ ++ left ++ right ++ (r₂ ++ l₂)
      = l₁ ++ (r₁ ++ (left ++ (right ++ r₂ ++ l₂))) := by simp only [append_assoc]
    _ ~ l₁ ++ (left ++ (r₁ ++ (right ++ r₂ ++ l₂))) :=
        (perm_append_comm_assoc _ _ _).append_left l₁
    _ = l₁ ++ (left ++ (r₁ ++ (right ++ r₂) ++ l₂)) := by simp only [append_assoc]
    _ ~ l₁ ++ (left ++ (l₂ ++ (r₁ ++ (right ++ r₂)))) :=
        (perm_append_comm.append_left left).append_left l₁
    _ = l₁ ++ (left ++ l₂) ++ (r₁ ++ (right ++ r₂)) := by simp only [append_assoc]

theorem meet_perm {l r ys : List α} (h : meet less l r = some ys) : ys ~ l ++ r := by
  obtain ⟨l₁, r₁, hl, hr, hfront⟩ := draw_perm (fun x y => !less y x) l.length l r
  obtain ⟨r₂, l₂, hr', hl', hback⟩ :=
    draw_perm (fun y x => !less y x) l.length r.reverse l.reverse
  unfold meet at h
  simp only at h
  generalize draw (fun x y => !less y x) l.length l r = drawn at *
  generalize draw (fun y x => !less y x) l.length r.reverse l.reverse = drawn' at *
  obtain ⟨front, l', r'⟩ := drawn
  obtain ⟨back, rightPart, leftPart⟩ := drawn'
  simp only at *
  split at h
  -- Front and back were drawn from different ends, and what lies between them in each list is left
  -- over.
  · rename_i hfit
    obtain rfl := Option.some.inj h
    have hleft : l.length - l'.length = l₁.length := by rw [hl, length_append]; omega
    have hright : r.length - r'.length = r₁.length := by rw [hr, length_append]; omega
    rw [hleft, hright] at hfit ⊢
    have hl' : l = leftPart.reverse ++ l₂.reverse := by
      rw [← reverse_append, ← hl', reverse_reverse]
    have hr' : r = rightPart.reverse ++ r₂.reverse := by
      rw [← reverse_append, ← hr', reverse_reverse]
    have hlcut := append_drop_append (hl.symm.trans hl') (by rw [length_reverse]; exact hfit.1)
    have hrcut := append_drop_append (hr.symm.trans hr') (by rw [length_reverse]; exact hfit.2)
    rw [hl', hr', ← hlcut, ← hrcut]
    have hends := hback.trans ((reverse_perm r₂).symm.append (reverse_perm l₂).symm)
    refine Perm.trans ?_ (ends_perm _ _ _ _ _ _)
    exact ((hfront.append_right _).append_right _).append ((reverse_perm back).trans hends)
  · exact absurd h nofun

theorem swapped_perm (b : Bool) (p q : α) :
    [(if b then (q, p) else (p, q)).1, (if b then (q, p) else (p, q)).2] ~ [p, q] := by
  cases b with
  | false => exact .refl _
  | true => exact .swap p q []

theorem four_perm (p q r s : α) : four less p q r s ~ [p, q, r, s] := by
  have hpair := (swapped_perm (less q p) p q).append (swapped_perm (less s r) r s)
  unfold four
  generalize (if less q p then (q, p) else (p, q)) = low at *
  generalize (if less s r then (s, r) else (r, s)) = high at *
  obtain ⟨a, b⟩ := low
  obtain ⟨c, d⟩ := high
  have hmiddle : ∀ x y : α, (if less y x then [y, x] else [x, y]) ~ [x, y] := by
    intro x y
    split
    · exact .swap x y []
    · exact .refl _
  have houter : ∀ x y : α, ∀ first last : α,
      (if less y x then [first, y, x, last] else [first, x, y, last]) ~ [first, x, y, last] := by
    intro x y first last
    split
    · exact (Perm.swap x y _).cons first
    · exact .refl _
  refine (houter _ _ _ _).trans (Perm.trans ?_ hpair)
  cases less c a <;> cases less d b
  · exact .refl _
  · exact (@perm_middle _ _ [c, d] _).cons a
  · exact (@perm_middle _ _ [a, b] _).symm
  · exact (Perm.swap a c _).trans ((@perm_middle _ _ [c, d] _).cons a)

theorem seed_perm {xs ys : List α} (h : seed less xs = some ys) : ys ~ xs := by
  unfold seed at h
  split at h
  · exact Option.some.inj h ▸ four_perm less _ _ _ _
  · exact (meet_perm less h).trans ((four_perm less _ _ _ _).append (four_perm less _ _ _ _))
  · exact .of_eq (Option.some.inj h).symm

theorem half_perm {start : Nat} {xs ys : List α} (h : half less start xs = some ys) : ys ~ xs := by
  obtain ⟨zs, hseed, rfl⟩ := Option.map_eq_some_iff.1 h
  calc insertAll less zs (xs.drop start)
      ~ zs ++ xs.drop start := insertAll_perm less _ _
    _ ~ xs.take start ++ xs.drop start := (seed_perm less hseed).append_right _
    _ = xs := take_append_drop start xs

theorem short_perm {xs ys : List α} (h : short less xs = some ys) : ys ~ xs := by
  obtain ⟨l, hl, h⟩ := Option.bind_eq_some_iff.1 h
  obtain ⟨r, hr, h⟩ := Option.bind_eq_some_iff.1 h
  calc ys ~ l ++ r := meet_perm less h
    _ ~ xs.take (xs.length / 2) ++ xs.drop (xs.length / 2) :=
        (half_perm less hl).append (half_perm less hr)
    _ = xs := take_append_drop _ xs

theorem stride_append (step : α → α → Bool) (x : α) (ys : List α) :
    (stride step x ys).1 ++ (stride step x ys).2 = ys := by
  induction ys generalizing x with
  | nil => rfl
  | cons y ys ih =>
    unfold stride
    split
    · exact congrArg (y :: ·) (ih y)
    · rfl

theorem sortedStart_cons_cons (x y : α) (ys : List α) :
    sortedStart less (x :: y :: ys) =
      let down := stride (fun a b => less b a) x (y :: ys)
      let level := stride (fun a b => !less b a) x (y :: ys)
      if less y x then ((x :: down.1).reverse, down.2) else (x :: level.1, level.2) := rfl

theorem sortedStart_perm (xs : List α) :
    (sortedStart less xs).1 ++ (sortedStart less xs).2 ~ xs := by
  match xs with
  | [] => exact .refl _
  | [x] => exact .refl _
  | x :: y :: ys =>
    have hdown := congrArg (x :: ·) (stride_append (fun a b => less b a) x (y :: ys))
    have hlevel := congrArg (x :: ·) (stride_append (fun a b => !less b a) x (y :: ys))
    rw [sortedStart_cons_cons]
    cases less y x with
    | true => exact ((reverse_perm _).append_right _).trans (.of_eq hdown)
    | false => exact .of_eq hlevel

theorem sortedStart_ne_nil {xs : List α} (h : xs ≠ []) : (sortedStart less xs).1 ≠ [] := by
  match xs with
  | [] => exact absurd rfl h
  | [x] => exact cons_ne_nil x []
  | x :: y :: ys =>
    rw [sortedStart_cons_cons]
    cases less y x with
    | true => exact fun hnil => absurd (reverse_eq_nil_iff.1 hnil) (cons_ne_nil _ _)
    | false => exact cons_ne_nil _ _

theorem firstRun_perm {eager : Bool} {enough : Nat} {xs rest : List α} {run : Run α}
    (h : firstRun less eager enough xs = some (run, rest)) (hne : xs ≠ []) :
    run.items ++ rest ~ xs ∧ rest.length < xs.length := by
  have hstart := sortedStart_perm less xs
  have hpos := length_pos_iff.2 (sortedStart_ne_nil less hne)
  have hsplit := hstart.length_eq
  rw [length_append] at hsplit
  have hlen := length_pos_iff.2 hne
  unfold firstRun at h
  simp only at h
  split at h
  · obtain ⟨rfl, rfl⟩ := Prod.mk.inj (Option.some.inj h)
    exact ⟨hstart, by omega⟩
  · split at h
    · obtain ⟨ys, hshort, h⟩ := Option.map_eq_some_iff.1 h
      obtain ⟨rfl, rfl⟩ := Prod.mk.inj h
      refine ⟨((short_perm less hshort).append_right _).trans (.of_eq (take_append_drop _ xs)), ?_⟩
      simp only [length_drop, shortLength]
      omega
    · obtain ⟨rfl, rfl⟩ := Prod.mk.inj (Option.some.inj h)
      refine ⟨.of_eq (take_append_drop _ xs), ?_⟩
      simp only [length_drop]
      omega

/-- As many runs as there are elements are enough. -/
theorem cut_perm {eager : Bool} {enough n : Nat} {xs : List α} {runs : List (Run α)}
    (h : cut less eager enough n xs = some runs) (hn : xs.length ≤ n) :
    runs.flatMap Run.items ~ xs := by
  induction n generalizing xs runs with
  | zero =>
    obtain rfl := length_eq_zero_iff.1 (Nat.le_zero.1 hn)
    exact Option.some.inj h ▸ .refl _
  | succ n ih =>
    cases xs with
    | nil => exact Option.some.inj h ▸ .refl _
    | cons x xs =>
      obtain ⟨⟨run, rest⟩, hfirst, h⟩ := Option.bind_eq_some_iff.1 h
      obtain ⟨later, hlater, h⟩ := Option.bind_eq_some_iff.1 h
      obtain rfl := Option.some.inj h
      obtain ⟨hperm, hshorter⟩ := firstRun_perm less hfirst (cons_ne_nil x xs)
      exact ((ih hlater (by omega)).append_left _).trans hperm

section Tree

variable {finish : List α → Option (List α)} {room : Nat}

theorem closeJoints_zero {before before' : List (Run α × Nat)} {r r' : Run α}
    (h : closeJoints less finish room 0 before r = some (before', r')) : before' = [] := by
  induction before generalizing r with
  | nil => exact (Prod.mk.inj (Option.some.inj h)).1.symm
  | cons b before ih =>
    obtain ⟨joined, -, h⟩ := Option.bind_eq_some_iff.1 h
    exact ih h

variable (hfinish : ∀ xs ys, finish xs = some ys → ys ~ xs)

include hfinish

theorem ordered_perm {r : Run α} {ys : List α} (h : r.ordered finish = some ys) :
    ys ~ r.items := by
  unfold Run.ordered at h
  split at h
  · exact .of_eq (Option.some.inj h).symm
  · exact hfinish _ _ h

theorem join_perm {l r joined : Run α} (h : join less finish room l r = some joined) :
    joined.items ~ l.items ++ r.items := by
  unfold join at h
  split at h
  · obtain ⟨ls, hl, h⟩ := Option.bind_eq_some_iff.1 h
    obtain ⟨rs, hr, h⟩ := Option.bind_eq_some_iff.1 h
    obtain rfl := Option.some.inj h
    exact (merge_perm less _ _).trans ((ordered_perm hfinish hl).append (ordered_perm hfinish hr))
  · exact Option.some.inj h ▸ .refl _

def waiting (before : List (Run α × Nat)) (current : Run α) : List α :=
  before.reverse.flatMap (fun b => b.1.items) ++ current.items

theorem closeJoints_perm {depth : Nat} {before before' : List (Run α × Nat)} {r r' : Run α}
    (h : closeJoints less finish room depth before r = some (before', r')) :
    waiting before' r' ~ waiting before r := by
  induction before generalizing r with
  | nil =>
    obtain ⟨rfl, rfl⟩ := Prod.mk.inj (Option.some.inj h)
    exact .refl _
  | cons b before ih =>
    obtain ⟨l, d⟩ := b
    unfold closeJoints at h
    split at h
    · obtain ⟨joined, hjoin, h⟩ := Option.bind_eq_some_iff.1 h
      refine (ih h).trans ?_
      unfold waiting
      rw [reverse_cons, flatMap_append, flatMap_singleton, append_assoc]
      exact (join_perm less hfinish hjoin).append_left _
    · obtain ⟨rfl, rfl⟩ := Prod.mk.inj (Option.some.inj h)
      exact .refl _

theorem joinAll_perm {n : Nat} {before : List (Run α × Nat)} {current joined : Run α}
    {left mid : Nat} {later : List (Run α)}
    (h : joinAll less finish room n before current left mid later = some joined) :
    joined.items ~ waiting before current ++ later.flatMap Run.items := by
  induction later generalizing before current left mid with
  | nil =>
    obtain ⟨⟨before', last⟩, hclose, rfl⟩ := Option.map_eq_some_iff.1 h
    have hclosed := closeJoints_perm less hfinish hclose
    obtain rfl := closeJoints_zero less hclose
    rw [flatMap_nil, append_nil]
    exact hclosed
  | cons next later ih =>
    obtain ⟨⟨before', current'⟩, hclose, h⟩ := Option.bind_eq_some_iff.1 h
    have hclosed := closeJoints_perm less hfinish hclose
    refine (ih h).trans ?_
    rw [flatMap_cons, ← append_assoc]
    refine Perm.append_right _ (Perm.trans (.of_eq ?_) (hclosed.append_right next.items))
    unfold waiting
    rw [reverse_cons, flatMap_append, flatMap_singleton]

theorem byRuns_perm {eager : Bool} {xs ys : List α}
    (h : byRuns less finish room eager xs = some ys) : ys ~ xs := by
  obtain ⟨runs, hcut, h⟩ := Option.bind_eq_some_iff.1 h
  have hcut := cut_perm less hcut (Nat.le_refl _)
  split at h
  · exact Option.some.inj h ▸ hcut
  · obtain ⟨joined, hjoin, h⟩ := Option.bind_eq_some_iff.1 h
    exact (ordered_perm hfinish h).trans ((joinAll_perm less hfinish hjoin).trans hcut)

end Tree

section Levels

def Level (xs : List α) : Prop := ∀ x ∈ xs, ∀ y ∈ xs, less x y = false

variable {less : α → α → Bool} {xs : List α}

theorem Level.tail {x : α} (h : Level less (x :: xs)) : Level less xs := fun y hy z hz =>
  h y (mem_cons_of_mem _ hy) z (mem_cons_of_mem _ hz)

end Levels

theorem partition_perm (p : α → Bool) (xs : List α) :
    (xs.partition p).1 ++ (xs.partition p).2 ~ xs := by
  rw [partition_eq_filter_filter]
  exact filter_append_perm p xs

variable [Inhabited α]

theorem quicksort_perm {limit : Nat} {bound : Option α} {xs ys : List α}
    (h : quicksort less limit bound xs = some ys) : ys ~ xs := by
  induction limit generalizing bound xs ys with
  | zero =>
    unfold quicksort at h
    split at h
    · exact short_perm less h
    · exact byRuns_perm less (fun _ _ h => .of_eq (Option.some.inj h).symm) h
  | succ limit ih =>
    unfold quicksort at h
    split at h
    · exact short_perm less h
    · simp only at h
      split at h
      · obtain ⟨beyond, hbeyond, rfl⟩ := Option.map_eq_some_iff.1 h
        exact ((ih hbeyond).append_left _).trans (partition_perm _ xs)
      · obtain ⟨before, hbefore, h⟩ := Option.bind_eq_some_iff.1 h
        obtain ⟨behind, hbehind, h⟩ := Option.bind_eq_some_iff.1 h
        obtain rfl := Option.some.inj h
        exact ((ih hbefore).append (ih hbehind)).trans (partition_perm _ xs)

theorem sort_perm {xs ys : List α} (h : sort less xs = some ys) : ys ~ xs := by
  unfold sort at h
  simp only at h
  split at h
  · exact Option.some.inj h ▸ insertAll_perm less [] xs
  · exact byRuns_perm less (fun _ _ => quicksort_perm less) h

end ScopedTensor.Sorting
