import Mathlib.Algebra.Group.Nat.Defs
import Mathlib.Data.List.NodupEquivFin
import Mathlib.Data.List.ReduceOption
import ScopedTensor.Proofs.Delivery.Sizes

/-! Reshape targets. A target is resolved if and only if it can be, to the only shape that it can mean,
and no product on the way there outgrows a word. -/

namespace ScopedTensor.Shape

open Extents (product)

variable {s r : Shape} {target : List Int} {place acc n : Nat} {ds : List Nat}

def lengthAt (s : Shape) (entry : Int) (place : Nat) : Option Nat :=
  if entry = -1 then none else if entry = 0 then s.dims[place]? else some entry.toNat

def lengthsFrom (s : Shape) (place : Nat) (target : List Int) : List (Option Nat) :=
  (target.zipIdx place).map fun (entry, k) => s.lengthAt entry k

def known (s : Shape) (target : List Int) : List Nat := (s.lengthsFrom 0 target).reduceOption

/-- A target that leaves at most one length to be inferred and copies only lengths that are there,
with known lengths that can be multiplied in words, from left to right. -/
structure Readable (s : Shape) (target : List Int) : Prop where
  oneGap : target.count (-1) ≤ 1
  entries : ∀ e ∈ target, -1 ≤ e
  zeros : ∀ k : Nat, target[k]? = some 0 → k < s.rank
  products : ∀ n, product ((s.known target).take n) < wordSize

/-- A readable target that fits the number of elements, the known lengths by themselves or with
another one in the gap. -/
structure Solvable (s : Shape) (target : List Int) : Prop extends s.Readable target where
  whole : if -1 ∈ target then product (s.known target) ≠ 0 ∧ product (s.known target) ∣ s.size
    else product (s.known target) = s.size

/-- A shape of as many elements that agrees with a target wherever it says something. -/
structure Resolves (s : Shape) (target : List Int) (r : Shape) : Prop where
  rank : r.rank = target.length
  size : r.size = s.size
  given : ∀ (k : Nat) (e : Int), target[k]? = some e → 0 < e → r.dims[k]? = some e.toNat
  copied : ∀ k : Nat, target[k]? = some 0 → r.dims[k]? = s.dims[k]?

def sizeInWords? (s : Shape) : Option Nat := s.dims.foldlM mulWord? 1

def inferred? (target : List Int) (size known : Nat) : Option Nat :=
  if target.contains (-1) then
    if known = 0 ∨ size % known ≠ 0 then none else some (size / known)
  else some 0

/-- The resolution with both sizes formed in words: a product that no word holds stops it, with no
answer at all. -/
def reshapeInWords? (s : Shape) (target : List Int) : Option (Option Shape) := do
  let size ← s.sizeInWords?
  if 1 < (target.filter (· == -1)).length then return none
  match s.resolveFrom 0 1 target with
  | none => return none
  | some (entries, known) =>
    match inferred? target size known with
    | none => return none
    | some gap =>
      let result : Shape := ⟨entries.map fun e => e.getD gap⟩
      return if (← result.sizeInWords?) = size then some result else none

theorem one_lt_wordSize : 1 < wordSize := by decide

theorem mulWord?_eq_some {a b : Nat} : mulWord? a b = some n ↔ a * b < wordSize ∧ n = a * b := by
  unfold mulWord?
  split
  · rename_i h
    rw [Option.some.injEq]
    exact ⟨fun hn => ⟨h, hn.symm⟩, fun hn => hn.2.symm⟩
  · rename_i h
    exact ⟨nofun, fun hn => absurd hn.1 h⟩

theorem foldlM_mulWord? (hacc : acc < wordSize) :
    ds.foldlM mulWord? acc = some n ↔
      n = acc * product ds ∧ ∀ k, acc * product (ds.take k) < wordSize := by
  -- On the factors, for any product so far: the head moves into it.
  induction ds generalizing acc with
  | nil =>
    have hone : ∀ k, acc * product (([] : List Nat).take k) = acc := fun k => by
      rw [List.take_nil]
      exact Nat.mul_one acc
    simp only [hone, hacc, implies_true, and_true]
    rw [List.foldlM_nil, show product [] = 1 from rfl, Nat.mul_one]
    exact ⟨fun h => (Option.some.inj h).symm, fun h => congrArg some h.symm⟩
  | cons d ds ih =>
    have hassoc : ∀ ns, acc * product (d :: ns) = acc * d * product ns := fun ns =>
      (Nat.mul_assoc acc d _).symm
    rw [List.foldlM_cons, hassoc]
    constructor
    · intro h
      obtain ⟨b, hb, h⟩ := Option.bind_eq_some_iff.1 h
      obtain ⟨hlt, rfl⟩ := mulWord?_eq_some.1 hb
      obtain ⟨rfl, hall⟩ := (ih hlt).1 h
      refine ⟨rfl, fun k => ?_⟩
      cases k with
      | zero => exact (Nat.mul_one acc).symm ▸ hacc
      | succ k => exact hassoc _ ▸ hall k
    · rintro ⟨rfl, hall⟩
      have hlt : acc * d < wordSize := by
        have hfirst := hall 1
        rw [List.take_succ_cons, List.take_zero, hassoc] at hfirst
        exact Nat.mul_one (acc * d) ▸ hfirst
      rw [mulWord?_eq_some.2 ⟨hlt, rfl⟩]
      refine (ih hlt).2 ⟨rfl, fun k => ?_⟩
      rw [← hassoc]
      exact hall (k + 1)

theorem targetDim?_eq_some {entry : Int} {x : Option Nat} :
    s.targetDim? place entry = some x ↔
      (-1 ≤ entry ∧ (entry = 0 → place < s.rank)) ∧ x = s.lengthAt entry place := by
  unfold targetDim? lengthAt
  split
  · rename_i hgap
    rw [Option.some.injEq]
    exact ⟨fun h => ⟨⟨by omega, fun _ => by omega⟩, h.symm⟩, fun h => h.2.symm⟩
  · rename_i hgap
    split
    · rename_i hzero
      rw [Option.map_eq_some_iff]
      constructor
      · rintro ⟨d, hd, rfl⟩
        exact ⟨⟨by omega, fun _ => (List.getElem?_eq_some_iff.1 hd).1⟩, hd.symm⟩
      · rintro ⟨⟨-, hplace⟩, rfl⟩
        have hplace : place < s.dims.length := hplace hzero
        exact ⟨s.dims[place], List.getElem?_eq_getElem hplace,
          (List.getElem?_eq_getElem hplace).symm⟩
    · rename_i hzero
      split
      · rename_i hnegative
        exact ⟨nofun, fun h => absurd h.1.1 (by omega)⟩
      · rw [Option.some.injEq]
        exact ⟨fun h => ⟨⟨by omega, fun h => absurd h hzero⟩, h.symm⟩, fun h => h.2.symm⟩

theorem resolveFrom_eq (s : Shape) (place acc : Nat) (target : List Int) :
    s.resolveFrom place acc target =
      ((target.zipIdx place).mapM fun p => s.targetDim? p.2 p.1).bind fun xs =>
        (xs.reduceOption.foldlM mulWord? acc).map fun n => (xs, n) := by
  -- The engine interleaves reading entries and multiplying. An entry that is refused refuses the
  -- whole wherever it stands, so all of them may be read first.
  induction target generalizing place acc with
  | nil => rfl
  | cons entry target ih =>
    unfold resolveFrom
    rw [List.zipIdx_cons, List.mapM_cons]
    cases s.targetDim? place entry with
    | none => rfl
    | some x =>
      cases x with
      | none =>
        simp only [Option.bind_eq_bind, Option.bind_some, ih]
        cases (target.zipIdx (place + 1)).mapM fun p => s.targetDim? p.2 p.1 with
        | none => rfl
        | some xs =>
          simp only [Option.bind_some, Option.pure_def, List.reduceOption_cons_of_none]
          cases xs.reduceOption.foldlM mulWord? acc <;> rfl
      | some d =>
        simp only [Option.bind_eq_bind, Option.bind_some, ih]
        cases (target.zipIdx (place + 1)).mapM fun p => s.targetDim? p.2 p.1 with
        | none => cases mulWord? acc d <;> rfl
        | some xs =>
          simp only [Option.bind_some, Option.pure_def, List.reduceOption_cons_of_some,
            List.foldlM_cons, Option.bind_eq_bind]
          cases mulWord? acc d with
          | none => rfl
          | some b =>
            simp only [Option.bind_some]
            cases xs.reduceOption.foldlM mulWord? b <;> rfl

theorem mapM_eq_some_of_iff {α β : Type} {f : α → Option β} {P : α → Prop} {g : α → β}
    (h : ∀ a b, f a = some b ↔ P a ∧ b = g a) {xs : List α} {ys : List β} :
    xs.mapM f = some ys ↔ (∀ a ∈ xs, P a) ∧ ys = xs.map g := by
  induction xs generalizing ys with
  | nil =>
    exact ⟨fun hys => ⟨nofun, (Option.some.inj hys).symm⟩, fun hys => congrArg some hys.2.symm⟩
  | cons a xs ih =>
    rw [List.mapM_cons, List.forall_mem_cons]
    constructor
    · intro hys
      obtain ⟨b, hb, hys⟩ := Option.bind_eq_some_iff.1 hys
      obtain ⟨bs, hbs, hys⟩ := Option.bind_eq_some_iff.1 hys
      obtain ⟨ha, rfl⟩ := (h a b).1 hb
      obtain ⟨hxs, rfl⟩ := ih.1 hbs
      exact ⟨⟨ha, hxs⟩, (Option.some.inj hys).symm⟩
    · rintro ⟨⟨ha, hxs⟩, rfl⟩
      rw [(h a _).2 ⟨ha, rfl⟩, ih.2 ⟨hxs, rfl⟩]
      rfl

theorem entries_iff : (∀ p ∈ target.zipIdx, -1 ≤ p.1 ∧ (p.1 = 0 → p.2 < s.rank)) ↔
    (∀ e ∈ target, -1 ≤ e) ∧ ∀ k : Nat, target[k]? = some 0 → k < s.rank := by
  constructor
  · intro h
    refine ⟨fun e he => ?_, fun k hk => ?_⟩
    · obtain ⟨k, hk⟩ := List.mem_iff_getElem?.1 he
      exact (h (e, k) (List.mem_zipIdx_iff_getElem?.2 hk)).1
    · exact (h (0, k) (List.mem_zipIdx_iff_getElem?.2 hk)).2 rfl
  · rintro ⟨hall, hzeros⟩ ⟨e, k⟩ hp
    have hk := List.mem_zipIdx_iff_getElem?.1 hp
    refine ⟨hall e (List.mem_of_getElem? hk), fun hzero => hzeros k ?_⟩
    exact hk.trans (congrArg some hzero)

theorem resolveFrom_eq_some {xs : List (Option Nat)} :
    s.resolveFrom 0 1 target = some (xs, n) ↔
      ((∀ e ∈ target, -1 ≤ e) ∧ (∀ k : Nat, target[k]? = some 0 → k < s.rank)) ∧
        (∀ k, product ((s.known target).take k) < wordSize) ∧
        xs = s.lengthsFrom 0 target ∧ n = product (s.known target) := by
  have hmapM := @mapM_eq_some_of_iff _ _ (fun p : Int × Nat => s.targetDim? p.2 p.1) _ _
    (fun _ _ => targetDim?_eq_some) target.zipIdx
  have hproduct := @foldlM_mulWord? 1 n (s.known target) one_lt_wordSize
  simp only [Nat.one_mul] at hproduct
  rw [resolveFrom_eq]
  constructor
  · intro h
    obtain ⟨ys, hys, h⟩ := Option.bind_eq_some_iff.1 h
    obtain ⟨p, hp, h⟩ := Option.map_eq_some_iff.1 h
    obtain ⟨rfl, rfl⟩ := Prod.mk.inj h
    obtain ⟨haccepted, rfl⟩ := hmapM.1 hys
    obtain ⟨hn, hall⟩ := hproduct.1 hp
    exact ⟨entries_iff.1 haccepted, hall, rfl, hn⟩
  · rintro ⟨haccepted, hall, rfl, hn⟩
    rw [hmapM.2 ⟨entries_iff.2 haccepted, rfl⟩]
    exact Option.map_eq_some_iff.2 ⟨n, hproduct.2 ⟨hn, hall⟩, rfl⟩

def filled (s : Shape) (target : List Int) (gap : Nat) : Shape :=
  ⟨(s.lengthsFrom 0 target).map fun x => x.getD gap⟩

theorem product_getD (xs : List (Option Nat)) (gap : Nat) :
    product (xs.map fun x => x.getD gap) = product xs.reduceOption * gap ^ xs.count none := by
  induction xs with
  | nil => rfl
  | cons x xs ih =>
    cases x with
    | none =>
      rw [List.reduceOption_cons_of_none, List.count_cons_self, Nat.pow_succ, ← Nat.mul_assoc, ← ih,
        Nat.mul_comm]
      rfl
    | some d =>
      rw [List.reduceOption_cons_of_some, List.count_cons_of_ne (Option.some_ne_none d)]
      change d * product (xs.map fun x => x.getD gap) = d * product xs.reduceOption * _
      rw [ih, Nat.mul_assoc]

theorem lengthAt_eq_none {entry : Int} (hzero : entry = 0 → place < s.rank) :
    s.lengthAt entry place = none ↔ entry = -1 := by
  unfold lengthAt
  split
  · rename_i hgap
    exact ⟨fun _ => hgap, fun _ => rfl⟩
  · rename_i hgap
    split
    · rename_i hentry
      rw [List.getElem?_eq_none_iff]
      exact ⟨fun hle => absurd (hzero hentry) (Nat.not_lt.2 hle), fun h => absurd h hgap⟩
    · exact ⟨nofun, fun h => absurd h hgap⟩

theorem lengthAt_zero (h : place < s.rank) :
    s.lengthAt 0 place = some (s.dims.get ⟨place, h⟩) := List.getElem?_eq_getElem h

theorem lengthAt_of_pos {entry : Int} (h : 0 < entry) :
    s.lengthAt entry place = some entry.toNat := by
  unfold lengthAt
  rw [if_neg (by omega), if_neg (by omega)]

theorem eq_of_count_le_one {α : Type} [DecidableEq α] {xs : List α} {a : α} {j k : Nat}
    (h : xs.count a ≤ 1) (hj : xs[j]? = some a) (hk : xs[k]? = some a) : j = k := by
  obtain ⟨hj, hja⟩ := List.getElem?_eq_some_iff.1 hj
  obtain ⟨hk, hka⟩ := List.getElem?_eq_some_iff.1 hk
  have hnone : ¬ xs.Duplicate a := fun hdup =>
    absurd (List.duplicate_iff_two_le_count.1 hdup) (by omega)
  rcases Nat.lt_trichotomy j k with hlt | heq | hgt
  · exact absurd (List.duplicate_iff_exists_distinct_get.2
      ⟨⟨j, hj⟩, ⟨k, hk⟩, hlt, hja.symm, hka.symm⟩) hnone
  · exact heq
  · exact absurd (List.duplicate_iff_exists_distinct_get.2
      ⟨⟨k, hk⟩, ⟨j, hj⟩, hgt, hka.symm, hja.symm⟩) hnone

theorem count_none (hzeros : ∀ k : Nat, target[k]? = some 0 → k < s.rank) :
    (s.lengthsFrom 0 target).count none = target.count (-1) := by
  have hsame : ∀ p ∈ target.zipIdx,
      (s.lengthAt p.1 p.2 == none) = true ↔ (p.1 == -1) = true := by
    intro p hp
    rw [beq_iff_eq, beq_iff_eq]
    exact lengthAt_eq_none fun hzero =>
      hzeros p.2 ((List.mem_zipIdx_iff_getElem?.1 hp).trans (congrArg some hzero))
  calc (s.lengthsFrom 0 target).count none
      = target.zipIdx.countP fun p => s.lengthAt p.1 p.2 == none := List.countP_map
    _ = target.zipIdx.countP fun p => p.1 == -1 := List.countP_congr hsame
    _ = (target.zipIdx.map Prod.fst).countP (· == -1) := by rw [List.countP_map]; rfl
    _ = target.count (-1) := by rw [List.zipIdx_map_fst]; rfl

theorem getElem?_filled (s : Shape) (target : List Int) (gap k : Nat) :
    (s.filled target gap).dims[k]? = target[k]?.map fun e => (s.lengthAt e k).getD gap := by
  unfold filled lengthsFrom
  rw [List.getElem?_map, List.getElem?_map, List.getElem?_zipIdx, Nat.zero_add, Option.map_map,
    Option.map_map]
  rfl

namespace Readable

variable (h : s.Readable target)

include h

theorem resolveFrom : s.resolveFrom 0 1 target =
    some (s.lengthsFrom 0 target, product (s.known target)) :=
  resolveFrom_eq_some.2 ⟨⟨h.entries, h.zeros⟩, h.products, rfl, rfl⟩

theorem size_filled (gap : Nat) : (s.filled target gap).size =
    if -1 ∈ target then product (s.known target) * gap else product (s.known target) := by
  have hproduct : (s.filled target gap).size =
      product (s.known target) * gap ^ target.count (-1) :=
    (product_getD _ gap).trans (by rw [count_none h.zeros]; rfl)
  rw [hproduct]
  split
  · rename_i hmem
    have hone : target.count (-1) = 1 := Nat.le_antisymm h.oneGap (List.count_pos_iff.2 hmem)
    rw [hone, Nat.pow_one]
  · rename_i hmem
    rw [List.count_eq_zero.2 hmem, Nat.pow_zero, Nat.mul_one]

/-- Each beginning of the whole product is one of the known lengths alone, or no larger than the
whole. -/
theorem sizeInWords?_filled {gap : Nat} (hgap : -1 ∈ target →
      product (s.known target) ≠ 0 ∧ product (s.known target) * gap < wordSize) :
    (s.filled target gap).sizeInWords? = some (s.filled target gap).size := by
  have hdims : (s.filled target gap).dims = (s.lengthsFrom 0 target).map fun x => x.getD gap := rfl
  refine (foldlM_mulWord? one_lt_wordSize).2 ⟨(Nat.one_mul _).symm, fun k => ?_⟩
  rw [Nat.one_mul, hdims, ← List.map_take, product_getD]
  have hprefix := (List.take_prefix k (s.lengthsFrom 0 target)).filterMap id
  have hknown : ((s.lengthsFrom 0 target).take k).reduceOption = (s.known target).take _ :=
    List.prefix_iff_eq_take.1 hprefix
  have hcount := ((List.take_sublist k (s.lengthsFrom 0 target)).count_le none).trans
    (Nat.le_of_eq (count_none h.zeros))
  rw [hknown]
  generalize ((s.lengthsFrom 0 target).take k).count none = gaps at hcount ⊢
  generalize ((s.lengthsFrom 0 target).take k).reduceOption.length = m
  rcases Nat.eq_zero_or_pos gaps with rfl | hpos
  · rw [Nat.pow_zero, Nat.mul_one]
    exact h.products m
  · obtain ⟨hne, hlt⟩ := hgap (List.count_pos_iff.1 (Nat.lt_of_lt_of_le hpos hcount))
    have hone : gaps = 1 := Nat.le_antisymm (hcount.trans h.oneGap) hpos
    have hsplit := Extents.product_append ((s.known target).take m) ((s.known target).drop m)
    rw [List.take_append_drop] at hsplit
    have hle : product ((s.known target).take m) ≤ product (s.known target) :=
      Nat.le_of_dvd (Nat.pos_of_ne_zero hne) ⟨_, hsplit⟩
    rw [hone, Nat.pow_one]
    exact Nat.lt_of_le_of_lt (Nat.mul_le_mul_right _ hle) hlt

theorem exists_lengthAt {k : Nat} {e : Int} (hk : target[k]? = some e) (hgap : e ≠ -1) :
    ∃ d, s.lengthAt e k = some d := by
  refine Option.ne_none_iff_exists'.1 fun hnone => hgap ?_
  exact (lengthAt_eq_none fun hzero => h.zeros k (hzero ▸ hk)).1 hnone

theorem filled_congr {gap gap' : Nat} (hgap : -1 ∈ target → gap = gap') :
    s.filled target gap = s.filled target gap' := by
  refine congrArg Shape.mk (List.ext_getElem? fun k => ?_)
  have hfirst := s.getElem?_filled target gap k
  have hsecond := s.getElem?_filled target gap' k
  refine hfirst.trans (Eq.trans ?_ hsecond.symm)
  cases hk : target[k]? with
  | none => rfl
  | some e =>
    by_cases he : e = -1
    · rw [hgap (List.mem_of_getElem? (he ▸ hk))]
    · obtain ⟨d, hd⟩ := h.exists_lengthAt hk he
      simp only [Option.map_some, hd, Option.getD_some]

theorem resolves_filled {gap : Nat} (hsize : (s.filled target gap).size = s.size) :
    s.Resolves target (s.filled target gap) where
  rank := by simp [rank, filled, lengthsFrom]
  size := hsize
  given k e hk hpos := by
    rw [getElem?_filled, hk, Option.map_some, lengthAt_of_pos hpos, Option.getD_some]
  copied k hk := by
    have hplace := h.zeros k hk
    rw [getElem?_filled, hk, Option.map_some, lengthAt_zero hplace, Option.getD_some]
    exact (List.getElem?_eq_getElem hplace).symm

theorem exists_filled (hr : s.Resolves target r) : ∃ gap, r = s.filled target gap := by
  have hlength : r.dims.length = target.length := hr.rank
  have hown : ∃ gap, ∀ k : Nat, target[k]? = some (-1) → r.dims[k]? = some gap := by
    by_cases hgap : ∃ j : Nat, target[j]? = some (-1)
    · obtain ⟨j, hj⟩ := hgap
      have hlt : j < r.dims.length := hlength ▸ (List.getElem?_eq_some_iff.1 hj).1
      refine ⟨r.dims[j], fun k hk => ?_⟩
      rw [← eq_of_count_le_one h.oneGap hj hk]
      exact List.getElem?_eq_getElem hlt
    · exact ⟨0, fun k hk => absurd ⟨k, hk⟩ hgap⟩
  obtain ⟨gap, hown⟩ := hown
  refine ⟨gap, congrArg Shape.mk (List.ext_getElem? fun k => ?_)⟩
  refine Eq.trans ?_ (s.getElem?_filled target gap k).symm
  cases hk : target[k]? with
  | none =>
    have hle : r.dims.length ≤ k := hlength ▸ List.getElem?_eq_none_iff.1 hk
    exact List.getElem?_eq_none hle
  | some e =>
    rw [Option.map_some]
    have hle := h.entries e (List.mem_of_getElem? hk)
    rcases Int.lt_trichotomy e 0 with hneg | rfl | hpos
    · obtain rfl : e = -1 := by omega
      exact hown k hk
    · have hplace := h.zeros k hk
      rw [hr.copied k hk, lengthAt_zero hplace, Option.getD_some]
      exact List.getElem?_eq_getElem hplace
    · rw [hr.given k e hk hpos, lengthAt_of_pos hpos, Option.getD_some]

end Readable

theorem inferred?_eq_some {gap size known : Nat} (h : inferred? target size known = some gap)
    (hmem : -1 ∈ target) : known ≠ 0 ∧ known ∣ size ∧ gap = size / known := by
  unfold inferred? at h
  rw [if_pos (List.contains_iff_mem.2 hmem)] at h
  obtain ⟨hfair, hgap⟩ := Option.ite_none_left_eq_some.1 h
  obtain ⟨hne, hdvd⟩ := not_or.1 hfair
  exact ⟨hne, Nat.dvd_of_mod_eq_zero (not_not.1 hdvd), (Option.some.inj hgap).symm⟩

namespace Solvable

variable (h : s.Solvable target)

include h

theorem size_filled_eq {gap : Nat} : (s.filled target gap).size = s.size ↔
    (-1 ∈ target → gap = s.size / product (s.known target)) := by
  have hwhole := h.whole
  rw [h.size_filled]
  split at hwhole
  · rename_i hmem
    rw [if_pos hmem, Nat.mul_comm, eq_comm, ← Nat.eq_div_iff_mul_eq_left hwhole.1 hwhole.2]
    exact ⟨fun hgap _ => hgap, fun hgap => hgap hmem⟩
  · rename_i hmem
    rw [if_neg hmem]
    exact ⟨fun _ hgap => absurd hgap hmem, fun _ => hwhole⟩

theorem resolves_iff : s.Resolves target r ↔
    r = s.filled target (s.size / product (s.known target)) := by
  constructor
  · intro hr
    obtain ⟨gap, rfl⟩ := h.exists_filled hr
    exact h.filled_congr (h.size_filled_eq.1 hr.size)
  · rintro rfl
    exact h.resolves_filled (h.size_filled_eq.2 fun _ => rfl)

theorem inferred? : ∃ gap, inferred? target s.size (product (s.known target)) = some gap ∧
    (-1 ∈ target → gap = s.size / product (s.known target)) := by
  have hwhole := h.whole
  unfold Shape.inferred?
  split at hwhole
  · rename_i hmem
    have hfair : ¬ (product (s.known target) = 0 ∨ s.size % product (s.known target) ≠ 0) :=
      not_or.2 ⟨hwhole.1, not_not.2 (Nat.mod_eq_zero_of_dvd hwhole.2)⟩
    rw [if_pos (List.contains_iff_mem.2 hmem), if_neg hfair]
    exact ⟨_, rfl, fun _ => rfl⟩
  · rename_i hmem
    rw [if_neg fun hcontains => hmem (List.contains_iff_mem.1 hcontains)]
    exact ⟨0, rfl, fun h => absurd h hmem⟩

end Solvable

theorem reshape?_eq (s : Shape) (target : List Int) : s.reshape? target =
    if 1 < target.count (-1) then none
    else (s.resolveFrom 0 1 target).bind fun p => (inferred? target s.size p.2).bind fun gap =>
      let result : Shape := ⟨p.1.map fun e => e.getD gap⟩
      if result.size = s.size then some result else none := by
  rw [List.count_eq_countP, List.countP_eq_length_filter]
  unfold reshape? inferred?
  split
  · rfl
  · cases s.resolveFrom 0 1 target with
    | none => rfl
    | some p =>
      simp only [Option.bind_eq_bind, Option.bind_some]
      split
      · split <;> rfl
      · rfl

theorem reshape?_eq_some : s.reshape? target = some r ↔
    s.Solvable target ∧ r = s.filled target (s.size / product (s.known target)) := by
  rw [reshape?_eq]
  constructor
  · intro hr
    obtain ⟨hone, hr⟩ := Option.ite_none_left_eq_some.1 hr
    have hone := Nat.not_lt.1 hone
    obtain ⟨⟨xs, n⟩, hresolved, hr⟩ := Option.bind_eq_some_iff.1 hr
    obtain ⟨⟨hentries, hzeros⟩, hproducts, rfl, rfl⟩ := resolveFrom_eq_some.1 hresolved
    have hreadable : s.Readable target := ⟨hone, hentries, hzeros, hproducts⟩
    obtain ⟨gap, hgap, hr⟩ := Option.bind_eq_some_iff.1 hr
    obtain ⟨hsize, hr⟩ := Option.ite_none_right_eq_some.1 hr
    have hsize : (s.filled target gap).size = s.size := hsize
    have h : s.Solvable target := by
      refine ⟨hreadable, ?_⟩
      rw [hreadable.size_filled] at hsize
      split
      · rename_i hmem
        obtain ⟨hne, hdvd, -⟩ := inferred?_eq_some hgap hmem
        exact ⟨hne, hdvd⟩
      · rename_i hmem
        rwa [if_neg hmem] at hsize
    exact ⟨h, (Option.some.inj hr).symm.trans (h.filled_congr (h.size_filled_eq.1 hsize))⟩
  · rintro ⟨h, rfl⟩
    obtain ⟨gap, hinferred, hgap⟩ := h.inferred?
    rw [if_neg (Nat.not_lt.2 h.oneGap), h.resolveFrom, Option.bind_some, hinferred,
      Option.bind_some]
    have hsize : (s.filled target gap).size = s.size := h.size_filled_eq.2 hgap
    rw [← h.filled_congr hgap]
    exact if_pos hsize

theorem size_of_sizeInWords? (h : s.sizeInWords? = some n) : n = s.size ∧ s.size < wordSize := by
  obtain ⟨hn, hall⟩ := (foldlM_mulWord? one_lt_wordSize).1 h
  refine ⟨hn.trans (Nat.one_mul _), ?_⟩
  have hwhole := hall s.dims.length
  rw [List.take_length, Nat.one_mul] at hwhole
  exact hwhole

theorem reshapeInWords?_eq (hs : s.sizeInWords?.isSome) (target : List Int) :
    s.reshapeInWords? target = some (s.reshape? target) := by
  obtain ⟨n, hn⟩ := Option.isSome_iff_exists.1 hs
  obtain ⟨rfl, hlt⟩ := size_of_sizeInWords? hn
  rw [reshape?_eq]
  unfold reshapeInWords?
  rw [hn, ← List.countP_eq_length_filter, ← List.count_eq_countP]
  simp only [Option.bind_eq_bind, Option.bind_some]
  split
  · rfl
  · rename_i hone
    cases hresolved : s.resolveFrom 0 1 target with
    | none => rfl
    | some p =>
      obtain ⟨⟨hentries, hzeros⟩, hproducts, hxs, hknown⟩ := resolveFrom_eq_some.1 hresolved
      have hreadable : s.Readable target := ⟨Nat.not_lt.1 hone, hentries, hzeros, hproducts⟩
      obtain ⟨xs, known⟩ := p
      obtain rfl := hxs
      obtain rfl := hknown
      simp only [Option.bind_some]
      cases hinferred : inferred? target s.size (product (s.known target)) with
      | none => rfl
      | some gap =>
        have hgap : -1 ∈ target →
            product (s.known target) ≠ 0 ∧ product (s.known target) * gap < wordSize := by
          intro hmem
          obtain ⟨hne, hdvd, rfl⟩ := inferred?_eq_some hinferred hmem
          rw [Nat.mul_div_cancel' hdvd]
          exact ⟨hne, hlt⟩
        have hwords := hreadable.sizeInWords?_filled hgap
        unfold filled at hwords
        simp only [hwords, Option.bind_some]
        rfl

/-- A reshape target is resolved if and only if it can be, to the only shape that it can mean, and
for a shape whose size is formed in words no product on the way outgrows one. -/
theorem reshape_resolves (hs : s.sizeInWords?.isSome) (target : List Int) :
    (∀ r, s.reshape? target = some r ↔ s.Solvable target ∧ s.Resolves target r) ∧
      (s.Solvable target → ∃! r, s.Resolves target r) ∧
      s.reshapeInWords? target = some (s.reshape? target) := by
  refine ⟨fun r => ?_, fun h => ?_, reshapeInWords?_eq hs target⟩
  · rw [reshape?_eq_some]
    exact and_congr_right fun h => h.resolves_iff.symm
  · exact ⟨_, h.resolves_iff.2 rfl, fun r hr => h.resolves_iff.1 hr⟩

/-- The leading axis is copied, and the others are made into one. -/
theorem reshape_resolves_rows :
    let s : Shape := ⟨[2, 3, 4]⟩
    s.sizeInWords?.isSome ∧ s.Solvable [0, -1] ∧
      (∀ r, s.Resolves [0, -1] r ↔ r = ⟨[2, 12]⟩) ∧ ¬ s.Solvable [-1, 5] := by
  intro s
  have hs : s.sizeInWords?.isSome := by decide
  have hfound : s.reshape? [0, -1] = some ⟨[2, 12]⟩ := by decide
  have hrefused : s.reshape? [-1, 5] = none := by decide
  obtain ⟨hiff, hunique, -⟩ := reshape_resolves hs [0, -1]
  obtain ⟨hsolvable, hresolves⟩ := (hiff _).1 hfound
  refine ⟨hs, hsolvable, fun r => ⟨fun hr => (hunique hsolvable).unique hr hresolves, ?_⟩, ?_⟩
  · rintro rfl
    exact hresolves
  · intro h
    obtain ⟨r, hr, -⟩ := (reshape_resolves hs [-1, 5]).2.1 h
    exact absurd (((reshape_resolves hs [-1, 5]).1 r).2 ⟨h, hr⟩) (hrefused ▸ nofun)

end ScopedTensor.Shape
