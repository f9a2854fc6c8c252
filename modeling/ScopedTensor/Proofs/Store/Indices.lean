import ScopedTensor.Proofs.Store.Bounds

/-! Which elements of an array a view of it shows. Elements are named by their position, a number for
each axis, and stand in memory in row-major order, the last axis varying fastest. -/

namespace ScopedTensor

open Reference

namespace Shape

def placeIn : List Nat → List Nat → Nat
  | _ :: dims, i :: is => i * (Shape.mk dims).size + placeIn dims is
  | _, _ => 0

def indexIn : List Nat → Nat → List Nat
  | [], _ => []
  | _ :: dims, k => k / (Shape.mk dims).size :: indexIn dims (k % (Shape.mk dims).size)

variable (s : Shape)

def Has (is : List Nat) : Prop := List.Forall₂ (· < ·) is s.dims

def place (is : List Nat) : Nat := placeIn s.dims is

def index (k : Nat) : List Nat := indexIn s.dims k

theorem placeIn_lt {dims is : List Nat} (h : List.Forall₂ (· < ·) is dims) :
    placeIn dims is < (Shape.mk dims).size := by
  induction h with
  | nil => exact Nat.one_pos
  | @cons i n is dims hi h ih =>
    calc i * (Shape.mk dims).size + placeIn dims is
        < i * (Shape.mk dims).size + (Shape.mk dims).size := Nat.add_lt_add_left ih _
      _ = (i + 1) * (Shape.mk dims).size := (Nat.add_one_mul _ _).symm
      _ ≤ n * (Shape.mk dims).size := Nat.mul_le_mul_right _ hi

theorem size_pos_of_lt {n k : Nat} {dims : List Nat} (h : k < (Shape.mk (n :: dims)).size) :
    0 < (Shape.mk dims).size := by
  rw [size_cons] at h
  exact Nat.pos_of_ne_zero fun hzero => by simp [hzero] at h

theorem indexIn_has {dims : List Nat} :
    ∀ {k : Nat}, k < (Shape.mk dims).size → List.Forall₂ (· < ·) (indexIn dims k) dims := by
  induction dims with
  | nil => exact fun _ => .nil
  | cons n dims ih =>
    intro k hk
    have hpos := size_pos_of_lt hk
    refine .cons ?_ (ih (Nat.mod_lt _ hpos))
    rw [Nat.div_lt_iff_lt_mul hpos]
    exact hk

theorem placeIn_indexIn {dims : List Nat} :
    ∀ {k : Nat}, k < (Shape.mk dims).size → placeIn dims (indexIn dims k) = k := by
  induction dims with
  | nil =>
    intro k hk
    have hk : k < 1 := hk
    exact (Nat.lt_one_iff.1 hk).symm
  | cons n dims ih =>
    intro k hk
    have hpos := size_pos_of_lt hk
    unfold indexIn placeIn
    rw [ih (Nat.mod_lt _ hpos)]
    exact Nat.div_add_mod' k _

theorem indexIn_placeIn {dims is : List Nat} (h : List.Forall₂ (· < ·) is dims) :
    indexIn dims (placeIn dims is) = is := by
  induction h with
  | nil => rfl
  | @cons i n is dims hi h ih =>
    have hlt := placeIn_lt h
    have hpos : 0 < (Shape.mk dims).size := Nat.lt_of_le_of_lt (Nat.zero_le _) hlt
    unfold placeIn indexIn
    rw [Nat.mul_comm i, Nat.mul_add_div hpos, Nat.div_eq_of_lt hlt, Nat.mul_add_mod,
      Nat.mod_eq_of_lt hlt, ih, Nat.add_zero]

variable {s} {is : List Nat} {k : Nat}

theorem place_lt (h : s.Has is) : s.place is < s.size := placeIn_lt h

theorem has_index (h : k < s.size) : s.Has (s.index k) := indexIn_has h

theorem place_index (h : k < s.size) : s.place (s.index k) = k := placeIn_indexIn h

theorem index_place (h : s.Has is) : s.index (s.place is) = is := indexIn_placeIn h

end Shape

/-- `w` shows elements of `v`: at each of its positions the one at `origin` of it. -/
structure View.Shows (w v : View) (origin : List Nat → List Nat) : Prop where
  buffer : w.buffer = v.buffer
  type : w.type = v.type
  valid : ∀ is, w.shape.Has is → v.shape.Has (origin is)
  cell : ∀ is, w.shape.Has is → w.offset + w.shape.place is = v.offset + v.shape.place (origin is)

theorem View.Shows.refl (v : View) : v.Shows v id := ⟨rfl, rfl, fun _ h => h, fun _ _ => rfl⟩

theorem View.Shows.trans {u v w : View} {f g : List Nat → List Nat} (h : w.Shows v g)
    (hv : v.Shows u f) : w.Shows u (f ∘ g) where
  buffer := h.buffer.trans hv.buffer
  type := h.type.trans hv.type
  valid is his := hv.valid _ (h.valid is his)
  cell is his := (h.cell is his).trans (hv.cell _ (h.valid is his))

theorem View.Shows.read {v w : View} {f : List Nat → List Nat} (h : w.Shows v f) (m : Memory)
    {k : Nat} (hk : k < w.size) :
    (m.read w)[k]? = (m.read v)[v.shape.place (f (w.shape.index k))]? := by
  have hhas : w.shape.Has (w.shape.index k) := Shape.has_index hk
  have hcell := h.cell _ hhas
  rw [Shape.place_index hk] at hcell
  have hlt : v.shape.place (f (w.shape.index k)) < v.size := Shape.place_lt (h.valid _ hhas)
  rw [Memory.getElem?_read, Memory.getElem?_read, if_pos hk, if_pos hlt, h.buffer, hcell]

namespace Reference.Derivation

/-- Where an element that is shown at `is` stands in the array it is shown of. A number that is taken
from a vector is shown as a vector of one. -/
def origin (d : Derivation) (base shown : Shape) (is : List Nat) : List Nat :=
  match d, is with
  | row index, is => if base.rank = 1 then [index] else index :: is
  | slice first _, i :: is => (first + i) :: is
  | slice .., [] => []
  | reshape .., is => base.index (shown.place is)

/-- The elements that are shown: those of one row, those of some rows, or all of them. -/
def Selects (d : Derivation) (is : List Nat) : Prop :=
  match d with
  | row index => is.head? = some index
  | slice first last => ∃ i, is.head? = some i ∧ first ≤ i ∧ i < last
  | reshape .. => True

variable {d : Derivation} {v w : View}

theorem shows_row {index : Nat} (h : rowOf index v = .ok w) :
    w.Shows v ((row index).origin v.shape w.shape) := by
  obtain ⟨n, rest, hdims, hindex, rfl⟩ := rowOf_eq_ok h
  obtain ⟨buffer, offset, ⟨dims⟩, type⟩ := v
  obtain rfl : dims = n :: rest := hdims
  cases rest with
  | nil =>
    refine ⟨rfl, rfl, fun is his => .cons hindex .nil, fun is his => ?_⟩
    obtain ⟨j, js, hj, hjs, rfl⟩ := List.forall₂_cons_right_iff.1 his
    obtain rfl := List.forall₂_nil_right_iff.1 hjs
    obtain rfl := Nat.lt_one_iff.1 hj
    exact Nat.add_assoc offset _ _
  | cons m rest =>
    refine ⟨rfl, rfl, fun is his => .cons hindex his, fun is his => ?_⟩
    exact Nat.add_assoc offset _ _

theorem shows_slice {first last : Nat} (h : sliceOf first last v = .ok w) :
    w.Shows v ((slice first last).origin v.shape w.shape) := by
  obtain ⟨n, rest, hdims, hlt, hle, rfl⟩ := sliceOf_eq_ok h
  obtain ⟨buffer, offset, ⟨dims⟩, type⟩ := v
  obtain rfl : dims = n :: rest := hdims
  refine ⟨rfl, rfl, fun is his => ?_, fun is his => ?_⟩
  · obtain ⟨j, js, hj, hjs, rfl⟩ := List.forall₂_cons_right_iff.1 his
    have hlast : first + j < n := by omega
    exact .cons hlast hjs
  · obtain ⟨j, js, hj, hjs, rfl⟩ := List.forall₂_cons_right_iff.1 his
    change offset + first * (Shape.mk rest).size +
        (j * (Shape.mk rest).size + Shape.placeIn rest js) =
      offset + ((first + j) * (Shape.mk rest).size + Shape.placeIn rest js)
    rw [Nat.add_mul]
    omega

theorem shows_reshape {target : List Int} {reverse : Bool} (h : reshapeOf target v = .ok w) :
    w.Shows v ((reshape target reverse).origin v.shape w.shape) := by
  obtain ⟨r, hsize, rfl⟩ := reshapeOf_eq_ok h
  have hplace : ∀ is, r.Has is → r.place is < v.shape.size := fun is his =>
    Nat.lt_of_lt_of_le (Shape.place_lt his) (Nat.le_of_eq hsize)
  refine ⟨rfl, rfl, fun is his => Shape.has_index (hplace is his), fun is his => ?_⟩
  change v.offset + r.place is = v.offset + v.shape.place (v.shape.index (r.place is))
  rw [Shape.place_index (hplace is his)]

theorem shows (h : d.view v = .ok w) : w.Shows v (d.origin v.shape w.shape) := by
  cases d with
  | row index => exact shows_row h
  | slice first last => exact shows_slice h
  | reshape target reverse => exact shows_reshape h

theorem selects_iff (h : d.view v = .ok w) {js : List Nat} (hjs : v.shape.Has js) :
    d.Selects js ↔ ∃ is, w.shape.Has is ∧ d.origin v.shape w.shape is = js := by
  obtain ⟨buffer, offset, ⟨dims⟩, type⟩ := v
  cases d with
  | row index =>
    obtain ⟨n, rest, hdims, hindex, rfl⟩ := rowOf_eq_ok h
    obtain rfl : dims = n :: rest := hdims
    obtain ⟨j, js, hj, hrest, rfl⟩ := List.forall₂_cons_right_iff.1 hjs
    change some j = some index ↔ _
    cases rest with
    | nil =>
      obtain rfl := List.forall₂_nil_right_iff.1 hrest
      refine ⟨fun hi => ⟨[0], .cons Nat.one_pos .nil, ?_⟩, fun ⟨is, _, hi⟩ => ?_⟩
      · rw [Option.some.inj hi]
        rfl
      · exact congrArg List.head? hi.symm
    | cons m rest =>
      refine ⟨fun hi => ⟨js, hrest, ?_⟩, fun ⟨is, _, hi⟩ => ?_⟩
      · rw [Option.some.inj hi]
        rfl
      · exact congrArg List.head? hi.symm
  | slice first last =>
    obtain ⟨n, rest, hdims, hlt, hle, rfl⟩ := sliceOf_eq_ok h
    obtain rfl : dims = n :: rest := hdims
    obtain ⟨j, js, hj, hrest, rfl⟩ := List.forall₂_cons_right_iff.1 hjs
    constructor
    · rintro ⟨i, hi, hfirst, hlast⟩
      obtain rfl := Option.some.inj hi
      have hshown : j - first < last - first := by omega
      refine ⟨(j - first) :: js, .cons hshown hrest, ?_⟩
      have hj : first + (j - first) = j := by omega
      exact congrArg (· :: js) hj
    · rintro ⟨is, his, hi⟩
      obtain ⟨i, is, hi', _, rfl⟩ := List.forall₂_cons_right_iff.1 his
      have hij : first + i = j := (List.cons.inj hi).1
      have hlast : i < last - first := hi'
      exact ⟨j, rfl, by omega, by omega⟩
  | reshape target reverse =>
    obtain ⟨r, hsize, rfl⟩ := reshapeOf_eq_ok h
    have hlt : Shape.place ⟨dims⟩ js < r.size :=
      Nat.lt_of_lt_of_le (Shape.place_lt hjs) (Nat.le_of_eq hsize.symm)
    refine ⟨fun _ => ⟨_, Shape.has_index hlt, ?_⟩, fun _ => trivial⟩
    change Shape.index ⟨dims⟩ (r.place (r.index (Shape.place ⟨dims⟩ js))) = js
    rw [Shape.place_index hlt, Shape.index_place hjs]

end Reference.Derivation
end ScopedTensor
