import ScopedTensor.Element.Codec
import ScopedTensor.Kernel.Lane
import ScopedTensor.Value.Shape

/-! The cells that arrays show. A buffer is a row of doubles; a view is a window of one buffer seen
with a shape and an element type. Views of one buffer share its cells, and whatever is written
through a view is narrowed to the view's element type. -/

namespace ScopedTensor

open Binary

structure View where
  buffer : Nat
  offset : Nat
  shape : Shape
  type : ElementType
  deriving DecidableEq

namespace View

variable (v : View)

def size : Nat := v.shape.size

def window (start : Nat) (shape : Shape) : View := { v with offset := v.offset + start, shape }

def reshaped (shape : Shape) : View := { v with shape }

end View

/-- Replaces the cells from `start` on, one for each pair of an old cell and a value. -/
def overlay (f : Binary64 → Binary64 → Binary64) (start : Nat) (cells values : Values) : Values :=
  cells.take start ++ (cells.drop start).zipWith f values ++ cells.drop (start + values.length)

theorem length_overlay (f : Binary64 → Binary64 → Binary64) (start : Nat) (cells values : Values) :
    (overlay f start cells values).length = cells.length := by
  simp only [overlay, List.length_append, List.length_take, List.length_zipWith, List.length_drop]
  omega

structure Memory where
  buffers : List Values

namespace Memory

def empty : Memory := ⟨[]⟩

variable (m : Memory)

def cells (buffer : Nat) : Values := m.buffers.getD buffer []

def allocate (shape : Shape) (type : ElementType) : View × Memory :=
  (⟨m.buffers.length, 0, shape, type⟩, ⟨m.buffers ++ [List.replicate shape.size .zero]⟩)

def read (v : View) : Values := ((m.cells v.buffer).drop v.offset).take v.size

/-- Values beyond the view's last element are dropped. -/
def update (v : View) (f : Binary64 → Binary64 → Binary64) (values : Values) : Memory :=
  ⟨m.buffers.modify v.buffer fun cells => overlay f v.offset cells (values.take v.size)⟩

def write [HalfPrecision] (v : View) (values : Values) : Memory :=
  m.update v (fun _ x => v.type.cast x) values

def accumulate [HalfPrecision] (v : View) (values : Values) : Memory :=
  m.update v (fun old x => v.type.cast (old + x)) values

end Memory
end ScopedTensor
