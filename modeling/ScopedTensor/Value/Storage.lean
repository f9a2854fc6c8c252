/-! Storage layouts of an array, and how a backward pass writes into a gradient buffer. -/

namespace ScopedTensor

inductive Storage where
  | dense | rowSparse | csr
  deriving DecidableEq, Repr, Inhabited

namespace Storage

def all : List Storage := [dense, rowSparse, csr]

def code : Storage → Int
  | dense => 0
  | rowSparse => 1
  | csr => 2

def ofCode? (c : Int) : Option Storage := all.find? fun s => s.code == c

theorem ofCode?_code (s : Storage) : ofCode? s.code = some s := by cases s <;> decide

def isSparse : Storage → Bool
  | dense => false
  | _ => true

def auxiliaryCount : Storage → Nat
  | dense => 0
  | rowSparse => 1
  | csr => 2

def name : Storage → String
  | dense => "default"
  | rowSparse => "row_sparse"
  | csr => "csr"

def tag : Storage → String
  | dense => "dense"
  | rowSparse => "row_sparse"
  | csr => "csr"

def ofTag? (s : String) : Option Storage := all.find? fun t => t.tag == s

end Storage

/-- What a backward pass does with the gradient of a variable. -/
inductive GradRequest where
  | skip | write | add
  deriving DecidableEq, Repr, Inhabited

namespace GradRequest

def code : GradRequest → Nat
  | skip => 0
  | write => 1
  | add => 3

/-- Code 2, writing in place, counts as writing. -/
def ofCode? : Nat → Option GradRequest
  | 0 => some skip
  | 1 | 2 => some write
  | 3 => some add
  | _ => none

theorem ofCode?_code (r : GradRequest) : ofCode? r.code = some r := by cases r <;> rfl

def name : GradRequest → String
  | skip => "null"
  | write => "write"
  | add => "add"

end GradRequest
end ScopedTensor
