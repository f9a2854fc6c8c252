import ScopedTensor.Proofs.Store.Indices
import ScopedTensor.Session.Dump

/-! The text of contents, written down element by element. Elements are named by their positions,
and every block of the text is about the positions that begin alike. -/

namespace ScopedTensor.Dump

open Binary

variable {t : ElementType} {dims : List Nat} {n depth : Nat} {x y : List Nat → Binary64}

def line (t : ElementType) (n : Nat) (x : Nat → Binary64) : String :=
  Text.commaSeparated ((List.range (min n maxItems)).map fun k => element t (x k)) ++
    (if maxItems < n then s!", ... {n - maxItems} more" else "")

/-- Leading indices at which rows are shown, all of them above the innermost axis. -/
structure Visible (dims is : List Nat) : Prop where
  inner : is.length < dims.length
  shown : ∀ k (h : k < is.length), is[k] < min (dims.getD k 0) maxRows

theorem Visible.tail {m i : Nat} {is : List Nat} (h : Visible (n :: m :: dims) (i :: is)) :
    i < min n maxRows ∧ Visible (m :: dims) is := by
  refine ⟨h.shown 0 (Nat.succ_pos _), Nat.lt_of_succ_lt_succ h.inner, fun k hk => ?_⟩
  exact h.shown (k + 1) (Nat.succ_lt_succ hk)

end ScopedTensor.Dump
