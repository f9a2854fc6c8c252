import ScopedTensor.Proofs.Isolation.References
import ScopedTensor.Proofs.Ownership.Audit
import ScopedTensor.Session.Dump

/-! Contents shown by one engine and by another that does the same to a state of another kind. What
is shown is the same, and so is what becomes of the states. -/

namespace ScopedTensor

open ScopedTensor.Action

variable {half : HalfPrecision}
variable {σ τ α β : Type} {f : σ → τ}

def Action.translated (f : σ → τ) : EStateM.Result Error σ α → EStateM.Result Error τ α
  | .ok x s => .ok x (f s)
  | .error e s => .error e (f s)

/-- What `a` does to a state, `b` does to its translation. -/
def Translates (f : σ → τ) (a : Action σ α) (b : Action τ α) : Prop :=
  ∀ s, b (f s) = translated f (a s)

namespace Translates

variable {a : Action σ α} {b : Action τ α}

theorem pure (x : α) : Translates f (pure x) (pure x) := fun _ => rfl

theorem throw (e : Error) : Translates f (throw e : Action σ α) (throw e) := fun _ => rfl

theorem ofExcept (r : Except Error α) : Translates f (Action.ofExcept r) (Action.ofExcept r) := by
  cases r with
  | ok x => exact .pure x
  | error e => exact .throw e

theorem bind {k : α → Action σ β} {l : α → Action τ β} (h : Translates f a b)
    (hk : ∀ x, Translates f (k x) (l x)) : Translates f (a >>= k) (b >>= l) := by
  intro s
  change EStateM.bind b l (f s) = translated f (EStateM.bind a k s)
  unfold EStateM.bind
  rw [h s]
  cases a s with
  | ok x t => exact hk x t
  | error e t => rfl

theorem outcome (h : Translates f a b) : Translates f a.outcome b.outcome := by
  intro s
  unfold Action.outcome
  rw [h s]
  cases a s <;> rfl

theorem quietly (h : Translates f a b) : Translates f a.quietly b.quietly := by
  intro s
  unfold Action.quietly
  rw [h s]
  cases a s <;> rfl

theorem mapM {k : β → Action σ α} {l : β → Action τ α} (h : ∀ x, Translates f (k x) (l x))
    (xs : List β) : Translates f (xs.mapM k) (xs.mapM l) := by
  induction xs with
  | nil => exact .pure []
  | cons x xs ih =>
    rw [List.mapM_cons, List.mapM_cons]
    exact (h x).bind fun y => ih.bind fun ys => .pure (y :: ys)

end Translates

/-- The calls that show contents do the same. -/
structure Library.Matches (f : σ → τ) (lib : Library σ) (lib' : Library τ) : Prop where
  row : ∀ h i, Translates f (lib.row h i) (lib'.row h i)
  copyOut : ∀ h room n, Translates f (lib.copyOut h room n) (lib'.copyOut h room n)
  free : ∀ h, Translates f (lib.free h) (lib'.free h)

namespace Library.Matches

variable {lib : Library σ} {lib' : Library τ} {type : ElementType}

theorem release (hlib : lib.Matches f lib') (o : OwnedHandle) :
    Translates f (o.release lib) (o.release lib') := by
  unfold OwnedHandle.release
  split
  · exact .pure _
  · exact (hlib.free o.handle).quietly.bind fun _ => .pure _

theorem leaf (hlib : lib.Matches f lib') (h : Handle) (n : Nat) :
    Translates f (Dump.leaf lib type h n) (Dump.leaf lib' type h n) :=
  (hlib.copyOut h _ n).bind fun _ => .pure _

theorem throughRow (hlib : lib.Matches f lib') (h : Handle) (i : Nat)
    {render : Handle → Action σ String} {render' : Handle → Action τ String}
    (hrender : ∀ v, Translates f (render v) (render' v)) :
    Translates f (Dump.throughRow lib h i render)
      (Dump.throughRow lib' h i render') := by
  refine (hlib.row h i).bind fun v => ?_
  have hshown : Translates f
      (do render (← Action.ofExcept (OwnedHandle.mk v).get))
      (do render' (← Action.ofExcept (OwnedHandle.mk v).get)) :=
    (Translates.ofExcept _).bind hrender
  exact hshown.outcome.bind fun text => (hlib.release ⟨v⟩).bind fun _ => .ofExcept text

theorem level (hlib : lib.Matches f lib') (dims : List Nat) : ∀ (depth : Nat) (h : Handle),
    Translates f (Dump.level lib type dims depth h)
      (Dump.level lib' type dims depth h) := by
  induction dims with
  | nil => exact fun depth h => (hlib.leaf h 1).bind fun _ => .pure _
  | cons n dims ih =>
    intro depth h
    cases dims with
    | nil => exact (hlib.leaf h n).bind fun _ => .pure _
    | cons m dims =>
      have hrows := Translates.mapM
        (fun i => hlib.throughRow h i (ih (depth + 1))) (List.range (min n Dump.maxRows))
      exact hrows.bind fun _ => .pure _

end Library.Matches

namespace Backends

open Reference

variable {b : Backends} {i : Nat}

end Backends
end ScopedTensor
