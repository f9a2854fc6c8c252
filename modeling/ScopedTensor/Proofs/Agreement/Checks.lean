import ScopedTensor.Proofs.Ownership.Steps

/-! Actions that fail for their arguments alone. Ending what nobody holds never fails, so an
operation whose steps fail for their arguments alone does so itself. -/

namespace ScopedTensor

/-- The arguments are at fault, and not the engine. -/
inductive Error.OfArguments : Error → Prop
  | invalid (r : Refusal) : OfArguments (.invalid r)
  | typeMismatch (required actual : ElementType) : OfArguments (.typeMismatch required actual)

namespace Action

variable {σ α β : Type} {P P' E : σ → Prop} {Q Q' : α → σ → Prop} {R : β → σ → Prop}
variable {a : Action σ α} {f : α → Action σ β} {s t : σ} {x : α} {e : Error}

/-- From a state where `P` holds, an action returns where `Q` holds of its result, or fails because
of its arguments. -/
def Checks (P : σ → Prop) (a : Action σ α) (Q : α → σ → Prop) : Prop :=
  ∀ s, P s → match a s with
    | .ok x t => Q x t
    | .error e _ => e.OfArguments

theorem fails_iff : (∃ e t, a s = .error e t) ↔ ¬ ∃ x t, a s = .ok x t := by
  cases a s with
  | ok x t => exact iff_of_false nofun fun h => h ⟨x, t, rfl⟩
  | error e t => exact iff_of_true ⟨e, t, rfl⟩ nofun

theorem Checks.error (h : Checks P a Q) (hs : P s) (hr : a s = .error e t) : e.OfArguments := by
  have hend := h s hs
  rwa [hr] at hend

theorem Screens.checks (h : Screens P a Q E) : Checks P a Q := by
  intro s hs
  have hend := h s hs
  cases hr : a s with
  | ok x t => rw [hr] at hend; exact hend
  | error e t =>
    rw [hr] at hend
    obtain ⟨⟨r, rfl⟩, -⟩ := hend
    exact .invalid r

theorem Checks.imp (h : Checks P a Q) (hP : ∀ s, P' s → P s) (hQ : ∀ x s, Q x s → Q' x s) :
    Checks P' a Q' := by
  intro s hs
  have hend := h s (hP s hs)
  cases hr : a s with
  | ok x t => rw [hr] at hend; exact hQ x t hend
  | error e t => rw [hr] at hend; exact hend

theorem Checks.bind (h : Checks P a Q) (hf : ∀ x, Checks (Q x) (f x) R) :
    Checks P (a >>= f) R := by
  intro s hs
  have hend := h s hs
  cases hr : a s with
  | ok x t =>
    rw [hr] at hend
    rw [bind_of_ok hr]
    exact hf x t hend
  | error e t =>
    rw [hr] at hend
    rw [bind_error hr]
    exact hend

theorem Checks.bind_fact {C : α → Prop} (h : Checks P a fun x s => P' s ∧ C x)
    (hf : ∀ x, C x → Checks P' (f x) R) : Checks P (a >>= f) R :=
  h.bind fun x s hs => hf x hs.2 s hs.1

theorem Checks.map {g : α → β} (h : Checks P a fun x => R (g x)) : Checks P (g <$> a) R :=
  h.bind fun x s hs => (hs : R (g x) s)

theorem Checks.of_map {g : α → β} (h : Checks P (g <$> a) R) : Checks P a fun x => R (g x) := by
  intro s hs
  have hend := h s hs
  change match EStateM.map g a s with
    | .ok y t => R y t
    | .error e _ => e.OfArguments at hend
  unfold EStateM.map at hend
  cases hr : a s with
  | ok x t | error e t => rw [hr] at hend; exact hend

theorem checks_pure (h : ∀ s, P s → Q x s) : Checks P (pure x) Q := fun s hs => h s hs

theorem checks_throw (he : e.OfArguments) : Checks P (throw e : Action σ α) Q := fun _ _ => he

theorem Checks.guard {c : Prop} [Decidable c] {k : PUnit → Action σ α} (he : e.OfArguments)
    (hk : ¬ c → Checks P (k ⟨⟩) Q) :
    Checks P (if c then (do let x ← MonadExcept.throw e; k x) else k ⟨⟩) Q := by
  split
  · exact fun _ _ => he
  · exact hk ‹_›

theorem Checks.of_state (h : ∀ s, P s → Checks (· = s) a Q) : Checks P a Q :=
  fun s hs => h s hs s rfl

theorem Checks.start (h : Checks P a Q) (hs : P s) : Checks (· = s) a Q :=
  fun _ ht => h _ (ht ▸ hs)

theorem Checks.and_meets (h : Checks P a Q) (h' : Meets P' a Q' E) :
    Checks (fun s => P s ∧ P' s) a fun x s => Q x s ∧ Q' x s := by
  intro s hs
  have hend := h s hs.1
  have hend' := h' s hs.2
  cases hr : a s with
  | ok x t =>
    rw [hr] at hend hend'
    exact ⟨hend, hend'⟩
  | error e t =>
    rw [hr] at hend
    exact hend

theorem checks_of_ok (h : a s = .ok x t) (hQ : Q x t) : Checks (· = s) a Q := by
  rintro _ rfl
  rw [h]
  exact hQ

theorem Checks.outcome_bind {f : Except Error α → Action σ β} (h : Checks P a Q)
    (hok : ∀ x, Checks (Q x) (f (.ok x)) R)
    (herror : ∀ e, e.OfArguments → Checks (fun _ => True) (f (.error e)) R) :
    Checks P (a.outcome >>= f) R := by
  intro s hs
  have hend := h s hs
  cases hr : a s with
  | ok x t =>
    rw [hr] at hend
    have houtcome : a.outcome s = .ok (.ok x) t := by
      unfold outcome
      rw [hr]
    rw [bind_of_ok houtcome]
    exact hok x t hend
  | error e t =>
    rw [hr] at hend
    have houtcome : a.outcome s = .ok (.error e) t := by
      unfold outcome
      rw [hr]
    rw [bind_of_ok houtcome]
    exact herror e hend t trivial

end Action

namespace Session

open ScopedTensor.Action

variable {σ α : Type} {P : Session σ → Prop}

theorem checks_settled {a : Action (Session σ) α} (h : Checks P a fun _ _ => True) :
    Checks P (settled a) fun _ _ => True := by
  intro s hs
  have hend := h s hs
  cases hr : a s with
  | ok x t =>
    obtain ⟨u, hsweep⟩ := sweep_ok t
    rw [settled_ok hr hsweep]
    trivial
  | error e t =>
    obtain ⟨u, hsweep⟩ := sweep_ok t
    rw [settled_error hr hsweep]
    rw [hr] at hend
    exact hend

theorem checks_keeping {a : Action (Session σ) ArrayId} (h : Checks P a fun _ _ => True) :
    Checks P (keeping a) fun _ _ => True :=
  checks_settled (h.bind fun _ => fun _ _ => trivial)

theorem keeping_fails_iff {a : Action (Session σ) ArrayId} {s : Session σ} :
    (∃ x t, keeping a s = .error x t) ↔ ∃ x t, a s = .error x t := by
  cases hr : a s with
  | ok id t =>
    obtain ⟨u, hsweep⟩ := sweep_ok { t with arrayHolds := id :: t.arrayHolds }
    have hheld : (do
        let id ← a
        holdArray id
        return id : Action (Session σ) ArrayId) s =
          .ok id { t with arrayHolds := id :: t.arrayHolds } := bind_of_ok hr
    have hkept : keeping a s = .ok id u := settled_ok hheld hsweep
    rw [hkept]
    exact ⟨fun ⟨_, _, h⟩ => absurd h nofun, fun ⟨_, _, h⟩ => absurd h nofun⟩
  | error x t =>
    obtain ⟨u, hsweep⟩ := sweep_ok t
    have hkept : keeping a s = .error x u := settled_error (bind_error hr) hsweep
    rw [hkept]
    exact ⟨fun _ => ⟨x, t, rfl⟩, fun _ => ⟨x, u, rfl⟩⟩

theorem checks_array (id : ArrayId) :
    Checks P (array id) fun a s => s.arrays.get? id = some a ∧ P s :=
  (screens_array id fun _ hs => hs).checks

theorem checks_handle (id : ArrayId) :
    Checks P (handle id)
      fun h s => (∃ a, s.arrays.get? id = some a ∧ a.owned.get = .ok h) ∧ P s :=
  (screens_handle id fun _ hs => hs).checks

theorem checks_scope (S : ScopeId) : Checks P (scope S) fun c s => s.scopes.get? S = some c ∧ P s := by
  intro s hs
  cases hc : s.scopes.get? S with
  | some c =>
    rw [scope_eq hc]
    exact ⟨hc, hs⟩
  | none =>
    have hgone : scope S s = .error (.invalid .scopeClosed) s := query_error (by rw [hc])
    rw [hgone]
    exact .invalid _

theorem checks_attach (hP : ∀ s S id, P s → P (s.entered S id)) (owner : Option ScopeId)
    (id : ArrayId) : Checks P (attach owner id) fun _ => P := by
  cases owner with
  | none => exact checks_pure fun _ hs => hs
  | some S =>
    refine (checks_scope S).bind fun c => .guard (.invalid _) fun _ => ?_
    exact fun s hs => hP s S id hs.2

theorem checks_joinScope (id : ArrayId) (h : Handle) (known : Option Description) :
    Checks P (joinScope id h known) fun _ _ => True := by
  refine (checks_array id).bind fun a => ?_
  refine Checks.bind (Q := fun _ _ => True) (fun _ _ => trivial) fun new => ?_
  refine (checks_attach (fun _ _ _ _ => trivial) a.owner new).bind fun _ => ?_
  exact checks_pure fun _ _ => trivial

theorem checks_modifyArray (id : ArrayId) (f : Tensor σ → Tensor σ) :
    Checks P (modifyArray id f) fun _ _ => True := fun _ _ => trivial

theorem checks_retire (id : ArrayId) : Checks P (retire id) fun _ _ => True := by
  intro s _
  rw [retire_eq]
  trivial

end Session
end ScopedTensor
