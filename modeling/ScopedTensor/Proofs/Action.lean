import ScopedTensor.Library.Basic

/-! Triples for actions: what holds of the result and the state an action ends in, and of the state
it fails in. One rule for each way actions are put together. -/

namespace ScopedTensor.Action

variable {σ τ α β : Type}

/-- From a state where `P` holds, an action returns where `Q` holds of its result, or fails where
`E` holds. -/
def Meets (P : σ → Prop) (a : Action σ α) (Q : α → σ → Prop) (E : σ → Prop) : Prop :=
  ∀ s, P s → match a s with
    | .ok x s' => Q x s'
    | .error _ s' => E s'

/-- However the action ends, `P` is as true as before. -/
abbrev Keeps (P : σ → Prop) (a : Action σ α) : Prop := Meets P a (fun _ => P) P

variable {P P' : σ → Prop} {Q Q' : α → σ → Prop} {R : β → σ → Prop} {E E' : σ → Prop}
variable {a : Action σ α} {f : α → Action σ β}

theorem Meets.imp (h : Meets P a Q E) (hP : ∀ s, P' s → P s) (hQ : ∀ x s, Q x s → Q' x s)
    (hE : ∀ s, E s → E' s) : Meets P' a Q' E' := by
  intro s hs
  have := h s (hP s hs)
  cases hr : a s with
  | ok x s' => rw [hr] at this; exact hQ x s' this
  | error e s' => rw [hr] at this; exact hE s' this

theorem Meets.of_imp (h : Meets P a Q E) (hP : ∀ s, P' s → P s) : Meets P' a Q E :=
  h.imp hP (fun _ _ h => h) fun _ h => h

theorem Meets.to_imp (h : Meets P a Q E) (hQ : ∀ x s, Q x s → Q' x s) : Meets P a Q' E :=
  h.imp (fun _ h => h) hQ fun _ h => h

theorem Meets.or_left (h : Meets P a Q E) : Meets P a Q fun s => E s ∨ E' s :=
  h.imp (fun _ h => h) (fun _ _ h => h) fun _ h => .inl h

theorem Meets.both (h : Meets P a Q E) (h' : Meets P' a Q' E') :
    Meets (fun s => P s ∧ P' s) a (fun x s => Q x s ∧ Q' x s) fun s => E s ∧ E' s := by
  intro s hs
  have hq := h s hs.1
  have hq' := h' s hs.2
  cases hr : a s with
  | ok x t | error e t =>
    rw [hr] at hq hq'
    exact ⟨hq, hq'⟩

theorem Meets.and (h : Meets P a Q E) (h' : Meets P' a Q' E) :
    Meets (fun s => P s ∧ P' s) a (fun x s => Q x s ∧ Q' x s) E :=
  (h.both h').imp (fun _ hs => hs) (fun _ _ hs => hs) fun _ hs => hs.1

theorem Meets.and_result {C : α → Prop} (h : Meets P a Q E) (hC : ∀ s x t, a s = .ok x t → C x) :
    Meets P a (fun x s => Q x s ∧ C x) E := by
  intro s hs
  have hq := h s hs
  cases hr : a s with
  | ok x t =>
    rw [hr] at hq
    exact ⟨hq, hC s x t hr⟩
  | error e t => rwa [hr] at hq

theorem Meets.bind (h : Meets P a Q E) (hf : ∀ x, Meets (Q x) (f x) R E) :
    Meets P (a >>= f) R E := by
  intro s hs
  have := h s hs
  change match EStateM.bind a f s with
    | .ok x s' => R x s'
    | .error _ s' => E s'
  unfold EStateM.bind
  cases hr : a s with
  | ok x s' => rw [hr] at this; exact hf x s' this
  | error e s' => rw [hr] at this; exact this

theorem Meets.map {g : α → β} (h : Meets P a (fun x => R (g x)) E) : Meets P (g <$> a) R E :=
  h.bind fun _ _ hs => hs

theorem Meets.of_map {g : α → β} (h : Meets P (g <$> a) R E) :
    Meets P a (fun x => R (g x)) E := by
  intro s hs
  have hmap : match EStateM.map g a s with
    | .ok y s' => R y s'
    | .error _ s' => E s' := h s hs
  unfold EStateM.map at hmap
  cases hr : a s with
  | ok x t => rw [hr] at hmap; exact hmap
  | error e t => rw [hr] at hmap; exact hmap

theorem Meets.pure {x : α} (h : ∀ s, P s → Q x s) : Meets P (pure x) Q E := fun s hs => h s hs

theorem Meets.throw {e : Error} (h : ∀ s, P s → E s) : Meets P (throw e : Action σ α) Q E :=
  fun s hs => h s hs

theorem Meets.get {Q : σ → σ → Prop} (h : ∀ s, P s → Q s s) :
    Meets P (get : Action σ σ) Q E := fun s hs => h s hs

theorem Meets.modify {Q : PUnit → σ → Prop} {g : σ → σ} (h : ∀ s, P s → Q ⟨⟩ (g s)) :
    Meets P (modify g : Action σ PUnit) Q E := fun s hs => h s hs

theorem Meets.of_state (h : ∀ s, P s → Meets (· = s) a Q E) : Meets P a Q E :=
  fun s hs => h s hs s rfl

theorem Meets.start {t : σ} (h : Meets P a Q E) (ht : P t) : Meets (· = t) a Q E :=
  h.of_imp fun s hs => by rw [hs]; exact ht

theorem Meets.done {t : σ} {x : α} (h : Q x t) : Meets (· = t) (Pure.pure x) Q E :=
  fun s hs => by rw [hs]; exact h

theorem Meets.of_eq {t u : σ} {x : α} (h : a t = .ok x u) (hQ : Q x u) :
    Meets (· = t) a Q E := by
  intro s hs
  rw [hs, h]
  exact hQ

theorem Meets.of_eq_error {t u : σ} {e : Error} (h : a t = .error e u) (hE : E u) :
    Meets (· = t) a Q E := by
  intro s hs
  rw [hs, h]
  exact hE

theorem Meets.of_step {b : Action σ α} {t u : σ} (h : a t = b u) (hb : Meets (· = u) b Q E) :
    Meets (· = t) a Q E := by
  intro s hs
  rw [hs, h]
  exact hb u rfl

theorem Meets.get_bind {f : σ → Action σ β} (h : ∀ t, P t → Meets (· = t) (f t) R E) :
    Meets P (MonadState.get >>= f) R E :=
  (Meets.get (Q := fun t s => P t ∧ s = t) fun _ hs => ⟨hs, rfl⟩).bind fun t s hs => h t hs.1 s hs.2

theorem Meets.modify_bind {g : σ → σ} {f : PUnit → Action σ β} {I : σ → Prop}
    (hg : ∀ s, P s → I (g s)) (h : Meets I (f ⟨⟩) R E) :
    Meets P ((MonadState.modifyGet fun s => (⟨⟩, g s)) >>= f) R E :=
  (Meets.modify (Q := fun _ => I) hg).bind fun _ => h

theorem Meets.ofExcept {r : Except Error α} (hQ : ∀ x, r = .ok x → ∀ s, P s → Q x s)
    (hE : ∀ s, P s → E s) : Meets P (ofExcept r) Q E := by
  cases r with
  | ok x => exact .pure (hQ x rfl)
  | error e => exact .throw hE

theorem Meets.query {g : σ → Except Error α} (hQ : ∀ s, P s → ∀ x, g s = .ok x → Q x s)
    (hE : ∀ s, P s → E s) : Meets P (query g) Q E := by
  intro s hs
  unfold Action.query
  cases h : g s with
  | ok x => exact hQ s hs x h
  | error e => exact hE s hs

theorem Meets.transition {g : σ → Except Error (α × σ)}
    (hQ : ∀ s, P s → ∀ x s', g s = .ok (x, s') → Q x s') (hE : ∀ s, P s → E s) :
    Meets P (transition g) Q E := by
  intro s hs
  unfold Action.transition
  cases h : g s with
  | ok r => exact hQ s hs r.1 r.2 h
  | error e => exact hE s hs

theorem Meets.zoom {get : τ → σ} {put : σ → τ → τ} {P : τ → Prop} {Q : α → τ → Prop} {E : τ → Prop}
    (h : ∀ t, P t → match a (get t) with
      | .ok x s' => Q x (put s' t)
      | .error _ s' => E (put s' t)) : Meets P (a.zoom get put) Q E := by
  intro t ht
  have := h t ht
  unfold Action.zoom
  cases hr : a (get t) with
  | ok x s' => rw [hr] at this; exact this
  | error e s' => rw [hr] at this; exact this

theorem Meets.outcome {F : σ → Prop} (h : Meets P a Q E) :
    Meets P a.outcome (fun r s => match r with
      | .ok x => Q x s
      | .error _ => E s) F := by
  intro s hs
  have := h s hs
  unfold Action.outcome
  cases hr : a s with
  | ok x s' => rw [hr] at this; exact this
  | error e s' => rw [hr] at this; exact this

theorem keeps_pure (x : α) : Keeps P (pure x : Action σ α) := .pure fun _ hs => hs

theorem keeps_throw (e : Error) : Keeps P (throw e : Action σ α) := .throw fun _ hs => hs

theorem keeps_ofExcept (r : Except Error α) : Keeps P (Action.ofExcept r : Action σ α) :=
  .ofExcept (fun _ _ _ hs => hs) fun _ hs => hs

theorem Keeps.quietly {E : σ → Prop} (h : Keeps P a) : Meets P a.quietly (fun _ => P) E := by
  intro s hs
  have := h s hs
  unfold Action.quietly
  cases hr : a s with
  | ok x s' => rw [hr] at this; exact this
  | error e s' => rw [hr] at this; exact this

theorem Meets.ite {c : Prop} [Decidable c] {a b : Action σ α} (ha : c → Meets P a Q E)
    (hb : ¬ c → Meets P b Q E) : Meets P (if c then a else b) Q E := by
  split
  · exact ha ‹_›
  · exact hb ‹_›

theorem Meets.guard {c : Prop} [Decidable c] {e : Error} {k : PUnit → Action σ α}
    (hE : ∀ s, P s → E s) (hk : ¬ c → Meets P (k ⟨⟩) Q E) :
    Meets P (if c then (do let r ← MonadExcept.throw e; k r) else k ⟨⟩) Q E :=
  .ite (fun _ => (Meets.throw (Q := fun _ _ => False) hE).bind fun _ _ h => h.elim) hk

/-- A loop over a list, with what is still to be done as part of the invariant. -/
theorem Meets.forM {f : β → Action σ PUnit} {I : List β → σ → Prop}
    (step : ∀ x xs, Meets (I (x :: xs)) (f x) (fun _ => I xs) E) :
    ∀ xs, Meets (I xs) (xs.forM f) (fun _ => I []) E
  | [] => .pure fun _ h => h
  | x :: xs => (step x xs).bind fun _ => Meets.forM step xs

theorem Keeps.forM {f : β → Action σ PUnit} (h : ∀ x, Keeps P (f x)) (xs : List β) :
    Keeps P (xs.forM f) := Meets.forM (I := fun _ => P) (fun x _ => h x) xs

theorem Meets.forM_option {f : β → Action σ PUnit} (h : ∀ x, Meets P (f x) (fun _ => P) E)
    (o : Option β) : Meets P (o.forM f) (fun _ => P) E := by
  cases o with
  | none => exact .pure fun _ h => h
  | some x => exact h x

theorem Meets.mapM {f : β → Action σ α} {I : List β → List α → σ → Prop}
    (step : ∀ x xs ys, Meets (I (x :: xs) ys) (f x) (fun y => I xs (ys ++ [y])) E) (xs : List β) :
    ∀ ys, Meets (I xs ys) (xs.mapM f) (fun zs => I [] (ys ++ zs)) E := by
  induction xs with
  | nil => intro ys; exact .pure fun s h => by simpa using h
  | cons x xs ih =>
    intro ys
    rw [List.mapM_cons]
    refine (step x xs ys).bind fun y => (ih (ys ++ [y])).bind fun zs => .pure fun s h => ?_
    simpa using h

theorem Keeps.mapM {f : β → Action σ α} (h : ∀ x, Keeps P (f x)) (xs : List β) :
    Keeps P (xs.mapM f) :=
  Meets.mapM (I := fun _ _ => P) (fun x _ _ => h x) xs []

theorem Keeps.foldlM {f : α → β → Action σ α} (h : ∀ y x, Keeps P (f y x)) (xs : List β) :
    ∀ y, Keeps P (xs.foldlM f y) := by
  induction xs with
  | nil => intro y; exact .pure fun _ h => h
  | cons x xs ih => intro y; exact (h y x).bind ih

theorem Meets.ok (h : Meets P a Q fun _ => False) {s : σ} (hs : P s) :
    ∃ x s', a s = .ok x s' ∧ Q x s' := by
  have := h s hs
  cases hr : a s with
  | ok x s' => rw [hr] at this; exact ⟨x, s', rfl, this⟩
  | error e s' => rw [hr] at this; exact this.elim

theorem Meets.of_ok (h : Meets P a Q E) {s t : σ} {x : α} (hs : P s) (hr : a s = .ok x t) :
    Q x t := by
  have := h s hs
  rwa [hr] at this

theorem Meets.of_error (h : Meets P a Q E) {s t : σ} {e : Error} (hs : P s)
    (hr : a s = .error e t) : E t := by
  have := h s hs
  rwa [hr] at this

theorem Meets.after {F : σ → Prop} (h : Meets P a (fun _ => F) F) {s : σ} (hs : P s) :
    F (a.after s) := by
  have := h s hs
  unfold Action.after
  cases hr : a s with
  | ok x s' => rw [hr] at this; exact this
  | error e s' => rw [hr] at this; exact this

theorem Meets.of_after {F : σ → Prop} (h : ∀ s, P s → F (a.after s)) :
    Meets P a (fun _ => F) F := by
  intro s hs
  have hafter := h s hs
  unfold Action.after at hafter
  cases hr : a s with
  | ok x s' => rw [hr] at hafter; exact hafter
  | error e s' => rw [hr] at hafter; exact hafter

/-- Wherever an action starts, it ends where `R` leads from there. -/
def Within (R : σ → σ → Prop) (a : Action σ α) : Prop := ∀ s, Keeps (R s) a

section Within

variable {R : σ → σ → Prop}

theorem Within.pure (x : α) : Within R (pure x) := fun _ => .pure fun _ h => h

theorem Within.throw (e : Error) : Within R (throw e : Action σ α) := fun _ => .throw fun _ h => h

theorem Within.bind (h : Within R a) (hf : ∀ x, Within R (f x)) : Within R (a >>= f) :=
  fun s => (h s).bind fun x => hf x s

theorem Within.map (g : α → β) (h : Within R a) : Within R (g <$> a) :=
  h.bind fun x => .pure (g x)

theorem Within.query (g : σ → Except Error α) : Within R (query g) := fun _ =>
  .query (fun _ h _ _ => h) fun _ h => h

theorem Within.ofExcept (r : Except Error α) : Within R (ofExcept r) := fun _ =>
  .ofExcept (fun _ _ _ h => h) fun _ h => h

theorem Within.get : Within R (MonadState.get : Action σ σ) := fun _ => .get fun _ h => h

theorem Within.ite {c : Prop} [Decidable c] {a b : Action σ α} (ha : Within R a)
    (hb : Within R b) : Within R (if c then a else b) := fun s => .ite (fun _ => ha s) fun _ => hb s

theorem Within.guard {c : Prop} [Decidable c] {e : Error} {k : PUnit → Action σ α}
    (h : Within R (k ⟨⟩)) :
    Within R (if c then (do let r ← MonadExcept.throw e; k r) else k ⟨⟩) :=
  .ite ((Within.throw e).bind fun _ => h) h

theorem Within.forM {f : β → Action σ PUnit} (h : ∀ x, Within R (f x)) (xs : List β) :
    Within R (xs.forM f) := fun s => .forM (fun x => h x s) xs

theorem Within.transition [Trans R R R] {g : σ → Except Error (α × σ)}
    (h : ∀ t x u, g t = .ok (x, u) → R t u) : Within R (transition g) := fun _ =>
  .transition (fun t ht x u hu => Trans.trans ht (h t x u hu)) fun _ ht => ht

theorem Within.modify [Trans R R R] {g : σ → σ} (h : ∀ t, R t (g t)) :
    Within R (modify g : Action σ PUnit) := fun _ => .modify fun t ht => Trans.trans ht (h t)

theorem Within.of_after [Trans R R R] (h : ∀ s, R s (a.after s)) : Within R a := fun _ =>
  .of_after fun t ht => Trans.trans ht (h t)

theorem Within.after (h : Within R a) {s : σ} (hs : R s s) : R s (a.after s) := Meets.after (h s) hs

end Within

/-- From each state the action does what `Q` says, or it fails and changes nothing. -/
def Does (a : Action σ α) (Q : σ → α → σ → Prop) : Prop := ∀ s, Meets (· = s) a (Q s) (· = s)

theorem Does.transition (g : σ → Except Error (α × σ)) :
    Does (transition g) fun s x t => g s = .ok (x, t) := fun s =>
  .transition (fun u hu x t ht => by rw [← hu]; exact ht) fun _ hu => hu

theorem Does.imp {Q Q' : σ → α → σ → Prop} (h : Does a Q) (hQ : ∀ s x t, Q s x t → Q' s x t) :
    Does a Q' := fun s => (h s).to_imp (hQ s)

theorem Does.meets {Q : σ → α → σ → Prop} (h : Does a Q) (hQ : ∀ s, P s → ∀ x t, Q s x t → Q' x t)
    (hE : ∀ s, P s → E s) : Meets P a Q' E :=
  .of_state fun s hs => (h s).imp (fun _ hu => hu) (hQ s hs) fun u hu => by rw [hu]; exact hE s hs

theorem Does.within {R : σ → σ → Prop} [Trans R R R] {Q : σ → α → σ → Prop} (h : Does a Q)
    (hR : ∀ s x t, Q s x t → R s t) : Within R a := fun _ =>
  h.meets (fun s hs x t ht => Trans.trans hs (hR s x t ht)) fun _ hs => hs

theorem after_ok {s t : σ} {x : α} (h : a s = .ok x t) : a.after s = t := by
  unfold Action.after
  rw [h]

theorem after_error {s t : σ} {e : Error} (h : a s = .error e t) : a.after s = t := by
  unfold Action.after
  rw [h]

theorem after_eq {b : Action σ α} {s t : σ} (h : a s = b t) : a.after s = b.after t := by
  unfold Action.after
  rw [h]

theorem after_ofExcept (r : Except Error α) (s : σ) : (ofExcept r).after s = s := by
  cases r <;> rfl

theorem after_zoom (get : τ → σ) (put : σ → τ → τ) (a : Action σ α) (t : τ) :
    (a.zoom get put).after t = put (a.after (get t)) t := by
  unfold Action.zoom Action.after
  cases hr : a (get t) <;> simp only [hr]

theorem map_zoom (get : τ → σ) (put : σ → τ → τ) (g : α → β) (a : Action σ α) :
    g <$> a.zoom get put = (g <$> a).zoom get put := by
  funext t
  change EStateM.map g (a.zoom get put) t = zoom get put (EStateM.map g a) t
  unfold EStateM.map zoom
  cases hr : a (get t) <;> simp only [hr]

theorem after_map (g : α → β) (a : Action σ α) (s : σ) : (g <$> a).after s = a.after s := by
  change Action.after (EStateM.map g a) s = a.after s
  unfold Action.after EStateM.map
  cases a s <;> rfl

theorem bind_ok {s t : σ} {y : β} :
    (a >>= f) s = .ok y t ↔ ∃ x u, a s = .ok x u ∧ f x u = .ok y t := by
  change EStateM.bind a f s = .ok y t ↔ _
  unfold EStateM.bind
  cases hr : a s with
  | ok x u => exact ⟨fun h => ⟨x, u, rfl, h⟩, fun ⟨_, _, hx, h⟩ => by cases hx; exact h⟩
  | error e u => exact ⟨nofun, fun ⟨_, _, hx, _⟩ => absurd hx nofun⟩

theorem bind_of_ok {s t : σ} {x : α} (h : a s = .ok x t) : (a >>= f) s = f x t := by
  change EStateM.bind a f s = f x t
  unfold EStateM.bind
  rw [h]

theorem bind_error {s t : σ} {e : Error} (h : a s = .error e t) : (a >>= f) s = .error e t := by
  change EStateM.bind a f s = .error e t
  unfold EStateM.bind
  rw [h]

theorem query_error {g : σ → Except Error α} {s : σ} {e : Error} (h : g s = .error e) :
    query g s = .error e s := by
  unfold query
  rw [h]

theorem query_ok {g : σ → Except Error α} {s t : σ} {x : α} :
    query g s = .ok x t ↔ g s = .ok x ∧ s = t := by
  unfold Action.query
  cases g s with
  | ok y => exact ⟨fun h => by cases h; exact ⟨rfl, rfl⟩, fun ⟨hx, ht⟩ => by cases hx; rw [ht]⟩
  | error e => exact ⟨nofun, fun h => absurd h.1 nofun⟩

theorem transition_ok {g : σ → Except Error (α × σ)} {s t : σ} {x : α} :
    transition g s = .ok x t ↔ g s = .ok (x, t) := by
  unfold Action.transition
  cases g s with
  | ok r => exact ⟨fun h => by cases h; rfl, fun h => by cases h; rfl⟩
  | error e => exact ⟨nofun, nofun⟩

def succeeds (a : Action σ α) (s : σ) : Bool :=
  match a s with
  | .ok _ _ => true
  | .error _ _ => false

theorem exists_ok {s : σ} (h : a.succeeds s = true) : ∃ x, a s = .ok x (a.after s) := by
  unfold succeeds at h
  unfold Action.after
  cases hr : a s with
  | ok x t => exact ⟨x, rfl⟩
  | error e t =>
    rw [hr] at h
    exact absurd h nofun

theorem succeeds_map (g : α → β) (a : Action σ α) (s : σ) :
    (g <$> a).succeeds s = a.succeeds s := by
  change succeeds (EStateM.map g a) s = a.succeeds s
  unfold succeeds EStateM.map
  cases a s <;> rfl

/-- From a state where `P` holds, an action returns where `Q` holds of its result, or refuses its
arguments where `E` holds. -/
def Screens (P : σ → Prop) (a : Action σ α) (Q : α → σ → Prop) (E : σ → Prop) : Prop :=
  ∀ s, P s → match a s with
    | .ok x t => Q x t
    | .error e t => (∃ r, e = .invalid r) ∧ E t

theorem Meets.screens (h : Meets P a Q fun _ => False) : Screens P a Q E := by
  intro s hs
  have hend := h s hs
  cases hr : a s with
  | ok x t => rw [hr] at hend; exact hend
  | error e t => rw [hr] at hend; exact hend.elim

theorem Screens.meets (h : Screens P a Q E) : Meets P a Q E := by
  intro s hs
  have hend := h s hs
  cases hr : a s with
  | ok x t => rw [hr] at hend; exact hend
  | error e t => rw [hr] at hend; exact hend.2

theorem Screens.bind (h : Screens P a Q E) (hf : ∀ x, Screens (Q x) (f x) R E) :
    Screens P (a >>= f) R E := by
  intro s hs
  have hend := h s hs
  cases hr : a s with
  | ok x t =>
    rw [hr] at hend
    rw [bind_of_ok hr]
    exact hf x t hend
  | error e t =>
    rw [hr] at hend
    rw [bind_error hr]
    exact hend

theorem Screens.to_imp (h : Screens P a Q E) (hQ : ∀ x s, Q x s → Q' x s) : Screens P a Q' E := by
  intro s hs
  have hend := h s hs
  cases hr : a s with
  | ok x t => rw [hr] at hend; exact hQ x t hend
  | error e t => rw [hr] at hend; exact hend

theorem screens_throw (r : Refusal) (h : ∀ s, P s → E s) :
    Screens P (throw (.invalid r) : Action σ α) Q E := fun s hs => ⟨⟨r, rfl⟩, h s hs⟩

theorem Screens.guard {c : Prop} [Decidable c] {r : Refusal} {k : PUnit → Action σ α}
    (hE : ∀ s, P s → E s) (hk : Screens P (k ⟨⟩) Q E) :
    Screens P (if c then (do let x ← MonadExcept.throw (.invalid r); k x) else k ⟨⟩) Q E := by
  split
  · exact (screens_throw (Q := fun _ _ => False) r hE).bind fun _ _ h => h.elim
  · exact hk

theorem Screens.mapM_refuses {ι : Type} {f : ι → Action σ α} {is : List ι} {i : ι}
    (h : ∀ i, Screens P (f i) (fun _ => P) P) (hi : i ∈ is)
    (hrefuses : Screens P (f i) (fun _ _ => False) P) :
    Screens P (is.mapM f) (fun _ _ => False) P := by
  induction is with
  | nil => exact absurd hi List.not_mem_nil
  | cons j is ih =>
    rw [List.mapM_cons]
    rcases List.mem_cons.1 hi with rfl | hi
    · exact hrefuses.bind fun _ _ hs => hs.elim
    · exact (h j).bind fun _ => (ih hi).bind fun _ _ hs => hs.elim

end ScopedTensor.Action
