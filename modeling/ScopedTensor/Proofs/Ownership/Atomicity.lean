import Mathlib.Logic.Relation
import ScopedTensor.Element.Interchange
import ScopedTensor.Proofs.Ownership.Offerings

/-! Sessions over the reference engine, or over engines in front of it that leave out optional calls.
In every session that can be reached an operation either succeeds or changes nothing, but for the
target of a copy that the engine refuses. -/

namespace ScopedTensor

open ScopedTensor.Action Session Relation

namespace Reference

section

variable {half : HalfPrecision}
variable {gpus : Nat} {s t : Session State}

/-- The reference engine without some of the optional calls, or with all of them. -/
def Offered [HalfPrecision] (gpus : Nat) (lib : Library State) : Prop :=
  ∃ name offers, lib = (library gpus).offering name offers

/-- What may happen to a session next. Handles may come from elsewhere, and the engine may be called
directly. -/
inductive Next [HalfPrecision] (gpus : Nat) : Session State → Session State → Prop
  | build {lib : Library State} (hlib : Offered gpus lib) (c : Configuration) (device : Device)
      (s : Session State) : Next gpus s ((Engine.build lib c device).after s)
  | perform {e : Engine State} (he : Offered gpus e.loaded.library) (op : Operation)
      (s : Session State) : Next gpus s (op.step e s)
  | fromHandle (S : ScopeId) {h : Handle} (hnull : h.isNull = false) (known : Option Description)
      (s : Session State) : Next gpus s ((fromHandle S h known).after s)
  | call (c : Library.Call) (s : Session State) :
      Next gpus s { s with native := c.step (library gpus) s.native }

def upright [HalfPrecision] (gpus : Nat) : Regime State where
  account n _ := n.Counted ∧ n.Orderly
  admits e := Offered gpus e.library
  barred _ := False
  root _ := True
  floor := 0
  perm _ h := h
  accounted := by
    rintro e ⟨name, offers, hlib⟩
    rw [hlib]
    exact ((bookkept_counted.accounted gpus).and
      fun c => (defers_call gpus .asMarked c).keeps).offering name offers

theorem Next.sound (hnext : Next gpus s t) (hs : Sound (upright gpus) {} s) :
    Sound (upright gpus) {} t := by
  cases hnext with
  | build hlib c device =>
    rename_i lib
    have hadmits : ∀ e : LoadedEngine State, e.library = lib → (upright gpus).admits e := by
      rintro e rfl
      exact hlib
    have hbuild := meets_build ((upright gpus).accounted (hadmits ⟨0, lib, .empty⟩ rfl)) hadmits c
      device (n := s.lastId) trivial
    exact (hbuild.to_imp fun _ _ h => h.2).after ⟨hs, rfl⟩
  | perform he op => exact Operation.sound_step he hs op
  | fromHandle S hnull known =>
    exact (keeps_fromHandle (fun h => h) S hnull known).after hs
  | call c =>
    have hcounted := (bookkept_counted.accounted gpus).keeps_call
      (fun x => Meets.of_after fun n hn => hn.free x) c
    exact hs.native ⟨hcounted.after hs.account.1, orderly_step hs.account.2 c⟩

theorem sound_reached (h : ReflTransGen (Next gpus) (.start .initial) s) :
    Sound (upright gpus) {} s := by
  induction h with
  | refl =>
    refine sound_start ⟨⟨List.nodup_nil, fun id hid => absurd hid ?_⟩, orderly_initial⟩
      (fun _ h => h) rfl
    simp [State.initial, Table.keys, Table.empty]
  | tail _ hnext ih => exact hnext.sound ih

/-- What the engines account for from a session on: the handles that were live there, and those that
were issued since. -/
def Issued (s : Session State) (n : State) (issued : List Handle) : Prop :=
  Live s.native.entries.keys n issued ∧ n.Orderly

theorem Offered.dependable {lib : Library State} (h : Offered gpus lib) (s : Session State) :
    lib.Dependable (Issued s) := by
  obtain ⟨name, offers, rfl⟩ := h
  exact Reference.dependable gpus name offers s.native.entries.keys

theorem sound_dependable (hs : Sound (upright gpus) {} s) : Sound (.dependable (Issued s)) {} s :=
  { hs with
    rooted :=
      { hs.rooted with
        barred := fun _ h => h.elim
        root := fun _ _ _ => trivial
        floor := Nat.zero_le _ }
    staffed := ⟨fun id a ha => (hs.staffed.arrays id a ha).dependable s,
      fun S c hc => (hs.staffed.scopes S c hc).dependable s⟩
    account := trivial }

theorem issued_none (hs : Sound (upright gpus) {} s) : Issued s s.native [] :=
  ⟨⟨hs.account.1, by simp⟩, hs.account.2⟩

/-- The same handles are live, the scopes have the same arrays in them and are open or closed as they
were, and the arrays have the same handles, owners and gradients. -/
structure Unchanged (s t : Session State) : Prop where
  alike : Alike s t
  live_iff : ∀ id, id ∈ t.native.entries.keys ↔ id ∈ s.native.entries.keys

/-- Only a new array has come in, with a handle of its own, in the scope of an array that was to be
copied. It was there before the copy into it was made, and the copy was refused. -/
structure CopyLeft (id : ArrayId) (s t : Session State) : Prop where
  joined : ∃ a h S, s.arrays.get? id = some a ∧ a.owner = some S ∧ h.isNull = false ∧
    Alike (s.joined a h) t ∧ h.id ∉ s.native.entries.keys ∧
    (∀ i, i ∈ t.native.entries.keys ↔ i ∈ s.native.entries.keys ∨ i = h.id) ∧
    ∃ r x, Alike (s.joined a h) r ∧
      (∀ i, i ∈ r.native.entries.keys ↔ i ∈ s.native.entries.keys ∨ i = h.id) ∧
      copyInto id (s.lastId + 1) r = .error x t

theorem unchanged_of_restored (h : Restored (Issued s) s t) : Unchanged s t where
  alike := h.1
  live_iff id := by simpa using h.2.1.perm.mem_iff (a := id)

theorem copyLeft_of_leftBehind {id : ArrayId} (h : LeftBehind (Issued s) s id t) :
    CopyLeft id s t := by
  obtain ⟨a, h, S, r, x, ha, ho, hnull, ⟨hbefore, hissued, -⟩, ⟨halike, hlive, -⟩, hcopy⟩ := h
  have keys {n : State} (hn : Live s.native.entries.keys n [h]) (i : Nat) :
      i ∈ n.entries.keys ↔ i ∈ s.native.entries.keys ∨ i = h.id := by
    simpa using hn.perm.mem_iff (a := i)
  refine ⟨a, h, S, ha, ho, hnull, halike, fun hmem => ?_, keys hlive, r, x, hbefore, keys hissued,
    hcopy⟩
  exact (List.nodup_append.1 (hlive.perm.nodup_iff.1 hlive.counted.distinct)).2.2 _ hmem _
    (by simp) rfl

/-- In every session that can be reached, an operation that fails leaves the live handles, the
scopes and the arrays as they were, unless it is a copy that was refused when its target had been
allocated, which then stays in the scope of the array it was made from. So does an engine that
cannot be built. A handle that is given to a closed scope is freed, and nothing else changes. -/
theorem failed_unchanged [HalfPrecision] (h : ReflTransGen (Next gpus) (.start .initial) s) :
    (∀ (e : Engine State) op x t, Offered gpus e.loaded.library →
      Operation.perform e op s = .error x t →
        Unchanged s t ∨ ∃ id, op.source? = some id ∧ CopyLeft id s t) ∧
    (∀ lib c device x t, Offered gpus lib → Engine.build lib c device s = .error x t →
      Unchanged s t) ∧
    ∀ S (h : Handle) known x t, h.isNull = false → fromHandle S h known s = .error x t →
      Alike s t ∧ (s.scopes.get? S = none ∧ t.native = s.native ∨
        ∃ c, s.scopes.get? S = some c ∧ c.closed = true ∧
          ∀ id, id ∈ t.native.entries.keys ↔ id ∈ s.native.entries.keys ∧ id ≠ h.id) := by
  have hs := sound_reached h
  -- The account starts at `s`, so what a failed operation leaves is told apart from what was there.
  have hu := sound_dependable hs
  have hn := issued_none hs
  refine ⟨fun e op x t he hfails => ?_, fun lib c device x t hlib hfails => ?_,
    fun S h known x t hnull hfails => ?_⟩
  · have hrestored := Operation.fails_restored hu hn (he.dependable s) op s rfl
    rw [hfails] at hrestored
    rcases hrestored with hrestored | ⟨id, hid, hleft⟩
    · exact .inl (unchanged_of_restored hrestored)
    · exact .inr ⟨id, hid, copyLeft_of_leftBehind hleft⟩
  · have hrestored := meets_build_untouched hu hn (hlib.dependable s) c device s rfl
    rw [hfails] at hrestored
    exact unchanged_of_restored hrestored
  · obtain ⟨halike, hgone, hclosed⟩ := refused_fromHandle hu S hnull known hfails
    refine ⟨halike, ?_⟩
    cases hS : s.scopes.get? S with
    | none => exact .inl ⟨rfl, hgone hS⟩
    | some c =>
      obtain ⟨hshut, hnative⟩ := hclosed c hS
      obtain ⟨name, offers, hlib⟩ := hs.staffed.scopes S c hS
      refine .inr ⟨c, rfl, hshut, fun id => ?_⟩
      have hfree : c.engine.library.free h = free h := by
        rw [hlib]
        rfl
      rw [hnative, hfree, keys_free]
      simp

theorem reached_built {lib : Library State} (hlib : Offered gpus lib) {c : Configuration}
    {device : Device} {e : Engine State}
    (hbuild : Engine.build lib c device (.start .initial) = .ok e s) :
    ReflTransGen (Next gpus) (.start .initial) s ∧ Offered gpus e.loaded.library := by
  have hadmits : ∀ e : LoadedEngine State, e.library = lib → (upright gpus).admits e := by
    rintro e rfl
    exact hlib
  have hbuilt := meets_build ((upright gpus).accounted (hadmits ⟨0, lib, .empty⟩ rfl)) hadmits c
    device (n := 0) trivial (.start .initial) ⟨sound_reached .refl, rfl⟩
  rw [hbuild] at hbuilt
  have hnext : Next gpus (.start .initial) _ := .build hlib c device (.start .initial)
  rw [after_ok hbuild] at hnext
  exact ⟨.single hnext, hbuilt.1.2.2 ▸ hlib⟩

theorem reached_run {e : Engine State} (he : Offered gpus e.loaded.library) (ops : List Operation)
    (h : ReflTransGen (Next gpus) (.start .initial) s) :
    ReflTransGen (Next gpus) (.start .initial) (Operation.run e s ops) := by
  induction ops generalizing s with
  | nil => exact h
  | cons op ops ih => exact ih (h.tail (.perform he op s))

end

open Interchange

/-- An engine without gradients: the buffer that was made for one is gone again. -/
theorem failed_unchanged_unmarked :
    let ops : List Operation := [.baseScope none, .filled "_ones" 3 ⟨[2]⟩ .f32]
    ∃ e s₀ x t, Engine.build ((library 0).offering "Minimal" fun _ => false) .standard .cpu
        (.start .initial) = .ok e s₀ ∧
      Operation.perform e (.attachGrad 4 .write none) (Operation.run e s₀ ops) = .error x t ∧
      Unchanged (Operation.run e s₀ ops) t := by
  intro ops
  have hlib : Offered 0 ((library 0).offering "Minimal" fun _ => false) := ⟨_, _, rfl⟩
  have hfails : (match Engine.build ((library 0).offering "Minimal" fun _ => false) .standard .cpu
        (.start .initial) with
      | .ok e s₀ => !(Operation.perform e (.attachGrad 4 .write none)).succeeds
          (Operation.run e s₀ ops)
      | .error _ _ => false) = true := by decide +kernel
  cases hbuild : Engine.build ((library 0).offering "Minimal" fun _ => false) .standard .cpu
      (.start .initial) with
  | error x s => rw [hbuild] at hfails; exact absurd hfails nofun
  | ok e s₀ =>
    rw [hbuild] at hfails
    obtain ⟨hreached, he⟩ := reached_built hlib hbuild
    cases hrun : Operation.perform e (.attachGrad 4 .write none) (Operation.run e s₀ ops) with
    | ok x t => simp [Action.succeeds, hrun] at hfails
    | error x t =>
      refine ⟨e, s₀, x, t, rfl, hrun, ?_⟩
      rcases (failed_unchanged (reached_run he ops hreached)).1 e _ x t he hrun with h | ⟨id, hid, -⟩
      · exact h
      · exact absurd hid nofun

/-- An array of two elements that is said to have three. Its copy is refused, and the scope has one
array more than before. -/
theorem refused_copy_registered :
    ∃ (e : Engine State) (s₀ : Session State),
      Engine.build (library 0) .standard .cpu (.start .initial) = .ok e s₀ ∧
      let r := Operation.run e s₀ [.baseScope none]
      let made := (Library.Call.create .cpu ⟨[2]⟩ .f32 .dense false).step (library 0) r.native
      let s := (fromHandle 3 ⟨1⟩ (some (.dense ⟨[3]⟩ .f32 .cpu))).after { r with native := made }
      ReflTransGen (Next 0) (.start .initial) s ∧
        ∃ x t, Operation.perform e (.toType 4 .f64 false) s = .error x t ∧
          s.scopes.registry 3 = [4] ∧ t.scopes.registry 3 = [4, 5] := by
  have hfails : (match Engine.build (library 0) .standard .cpu (.start .initial) with
      | .ok e s₀ =>
        let r := Operation.run e s₀ [.baseScope none]
        let made := (Library.Call.create .cpu ⟨[2]⟩ .f32 .dense false).step (library 0) r.native
        let s := (fromHandle 3 ⟨1⟩ (some (.dense ⟨[3]⟩ .f32 .cpu))).after { r with native := made }
        let toType := Operation.perform e (.toType 4 .f64 false)
        !toType.succeeds s && s.scopes.registry 3 == [4] &&
          (toType.after s).scopes.registry 3 == [4, 5]
      | .error _ _ => false) = true := by decide +kernel
  cases hbuild : Engine.build (library 0) .standard .cpu (.start .initial) with
  | error x s => rw [hbuild] at hfails; exact absurd hfails nofun
  | ok e s₀ =>
    rw [hbuild] at hfails
    obtain ⟨hreached, he⟩ := reached_built ⟨_, _, (library 0).offering_all.symm⟩ hbuild
    have hcalled := (reached_run he [.baseScope none] hreached).tail
      (.call (.create .cpu ⟨[2]⟩ .f32 .dense false) _)
    have htaken := hcalled.tail (.fromHandle 3 (h := ⟨1⟩) rfl (some (.dense ⟨[3]⟩ .f32 .cpu)) _)
    simp only [Bool.and_eq_true, beq_iff_eq, Bool.not_eq_true'] at hfails
    obtain ⟨⟨hfails, hbefore⟩, hafter⟩ := hfails
    refine ⟨e, s₀, rfl, htaken, ?_⟩
    cases hrun : Operation.perform e (.toType 4 .f64 false) _ with
    | ok x t => exact absurd hfails (by simp [Action.succeeds, hrun])
    | error x t =>
      exact ⟨x, t, rfl, hbefore, after_error hrun ▸ hafter⟩

end Reference
end ScopedTensor
