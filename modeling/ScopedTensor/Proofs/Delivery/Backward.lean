import ScopedTensor.Element.Interchange
import ScopedTensor.Proofs.Delivery.Attachments
import ScopedTensor.Proofs.Delivery.Measures

/-! What backward passes do to memory, in all sessions in which variables are marked by attaching
gradients to arrays. -/

namespace ScopedTensor

open ScopedTensor.Action Session Relation

def Operation.pass? : Operation → Option (ArrayId × Option ArrayId)
  | .backward a seed _ _ | .recordedBackward a seed _ => some (a, seed)
  | _ => none

section Calls

variable {half : HalfPrecision}
variable {σ : Type} {s t : Session σ} {a : ArrayId} {seed : Option ArrayId} {retain training : Bool}

theorem handle_ok {id : ArrayId} {x : Handle} (h : handle id s = .ok x t) : t = s := by
  have hmeets := meets_handle (J := (· = s)) id s rfl
  rw [h] at hmeets
  exact hmeets.2

theorem requireSameEngine_ok {refusal : Refusal} {b : ArrayId}
    (h : requireSameEngine refusal a b s = .ok () t) : t = s := by
  have hmeets : Keeps (· = s) (requireSameEngine refusal a b) := by
    refine Meets.bind (Q := fun _ => (· = s)) ?_ fun _ => .ite (fun _ => .throw fun _ hs => hs)
      fun _ => .pure fun _ hs => hs
    exact (meets_array a fun _ hs => hs).bind fun _ => .of_imp ((meets_array b fun _ hs => hs).bind
      fun _ => .pure fun _ hs => hs.2) fun _ hs => hs.2
  have hend := hmeets s rfl
  rwa [h] at hend

theorem callFor_ok {α : Type} {f : Library σ → Action σ α} {x : α}
    (h : callFor a f s = .ok x t) :
    ∃ b, s.arrays.get? a = some b ∧ f b.engine.library s.native = .ok x t.native := by
  obtain ⟨b, u, harray, hnative⟩ := bind_ok.1 h
  have hmeets := meets_array (E := fun _ => True) a (fun s (_ : s = _) => trivial) s rfl
  rw [harray] at hmeets
  obtain ⟨hb, rfl⟩ := hmeets
  refine ⟨b, hb, ?_⟩
  unfold onNative Action.zoom at hnative
  cases hr : f b.engine.library u.native with
  | error e n =>
    rw [hr] at hnative
    exact absurd hnative nofun
  | ok y n =>
    rw [hr] at hnative
    injection hnative with hx ht
    rw [← hx, ← ht]

theorem backward_called (h : Session.backward a seed retain training s = .ok () t) :
    ∃ x g b, handle a s = .ok x s ∧ seed.mapM handle s = .ok g s ∧ s.arrays.get? a = some b ∧
      b.engine.library.backward [x] [g] retain training s.native = .ok () t.native := by
  have hcalled : ∀ g, (do
      let h ← handle a
      callFor a fun lib => lib.backward [h] [g] retain training) s = .ok () t →
        ∃ x b, handle a s = .ok x s ∧ s.arrays.get? a = some b ∧
          b.engine.library.backward [x] [g] retain training s.native = .ok () t.native := by
    intro g hrun
    obtain ⟨x, u, hx, hcall⟩ := bind_ok.1 hrun
    obtain rfl := handle_ok hx
    obtain ⟨b, hb, hcall⟩ := callFor_ok hcall
    exact ⟨x, b, hx, hb, hcall⟩
  cases seed with
  | none =>
    obtain ⟨x, b, hx, hb, hcall⟩ := hcalled none h
    exact ⟨x, none, b, hx, rfl, hb, hcall⟩
  | some c =>
    obtain ⟨_, u, hsame, hrest⟩ := bind_ok.1 h
    obtain rfl := requireSameEngine_ok hsame
    obtain ⟨g, v, hg, hrun⟩ := bind_ok.1 hrest
    obtain ⟨y, w, hy, hpure⟩ := bind_ok.1 hg
    obtain rfl := handle_ok hy
    injection hpure with hyg hwv
    subst hyg hwv
    obtain ⟨x, b, hx, hb, hcall⟩ := hcalled (some y) hrun
    exact ⟨x, some y, b, hx, (bind_of_ok hy).trans rfl, hb, hcall⟩

theorem Operation.pass_called {e : Engine σ} {op : Operation} (hop : op.pass? = some (a, seed))
    (h : op.perform e s = .ok () t) :
    ∃ x g b retain training, handle a s = .ok x s ∧ seed.mapM handle s = .ok g s ∧
      s.arrays.get? a = some b ∧
      b.engine.library.backward [x] [g] retain training s.native = .ok () t.native := by
  cases op with
  | backward a' seed' retain training =>
    obtain ⟨rfl, rfl⟩ := Prod.mk.inj (Option.some.inj hop)
    obtain ⟨x, g, b, hcalled⟩ := backward_called h
    exact ⟨x, g, b, retain, training, hcalled⟩
  | recordedBackward a' seed' retain =>
    obtain ⟨rfl, rfl⟩ := Prod.mk.inj (Option.some.inj hop)
    obtain ⟨b, u, hb, hguarded⟩ := bind_ok.1 h
    obtain ⟨-, rfl⟩ := query_ok.1 hb
    have hpass : Session.backward a' seed' retain true s = .ok () t := by
      split at hguarded
      · exact absurd hguarded nofun
      · exact hguarded
    obtain ⟨x, g, b, hcalled⟩ := backward_called hpass
    exact ⟨x, g, b, retain, true, hcalled⟩
  | _ => exact absurd hop nofun

end Calls

namespace Reference

open State Library

section Sessions

variable {half : HalfPrecision}
variable {gpus : Nat} {s t : State} {heads : List Handle} {headGradients : List (Option Handle)}

/-- From `s` to `t` gradients went from the seeds through the recorded operators, and from there to
the marked variables: to each its own, in whatever order they were served. -/
structure State.Passed [HalfPrecision] (s : State) (seeds : List (Nat × Values)) (gs : Gradients)
    (t : State) : Prop where
  gradients : Tape.gradients s.drained.memory s.tape.nodes seeds = .ok gs
  delivered : Delivered s.tape.marks gs s.drained.memory t.memory
  anyOrder : ∀ es : List (Nat × Mark), es.Perm s.tape.marks.entries →
    es.foldl (fun m e => e.2.deliver gs m e.1) s.drained.memory = t.memory

theorem State.Parted.passed (hs : s.Parted gpus) {retain : Bool}
    (h : backward .asMarked heads headGradients retain s = .ok () t) :
    ∃ seeds gs, seedsOf s.drained heads headGradients = .ok seeds ∧ s.Passed seeds gs t := by
  obtain ⟨cs, hrun⟩ := hs.run
  have hcoherent : s.Coherent := hrun ▸ coherent_run gpus cs
  have hbounded : s.Bounded := hrun ▸ bounded_run gpus cs
  obtain ⟨seeds, hseeds, hpass⟩ := backward_ok hs.orderly h
  obtain ⟨gs, hgs, hm⟩ := bind_eq_ok.1 hpass
  have hm := pure_eq_ok.1 hm
  have hfits : ∀ v, s.Holds v → s.drained.memory.Fits v := fun v hv =>
    (writes_runAll s.queue s.memory).fits (hbounded v hv)
  have hdrained : s.drained.Coherent := hcoherent.congr rfl rfl rfl
  have hmeasures : s.drained.Measures gs := (hdrained.fills_gradients
    (fun i hi => hbounded.fits_drained hi) (fun c hc => suits_seed hseeds hc) (fun _ h => h)
    hgs).measures hdrained
  refine ⟨seeds, gs, hseeds, hgs, ?_, fun es hes => ?_⟩
  · rw [← hm]
    exact hs.separate.delivered hcoherent.keys (fun e he => hfits _ (.mark he))
      fun id k g hk hg => hdrained.length_delivered hmeasures hk hg
  · rw [← hm]
    exact hs.separate.unshared.deliver_perm hcoherent.keys hes _

/-- What may happen to a session next, as long as it is left to the session to mark variables.
Handles may come from elsewhere, and any other call may be made directly. -/
inductive Onward [HalfPrecision] (gpus : Nat) : Session State → Session State → Prop
  | build {lib : Library State} (hlib : Offered gpus lib) (c : Configuration) (device : Device)
      (s : Session State) : Onward gpus s ((Engine.build lib c device).after s)
  | perform {e : Engine State} (he : Offered gpus e.loaded.library) (op : Operation)
      (s : Session State) : Onward gpus s (op.step e s)
  | fromHandle (S : ScopeId) (h : Handle) (known : Option Description) (s : Session State) :
      Onward gpus s ((fromHandle S h known).after s)
  | call {c : Library.Call} (hc : c.marks = false) (s : Session State) :
      Onward gpus s { s with native := c.step (library gpus) s.native }

variable {s t : Session State}

theorem guided_step (hs : Guided (guide (lasts_parted gpus)) s) {e : Engine State}
    (he : Offered gpus e.loaded.library) (op : Operation) :
    Guided (guide (lasts_renews gpus s.native)) (op.step e s) := by
  have hmeets : Meets (· = s) (op.perform e)
      (fun _ => Guided (guide (lasts_renews gpus s.native)))
      (Guided (guide (lasts_renews gpus s.native))) := by
    cases hop : op.attaches with
    | true =>
      cases op with
      | attachGrad a request form => exact meets_attachGrad hs a request form
      | _ => exact absurd hop nofun
    | false =>
      have hstart : Guided (guide (lasts_renews gpus s.native)) s :=
        guided_mono hs ⟨hs.native, fun id k hk => .inl hk⟩
      exact (Operation.guided_perform he op hop).start hstart
  exact hmeets.after rfl

theorem guided_onward (hs : Guided (guide (lasts_parted gpus)) s) (h : Onward gpus s t) :
    Guided (guide (lasts_parted gpus)) t := by
  cases h with
  | build hlib c device =>
    exact (guided_build (G := guide (lasts_parted gpus)) hlib c device).after hs
  | perform he op =>
    have hstep := guided_step hs he op
    exact guided_mono hstep hstep.native.1
  | fromHandle S h known => exact (guided_fromHandle S h known).after hs
  | call hc => exact ⟨hs.arrays, hs.scopes, hs.native.step hc⟩

theorem guided_reached (h : ReflTransGen (Onward gpus) (.start .initial) s) :
    Guided (guide (lasts_parted gpus)) s := by
  induction h with
  | refl => exact ⟨fun _ _ h => absurd h nofun, fun _ _ h => absurd h nofun, parted_initial gpus⟩
  | tail _ hnext ih => exact guided_onward ih hnext

/-- In every session that can be reached the gradients of marked variables go to different buffers,
and an operation adds new buffers only. A backward pass that succeeds delivers to each marked
variable the gradient that reached it, changes no other cell, and comes to the same in whatever
order the variables are served. -/
theorem backward_delivers [HalfPrecision] (h : ReflTransGen (Onward gpus) (.start .initial) s) :
    Separate s.native.tape.marks ∧
    (∀ (e : Engine State) (op : Operation), Offered gpus e.loaded.library →
      s.native.Renews (op.step e s).native) ∧
    ∀ (e : Engine State) (op : Operation) a seed t, op.pass? = some (a, seed) →
      op.perform e s = .ok () t →
        ∃ x g seeds gs, handle a s = .ok x s ∧ seed.mapM handle s = .ok g s ∧
          seedsOf s.native.drained [x] [g] = .ok seeds ∧ s.native.Passed seeds gs t.native := by
  have hs := guided_reached h
  refine ⟨hs.native.separate, fun e op he => (guided_step hs he op).native.2, ?_⟩
  intro e op a seed t hop hperform
  obtain ⟨x, g, b, retain, training, hx, hg, hb, hcall⟩ := Operation.pass_called hop hperform
  obtain ⟨name, offers, hlib⟩ := hs.arrays a b hb
  have hpass : backward .asMarked [x] [g] retain s.native = .ok () t.native := by
    rw [hlib] at hcall
    unfold Library.offering at hcall
    simp only at hcall
    split at hcall
    · exact hcall
    · exact absurd hcall nofun
  obtain ⟨seeds, gs, hseeds, hpassed⟩ := hs.native.passed hpass
  exact ⟨x, g, seeds, gs, hx, hg, hseeds, hpassed⟩

theorem onward_built {lib : Library State} (hlib : Offered gpus lib) {c : Configuration}
    {device : Device} {e : Engine State}
    (hbuild : Engine.build lib c device (.start .initial) = .ok e s) :
    ReflTransGen (Onward gpus) (.start .initial) s ∧ Offered gpus e.loaded.library := by
  have hnext : Onward gpus (.start .initial) _ := .build hlib c device (.start .initial)
  rw [after_ok hbuild] at hnext
  exact ⟨.single hnext, (reached_built hlib hbuild).2⟩

theorem onward_run {e : Engine State} (he : Offered gpus e.loaded.library) (ops : List Operation)
    (h : ReflTransGen (Onward gpus) (.start .initial) s) :
    ReflTransGen (Onward gpus) (.start .initial) (Operation.run e s ops) := by
  induction ops generalizing s with
  | nil => exact h
  | cons op ops ih => exact ih (h.tail (.perform he op s))

end Sessions

open Interchange

/-- A product of two variables. One wants its gradient written, the other one added up. -/
theorem backward_delivers_product :
    ∃ (e : Engine State) (s₀ t : Session State) (x : Handle) (g : Option Handle)
      (seeds : List (Nat × Values)) (gs : Gradients),
      Engine.build (library 0) .standard .cpu (.start .initial) = .ok e s₀ ∧
      let s := Operation.run e s₀ [.baseScope none, .filled "_ones" 3 ⟨[2]⟩ .f32,
        .filled "_ones" 3 ⟨[2]⟩ .f32, .attachGrad 4 .write none, .attachGrad 5 .add none,
        .startRecording, .arithmetic "elemwise_mul" 4 5]
      s.native.tape.marks.keys = [1, 2] ∧ Separate s.native.tape.marks ∧
      Operation.perform e (.backward 8 none false true) s = .ok () t ∧
      seedsOf s.native.drained [x] [g] = .ok seeds ∧ s.native.Passed seeds gs t.native := by
  let ops : List Operation := [.baseScope none, .filled "_ones" 3 ⟨[2]⟩ .f32,
    .filled "_ones" 3 ⟨[2]⟩ .f32, .attachGrad 4 .write none, .attachGrad 5 .add none,
    .startRecording, .arithmetic "elemwise_mul" 4 5]
  have hruns : (match Engine.build (library 0) .standard .cpu (.start .initial) with
      | .ok e s₀ =>
        decide ((Operation.run e s₀ ops).native.tape.marks.keys = [1, 2]) &&
          (Operation.perform e (.backward 8 none false true)).succeeds (Operation.run e s₀ ops)
      | .error _ _ => false) = true := by decide +kernel
  cases hbuild : Engine.build (library 0) .standard .cpu (.start .initial) with
  | error x s => rw [hbuild] at hruns; exact absurd hruns nofun
  | ok e s₀ =>
    rw [hbuild] at hruns
    simp only [Bool.and_eq_true, decide_eq_true_eq] at hruns
    obtain ⟨hreached, he⟩ := onward_built ⟨_, _, (library 0).offering_all.symm⟩ hbuild
    obtain ⟨hseparate, -, hpasses⟩ := backward_delivers (onward_run he ops hreached)
    cases hrun : Operation.perform e (.backward 8 none false true) (Operation.run e s₀ ops) with
    | error x t => exact absurd hruns.2 (by simp [Action.succeeds, hrun])
    | ok _ t =>
      obtain ⟨x, g, seeds, gs, -, -, hseeds, hpassed⟩ := hpasses e _ 8 none t rfl hrun
      exact ⟨e, s₀, t, x, g, seeds, gs, rfl, hruns.1, hseparate, hrun, hseeds, hpassed⟩

end Reference
end ScopedTensor
