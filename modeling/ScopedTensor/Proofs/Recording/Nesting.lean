import Mathlib.Logic.Relation
import ScopedTensor.Element.Interchange
import ScopedTensor.Library.Call
import ScopedTensor.Library.Restricted
import ScopedTensor.Proofs.Action
import ScopedTensor.Reference.Library
import ScopedTensor.Session.Engine

/-! Recording sections inside one another. A section notes where the two switches of the engine
stood when it began and puts each of them back there on its own. Any call for a switch may fail. -/

namespace ScopedTensor

open ScopedTensor.Action Relation

section

variable {half : HalfPrecision}
variable {σ α : Type}

theorem Action.quietly_bind (a : Action σ α) {β : Type} (k : Unit → Action σ β) (s : σ) :
    (a.quietly >>= k) s = k () (a.after s) := by
  refine bind_of_ok ?_
  unfold quietly after
  cases a s <;> rfl

/-- How the two switches of an engine stand in a state of it. -/
structure Switches (σ : Type) where
  recording : σ → Bool
  training : σ → Bool

namespace Switches

variable (w : Switches σ)

structure Stand (recording training : Bool) (s : σ) : Prop where
  recording : w.recording s = recording
  training : w.training s = training

/-- A call for a switch sets that switch and tells where it stood before, or it fails and leaves
both alone. -/
structure Governs (lib : Library σ) : Prop where
  setRecording : ∀ on r t, Meets (w.Stand r t) (lib.setRecording on)
    (fun before s => before = r ∧ w.Stand on t s) (w.Stand r t)
  setTraining : ∀ on r t, Meets (w.Stand r t) (lib.setTraining on)
    (fun before s => before = t ∧ w.Stand r on s) (w.Stand r t)

def Agree (s t : σ) : Prop := w.recording t = w.recording s ∧ w.training t = w.training s

variable {w} {lib : Library σ} {s t : σ}

theorem stand_self (w : Switches σ) (s : σ) : w.Stand (w.recording s) (w.training s) s := ⟨rfl, rfl⟩

theorem Stand.agree {r tr : Bool} (hs : w.Stand r tr s) (ht : w.Stand r tr t) : w.Agree s t :=
  ⟨ht.recording.trans hs.recording.symm, ht.training.trans hs.training.symm⟩

theorem Governs.after_setRecording (hw : w.Governs lib) (on : Bool) (s : σ) :
    w.recording ((lib.setRecording on).after s) =
        (if (lib.setRecording on).succeeds s then on else w.recording s) ∧
      w.training ((lib.setRecording on).after s) = w.training s := by
  have hcall := hw.setRecording on _ _ s (w.stand_self s)
  unfold Action.after Action.succeeds
  cases hr : lib.setRecording on s with
  | ok before t =>
    rw [hr] at hcall
    exact ⟨hcall.2.recording, hcall.2.training⟩
  | error x t =>
    rw [hr] at hcall
    exact ⟨hcall.recording, hcall.training⟩

theorem Governs.after_setTraining (hw : w.Governs lib) (on : Bool) (s : σ) :
    w.training ((lib.setTraining on).after s) =
        (if (lib.setTraining on).succeeds s then on else w.training s) ∧
      w.recording ((lib.setTraining on).after s) = w.recording s := by
  have hcall := hw.setTraining on _ _ s (w.stand_self s)
  unfold Action.after Action.succeeds
  cases hr : lib.setTraining on s with
  | ok before t =>
    rw [hr] at hcall
    exact ⟨hcall.2.training, hcall.2.recording⟩
  | error x t =>
    rw [hr] at hcall
    exact ⟨hcall.training, hcall.recording⟩

end Switches

namespace RecordingSection

variable {s t : σ}

theorem finish_eq (c : RecordingSection σ) (s : σ) :
    c.finish s = .ok () ((c.engine.library.setTraining c.training).after
      ((c.engine.library.setRecording c.recording).after s)) := by
  unfold finish
  rw [quietly_bind]
  unfold Action.quietly Action.after
  cases c.engine.library.setTraining c.training _ <;> rfl

/-- How a section begins: with both switches turned on, or not at all, with the error of the call
that failed first. -/
inductive Begins (engine : LoadedEngine σ) (s : σ) :
    EStateM.Result Error σ (RecordingSection σ) → Prop
  | refused {x : Error} {t : σ} (hrecording : engine.library.setRecording true s = .error x t) :
    Begins engine s (.error x t)
  | undone {r : Bool} {x : Error} {t u : σ} (hrecording : engine.library.setRecording true s = .ok r t)
    (htraining : engine.library.setTraining true t = .error x u) :
    Begins engine s (.error x ((engine.library.setRecording r).after u))
  | opened {r tr : Bool} {t u : σ} (hrecording : engine.library.setRecording true s = .ok r t)
    (htraining : engine.library.setTraining true t = .ok tr u) :
    Begins engine s (.ok ⟨engine, r, tr⟩ u)

theorem begins_start (engine : LoadedEngine σ) (s : σ) : Begins engine s (start engine s) := by
  unfold start
  cases hrecording : engine.library.setRecording true s with
  | error x t =>
    rw [bind_error hrecording]
    exact .refused hrecording
  | ok r t =>
    rw [bind_of_ok hrecording]
    cases htraining : engine.library.setTraining true t with
    | error x u =>
      have houtcome : (engine.library.setTraining true).outcome t = .ok (.error x) u := by
        unfold Action.outcome
        rw [htraining]
      rw [bind_of_ok houtcome]
      simp only
      rw [quietly_bind]
      exact .undone hrecording htraining
    | ok tr u =>
      have houtcome : (engine.library.setTraining true).outcome t = .ok (.ok tr) u := by
        unfold Action.outcome
        rw [htraining]
      rw [bind_of_ok houtcome]
      exact .opened hrecording htraining

end RecordingSection

variable {w : Switches σ} {e : Engine σ} {lib : Library σ} {s t : σ}

/-- A section that found the switches as they stood in `before` ends in `s`: both calls are made,
and a switch is back where it was unless the call for it fails. -/
structure Switches.Restores (w : Switches σ) (lib : Library σ) (before s t : σ) : Prop where
  calls : t = (lib.setTraining (w.training before)).after
    ((lib.setRecording (w.recording before)).after s)
  recording : w.recording t =
    if (lib.setRecording (w.recording before)).succeeds s then w.recording before
    else w.recording s
  training : w.training t =
    if (lib.setTraining (w.training before)).succeeds
      ((lib.setRecording (w.recording before)).after s) then w.training before
    else w.training s

/-- A section that cannot begin in `s`: the error is that of the call that failed first, and the
switches stand as before unless recording, already turned on, cannot be turned back. -/
inductive Switches.Declines (w : Switches σ) (lib : Library σ) (s : σ) : Error → σ → Prop
  | recording {x : Error} {t : σ} (h : lib.setRecording true s = .error x t)
    (hagree : w.Agree s t) : Declines w lib s x t
  | training {r : Bool} {x : Error} {t u v : σ} (hrecording : lib.setRecording true s = .ok r t)
    (htraining : lib.setTraining true t = .error x u)
    (hback : v = (lib.setRecording (w.recording s)).after u)
    (hstand : w.training v = w.training s ∧ w.recording v =
      if (lib.setRecording (w.recording s)).succeeds u then w.recording s else true) :
    Declines w lib s x v

theorem Switches.Governs.restores (hw : w.Governs lib) (before s : σ) :
    w.Restores lib before s ((lib.setTraining (w.training before)).after
      ((lib.setRecording (w.recording before)).after s)) := by
  have hfirst := hw.after_setRecording (w.recording before) s
  have hsecond := hw.after_setTraining (w.training before)
    ((lib.setRecording (w.recording before)).after s)
  exact ⟨rfl, hsecond.2.trans hfirst.1, by rw [hsecond.1, hfirst.2]⟩

/-- What beginning a section comes to. -/
def Switches.Began (w : Switches σ) (engine : LoadedEngine σ) (s : σ) :
    EStateM.Result Error σ (RecordingSection σ) → Prop
  | .ok c t => c = ⟨engine, w.recording s, w.training s⟩ ∧ w.Stand true true t
  | .error x t => w.Declines engine.library s x t

theorem Switches.Governs.began {engine : LoadedEngine σ} (hw : w.Governs engine.library) (s : σ) :
    w.Began engine s (RecordingSection.start engine s) := by
  have hfirst := hw.setRecording true _ _ s (w.stand_self s)
  have hbegins := RecordingSection.begins_start engine s
  generalize RecordingSection.start engine s = r at hbegins
  cases hbegins with
  | refused hrecording =>
    rw [hrecording] at hfirst
    exact .recording hrecording ((w.stand_self s).agree hfirst)
  | @undone r x t u hrecording htraining =>
    rw [hrecording] at hfirst
    obtain ⟨rfl, hstand⟩ := hfirst
    have hsecond := hw.setTraining true _ _ t hstand
    rw [htraining] at hsecond
    have hback := hw.after_setRecording (w.recording s) u
    rw [hsecond.recording, hsecond.training] at hback
    exact .training hrecording htraining rfl ⟨hback.2, hback.1⟩
  | @opened r tr t u hrecording htraining =>
    rw [hrecording] at hfirst
    obtain ⟨rfl, hstand⟩ := hfirst
    have hsecond := hw.setTraining true _ _ t hstand
    rw [htraining] at hsecond
    obtain ⟨rfl, hstand⟩ := hsecond
    exact ⟨rfl, hstand⟩

theorem Engine.startRecording_ok {s t : Session σ} {c : RecordingSection σ}
    (h : e.startRecording s = .ok c t) : RecordingSection.start e.loaded s.native = .ok c t.native := by
  unfold startRecording Session.onNative zoom at h
  cases hstart : RecordingSection.start e.loaded s.native with
  | ok c' u =>
    rw [hstart] at h
    cases h
    rfl
  | error x u =>
    rw [hstart] at h
    exact absurd h nofun

theorem Engine.startRecording_error {s t : Session σ} {x : Error}
    (h : e.startRecording s = .error x t) :
    RecordingSection.start e.loaded s.native = .error x t.native := by
  unfold startRecording Session.onNative zoom at h
  cases hstart : RecordingSection.start e.loaded s.native with
  | ok c u =>
    rw [hstart] at h
    exact absurd h nofun
  | error x' u =>
    rw [hstart] at h
    cases h
    rfl

theorem RecordingSection.onNative_finish (c : RecordingSection σ) (s : Session σ) :
    Session.onNative c.finish s = .ok () { s with
      native := (c.engine.library.setTraining c.training).after
        ((c.engine.library.setRecording c.recording).after s.native) } := by
  unfold Session.onNative zoom
  rw [c.finish_eq]

/-- A session with the sections that are open in it, the last one first, each with the session as it
was just before the section began. -/
structure Nest (σ : Type) where
  session : Session σ
  opened : List (RecordingSection σ × Session σ)

/-- A section begins or cannot begin, the last one that began ends, or something happens that leaves
both switches where they stand. -/
inductive Nest.Next (w : Switches σ) (e : Engine σ) (n : Nest σ) : Nest σ → Prop
  | start {c : RecordingSection σ} {t : Session σ} (h : e.startRecording n.session = .ok c t) :
    Next w e n ⟨t, (c, n.session) :: n.opened⟩
  | decline {x : Error} {t : Session σ} (h : e.startRecording n.session = .error x t) :
    Next w e n ⟨t, n.opened⟩
  | finish {c : RecordingSection σ} {before : Session σ} {rest : List (RecordingSection σ × Session σ)}
    (h : n.opened = (c, before) :: rest) :
    Next w e n ⟨(Session.onNative c.finish).after n.session, rest⟩
  | other {t : Session σ} (h : w.Agree n.session.native t.native) : Next w e n ⟨t, n.opened⟩

/-- Each open section knows how the switches stood before it. They are both on since the first one
began, so all but the first found them on. -/
structure Nest.Regular (w : Switches σ) (e : Engine σ) (n : Nest σ) : Prop where
  noted : ∀ p ∈ n.opened,
    p.1 = ⟨e.loaded, w.recording p.2.native, w.training p.2.native⟩
  inner : ∀ p ∈ n.opened.dropLast, w.Stand true true p.2.native
  on : n.opened ≠ [] → w.Stand true true n.session.native

theorem Switches.Governs.begun (hw : w.Governs e.loaded.library) {n : Nest σ}
    {c : RecordingSection σ} {t : Session σ} (h : e.startRecording n.session = .ok c t) :
    c = ⟨e.loaded, w.recording n.session.native, w.training n.session.native⟩ ∧
      w.Stand true true t.native := by
  have hbegan := hw.began n.session.native
  rw [e.startRecording_ok h] at hbegan
  exact hbegan

/-- Sections that began one after another, each inside the ones before it, are ended by calls that
put the switches back. -/
theorem Nest.Regular.restores (hw : w.Governs e.loaded.library) {n : Nest σ} (hn : n.Regular w e)
    {c : RecordingSection σ} {before : Session σ} {rest : List (RecordingSection σ × Session σ)}
    (h : n.opened = (c, before) :: rest) :
    w.Restores e.loaded.library before.native n.session.native
      ((Session.onNative c.finish).after n.session).native := by
  have hc : c = ⟨e.loaded, w.recording before.native, w.training before.native⟩ :=
    hn.noted (c, before) (by rw [h]; exact List.mem_cons_self)
  rw [after_ok (RecordingSection.onNative_finish _ _), hc]
  exact hw.restores before.native n.session.native

theorem Nest.Regular.next (hw : w.Governs e.loaded.library) {n m : Nest σ} (hn : n.Regular w e)
    (h : n.Next w e m) : m.Regular w e := by
  cases h with
  | @start c t h =>
    obtain ⟨hc, hon⟩ := hw.begun h
    refine ⟨fun p hp => ?_, fun p hp => ?_, fun _ => hon⟩
    · rcases List.mem_cons.1 hp with rfl | hp
      · exact hc
      · exact hn.noted p hp
    · have hinner := hn.inner
      cases hopened : n.opened with
      | nil =>
        rw [hopened] at hp
        exact absurd hp List.not_mem_nil
      | cons q rest =>
        have hne : n.opened ≠ [] := hopened ▸ List.cons_ne_nil q rest
        rw [List.dropLast_cons_of_ne_nil hne] at hp
        rcases List.mem_cons.1 hp with rfl | hp
        · exact hn.on hne
        · exact hinner p hp
  | @decline x t h =>
    refine ⟨hn.noted, hn.inner, fun hne => ?_⟩
    have hbegan := hw.began n.session.native
    rw [e.startRecording_error h] at hbegan
    have hon := hn.on hne
    cases hbegan with
    | recording _ hagree => exact ⟨hagree.1.trans hon.recording, hagree.2.trans hon.training⟩
    | training _ _ _ hstand =>
      refine ⟨?_, hstand.1.trans hon.training⟩
      rw [hstand.2, hon.recording, ite_self]
  | @finish c before rest h =>
    have hrestores := hn.restores hw h
    refine ⟨fun p hp => hn.noted p (by rw [h]; exact List.mem_cons_of_mem _ hp), fun p hp => ?_,
      fun hne => ?_⟩
    · have hne : rest ≠ [] := by
        rintro rfl
        exact absurd hp List.not_mem_nil
      refine hn.inner p ?_
      rw [h, List.dropLast_cons_of_ne_nil hne]
      exact List.mem_cons_of_mem _ hp
    · have hbefore : w.Stand true true before.native := by
        refine hn.inner (c, before) ?_
        rw [h, List.dropLast_cons_of_ne_nil hne]
        exact List.mem_cons_self
      have hon := hn.on (by rw [h]; exact List.cons_ne_nil _ _)
      constructor
      · rw [hrestores.recording, hbefore.recording, hon.recording, ite_self]
      · rw [hrestores.training, hbefore.training, hon.training, ite_self]
  | other hagree =>
    refine ⟨hn.noted, hn.inner, fun hne => ?_⟩
    have hon := hn.on hne
    exact ⟨hagree.1.trans hon.recording, hagree.2.trans hon.training⟩

theorem Nest.regular_reached (hw : w.Governs e.loaded.library) {s : Session σ} {n : Nest σ}
    (hn : ReflTransGen (Nest.Next w e) ⟨s, []⟩ n) : n.Regular w e := by
  induction hn with
  | refl => exact ⟨nofun, nofun, fun h => absurd rfl h⟩
  | tail _ h ih => exact ih.next hw h

namespace Reference

def switches : Switches State := ⟨fun s => s.tape.recording, fun s => s.tape.training⟩

theorem governs_library [HalfPrecision] (gpus : Nat) : switches.Governs (library gpus) where
  setRecording _ _ _ _ hs := ⟨hs.recording, rfl, hs.training⟩
  setTraining _ _ _ _ hs := ⟨hs.training, hs.recording, rfl⟩

theorem governs_stuck (gpus : Nat) : switches.Governs ((library gpus).restrict .stuck) where
  setRecording on r t := by
    cases on with
    | true => exact (governs_library gpus).setRecording true r t
    | false => exact .throw fun _ hs => hs
  setTraining on r t := by
    cases on with
    | true => exact (governs_library gpus).setTraining true r t
    | false => exact .throw fun _ hs => hs

theorem nodes_startRecording {gpus : Nat} {e : Engine State}
    (he : e.loaded.library = library gpus) (s : Session State) :
    (e.startRecording.after s).native.tape.nodes = s.native.tape.nodes := by
  unfold Engine.startRecording RecordingSection.start
  rw [he]
  change (s.native.tape.setRecording true).nodes = s.native.tape.nodes
  unfold Tape.setRecording
  rw [Bool.not_true, Bool.and_false]
  rfl

theorem nodes_restores {gpus : Nat} {before s t : State} (hbefore : before.tape.recording = true)
    (h : switches.Restores (library gpus) before s t) : t.tape.nodes = s.tape.nodes := by
  rw [h.calls]
  change (s.tape.setRecording before.tape.recording).nodes = s.tape.nodes
  unfold Tape.setRecording
  rw [hbefore, Bool.not_true, Bool.and_false]
  rfl

end Reference

/-- Recording sections nest, whatever fails and whatever happens between that does not switch. While
one is open both switches are on. Ending the one that began last makes both calls and puts each
switch back to where it stood just before that section, except one whose own call fails. A section
that cannot begin reports the failure that came first and leaves both switches, except recording if
it cannot be turned back. On the reference engine neither the beginning of a section nor the end of
an inner one takes anything off the tape. -/
theorem sections_nest [HalfPrecision] :
    (∀ {σ : Type} (w : Switches σ) (e : Engine σ), w.Governs e.loaded.library →
      ∀ (s₀ : Session σ) (n : Nest σ), ReflTransGen (Nest.Next w e) ⟨s₀, []⟩ n →
        (n.opened ≠ [] → w.Stand true true n.session.native) ∧
        (∀ c before rest, n.opened = (c, before) :: rest →
          ∃ t, Session.onNative c.finish n.session = .ok () t ∧
            w.Restores e.loaded.library before.native n.session.native t.native) ∧
        ∀ x t, e.startRecording n.session = .error x t →
          w.Declines e.loaded.library n.session.native x t.native) ∧
    ∀ (gpus : Nat) (e : Engine Reference.State), e.loaded.library = Reference.library gpus →
      ∀ (s₀ : Session Reference.State) (n : Nest Reference.State),
        ReflTransGen (Nest.Next Reference.switches e) ⟨s₀, []⟩ n →
          (e.startRecording.after n.session).native.tape.nodes = n.session.native.tape.nodes ∧
          ∀ c before outer rest, n.opened = (c, before) :: outer :: rest →
            ((Session.onNative c.finish).after n.session).native.tape.nodes =
              n.session.native.tape.nodes := by
  refine ⟨fun w e hw s₀ n hn => ?_, fun gpus e he s₀ n hn => ?_⟩
  · have hregular := Nest.regular_reached hw hn
    refine ⟨hregular.on, fun c before rest h => ?_, fun x t h => ?_⟩
    · have hrestores := hregular.restores hw h
      rw [after_ok (c.onNative_finish n.session)] at hrestores
      exact ⟨_, c.onNative_finish n.session, hrestores⟩
    · have hbegan := hw.began n.session.native
      rw [e.startRecording_error h] at hbegan
      exact hbegan
  · have hw : Reference.switches.Governs e.loaded.library := he ▸ Reference.governs_library gpus
    have hregular := Nest.regular_reached hw hn
    refine ⟨Reference.nodes_startRecording he n.session, fun c before outer rest h => ?_⟩
    -- the inner section began inside the outer one, so it found recording on
    have hbefore : Reference.switches.Stand true true before.native := by
      refine hregular.inner (c, before) ?_
      rw [h]
      exact List.mem_cons_self
    have hrestores := hregular.restores hw h
    rw [he] at hrestores
    exact Reference.nodes_restores hbefore.recording hrestores

end

open Interchange

/-- A section inside another: where switches stick, so that the outer one ends with both still on,
and where an operator was recorded before the inner one began. -/
theorem sections_nest_twice :
    let engine : Library Reference.State → Engine Reference.State := fun lib =>
      ⟨⟨1, lib, .empty⟩, .standard, .cpu, 1⟩
    let stuck := engine ((Reference.library 0).restrict .stuck)
    let free := engine (Reference.library 0)
    (∃ (n : Nest Reference.State) (c : RecordingSection Reference.State)
      (before t : Session Reference.State),
      ReflTransGen (Nest.Next Reference.switches stuck) ⟨.start .initial, []⟩ n ∧
      n.opened = [(c, before)] ∧ Session.onNative c.finish n.session = .ok () t ∧
      Reference.switches.Restores stuck.loaded.library before.native n.session.native t.native ∧
      Reference.switches.Stand false false before.native ∧
      Reference.switches.Stand true true t.native) ∧
    ∃ (n : Nest Reference.State) (c outer : RecordingSection Reference.State)
      (before first : Session Reference.State),
      ReflTransGen (Nest.Next Reference.switches free) ⟨.start .initial, []⟩ n ∧
      n.opened = [(c, before), (outer, first)] ∧ n.session.native.recorded = 1 ∧
      ((Session.onNative c.finish).after n.session).native.tape.nodes =
        n.session.native.tape.nodes := by
  intro engine stuck free
  let began (e : Engine Reference.State) (s : Session Reference.State) : Session Reference.State :=
    e.startRecording.after s
  let s₀ : Session Reference.State := .start .initial
  constructor
  -- Switches that stick: the inner section ends without turning them off, as it found them on.
  · let s₁ := began stuck s₀
    let s₂ := began stuck s₁
    let c₁ : RecordingSection Reference.State := ⟨stuck.loaded, false, false⟩
    let c₂ : RecordingSection Reference.State := ⟨stuck.loaded, true, true⟩
    let n : Nest Reference.State := ⟨(Session.onNative c₂.finish).after s₂, [(c₁, s₀)]⟩
    have hn : ReflTransGen (Nest.Next Reference.switches stuck) ⟨s₀, []⟩ n :=
      ((ReflTransGen.single (.start (c := c₁) (t := s₁) rfl)).tail
        (.start (c := c₂) (t := s₂) rfl)).tail (.finish rfl)
    obtain ⟨-, hfinish, -⟩ := sections_nest.1 Reference.switches stuck (Reference.governs_stuck 0)
      s₀ n hn
    obtain ⟨t, ht, hrestores⟩ := hfinish c₁ s₀ [] rfl
    refine ⟨n, c₁, s₀, t, hn, rfl, ht, hrestores, ⟨rfl, rfl⟩, ?_⟩
    exact ⟨hrestores.recording, hrestores.training⟩
  -- An operator is recorded between the two beginnings.
  · let s₁ := began free s₀
    let s₂ : Session Reference.State := { s₁ with
      native := (Library.Call.invoke ⟨Operator.ones.number⟩ [] none
        ⟨[("shape", .tuple [2])]⟩).step (Reference.library 0) s₁.native }
    let s₃ := began free s₂
    let c₁ : RecordingSection Reference.State := ⟨free.loaded, false, false⟩
    let c₂ : RecordingSection Reference.State := ⟨free.loaded, true, true⟩
    let n : Nest Reference.State := ⟨s₃, [(c₂, s₂), (c₁, s₀)]⟩
    have hn : ReflTransGen (Nest.Next Reference.switches free) ⟨s₀, []⟩ n :=
      ((ReflTransGen.single (.start (c := c₁) (t := s₁) rfl)).tail
        (.other (t := s₂) ⟨by decide +kernel, by decide +kernel⟩)).tail
          (.start (c := c₂) (t := s₃) rfl)
    obtain ⟨-, hfinish⟩ := sections_nest.2 0 free rfl s₀ n hn
    exact ⟨n, c₂, c₁, s₂, s₀, hn, rfl, by decide +kernel, hfinish c₂ s₂ (c₁, s₀) [] rfl⟩

end ScopedTensor
