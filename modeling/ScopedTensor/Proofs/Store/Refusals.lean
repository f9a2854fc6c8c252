import ScopedTensor.Element.Interchange
import ScopedTensor.Proofs.Deferral.Runs

/-! Refused calls. A call of the engine checks everything it is given before its first effect, and
its effects cannot fail, so an error leaves the state it was made in. Marking variables and backward
passes are not such calls: they may fail halfway. -/

namespace ScopedTensor

namespace Action

variable {σ α β : Type}

theorem query_const (r : Except Error α) : query (fun _ : σ => r) = ofExcept r := by
  funext s
  cases r <;> rfl

theorem transition_query_bind (f : σ → Except Error α) (g : α → σ → Except Error (β × σ)) :
    (transition fun s => f s >>= fun x => g x s) = query f >>= fun x => transition (g x) := by
  funext s
  cases hf : f s with
  | error e =>
    refine Eq.trans ?_ (bind_error (query_error hf)).symm
    simp only [transition, hf]
    rfl
  | ok x =>
    refine Eq.trans ?_ (bind_of_ok (query_ok.2 ⟨hf, rfl⟩)).symm
    simp only [transition, hf]
    rfl

theorem transition_bind (g : σ → Except Error (α × σ)) (k : α → σ → β × σ) :
    (transition fun s => g s >>= fun r => .ok (k r.1 r.2)) =
      transition g >>= fun x => transition fun s => .ok (k x s) := by
  funext s
  cases hg : g s with
  | error e =>
    have hfirst : transition g s = .error e s := by simp only [transition, hg]
    refine Eq.trans ?_ (bind_error hfirst).symm
    simp only [transition, hg]
    rfl
  | ok r =>
    refine Eq.trans ?_ (bind_of_ok (transition_ok.2 hg)).symm
    simp only [transition, hg]
    rfl

theorem mapM_query (f : α → σ → Except Error β) (xs : List α) :
    (xs.mapM fun x => query (f x)) = query fun s => xs.mapM fun x => f x s := by
  induction xs with
  | nil => rfl
  | cons x xs ih =>
    rw [List.mapM_cons, ih]
    funext s
    simp only [query, List.mapM_cons]
    cases hx : f x s with
    | error e => exact bind_error (query_error hx)
    | ok y =>
      refine (bind_of_ok (query_ok.2 ⟨hx, rfl⟩)).trans ?_
      cases hxs : xs.mapM fun x => f x s with
      | error e => exact bind_error (query_error hxs)
      | ok ys => exact bind_of_ok (query_ok.2 ⟨hxs, rfl⟩)

end Action

namespace Reference

open ScopedTensor.Action State Library

section

variable {half : HalfPrecision}
variable {gpus : Nat} {s : State} {α : Type} {a : Action State α}

section Submission

variable (gpus) (h : OpHandle) (inputs : List Handle) (outputs : Option (List Handle))
variable (params : Params)

def allocateOne (device : Device) (sig : Signature) : Action State (Handle × View) := fun s =>
  let r := s.allocate sig.shape sig.type device .dense
  .ok (r.1, ⟨s.memory.buffers.length, 0, sig.shape, sig.type⟩) r.2

def findOutputs (op : Operator) (entries : List Entry) (inferred : List Signature) :
    Action State (List (Handle × View)) :=
  match outputs with
  | some given => .query fun s => givenOutputs s op given inferred
  | none => do
    let device := outputDevice entries params
    .ofExcept (checkDevice gpus device)
    inferred.mapM (allocateOne device)

def invokeStepwise : Action State (List Handle) := do
  let op ← .ofExcept (operatorOf h)
  let entries ← inputs.mapM entryOf
  let inferred ← .ofExcept
    (op.infer (entries.map fun e => ⟨e.view.shape, e.view.type⟩) params)
  let outs ← findOutputs gpus outputs params op entries inferred
  modify fun s => { s with tape := s.tape.record (nodeOf op params inputs entries outs) }
  modify fun s => s.enqueue ⟨op, params, entries.map Entry.view, outs.map Prod.snd⟩
  return outs.map Prod.fst

end Submission

theorem mapM_allocateOne (device : Device) (sigs : List Signature) :
    sigs.mapM (allocateOne device) =
      Action.transition fun s => .ok (allocateAll device sigs s) := by
  induction sigs with
  | nil => rfl
  | cons sig sigs ih =>
    rw [List.mapM_cons, ih]
    rfl

theorem findOutputs_eq (outputs : Option (List Handle)) (params : Params) (op : Operator)
    (entries : List Entry) (inferred : List Signature) :
    findOutputs gpus outputs params op entries inferred =
      Action.transition fun s => outputsOf gpus s op entries inferred outputs params := by
  cases outputs with
  | some given =>
    have hfound := transition_query_bind (fun s => givenOutputs s op given inferred)
      fun outs s => .ok (outs, s)
    exact (bind_pure _).symm.trans hfound.symm
  | none =>
    have hfound := transition_query_bind (fun _ => checkDevice gpus (outputDevice entries params))
      fun _ s => .ok (allocateAll (outputDevice entries params) inferred s)
    rw [query_const] at hfound
    refine Eq.trans ?_ hfound.symm
    unfold findOutputs
    rw [← mapM_allocateOne]

theorem invoke_eq_stepwise (h : OpHandle) (inputs : List Handle) (outputs : Option (List Handle))
    (params : Params) :
    invoke .deferred gpus h inputs outputs params =
      invokeStepwise gpus h inputs outputs params := by
  have hinputs : inputs.mapM entryOf = Action.query fun s => inputs.mapM s.entry := mapM_query _ _
  have hsteps := fun op entries inferred => transition_bind
    (fun s => outputsOf gpus s op entries inferred outputs params) fun outs s =>
      (outs.map Prod.fst, State.enqueue
        { s with tape := s.tape.record (nodeOf op params inputs entries outs) }
        ⟨op, params, entries.map Entry.view, outs.map Prod.snd⟩)
  calc invoke .deferred gpus h inputs outputs params
      = Action.transition (accept gpus h inputs outputs params) :=
        (invoke_eq .deferred).trans (bind_pure _)
    _ = Action.transition fun s => operatorOf h >>= fun op => inputs.mapM s.entry >>= fun entries =>
          op.infer (entries.map fun e => ⟨e.view.shape, e.view.type⟩) params >>= fun inferred =>
            outputsOf gpus s op entries inferred outputs params >>= fun r => .ok
              (r.1.map Prod.fst, State.enqueue
                { r.2 with tape := r.2.tape.record (nodeOf op params inputs entries r.1) }
                ⟨op, params, entries.map Entry.view, r.1.map Prod.snd⟩) := by
        refine congrArg Action.transition (funext fun s => ?_)
        unfold accept handIn submit
        simp only [map_bind_eq]
        rfl
    _ = invokeStepwise gpus h inputs outputs params := by
        unfold invokeStepwise
        simp only [hinputs, findOutputs_eq, ← query_const, transition_query_bind, hsteps]
        rfl

/-- Where what waits can be run, the action fails only in the state it started in. -/
abbrev Refuses (a : Action State α) : Prop :=
  ∀ s : State, s.Orderly → Meets (· = s) a (fun _ _ => True) (· = s)

theorem Refuses.of_does {Q : State → α → State → Prop} (h : Does a Q) : Refuses a :=
  fun s _ => (h s).to_imp fun _ _ _ => trivial

theorem Refuses.map {β : Type} (f : α → β) (h : Refuses a) : Refuses (f <$> a) :=
  fun s hs => (h s hs).map

theorem refuses_query (f : State → Except Error α) : Refuses (Action.query f) := fun _ _ =>
  .query (fun _ _ _ _ => trivial) fun _ hs => hs

theorem State.Orderly.meets_drain (hs : s.Orderly) {E : State → Prop} :
    Meets (· = s) drain (fun _ _ => True) E := .of_eq hs.drain_eq trivial

theorem meets_viewOf (h : Handle) (s : State) :
    Meets (· = s) (viewOf h) (fun _ => (· = s)) (· = s) :=
  .map (.query (fun _ hs _ _ => hs) fun _ hs => hs)

theorem refuses_copyIn (h : Handle) (bytes : Bytes) (length : Nat) :
    Refuses (copyIn h bytes length) := fun s hs =>
  (meets_viewOf h s).bind fun _ => .guard (fun _ hs => hs) fun _ =>
    hs.meets_drain.bind fun _ => .modify fun _ _ => trivial

theorem refuses_copyOut (h : Handle) (room length : Nat) : Refuses (copyOut h room length) :=
  fun s hs => (meets_viewOf h s).bind fun _ => .guard (fun _ hs => hs) fun _ =>
    hs.meets_drain.bind fun _ => .get_bind fun _ _ => .pure fun _ _ => trivial

theorem meets_count_drain (f : State → State) (hf : (f s).Orderly) {E : State → Prop} :
    Meets (· = s) (modify f >>= fun _ => (drain : Action State Unit)) (fun _ _ => True) E :=
  .modify_bind (I := (· = f s)) (fun _ hs => congrArg f hs) hf.meets_drain

theorem refuses_wait (h : Handle) : Refuses (wait h) := fun s hs =>
  Meets.bind (.query (Q := fun _ => (· = s)) (fun _ hs _ _ => hs) fun _ hs => hs) fun _ =>
    meets_count_drain _ ⟨hs.tasks, hs.entries, hs.marks⟩

theorem refuses_findOutputs (outputs : Option (List Handle)) (params : Params) (op : Operator)
    (entries : List Entry) (inferred : List Signature) (s : State) :
    Meets (· = s) (findOutputs gpus outputs params op entries inferred) (fun _ _ => True)
      (· = s) := by
  cases outputs with
  | some given => exact .query (fun _ _ _ _ => trivial) fun _ hs => hs
  | none =>
    refine Meets.bind (Q := fun _ _ => True) (.ofExcept (fun _ _ _ _ => trivial) fun _ hs => hs)
      fun _ => ?_
    exact Meets.mapM (I := fun _ _ _ => True) (fun sig _ _ _ _ => trivial) inferred []

theorem refuses_invoke [HalfPrecision] (h : OpHandle) (inputs : List Handle)
    (outputs : Option (List Handle)) (params : Params) :
    Refuses (invoke .deferred gpus h inputs outputs params) := by
  rw [invoke_eq_stepwise]
  intro s _
  unfold invokeStepwise
  -- every check before the first effect, no failure from there on
  refine (Meets.ofExcept (Q := fun _ => (· = s)) (fun _ _ _ hs => hs) fun _ hs => hs).bind fun op =>
    (Keeps.mapM (fun h => .query (fun _ hs _ _ => hs) fun _ hs => hs) inputs).bind fun entries =>
    (Meets.ofExcept (Q := fun _ => (· = s)) (fun _ _ _ hs => hs) fun _ hs => hs).bind fun sigs =>
    (refuses_findOutputs outputs params op entries sigs s).bind fun outs =>
    .modify_bind (I := fun _ => True) (fun _ _ => trivial) <|
    .modify_bind (I := fun _ => True) (fun _ _ => trivial) <| .pure fun _ _ => trivial

/-- Calls that check all they are given before they change anything. -/
def checksFirst : Call → Bool
  | .markVariables .. | .backward .. => false
  | _ => true

/-- What a refused call leaves behind: calls of `free` are counted, whether or not they free. -/
def State.refused (s : State) : Call → State
  | .free _ => { s with freeCalls := s.freeCalls + 1 }
  | _ => s

theorem refuses_call (gpus : Nat) {c : Call} (hc : checksFirst c = true)
    (hfree : ∀ h, c ≠ .free h) : Refuses (c.perform (library gpus)) := by
  -- The two calls left out mark variables one by one, and run a pass that may fail on the way.
  cases c with
  | free h => exact absurd rfl (hfree h)
  | markVariables | backward => exact absurd hc nofun
  | version => exact .map _ fun _ _ => .pure fun _ _ => trivial
  | gpuCount => exact .map _ fun _ _ => .pure fun _ _ => trivial
  | listOps => exact .map _ fun _ _ => .pure fun _ _ => trivial
  | getOp name => exact .map _ fun _ _ => .ofExcept (fun _ _ _ _ => trivial) fun _ hs => hs
  | create d s t st delayed => exact .map _ (.of_does (create_does d s t st))
  | shape h => exact .map _ (.map _ (.map _ (refuses_query _)))
  | type h => exact .map _ (.map _ (.map _ (refuses_query _)))
  | device h => exact .map _ (.map _ (refuses_query _))
  | storage h => exact .map _ (.map _ (refuses_query _))
  | copyIn h bytes length => exact .map _ (refuses_copyIn h bytes length)
  | copyOut h room length => exact .map _ (refuses_copyOut h room length)
  | waitToRead h => exact .map _ (refuses_wait h)
  | waitToWrite h => exact .map _ (refuses_wait h)
  | waitAll => exact .map _ fun s hs => meets_count_drain _ ⟨hs.tasks, hs.entries, hs.marks⟩
  | invoke h inputs outputs params => exact .map _ (refuses_invoke h inputs outputs params)
  | row h index => exact .map _ (.of_does (derive_does h _))
  | slice h first last => exact .map _ (.of_does (derive_does h _))
  | reshape h dims reverse => exact .map _ (.of_does (derive_does h _))
  | getGrad h => exact .map _ (.of_does (getGrad_does h))
  | setRecording on => exact .map _ fun _ _ _ _ => trivial
  | setTraining on => exact .map _ fun _ _ _ _ => trivial
  | randomSeed seed => exact .map _ fun _ _ => .modify fun _ _ => trivial

theorem meets_call [HalfPrecision] (gpus : Nat) (hs : s.Orderly) {c : Call}
    (hc : checksFirst c = true) :
    Meets (· = s) (c.perform (library gpus)) (fun _ _ => True) (· = s.refused c) := by
  by_cases hfree : ∃ h, c = .free h
  · obtain ⟨h, rfl⟩ := hfree
    refine Meets.map (.of_state fun t ht => ?_)
    subst ht
    rcases free_cases h t with ⟨-, e, hfails⟩ | ⟨-, hfrees⟩
    · exact .of_eq_error hfails rfl
    · exact .of_eq hfrees trivial
  · have hfree : ∀ h, c ≠ .free h := fun h heq => hfree ⟨h, heq⟩
    have hrefused : s.refused c = s := by
      cases c with
      | free h => exact absurd rfl (hfree h)
      | _ => rfl
    rw [hrefused]
    exact refuses_call gpus hc hfree s hs

/-- A refused call leaves no trace, after any calls: the arrays with what they show, their contents,
the counters, the waiting tasks, the tape with its marks and its switches are as before. Only a
failed free is counted. -/
theorem refused_unchanged [HalfPrecision] (gpus : Nat) (cs : List Call) (c : Call)
    (hc : checksFirst c = true) {e : Error}
    (h : c.reply (library gpus) (Call.run (library gpus) cs .initial) = .error e) :
    c.step (library gpus) (Call.run (library gpus) cs .initial) =
      (Call.run (library gpus) cs .initial).refused c := by
  have hs : (Call.run (library gpus) cs .initial).Orderly := orderly_run orderly_initial
  have hmeets := meets_call gpus hs hc _ rfl
  unfold Call.reply at h
  unfold Call.step after
  cases hr : c.perform (library gpus) (Call.run (library gpus) cs .initial) with
  | ok a t =>
    rw [hr] at h
    exact absurd h nofun
  | error x t =>
    rw [hr] at hmeets
    exact hmeets

end

open Interchange

/-- With an operator waiting and recorded: operands that do not fit, an output without room for the
result, and an array that is freed twice. -/
theorem refused_unchanged_mixed :
    let cs : List Call := [.create .cpu ⟨[2]⟩ .f32 .dense false,
      .create .cpu ⟨[3]⟩ .f32 .dense false, .setRecording true,
      .invoke ⟨Operator.negative.number⟩ [⟨1⟩] none .empty, .free ⟨1⟩]
    let refused : List Call := [.invoke ⟨(Operator.pairwise .add).number⟩ [⟨2⟩, ⟨3⟩] none .empty,
      .invoke ⟨Operator.negative.number⟩ [⟨3⟩] (some [⟨2⟩]) .empty, .free ⟨1⟩]
    let s := Call.run (library 0) cs .initial
    s.pending = 1 ∧ s.recorded = 1 ∧ ∀ c ∈ refused,
      (∃ e, c.reply (library 0) s = .error e) ∧ c.step (library 0) s = s.refused c := by
  intro cs refused s
  have hfail : (refused.all fun c => !(c.reply (library 0) s).isOk && checksFirst c) = true := by
    decide +kernel
  refine ⟨by decide +kernel, by decide +kernel, fun c hc => ?_⟩
  have hc := List.all_eq_true.1 hfail c hc
  rw [Bool.and_eq_true] at hc
  cases hr : c.reply (library 0) s with
  | ok x =>
    rw [hr] at hc
    exact absurd hc.1 nofun
  | error e => exact ⟨⟨e, rfl⟩, refused_unchanged 0 cs c hc.2 hr⟩

end Reference
end ScopedTensor
