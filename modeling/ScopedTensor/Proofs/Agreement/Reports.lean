import ScopedTensor.Proofs.Agreement.Checks
import ScopedTensor.Proofs.Isolation.References

/-! What the reference engine reports when it fails. Whichever call it is, and in whatever state it
is made, the failure is the engine's own and none that operations raise for their arguments. -/

namespace ScopedTensor

variable {half : HalfPrecision}

/-- Errors that engines report. -/
inductive Error.Reported : Error → Prop
  | native (call : String) (r : Report) : Reported (.native call r)

theorem Error.Reported.not_ofArguments {e : Error} (h : e.Reported) : ¬ e.OfArguments := by
  cases h
  nofun

variable {σ τ α β : Type}

def Reporting (r : Except Error α) : Prop := ∀ e, r = .error e → e.Reported

theorem reporting_ok (x : α) : Reporting (.ok x) := fun _ h => absurd h nofun

theorem reporting_native (call : String) (r : Report) :
    Reporting (.error (.native call r) : Except Error α) := by
  intro e h
  obtain rfl := Except.error.inj h
  exact .native call r

theorem Reporting.bind {r : Except Error α} {f : α → Except Error β} (h : Reporting r)
    (hf : ∀ x, Reporting (f x)) : Reporting (r >>= f) := by
  cases r with
  | ok x => exact hf x
  | error e =>
    intro e' he
    obtain rfl := Except.error.inj he
    exact h e rfl

theorem Reporting.map {r : Except Error α} {f : α → β} (h : Reporting r) : Reporting (r.map f) := by
  cases r with
  | ok x => exact reporting_ok _
  | error e =>
    intro e' he
    obtain rfl := Except.error.inj he
    exact h e rfl

theorem Reporting.ite {c : Prop} [Decidable c] {r r' : Except Error α} (h : Reporting r)
    (h' : Reporting r') : Reporting (if c then r else r') := by
  split
  · exact h
  · exact h'

theorem reporting_mapM {f : α → Except Error β} (hf : ∀ x, Reporting (f x)) (xs : List α) :
    Reporting (xs.mapM f) := by
  induction xs with
  | nil => exact reporting_ok []
  | cons x xs ih =>
    rw [List.mapM_cons]
    exact (hf x).bind fun y => ih.bind fun ys => reporting_ok (y :: ys)

theorem reporting_foldlM {f : β → α → Except Error β} (hf : ∀ y x, Reporting (f y x))
    (xs : List α) (y : β) : Reporting (xs.foldlM f y) := by
  induction xs generalizing y with
  | nil => exact reporting_ok y
  | cons x xs ih =>
    rw [List.foldlM_cons]
    exact (hf y x).bind ih

namespace Operator

variable {op : Operator} {params : Params} {shape : Shape}

theorem reporting_fail (r : Report) : Reporting (op.fail r : Except Error α) :=
  reporting_native op.name r

theorem reporting_require (r : Report) (x : Option α) : Reporting (op.require r x) := by
  cases x with
  | none => exact reporting_fail r
  | some x => exact reporting_ok x

theorem reporting_scalarOf : Reporting (op.scalarOf params) := reporting_require _ _

theorem reporting_axisOr (default : Int) : Reporting (op.axisOr params shape default) :=
  reporting_require _ _

theorem reporting_axis? : Reporting (op.axis? params shape) := by
  unfold axis?
  split
  · exact reporting_ok none
  · exact (reporting_require _ _).map

theorem reporting_splitPlan : Reporting (splitPlan params shape) := by
  refine (reporting_axisOr 1).bind fun axis => (reporting_require _ _).bind fun parts => ?_
  exact .ite (reporting_fail _) (.ite (reporting_fail _) (reporting_ok _))

theorem reporting_filledSignature : Reporting (op.filledSignature params) := by
  refine (reporting_require _ _).bind fun entries => .bind ?_ fun dims => reporting_ok _
  exact reporting_mapM (fun d => .ite (reporting_fail _) (reporting_ok _)) entries

theorem reporting_infer (inputs : List Signature) : Reporting (op.infer inputs params) := by
  unfold infer
  split
  · exact reporting_filledSignature
  · exact reporting_filledSignature
  · exact .ite (reporting_fail _) (.ite (reporting_fail _) (reporting_ok _))
  · exact reporting_scalarOf.map
  · exact reporting_ok _
  · exact reporting_ok _
  · exact reporting_ok _
  · exact reporting_ok _
  · exact reporting_axis?.bind fun _ => reporting_ok _
  · exact reporting_splitPlan.bind fun _ => reporting_ok _
  · exact (reporting_axisOr _).bind fun _ => .ite (reporting_fail _) (reporting_ok _)
  · exact (reporting_axisOr _).bind fun _ => reporting_ok _
  · exact reporting_fail _

theorem reporting_evaluate {inputs : List Operand} {r : Except Error (List Values)}
    (h : op.evaluate inputs params = some r) : Reporting r := by
  unfold evaluate at h
  split at h
  case h_12 x =>
    have h : argsort.evaluate [x] params = some r := h
    cases haxis : argsort.axisOr params x.shape (-1) with
    | error e =>
      rw [evaluate_argsort_error haxis] at h
      obtain rfl := Option.some.inj h
      exact fun e' he => reporting_axisOr (-1) e' (haxis.trans (congrArg _ (Except.error.inj he)))
    | ok axis =>
      rw [evaluate_argsort haxis] at h
      obtain ⟨values, -, rfl⟩ := Option.map_eq_some_iff.1 h
      exact reporting_ok _
  all_goals rw [← Option.some.inj h]
  · exact reporting_ok _
  · exact reporting_ok _
  · exact reporting_ok _
  · exact reporting_scalarOf.bind fun _ => reporting_ok _
  · exact reporting_ok _
  · exact reporting_ok _
  · exact reporting_ok _
  · exact reporting_ok _
  · exact reporting_axis?.bind fun _ => reporting_ok _
  · exact reporting_splitPlan.bind fun _ => reporting_ok _
  · exact (reporting_axisOr _).bind fun _ => reporting_ok _
  · exact reporting_fail _

theorem reporting_gradientFrom (inputs outputs : List Operand) (g : Values) :
    Reporting (op.gradientFrom params inputs outputs g) := by
  unfold gradientFrom
  split
  · exact reporting_ok _
  · exact reporting_ok _
  · exact reporting_ok _
  · exact reporting_ok _
  · exact reporting_scalarOf.bind fun _ => reporting_ok _
  · exact reporting_ok _
  · exact reporting_ok _
  · exact reporting_ok _
  · exact reporting_axis?.bind fun _ => reporting_ok _
  · exact (reporting_axisOr _).bind fun _ => reporting_ok _
  · exact reporting_fail _
  · exact reporting_ok _

theorem reporting_gradient (inputs outputs : List Operand) (gs : List (Option Values)) :
    Reporting (op.gradient params inputs outputs gs) := by
  unfold gradient
  split
  · exact reporting_splitPlan.bind fun _ => reporting_ok _
  · split
    · exact reporting_ok _
    · exact reporting_gradientFrom _ _ _

end Operator

theorem reporting_backward (m : Memory) (nodes : List Node) (marks : Table Mark)
    (seeds : List (Nat × Values)) : Reporting (Tape.backward m nodes marks seeds) := by
  have hvisit : ∀ gs (n : Node), Reporting (n.visit m gs) := fun gs n =>
    .ite (reporting_ok gs) (Operator.reporting_gradient _ _ _).map
  exact (reporting_foldlM hvisit _ _).bind fun _ => reporting_ok _

namespace Action

/-- Whenever the action fails, an engine reports it. -/
def Reports (a : Action σ α) : Prop := ∀ s e t, a s = .error e t → e.Reported

variable {a : Action σ α} {f : α → Action σ β}

theorem reports_pure (x : α) : (pure x : Action σ α).Reports := fun _ _ _ h => absurd h nofun

theorem reports_get : (get : Action σ σ).Reports := fun _ _ _ h => absurd h nofun

theorem reports_modify (f : σ → σ) : (modify f : Action σ Unit).Reports :=
  fun _ _ _ h => absurd h nofun

theorem Reports.bind (h : a.Reports) (hf : ∀ x, (f x).Reports) : (a >>= f).Reports := by
  intro s e t hr
  cases ha : a s with
  | ok x u =>
    rw [bind_of_ok ha] at hr
    exact hf x u e t hr
  | error x u =>
    rw [bind_error ha] at hr
    cases hr
    exact h s e t ha

theorem Reports.map {g : α → β} (h : a.Reports) : (g <$> a).Reports :=
  h.bind fun x => reports_pure (g x)

theorem reports_native (call : String) (r : Report) :
    (throw (.native call r) : Action σ α).Reports := by
  intro s e t hr
  cases hr
  exact .native call r

theorem reports_ofExcept {r : Except Error α} (h : Reporting r) :
    (ofExcept r : Action σ α).Reports := by
  cases r with
  | ok x => exact reports_pure x
  | error e =>
    intro s e' t hr
    cases hr
    exact h e rfl

theorem reports_query {g : σ → Except Error α} (h : ∀ s, Reporting (g s)) : (query g).Reports := by
  intro s e t hr
  cases hg : g s with
  | ok x =>
    rw [query_ok.2 ⟨hg, rfl⟩] at hr
    exact absurd hr nofun
  | error x =>
    rw [query_error hg] at hr
    cases hr
    exact h s e hg

theorem reports_transition {g : σ → Except Error (α × σ)} (h : ∀ s, Reporting (g s)) :
    (transition g).Reports := by
  intro s e t hr
  unfold transition at hr
  cases hg : g s with
  | ok r =>
    simp only [hg] at hr
    exact absurd hr nofun
  | error x =>
    simp only [hg] at hr
    cases hr
    exact h s e hg

theorem Reports.guard {c : Prop} [Decidable c] {call : String} {r : Report} {k : PUnit → Action σ α}
    (h : (k ⟨⟩).Reports) :
    (if c then (do let x ← MonadExcept.throw (.native call r); k x) else k ⟨⟩).Reports := by
  split
  · intro s e t hr
    cases hr
    exact .native call r
  · exact h

theorem reports_forM {g : α → Action σ PUnit} (h : ∀ x, (g x).Reports) (xs : List α) :
    (xs.forM g).Reports := by
  induction xs with
  | nil => exact reports_pure _
  | cons x xs ih => exact (h x).bind fun _ => ih

theorem Reports.zoom (h : a.Reports) (get : τ → σ) (put : σ → τ → τ) :
    (a.zoom get put).Reports := by
  intro t e u hr
  unfold Action.zoom at hr
  cases ha : a (get t) with
  | ok x s =>
    simp only [ha] at hr
    exact absurd hr nofun
  | error x s =>
    simp only [ha] at hr
    cases hr
    exact h _ e s ha

end Action

namespace Reference

open ScopedTensor.Action State

variable {gpus : Nat}

theorem reporting_checkDevice (d : Device) : Reporting (checkDevice gpus d) := by
  cases d with
  | cpu => exact reporting_ok _
  | gpu n => exact .ite (reporting_native _ _) (reporting_ok _)

theorem reporting_entry (s : State) (h : Handle) : Reporting (s.entry h) := by
  unfold State.entry
  split
  · exact reporting_ok _
  · exact reporting_native _ _

theorem reporting_givenOutputs (s : State) (op : Operator) (outputs : List Handle)
    (inferred : List Signature) : Reporting (givenOutputs s op outputs inferred) := by
  refine .ite (Operator.reporting_fail _) (reporting_mapM (fun p => ?_) _)
  exact (reporting_entry s p.1).bind fun e => .ite (Operator.reporting_fail _) (reporting_ok _)

theorem reporting_outputsOf (s : State) (op : Operator) (entries : List Entry)
    (inferred : List Signature) (outputs : Option (List Handle)) (params : Params) :
    Reporting (outputsOf gpus s op entries inferred outputs params) := by
  cases outputs with
  | some given => exact (reporting_givenOutputs s op given inferred).bind fun _ => reporting_ok _
  | none => exact (reporting_checkDevice _).bind fun _ => reporting_ok _

theorem reporting_submit (s : State) (op : Operator) (inputs : List Handle)
    (outputs : Option (List Handle)) (params : Params) :
    Reporting (submit gpus s op inputs outputs params) :=
  (reporting_mapM (reporting_entry s) inputs).bind fun _ =>
    (Operator.reporting_infer _).bind fun _ =>
      (reporting_outputsOf s op _ _ outputs params).bind fun _ => reporting_ok _

theorem reporting_operatorOf (h : OpHandle) : Reporting (operatorOf h) := by
  unfold operatorOf
  split
  · exact reporting_ok _
  · exact reporting_native _ _

theorem reporting_seedOf (s : State) (head : Handle) (g : Option Handle) :
    Reporting (seedOf s head g) := by
  refine (reporting_entry s head).bind fun e => ?_
  cases g with
  | none => exact reporting_ok _
  | some g =>
    exact (reporting_entry s g).bind fun _ => .ite (reporting_native _ _) (reporting_ok _)

theorem reported_runAll (tasks : List Task) (m : Memory) :
    ∀ e, (runAll tasks m).2 = some e → e.Reported := by
  induction tasks generalizing m with
  | nil =>
    intro e he
    cases he
  | cons t tasks ih =>
    intro e he
    rcases ht : t.run m with _ | (x | m')
    · rw [runAll_cons_none ht] at he
      exact ih m e he
    · simp only [runAll, ht] at he
      rw [Task.run_eq_map] at ht
      obtain ⟨r, hr, hx⟩ := Option.map_eq_some_iff.1 ht
      obtain rfl := Option.some.inj he
      cases r with
      | ok results => cases hx
      | error x' => exact Operator.reporting_evaluate hr x (congrArg _ (Except.error.inj hx))
    · rw [runAll_cons ht] at he
      exact ih m' e he

theorem reports_drain : drain.Reports := by
  intro s e t hr
  unfold drain at hr
  cases hran : (runAll s.queue s.memory).2 with
  | none =>
    simp only [hran] at hr
    exact absurd hr nofun
  | some x =>
    simp only [hran] at hr
    cases hr
    exact reported_runAll s.queue s.memory e hran

theorem reports_entryOf (h : Handle) : (entryOf h).Reports :=
  reports_query fun s => reporting_entry s h

theorem reports_viewOf (h : Handle) : (viewOf h).Reports := (reports_entryOf h).map

theorem reports_derive (h : Handle) {f : View → Except Error View} (hf : ∀ v, Reporting (f v)) :
    (derive h f).Reports :=
  reports_transition fun s => (reporting_entry s h).bind fun _ =>
    (hf _).bind fun _ => reporting_ok _

theorem reports_free (h : Handle) : (free h).Reports := by
  intro s e t hr
  unfold free at hr
  cases hf : s.entries.get? h.id with
  | none =>
    simp only [hf] at hr
    cases hr
    exact .native _ _
  | some entry =>
    simp only [hf] at hr
    exact absurd hr nofun

theorem reports_markVariables (vars : List Handle) (requests : List GradRequest)
    (grads : List Handle) : (markVariables vars requests grads).Reports := by
  unfold markVariables
  split
  · exact reports_native _ _
  · refine reports_forM (fun p => reports_transition fun s => ?_) _
    exact (reporting_entry s _).bind fun _ => (reporting_entry s _).bind fun _ =>
      .ite (reporting_native _ _) (reporting_ok _)

theorem reports_backward (heads : List Handle) (headGradients : List (Option Handle))
    (retain : Bool) : (backward .asMarked heads headGradients retain).Reports := by
  have hseeds : ∀ s, Reporting (seedsOf s heads headGradients) := fun s =>
    reporting_mapM (fun p : Handle × Nat => reporting_seedOf s p.1 headGradients[p.2]?.join) _
  refine reports_drain.bind fun _ => (reports_query hseeds).bind fun seeds => ?_
  refine reports_get.bind fun s => (reports_modify _).bind fun _ => ?_
  exact reports_transition fun t => (reporting_backward _ _ _ _).bind fun _ => reporting_ok _

theorem reports_getGrad (h : Handle) : (getGrad h).Reports := by
  refine reports_transition fun s => (reporting_entry s h).bind fun e => ?_
  cases s.tape.marks.get? h.id <;> exact reporting_ok _

theorem reports_invoke [HalfPrecision] (h : OpHandle) (inputs : List Handle)
    (outputs : Option (List Handle)) (params : Params) :
    (invoke .deferred gpus h inputs outputs params).Reports := by
  refine Reports.bind (reports_transition fun s => ?_) fun hs => reports_pure hs
  exact (reporting_operatorOf h).bind fun op =>
    (reporting_submit s op inputs outputs params).bind fun _ => reporting_ok _

theorem reports_wait (h : Handle) : (wait h).Reports :=
  (reports_entryOf h).bind fun _ => (reports_modify _).bind fun _ => reports_drain

theorem reports_perform (c : Library.Call) : (c.perform (library gpus)).Reports := by
  cases c with
  | version => exact .map (reports_pure _)
  | gpuCount => exact .map (reports_pure _)
  | listOps => exact .map (reports_pure _)
  | getOp name =>
    refine .map (reports_ofExcept ?_)
    unfold getOp
    split
    · exact reporting_ok _
    · exact reporting_native _ _
  | create d s t st delayed =>
    exact .map (reports_transition fun _ => (reporting_checkDevice d).bind fun _ => reporting_ok _)
  | free h => exact .map (reports_free h)
  | shape h => exact .map (reports_viewOf h).map
  | type h => exact .map (reports_viewOf h).map
  | device h => exact .map (reports_entryOf h).map
  | storage h => exact .map (reports_entryOf h).map
  | copyIn h bytes length =>
    exact .map ((reports_viewOf h).bind fun _ => .guard (reports_drain.bind fun _ =>
      reports_modify _))
  | copyOut h room length =>
    exact .map ((reports_viewOf h).bind fun _ => .guard (reports_drain.bind fun _ =>
      reports_get.bind fun _ => reports_pure _))
  | waitToRead h => exact .map (reports_wait h)
  | waitToWrite h => exact .map (reports_wait h)
  | waitAll => exact .map ((reports_modify _).bind fun _ => reports_drain)
  | invoke h inputs outputs params => exact .map (reports_invoke h inputs outputs params)
  | row h index =>
    refine .map (reports_derive h fun v => ?_)
    unfold rowOf
    split
    · exact reporting_native _ _
    · exact .ite (reporting_native _ _) (reporting_ok _)
  | slice h first last =>
    refine .map (reports_derive h fun v => ?_)
    unfold sliceOf
    split
    · exact reporting_native _ _
    · exact .ite (reporting_native _ _) (reporting_ok _)
  | reshape h dims reverse =>
    refine .map (reports_derive h fun v => ?_)
    unfold reshapeOf
    split
    · exact reporting_native _ _
    · exact reporting_ok _
  | markVariables vars requests grads => exact .map (reports_markVariables vars requests grads)
  | backward heads grads retain training => exact .map (reports_backward heads grads retain)
  | getGrad h => exact .map (reports_getGrad h)
  | setRecording on => exact .map fun _ _ _ h => absurd h nofun
  | setTraining on => exact .map fun _ _ _ h => absurd h nofun
  | randomSeed seed => exact .map (reports_modify _)

end Reference

theorem Backends.reports_perform (c : Library.Call) (i gpus : Nat) :
    (c.perform (referenceLibrary i gpus)).Reports := by
  rw [referenceLibrary, Library.perform_zoom]
  exact (Reference.reports_perform c).zoom _ _

end ScopedTensor
