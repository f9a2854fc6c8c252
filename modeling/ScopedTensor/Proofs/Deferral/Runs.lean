import ScopedTensor.Element.Interchange
import ScopedTensor.Proofs.Deferral.Simulation

/-! Whole runs of the engine. Whatever calls are made, nobody but the queue itself can tell that
tasks wait: calls reply as if each task were run when it is handed in, and each task is run once, in
its turn, before a host copy or a backward pass looks at memory. -/

namespace ScopedTensor.Reference

open ScopedTensor.Action Binary State Library

section

variable {half : HalfPrecision}
variable {α β : Type}

/-- From `s` to `t` no task was run and no old buffer was written. -/
structure State.Idles (s t : State) : Prop where
  queue : t.queue = s.queue
  memory : ∃ fresh, t.memory = s.memory.grow fresh
  halted : t.halted = s.halted

theorem State.Idles.of_eq {s t : State} (hq : t.queue = s.queue) (hm : t.memory = s.memory)
    (hh : t.halted = s.halted) : s.Idles t := ⟨hq, ⟨[], hm.trans (Memory.grow_nil _).symm⟩, hh⟩

theorem State.Idles.refl (s : State) : s.Idles s := .of_eq rfl rfl rfl

theorem State.Idles.trans {s t u : State} (h : s.Idles t) (hu : t.Idles u) : s.Idles u := by
  obtain ⟨fresh, hfresh⟩ := h.memory
  obtain ⟨more, hmore⟩ := hu.memory
  refine ⟨hu.queue.trans h.queue, ⟨fresh ++ more, ?_⟩, hu.halted.trans h.halted⟩
  rw [hmore, hfresh, Memory.grow_grow]

theorem State.Takes.idles {s t : State} {task : Task} (h : s.Takes task t) : s.Idles t :=
  ⟨h.queue, h.memory, h.halted⟩

instance : Trans State.Idles State.Idles State.Idles := ⟨State.Idles.trans⟩

/-- An action that runs no task and writes no old buffer, wherever it starts. -/
abbrev Idle (a : Action State α) : Prop := Within State.Idles a

theorem idle_create (gpus : Nat) (device : Device) (shape : Shape) (type : ElementType)
    (storage : Storage) : Idle (create gpus device shape type storage) := by
  refine (create_does device shape type storage).within fun t x u hu => ?_
  obtain rfl := congrArg Prod.snd hu
  exact ⟨rfl, ⟨_, rfl⟩, rfl⟩

theorem idle_free (h : Handle) : Idle (free h) := by
  refine .of_after fun s => ?_
  obtain ⟨marks, hafter⟩ := after_free h s
  rw [hafter]
  exact .of_eq rfl rfl rfl

theorem idle_derive (h : Handle) (f : View → Except Error View) : Idle (derive h f) := by
  refine (derive_does h f).within fun t x u hu => ?_
  obtain ⟨e, w, -, -, hu⟩ := hu
  obtain rfl := congrArg Prod.snd hu
  exact .of_eq rfl rfl rfl

theorem idle_markOne (var : Handle) (request : GradRequest) (grad : Handle) :
    Idle (markOne var request grad) := by
  refine (markOne_does var request grad).within fun t x u hu => ?_
  obtain ⟨v, g, -, -, -, rfl⟩ := hu
  exact .of_eq rfl rfl rfl

theorem idle_markVariables (vars : List Handle) (requests : List GradRequest)
    (grads : List Handle) : Idle (markVariables vars requests grads) :=
  .ite (.throw _) (.forM (fun _ => idle_markOne _ _ _) _)

theorem idle_getGrad (h : Handle) : Idle (getGrad h) := by
  refine (getGrad_does h).within fun t x u hu => ?_
  rcases hu with ⟨e, -, ⟨-, rfl⟩ | ⟨m, -, hu⟩⟩
  · exact .refl _
  · obtain rfl := congrArg Prod.snd hu
    exact .of_eq rfl rfl rfl

theorem idle_setRecording (on : Bool) : Idle (setRecording on) :=
  .of_after fun _ => .of_eq rfl rfl rfl

theorem idle_setTraining (on : Bool) : Idle (setTraining on) :=
  .of_after fun _ => .of_eq rfl rfl rfl

/-- Calls that run the queue before they do anything else. -/
def drains : Call → Bool
  | .copyIn .. | .copyOut .. | .waitToRead .. | .waitToWrite .. | .waitAll | .backward .. => true
  | _ => false

theorem flushing_call (order : MarkOrder) (gpus : Nat) (c : Call) (hc : drains c = true) :
    Flushing (c.perform (engine .deferred order gpus)) := by
  cases c with
  | copyIn h bytes length => exact (flushing_copyIn h bytes length).map _
  | copyOut h room length => exact (flushing_copyOut h room length).map _
  | waitToRead h => exact (flushing_wait h).map _
  | waitToWrite h => exact (flushing_wait h).map _
  | waitAll => exact flushing_waitAll.map _
  | backward heads grads retain training =>
    exact (flushing_backward order heads grads retain).map _
  | _ => exact absurd hc nofun

theorem idle_call [HalfPrecision] (order : MarkOrder) (gpus : Nat) (c : Call)
    (hc : drains c = false)
    (hinvoke : ∀ h inputs outputs params, c ≠ .invoke h inputs outputs params) :
    Idle (c.perform (engine .deferred order gpus)) := by
  cases c with
  | invoke h inputs outputs params => exact absurd rfl (hinvoke h inputs outputs params)
  | copyIn | copyOut | waitToRead | waitToWrite | waitAll | backward => exact absurd hc nofun
  | version => exact .pure _
  | gpuCount => exact .pure _
  | listOps => exact .pure _
  | getOp name => exact .map _ (.ofExcept _)
  | create d s t st delayed => exact .map _ (idle_create gpus d s t st)
  | free h => exact .map _ (idle_free h)
  | shape h => exact .map _ (.map _ (.map _ (.query _)))
  | type h => exact .map _ (.map _ (.map _ (.query _)))
  | device h => exact .map _ (.map _ (.query _))
  | storage h => exact .map _ (.map _ (.query _))
  | row h index => exact .map _ (idle_derive h _)
  | slice h first last => exact .map _ (idle_derive h _)
  | reshape h dims reverse => exact .map _ (idle_derive h _)
  | markVariables vars requests grads => exact .map _ (idle_markVariables vars requests grads)
  | getGrad h => exact .map _ (idle_getGrad h)
  | setRecording on => exact .map _ (idle_setRecording on)
  | setTraining on => exact .map _ (idle_setTraining on)
  | randomSeed seed => exact .map _ (.modify fun _ => .of_eq rfl rfl rfl)

def accepted (gpus : Nat) (s : State) : Call → List Task
  | .invoke h inputs outputs params =>
    match handIn gpus h inputs outputs params s with
    | .ok (_, task, _) => [task]
    | .error _ => []
  | _ => []

/-- The tasks that are no longer in the queue after a call. -/
def executed [HalfPrecision] (mode : Execution) (order : MarkOrder) (gpus : Nat) (s : State)
    (c : Call) : List Task :=
  let waiting := s.queue ++ accepted gpus s c
  waiting.take (waiting.length - (c.step (engine mode order gpus) s).queue.length)

def touches : Call → Bool
  | .copyIn .. | .copyOut .. | .backward .. => true
  | _ => false

variable (order : MarkOrder) (gpus : Nat) (s : State) (c : Call)

/-- A call that leaves the waiting tasks and every buffer as they are. A host copy that does so is
refused. -/
structure Waits [HalfPrecision] : Prop where
  executed : executed .deferred order gpus s c = []
  queue : (c.step (engine .deferred order gpus) s).queue = s.queue ++ accepted gpus s c
  memory : ∃ fresh,
    (c.step (engine .deferred order gpus) s).memory.buffers = s.memory.buffers ++ fresh
  halted : (c.step (engine .deferred order gpus) s).halted = s.halted
  untouched : touches c = true →
    ∃ e, c.perform (engine .deferred order gpus) s = .error e s

/-- A call that first runs the queue in its order, none of its tasks failing, and then does what it
would do had nothing waited. -/
structure Flushes [HalfPrecision] : Prop where
  accepted : accepted gpus s c = []
  executed : executed .deferred order gpus s c = s.queue
  queue : (c.step (engine .deferred order gpus) s).queue = []
  runs : State.runAll s.queue s.memory = (s.drained.memory, none)
  halted : (c.step (engine .deferred order gpus) s).halted = s.drained.halted
  same : c.perform (engine .deferred order gpus) s = c.perform (engine .deferred order gpus) s.drained

variable {order gpus s c}

theorem executed_of_queue {mode : Execution}
    (h : (c.step (engine mode order gpus) s).queue = s.queue ++ accepted gpus s c) :
    executed mode order gpus s c = [] := by
  unfold executed
  simp only [h, Nat.sub_self, List.take_zero]

theorem executed_of_empty {mode : Execution} (h : (c.step (engine mode order gpus) s).queue = []) :
    executed mode order gpus s c = s.queue ++ accepted gpus s c := by
  unfold executed
  rw [h]
  exact List.take_length

/-- No task is lost and none is run before its turn. -/
theorem executed_append (h : Waits order gpus s c ∨ Flushes order gpus s c) :
    executed .deferred order gpus s c ++ (c.step (engine .deferred order gpus) s).queue =
      s.queue ++ accepted gpus s c := by
  rcases h with h | h
  · rw [h.executed, h.queue]
    rfl
  · rw [h.executed, h.queue, h.accepted]

theorem Waits.of_idle {c : Call} (ha : accepted gpus s c = []) (ht : touches c = false)
    (h : Idle (c.perform (engine .deferred order gpus))) : Waits order gpus s c := by
  have hidles := h.after (.refl s)
  have hqueue : (c.step (engine .deferred order gpus) s).queue = s.queue ++ accepted gpus s c := by
    rw [ha, List.append_nil]
    exact hidles.queue
  obtain ⟨fresh, hfresh⟩ := hidles.memory
  exact ⟨executed_of_queue hqueue, hqueue, ⟨fresh, congrArg Memory.buffers hfresh⟩,
    hidles.halted, fun h => absurd (ht.symm.trans h) nofun⟩

theorem waits_or_flushes_of_flushing (hs : s.Orderly) (ha : accepted gpus s c = [])
    (h : Flushing (c.perform (engine .deferred order gpus))) :
    Waits order gpus s c ∨ Flushes order gpus s c := by
  rcases h s hs with ⟨e, he, -⟩ | ⟨hsame, hflushed⟩
  · have hstep : c.step (engine .deferred order gpus) s = s := by
      unfold Call.step after
      rw [he]
    have hqueue : (c.step (engine .deferred order gpus) s).queue = s.queue ++ accepted gpus s c := by
      rw [hstep, ha, List.append_nil]
    refine .inl ⟨executed_of_queue hqueue, hqueue, ⟨[], ?_⟩, congrArg State.halted hstep,
      fun _ => ⟨e, he⟩⟩
    rw [hstep, List.append_nil]
  · have hempty := hflushed.settled.empty
    refine .inr ⟨ha, ?_, hempty, (hs.runs []).run, hflushed.halted, hsame⟩
    rw [executed_of_empty hempty, ha, List.append_nil]

section Invocation

variable {h : OpHandle} {inputs : List Handle} {outputs : Option (List Handle)} {params : Params}

theorem accepted_of_error {e : Error} (hin : handIn gpus h inputs outputs params s = .error e) :
    accepted gpus s (.invoke h inputs outputs params) = [] := by
  simp only [accepted, hin]

theorem accepted_of_ok {hs : List Handle} {task : Task} {t : State}
    (hin : handIn gpus h inputs outputs params s = .ok (hs, task, t)) :
    accepted gpus s (.invoke h inputs outputs params) = [task] := by
  simp only [accepted, hin]

theorem waits_invoke (ho : s.Orderly) : Waits order gpus s (.invoke h inputs outputs params) := by
  have hstep : (Call.invoke h inputs outputs params).step (engine .deferred order gpus) s = _ :=
    step_invoke
  unfold after Action.transition accept at hstep
  cases hin : handIn gpus h inputs outputs params s with
  | error e =>
    rw [hin] at hstep
    replace hstep : (Call.invoke h inputs outputs params).step (engine .deferred order gpus) s = s :=
      hstep
    have hqueue : (Call.step (engine .deferred order gpus) (.invoke h inputs outputs params)
        s).queue = s.queue ++ accepted gpus s (.invoke h inputs outputs params) := by
      rw [hstep, accepted_of_error hin, List.append_nil]
    refine ⟨executed_of_queue hqueue, hqueue, ⟨[], ?_⟩, congrArg State.halted hstep, nofun⟩
    rw [hstep, List.append_nil]
  | ok r =>
    obtain ⟨hs, task, u⟩ := r
    have htakes := ho.handIn_ok hin
    rw [hin] at hstep
    replace hstep : (Call.invoke h inputs outputs params).step (engine .deferred order gpus) s =
      u.enqueue task := hstep
    have hqueue : (Call.step (engine .deferred order gpus) (.invoke h inputs outputs params)
        s).queue = s.queue ++ accepted gpus s (.invoke h inputs outputs params) := by
      rw [hstep, accepted_of_ok hin, ← htakes.queue]
      rfl
    obtain ⟨fresh, hfresh⟩ := htakes.memory
    refine ⟨executed_of_queue hqueue, hqueue, ⟨fresh, ?_⟩, ?_, nofun⟩
    · rw [hstep]
      exact congrArg Memory.buffers hfresh
    · rw [hstep]
      exact htakes.halted

end Invocation

theorem accepted_of_not_invoke
    (h : ∀ op inputs outputs params, c ≠ .invoke op inputs outputs params) :
    accepted gpus s c = [] := by
  cases c with
  | invoke op inputs outputs params => exact absurd rfl (h op inputs outputs params)
  | _ => rfl

theorem waits_of_not_drains (hs : s.Orderly) {c : Call} (hc : drains c = false) :
    Waits order gpus s c := by
  by_cases hinvoke : ∃ h inputs outputs params, c = .invoke h inputs outputs params
  · obtain ⟨h, inputs, outputs, params, rfl⟩ := hinvoke
    exact waits_invoke hs
  · have hinvoke : ∀ h inputs outputs params, c ≠ .invoke h inputs outputs params :=
      fun h inputs outputs params hcall => hinvoke ⟨h, inputs, outputs, params, hcall⟩
    have ht : touches c = false := by
      cases c with
      | copyIn | copyOut | backward => exact absurd hc nofun
      | _ => rfl
    exact .of_idle (accepted_of_not_invoke hinvoke) ht (idle_call order gpus c hc hinvoke)

theorem waits_or_flushes (hs : s.Orderly) (c : Call) :
    Waits order gpus s c ∨ Flushes order gpus s c := by
  cases hc : drains c with
  | false => exact .inl (waits_of_not_drains hs hc)
  | true =>
    have hinvoke : ∀ h inputs outputs params, c ≠ .invoke h inputs outputs params :=
      fun h inputs outputs params hcall => absurd (hcall ▸ hc) nofun
    exact waits_or_flushes_of_flushing hs (accepted_of_not_invoke hinvoke)
      (flushing_call order gpus c hc)

theorem orderly_step (hs : s.Orderly) (c : Call) :
    (c.step (engine .deferred order gpus) s).Orderly := (defers_call gpus order c).keeps.after hs

theorem orderly_run {cs : List Call} :
    ∀ {s : State}, s.Orderly → (Call.run (library gpus) cs s).Orderly := by
  induction cs with
  | nil => intro s hs; exact hs
  | cons c cs ih => intro s hs; exact ih (orderly_step hs c)

theorem step_drained (hs : s.Orderly) (c : Call) :
    c.step (engine .immediate order gpus) s.drained =
      (c.step (engine .deferred order gpus) s).drained := by
  unfold Call.step after
  rw [(defers_call gpus order c).agrees s hs]
  cases c.perform (engine .deferred order gpus) s <;> rfl

theorem reply_drained (hs : s.Orderly) (c : Call) :
    c.reply (engine .immediate order gpus) s.drained =
      c.reply (engine .deferred order gpus) s := by
  unfold Call.reply
  rw [(defers_call gpus order c).agrees s hs]
  cases c.perform (engine .deferred order gpus) s <;> rfl

theorem accepted_drained (hs : s.Orderly) (c : Call) :
    accepted gpus s.drained c = accepted gpus s c := by
  cases c with
  | invoke h inputs outputs params =>
    simp only [accepted, hs.handIn_drained]
    cases handIn gpus h inputs outputs params s <;> rfl
  | _ => rfl

theorem executed_drained (hs : s.Orderly) (c : Call) :
    executed .immediate order gpus s.drained c = accepted gpus s c := by
  rw [executed_of_empty, accepted_drained hs]
  · rfl
  · rw [step_drained hs]
    rfl

/-- A task breaks off on what it reads, whatever was allocated when it was handed in. -/
theorem breaksOff_accepted_grow (hs : s.Orderly) (c : Call) (fresh : List Values) :
    breaksOff (accepted gpus s c) (s.drained.memory.grow fresh) =
      breaksOff (accepted gpus s c) s.drained.memory := by
  cases c with
  | invoke h inputs outputs params =>
    cases hin : handIn gpus h inputs outputs params s with
    | error e =>
      rw [accepted_of_error hin]
      rfl
    | ok r =>
      obtain ⟨handles, task, t⟩ := r
      have hinputs := (hs.handIn_ok hin).inputs
      rw [← hs.length_drained] at hinputs
      rw [accepted_of_ok hin, breaksOff_singleton, breaksOff_singleton,
        task.operands_grow hinputs]
  | _ => rfl

theorem halted_step (hs : s.Orderly) (c : Call) :
    (c.step (engine .immediate order gpus) s.drained).halted =
      (s.drained.halted || breaksOff (accepted gpus s c) s.drained.memory) := by
  have hcases : Waits order gpus s c ∨ Flushes order gpus s c := waits_or_flushes hs c
  rw [step_drained hs]
  change (_ || breaksOff (c.step _ s).queue (c.step _ s).memory) = _
  rcases hcases with h | h
  · obtain ⟨fresh, hfresh⟩ := h.memory
    have hmemory : (c.step (engine .deferred order gpus) s).memory = s.memory.grow fresh :=
      congrArg Memory.mk hfresh
    have hruns := hs.runs fresh
    rw [h.halted, h.queue, hmemory, (runAll_append hruns.grown _).2, hruns.breaksOff,
      breaksOff_accepted_grow hs, ← Bool.or_assoc]
    rfl
  · rw [h.halted, h.queue, h.accepted]
    rfl

/-- A call, with the order in which the pass it may make comes to the marks. -/
structure Turn where
  order : MarkOrder
  call : Call

namespace Turn

variable (mode : Execution) (gpus : Nat)

def step [HalfPrecision] (t : Turn) (s : State) : State := t.call.step (engine mode t.order gpus) s

/-- What a call comes back with. Where a task breaks off it does not come back, nor does any call
from then on. -/
def answer [HalfPrecision] (t : Turn) (s : State) : Option (Except Error Answer) :=
  if (t.step mode gpus s).halted then none
  else some (t.call.reply (engine mode t.order gpus) s)

def trace [HalfPrecision] : List Turn → State → List (Turn × State)
  | [], _ => []
  | t :: ts, s => (t, s) :: trace ts (t.step mode gpus s)

def run [HalfPrecision] (ts : List Turn) (s : State) : State :=
  ts.foldl (fun s t => t.step mode gpus s) s

def answers [HalfPrecision] (ts : List Turn) (s : State) : List (Option (Except Error Answer)) :=
  (trace mode gpus ts s).map fun p => p.1.answer mode gpus p.2

def acceptedBy [HalfPrecision] (ts : List Turn) (s : State) : List Task :=
  (trace mode gpus ts s).flatMap fun p => accepted gpus p.2 p.1.call

def executedBy [HalfPrecision] (ts : List Turn) (s : State) : List Task :=
  (trace mode gpus ts s).flatMap fun p => executed mode p.1.order gpus p.2 p.1.call

variable {gpus} {ts : List Turn}

theorem orderly_trace :
    ∀ {s : State}, s.Orderly → ∀ p ∈ trace .deferred gpus ts s, p.2.Orderly := by
  induction ts with
  | nil => intro s _ p hp; exact absurd hp List.not_mem_nil
  | cons t ts ih =>
    intro s hs p hp
    rcases List.mem_cons.1 hp with rfl | hp
    · exact hs
    · exact ih (orderly_step hs t.call) p hp

theorem trace_drained :
    ∀ {s : State}, s.Orderly → trace .immediate gpus ts s.drained =
      (trace .deferred gpus ts s).map fun p => (p.1, p.2.drained) := by
  induction ts with
  | nil => intro s _; rfl
  | cons t ts ih =>
    intro s hs
    have hnext : (t.step .deferred gpus s).Orderly := orderly_step hs t.call
    simp only [trace, List.map_cons, ← ih hnext]
    exact congrArg _ (congrArg _ (step_drained hs t.call))

theorem run_drained :
    ∀ {s : State}, s.Orderly → run .immediate gpus ts s.drained =
      (run .deferred gpus ts s).drained := by
  induction ts with
  | nil => intro s _; rfl
  | cons t ts ih =>
    intro s hs
    have hnext : (t.step .deferred gpus s).Orderly := orderly_step hs t.call
    have hrest := ih hnext
    rw [show (t.step .deferred gpus s).drained = _ from (step_drained hs t.call).symm] at hrest
    exact hrest

/-- The engine that lets tasks wait breaks off no sooner than the one that runs them at once. -/
theorem answer_drained (hs : s.Orderly) (t : Turn) :
    t.answer .immediate gpus s.drained = none ∨
      t.answer .deferred gpus s = t.answer .immediate gpus s.drained := by
  have hstep : t.step .immediate gpus s.drained = (t.step .deferred gpus s).drained :=
    step_drained hs t.call
  unfold answer
  rw [reply_drained hs, hstep]
  cases hhalted : (t.step .deferred gpus s).drained.halted with
  | true => exact .inl rfl
  | false =>
    have hfirst : (t.step .deferred gpus s).halted = false := (Bool.or_eq_false_iff.1 hhalted).1
    rw [hfirst]
    exact .inr rfl

theorem answers_drained (hs : s.Orderly) :
    List.Forall₂ (fun now later => now = none ∨ later = now)
      (answers .immediate gpus ts s.drained) (answers .deferred gpus ts s) := by
  unfold answers
  rw [trace_drained hs, List.map_map, List.forall₂_map_left_iff, List.forall₂_map_right_iff,
    List.forall₂_same]
  exact fun p hp => answer_drained (orderly_trace hs p hp) p.1

theorem acceptedBy_drained (hs : s.Orderly) :
    acceptedBy .immediate gpus ts s.drained = acceptedBy .deferred gpus ts s := by
  unfold acceptedBy
  rw [trace_drained hs, List.flatMap_map]
  exact List.flatMap_congr fun p hp => accepted_drained (orderly_trace hs p hp) p.1.call

theorem executedBy_drained (hs : s.Orderly) :
    executedBy .immediate gpus ts s.drained = acceptedBy .deferred gpus ts s := by
  unfold executedBy acceptedBy
  rw [trace_drained hs, List.flatMap_map]
  exact List.flatMap_congr fun p hp => executed_drained (orderly_trace hs p hp) p.1.call

theorem executedBy_append :
    ∀ {s : State}, s.Orderly →
      executedBy .deferred gpus ts s ++ (run .deferred gpus ts s).queue =
        s.queue ++ acceptedBy .deferred gpus ts s := by
  induction ts with
  | nil => intro s _; exact (List.append_nil _).symm
  | cons t ts ih =>
    intro s hs
    have hcases : Waits t.order gpus s t.call ∨ Flushes t.order gpus s t.call :=
      waits_or_flushes hs t.call
    have hstep : _ ++ (t.step .deferred gpus s).queue = _ := executed_append hcases
    have hnext : (t.step .deferred gpus s).Orderly := orderly_step hs t.call
    calc executedBy .deferred gpus (t :: ts) s ++ (run .deferred gpus (t :: ts) s).queue
        = executed .deferred t.order gpus s t.call ++
            (executedBy .deferred gpus ts (t.step .deferred gpus s) ++
              (run .deferred gpus ts (t.step .deferred gpus s)).queue) := by
          rw [← List.append_assoc]
          rfl
      _ = executed .deferred t.order gpus s t.call ++ ((t.step .deferred gpus s).queue ++
            acceptedBy .deferred gpus ts (t.step .deferred gpus s)) := by rw [ih hnext]
      _ = s.queue ++ (accepted gpus s t.call ++
            acceptedBy .deferred gpus ts (t.step .deferred gpus s)) := by
          rw [← List.append_assoc, hstep, List.append_assoc]

end Turn

/-- Whatever calls are made of the engine, and in whatever orders its passes come to the marks, the
calls reply as those of an engine that runs every operator within the call that hands it in, as long
as no operator breaks off: then that call does not come back, while the engine that lets the task
wait goes on until its queue is run. Both end in the same state but for what still waits. Each
accepted operator is run once, in its turn; calls either let the tasks wait and stay off the
buffers, or run all of them first, without a failure. -/
theorem deferral_unobservable [HalfPrecision] (gpus : Nat) (ts : List Turn) :
    List.Forall₂ (fun now later => now = none ∨ later = now)
        (Turn.answers .immediate gpus ts .initial) (Turn.answers .deferred gpus ts .initial) ∧
      Turn.run .immediate gpus ts .initial = (Turn.run .deferred gpus ts .initial).drained ∧
      Turn.acceptedBy .immediate gpus ts .initial = Turn.acceptedBy .deferred gpus ts .initial ∧
      Turn.executedBy .immediate gpus ts .initial = Turn.acceptedBy .deferred gpus ts .initial ∧
      Turn.executedBy .deferred gpus ts .initial ++ (Turn.run .deferred gpus ts .initial).queue =
        Turn.acceptedBy .deferred gpus ts .initial ∧
      (∀ p ∈ Turn.trace .deferred gpus ts .initial,
        (Waits p.1.order gpus p.2 p.1.call ∨ Flushes p.1.order gpus p.2 p.1.call) ∧
          p.2.drain = .ok () p.2.drained) ∧
      ∀ p ∈ Turn.trace .immediate gpus ts .initial,
        (p.1.step .immediate gpus p.2).halted =
          (p.2.halted || breaksOff (accepted gpus p.2 p.1.call) p.2.memory) := by
  have horderly : ∀ p ∈ Turn.trace .deferred gpus ts .initial, p.2.Orderly :=
    Turn.orderly_trace orderly_initial
  refine ⟨Turn.answers_drained orderly_initial, Turn.run_drained orderly_initial,
    Turn.acceptedBy_drained orderly_initial, Turn.executedBy_drained orderly_initial,
    Turn.executedBy_append orderly_initial, fun p hp => ?_, fun p hp => ?_⟩
  · exact ⟨waits_or_flushes (horderly p hp) p.1.call, (horderly p hp).drain_eq⟩
  · rw [show Turn.trace .immediate gpus ts .initial = _ from
      Turn.trace_drained orderly_initial] at hp
    obtain ⟨q, hq, rfl⟩ := List.mem_map.1 hp
    simp only [accepted_drained (horderly q hq)]
    exact halted_step (horderly q hq) q.1.call

end

open Interchange

/-- Twenty-one elements are to be sorted, one of them no number. The engine that runs tasks at once
breaks off when it is asked to, the other one answers. -/
theorem sorting_at_once_breaks_off :
    let xs := ((List.range 21).map fun k => Binary64.ofNat (k * 8 % 21)).set 5 .quietNaN
    let ts : List Turn := [⟨.asMarked, .create .cpu ⟨[21]⟩ .f64 .dense false⟩,
      ⟨.asMarked, .copyIn ⟨1⟩ (ElementType.f64.encode xs) 21⟩,
      ⟨.asMarked, .invoke ⟨Operator.argsort.number⟩ [⟨1⟩] none .empty⟩]
    (Turn.answers .deferred 0 ts .initial).map Option.isSome = [true, true, true] ∧
      (Turn.answers .immediate 0 ts .initial).map Option.isSome = [true, true, false] := by
  decide +kernel

end ScopedTensor.Reference
