import ScopedTensor.Element.Interchange
import ScopedTensor.Proofs.Adjoint.Recording
import ScopedTensor.Proofs.Deferral.Runs

/-! What is on the tape of the engine. An operator goes on it if it is accepted while recording is
on; what was recorded is dropped as a whole, at the end of a recording section or by a backward pass
that is not told to keep it. -/

namespace ScopedTensor

/-- What is recorded of an operator: which it was, its parameters, and the arrays it was given and
answered with. -/
structure Node.Describes (n : Node) (h : OpHandle) (inputs : List Handle) (params : Params)
    (outputs : List Handle) : Prop where
  op : n.op.number = h.id
  params : n.params = params
  inputs : n.inputs.map Tracked.id = inputs.map Handle.id
  outputs : n.outputs.map Tracked.id = outputs.map Handle.id

theorem Operator.number_of_ofNumber? {k : Nat} {op : Operator} (h : ofNumber? k = some op) :
    op.number = k := by
  have hnodup : all.Nodup := by decide
  cases k with
  | zero => exact absurd h nofun
  | succ n =>
    obtain ⟨hn, rfl⟩ := List.getElem?_eq_some_iff.1 h
    exact congrArg (· + 1) (hnodup.idxOf_getElem n hn)

namespace Reference

open ScopedTensor.Action State Library

section

variable {half : HalfPrecision}
variable {α : Type} {gpus : Nat} {s t u : State}

/-- From `s` to `t` nothing was recorded, nothing dropped, and recording was not switched. -/
structure State.Steady (s t : State) : Prop where
  nodes : t.tape.nodes = s.tape.nodes
  recording : t.tape.recording = s.tape.recording

theorem State.Steady.of_eq (h : t.tape = s.tape) : s.Steady t := ⟨by rw [h], by rw [h]⟩

theorem State.Steady.refl (s : State) : s.Steady s := .of_eq rfl

theorem State.Steady.trans (h : s.Steady t) (hu : t.Steady u) : s.Steady u :=
  ⟨hu.nodes.trans h.nodes, hu.recording.trans h.recording⟩

instance : Trans State.Steady State.Steady State.Steady := ⟨State.Steady.trans⟩

/-- An action that leaves what is recorded, and whether anything is. -/
abbrev Steadies (a : Action State α) : Prop := Within State.Steady a

theorem steadies_create (device : Device) (shape : Shape) (type : ElementType)
    (storage : Storage) : Steadies (create gpus device shape type storage) := by
  refine (create_does device shape type storage).within fun t x u hu => ?_
  obtain rfl := congrArg Prod.snd hu
  exact .of_eq rfl

theorem steadies_free (h : Handle) : Steadies (free h) := by
  refine .of_after fun s => ?_
  obtain ⟨marks, hafter⟩ := after_free h s
  rw [hafter]
  exact ⟨rfl, rfl⟩

theorem steadies_drain : Steadies drain := by
  refine .of_after fun s => ?_
  rw [after_drain]
  exact .of_eq rfl

theorem steadies_viewOf (h : Handle) : Steadies (viewOf h) := .map _ (.query _)

theorem steadies_derive (h : Handle) (f : View → Except Error View) : Steadies (derive h f) := by
  refine (derive_does h f).within fun t x u hu => ?_
  obtain ⟨e, w, -, -, hu⟩ := hu
  obtain rfl := congrArg Prod.snd hu
  exact .of_eq rfl

theorem steadies_copyIn (h : Handle) (bytes : Bytes) (length : Nat) :
    Steadies (copyIn h bytes length) :=
  (steadies_viewOf h).bind fun _ => .guard <| steadies_drain.bind fun _ =>
    .modify fun _ => .of_eq rfl

theorem steadies_copyOut (h : Handle) (room length : Nat) : Steadies (copyOut h room length) :=
  (steadies_viewOf h).bind fun _ => .guard <| steadies_drain.bind fun _ =>
    Within.get.bind fun _ => .pure _

theorem steadies_wait (h : Handle) : Steadies (wait h) :=
  Within.bind (.query _) fun _ => .bind (.modify fun _ => .of_eq rfl) fun _ => steadies_drain

theorem steadies_waitAll : Steadies waitAll :=
  .bind (.modify fun _ => .of_eq rfl) fun _ => steadies_drain

theorem steadies_markVariables (vars : List Handle) (requests : List GradRequest)
    (grads : List Handle) : Steadies (markVariables vars requests grads) := by
  refine .ite (.throw _) (.forM (fun ⟨var, request, grad⟩ => ?_) _)
  refine (markOne_does var request grad).within fun t x u hu => ?_
  obtain ⟨v, g, -, -, -, rfl⟩ := hu
  exact ⟨rfl, rfl⟩

theorem steadies_getGrad (h : Handle) : Steadies (getGrad h) := by
  refine (getGrad_does h).within fun t x u hu => ?_
  rcases hu with ⟨e, -, ⟨-, rfl⟩ | ⟨m, -, hu⟩⟩
  · exact .refl _
  · obtain rfl := congrArg Prod.snd hu
    exact .of_eq rfl

def records : Call → Bool
  | .invoke .. | .backward .. | .setRecording .. => true
  | _ => false

theorem steadies_call [HalfPrecision] (gpus : Nat) {c : Call} (hc : records c = false) :
    Steadies (c.perform (library gpus)) := by
  cases c with
  | invoke | backward | setRecording => exact absurd hc nofun
  | version => exact .pure _
  | gpuCount => exact .pure _
  | listOps => exact .pure _
  | getOp name => exact .map _ (.ofExcept _)
  | create d s t st delayed => exact .map _ (steadies_create d s t st)
  | free h => exact .map _ (steadies_free h)
  | shape h => exact .map _ (.map _ (steadies_viewOf h))
  | type h => exact .map _ (.map _ (steadies_viewOf h))
  | device h => exact .map _ (.map _ (.query _))
  | storage h => exact .map _ (.map _ (.query _))
  | copyIn h bytes length => exact .map _ (steadies_copyIn h bytes length)
  | copyOut h room length => exact .map _ (steadies_copyOut h room length)
  | waitToRead h => exact .map _ (steadies_wait h)
  | waitToWrite h => exact .map _ (steadies_wait h)
  | waitAll => exact .map _ steadies_waitAll
  | row h index => exact .map _ (steadies_derive h _)
  | slice h first last => exact .map _ (steadies_derive h _)
  | reshape h dims reverse => exact .map _ (steadies_derive h _)
  | markVariables vars requests grads => exact .map _ (steadies_markVariables vars requests grads)
  | getGrad h => exact .map _ (steadies_getGrad h)
  | setTraining on => exact .map _ (.of_after fun _ => ⟨rfl, rfl⟩)
  | randomSeed seed => exact .map _ (.modify fun _ => .of_eq rfl)

variable {h : OpHandle} {inputs hs : List Handle} {outputs : Option (List Handle)}
variable {params : Params} {task : Task}

theorem map_id_nodeOf {entries : List Entry} (hlength : inputs.length = entries.length)
    (op : Operator) (outs : List (Handle × View)) :
    (nodeOf op params inputs entries outs).inputs.map Tracked.id = inputs.map Handle.id := by
  have hle : inputs.length ≤ (entries.map Entry.view).length :=
    Nat.le_of_eq (by rw [List.length_map, hlength])
  have hfst := congrArg (List.map Handle.id) (List.map_fst_zip hle)
  rw [List.map_map] at hfst
  unfold nodeOf
  rw [List.map_map]
  exact hfst

theorem operatorOf_ok {op : Operator} (hop : operatorOf h = .ok op) : op.number = h.id := by
  unfold operatorOf at hop
  cases hnumber : Operator.ofNumber? h.id with
  | none =>
    rw [hnumber] at hop
    exact absurd hop nofun
  | some op' =>
    rw [hnumber] at hop
    cases hop
    exact Operator.number_of_ofNumber? hnumber

theorem tape_handIn (hin : handIn gpus h inputs outputs params s = .ok (hs, task, t)) :
    ∃ n, n.Describes h inputs params hs ∧ t.tape = s.tape.record n := by
  obtain ⟨op, hop, hsubmit⟩ := bind_eq_ok.1 hin
  obtain ⟨entries, inferred, outs, u, hentries, -, houts, rfl, -, rfl⟩ := submit_eq_ok hsubmit
  obtain ⟨-, htape, -⟩ := outputsOf_numbers houts
  refine ⟨nodeOf op params inputs entries outs, ?_, congrArg (Tape.record · _) htape⟩
  refine ⟨operatorOf_ok hop, rfl, map_id_nodeOf (length_of_mapM_eq_ok hentries) op outs, ?_⟩
  unfold nodeOf
  rw [List.map_map, List.map_map]
  rfl

theorem Tape.record_of_recording {τ : Tape} (hon : τ.recording = true) (n : Node) :
    (τ.record n).nodes = τ.nodes ++ [n] := by
  unfold Tape.record
  rw [if_pos hon]

theorem Tape.record_of_idle {τ : Tape} (hoff : τ.recording = false) (n : Node) :
    τ.record n = τ := by
  unfold Tape.record
  rw [hoff]
  rfl

theorem Tape.recording_record {τ : Tape} (n : Node) : (τ.record n).recording = τ.recording := by
  unfold Tape.record
  split <;> rfl

theorem Tape.recording_afterPass {τ : Tape} (retain : Bool) :
    (τ.afterPass retain).recording = τ.recording := by
  cases retain <;> rfl

/-- A backward pass begins when its heads and head gradients are found fit. It then drops what was
recorded or keeps it, as it is told, whether or not it comes to its end. -/
theorem tape_backward (ho : s.Orderly) (heads : List Handle) (headGradients : List (Option Handle))
    (retain : Bool) :
    ((backward .asMarked heads headGradients retain).after s).tape =
      if (seedsOf s.drained heads headGradients).isOk then s.tape.afterPass retain else s.tape := by
  refine Meets.after (F := fun t => t.tape = _) (Meets.bind (Q := fun _ => (· = s.drained))
    (.of_eq ho.drain_eq rfl) fun _ => ?_) rfl
  cases hseeds : seedsOf s.drained heads headGradients with
  | error e =>
    exact Meets.bind (Q := fun _ _ => False) (.of_eq_error (query_error hseeds) rfl)
      fun _ _ h => h.elim
  | ok seeds =>
    refine Meets.bind (Q := fun _ => (· = s.drained)) (.of_eq (query_ok.2 ⟨hseeds, rfl⟩) rfl)
      fun _ => .get_bind fun _ hu => .modify_bind (I := fun t => t.tape = s.tape.afterPass retain)
        (fun _ ht => by rw [ht, hu]; rfl) ?_
    refine .transition (fun t ht x u hu => ?_) fun _ ht => ht
    obtain ⟨m, -, hu⟩ := bind_eq_ok.1 hu
    obtain rfl := congrArg Prod.snd (pure_eq_ok.1 hu)
    exact ht

/-- A call that drops what was recorded: it leaves a recording section, or it begins a backward pass
that is not to keep it. -/
inductive State.Drops [HalfPrecision] (s : State) : Call → Prop
  | leave (hon : s.tape.recording = true) : Drops s (.setRecording false)
  | pass {heads : List Handle} {headGradients : List (Option Handle)} {seeds : List (Nat × Values)}
    (training : Bool) (hseeds : seedsOf s.drained heads headGradients = .ok seeds) :
    Drops s (.backward heads headGradients false training)

/-- A call that hands in an operator, while recording is on, and is accepted. -/
inductive State.Adds [HalfPrecision] (gpus : Nat) (s : State) : Call → Prop
  | accept {h : OpHandle} {inputs : List Handle} {outputs : Option (List Handle)} {params : Params}
    {hs : List Handle} (hon : s.tape.recording = true)
    (hr : (Call.invoke h inputs outputs params).reply (library gpus) s = .ok (.handles hs)) :
    Adds gpus s (.invoke h inputs outputs params)

def recordsAfter (before : Bool) : Call → Bool
  | .setRecording on => on
  | _ => before

/-- What a call makes of the tape. -/
structure TapeStep [HalfPrecision] (gpus : Nat) (s : State) (c : Call) : Prop where
  switches : (c.step (library gpus) s).tape.recording = recordsAfter s.tape.recording c
  adds : ∀ h inputs outputs params hs, c = .invoke h inputs outputs params →
    s.tape.recording = true → c.reply (library gpus) s = .ok (.handles hs) →
    ∃ n : Node, n.Describes h inputs params hs ∧
      (c.step (library gpus) s).tape.nodes = s.tape.nodes ++ [n]
  drops : s.Drops c → (c.step (library gpus) s).tape.nodes = []
  keeps : ¬ s.Adds gpus c → ¬ s.Drops c → (c.step (library gpus) s).tape.nodes = s.tape.nodes

theorem tapeStep_invoke (s : State) (h : OpHandle) (inputs : List Handle)
    (outputs : Option (List Handle)) (params : Params) :
    TapeStep gpus s (.invoke h inputs outputs params) := by
  have hcall : (Call.invoke h inputs outputs params).perform (library gpus) =
      Answer.handles <$> invoke .deferred gpus h inputs outputs params := rfl
  rcases invoke_does.answers hcall s with ⟨e, he, hstep⟩ | ⟨hs, t, hr, hstep, task, u, hin, rfl⟩
  · refine ⟨by rw [hstep]; rfl, fun _ _ _ _ hs _ _ hr => ?_, nofun, fun _ _ => by rw [hstep]⟩
    exact absurd (he.symm.trans hr) nofun
  · obtain ⟨n, hdescribes, htape⟩ := tape_handIn hin
    have hnext : ((Call.invoke h inputs outputs params).step (library gpus) s).tape =
        s.tape.record n := by
      rw [hstep]
      exact htape
    refine ⟨by rw [hnext, Tape.recording_record]; rfl, fun _ _ _ _ _ heq hon hr' => ?_, nofun,
      fun hadds _ => ?_⟩
    · cases heq
      cases hr.symm.trans hr'
      exact ⟨n, hdescribes, by rw [hnext, Tape.record_of_recording hon]⟩
    · cases hon : s.tape.recording with
      | true => exact absurd (.accept hon hr) hadds
      | false => rw [hnext, Tape.record_of_idle hon]

theorem tapeStep_backward (ho : s.Orderly) (heads : List Handle)
    (headGradients : List (Option Handle)) (retain training : Bool) :
    TapeStep gpus s (.backward heads headGradients retain training) := by
  have hstep : ((Call.backward heads headGradients retain training).step (library gpus) s).tape =
      if (seedsOf s.drained heads headGradients).isOk then s.tape.afterPass retain else s.tape :=
    (congrArg State.tape (Call.step_of_map rfl s)).trans (tape_backward ho heads headGradients retain)
  refine ⟨?_, nofun, fun hdrops => ?_, fun _ hdrops => ?_⟩
  · rw [hstep]
    split
    · exact Tape.recording_afterPass retain
    · rfl
  · cases hdrops with
    | pass training hseeds =>
      rw [hstep, hseeds]
      rfl
  · rw [hstep]
    cases hseeds : seedsOf s.drained heads headGradients with
    | error e => rfl
    | ok seeds =>
      cases retain with
      | false => exact absurd (.pass training hseeds) hdrops
      | true => rfl

theorem tapeStep_setRecording (s : State) (on : Bool) : TapeStep gpus s (.setRecording on) := by
  have hstep : ((Call.setRecording on).step (library gpus) s).tape.nodes =
      if s.tape.recording && !on then [] else s.tape.nodes := rfl
  refine ⟨rfl, nofun, fun hdrops => ?_, fun _ hdrops => ?_⟩
  · cases hdrops with
    | leave hon => rw [hstep, hon]; rfl
  · rw [hstep]
    refine if_neg fun hleave => hdrops ?_
    simp only [Bool.and_eq_true, Bool.not_eq_true'] at hleave
    rw [hleave.2]
    exact .leave hleave.1

theorem tapeStep_call (gpus : Nat) (ho : s.Orderly) (c : Call) : TapeStep gpus s c := by
  cases hc : records c with
  | false =>
    have hsteady := (steadies_call gpus hc).after (.refl s)
    refine ⟨hsteady.recording.trans ?_, fun _ _ _ _ _ heq => ?_, fun hdrops => ?_,
      fun _ _ => hsteady.nodes⟩
    · cases c with
      | setRecording on => exact absurd hc nofun
      | _ => rfl
    · subst heq
      exact absurd hc nofun
    · cases hdrops <;> exact absurd hc nofun
  | true =>
    cases c with
    | invoke h inputs outputs params => exact tapeStep_invoke s h inputs outputs params
    | backward heads grads retain training => exact tapeStep_backward ho heads grads retain training
    | setRecording on => exact tapeStep_setRecording s on
    | _ => exact absurd hc nofun

def State.Sectioned (s : State) : Prop := s.tape.recording = false → s.tape.nodes = []

theorem State.Sectioned.step (hs : s.Sectioned) {c : Call} (h : TapeStep gpus s c) :
    (c.step (library gpus) s).Sectioned := by
  intro hoff
  rw [h.switches] at hoff
  by_cases hdrops : s.Drops c
  · exact h.drops hdrops
  have hbefore : s.tape.recording = false := by
    cases hon : s.tape.recording with
    | false => rfl
    | true =>
      rw [hon] at hoff
      cases c with
      | setRecording on =>
        obtain rfl : on = false := hoff
        exact absurd (.leave hon) hdrops
      | _ => exact absurd hoff nofun
  rw [h.keeps (fun hadds => ?_) hdrops, hs hbefore]
  cases hadds with
  | accept hon hr => exact absurd (hbefore.symm.trans hon) nofun

theorem sectioned_run (gpus : Nat) (cs : List Call) :
    ∀ {s : State}, s.Sectioned → s.Orderly → (Call.run (library gpus) cs s).Sectioned := by
  induction cs with
  | nil => intro s hs _; exact hs
  | cons c cs ih =>
    intro s hs ho
    exact ih (hs.step (tapeStep_call gpus ho c)) (orderly_step ho c)

/-- The tape after any calls. While recording is off it is empty. While recording is on, each
operator that is accepted goes on it, once and at its end. It is emptied by leaving a recording
section and by a backward pass that is not to keep it, even if the pass then fails. Every other call
leaves it as it is: refused operators, switching recording on again, passes that keep it, and freeing
the arrays it mentions. -/
theorem tape_in_sections [HalfPrecision] (gpus : Nat) (cs : List Call) :
    let s := Call.run (library gpus) cs .initial
    (s.tape.recording = false → s.tape.nodes = []) ∧ ∀ c : Call, TapeStep gpus s c :=
  ⟨sectioned_run gpus cs (fun _ => rfl) orderly_initial,
    tapeStep_call gpus (orderly_run orderly_initial)⟩

end

open Interchange

/-- A pass that comes to an operator without a gradient has dropped the tape all the same. -/
example :
    let s := Call.run (library 0) [.create .cpu ⟨[2]⟩ .f32 .dense false, .setRecording true,
      .invoke ⟨Operator.argsort.number⟩ [⟨1⟩] none .empty] .initial
    let c : Call := .backward [⟨2⟩] [] false true
    s.recorded = 1 ∧ (c.reply (library 0) s).isOk = false ∧
      (c.step (library 0) s).recorded = 0 := by decide +kernel

end Reference
end ScopedTensor
