import Mathlib.Logic.Relation
import ScopedTensor.Proofs.Adjoint.Passes

/-! The steps that the engine's calls are made of. Each call, however it ends, is a sequence of a few
kinds of change to the state, so what every change keeps is kept by every run. -/

namespace ScopedTensor

variable {half : HalfPrecision}

def Node.task (n : Node) : Reference.Task :=
  ⟨n.op, n.params, n.inputs.map Tracked.view, n.outputs.map Tracked.view⟩

namespace Reference

open ScopedTensor.Action State Library Relation

/-- A way to show part of an array, or all of it in another shape. -/
inductive Derivation where
  | row (index : Nat)
  | slice (first last : Nat)
  | reshape (target : List Int) (reverse : Bool)

namespace Derivation

def view : Derivation → View → Except Error View
  | row index => rowOf index
  | slice first last => sliceOf first last
  | reshape target _ => reshapeOf target

def call (h : Handle) : Derivation → Call
  | row index => .row h index
  | slice first last => .slice h first last
  | reshape target reverse => .reshape h target reverse

theorem perform_call (gpus : Nat) (h : Handle) (d : Derivation) :
    (d.call h).perform (library gpus) = Answer.handle <$> derive h d.view := by
  cases d <;> rfl

end Derivation

/-- A live array, as an operator would see it. -/
def State.Shows (s : State) (i : Tracked) : Prop :=
  ∃ e, s.entries.get? i.id = some e ∧ e.view = i.view

/-- An operator on live arrays whose inputs were found fit, with room in each output for its
result. -/
structure State.Admits (s : State) (n : Node) : Prop where
  inputs : ∀ i ∈ n.inputs, s.Shows i
  outputs : ∀ o ∈ n.outputs, s.Shows o
  inferred : ∃ sigs, n.op.infer (n.inputs.map fun i => i.view.signature) n.params = .ok sigs ∧
    List.Forall₂ (fun (o : Tracked) (sig : Signature) => o.view.size = sig.shape.size) n.outputs sigs

def State.enlist (s : State) (n : Node) : State :=
  { s with queue := s.queue ++ [n.task], tape := s.tape.record n }

inductive State.Change [HalfPrecision] (s : State) : State → Prop
  | count (freeCalls waits waitAlls : Nat) (seed : Option Nat) :
    Change s { s with freeCalls, waits, waitAlls, seed }
  | allocate (shape : Shape) (type : ElementType) (device : Device) (storage : Storage) :
    Change s (s.allocate shape type device storage).2
  | derive {id : Nat} {e : Entry} {w : View} (d : Derivation) (he : s.entries.get? id = some e)
    (hw : d.view e.view = .ok w) : Change s (s.insert { e with view := w }).2
  | reveal {id : Nat} {k : Mark} (device : Device) (hk : s.tape.marks.get? id = some k) :
    Change s (s.insert ⟨k.gradient, device, .dense⟩).2
  | erase (id : Nat) :
    Change s { s with entries := s.entries.erase id, tape := s.tape.unmark id }
  | drain : Change s s.drained
  | write {id : Nat} {e : Entry} (he : s.entries.get? id = some e) (values : Values) :
    Change s { s with memory := s.memory.write e.view values }
  | deliver (gs : Gradients) : Change s { s with
      memory := s.tape.marks.entries.foldl (fun m e => e.2.deliver gs m e.1) s.memory }
  | switch (recording training : Bool) (nodes : List Node)
    (hn : nodes = s.tape.nodes ∨ nodes = []) :
    Change s { s with tape := ⟨nodes, s.tape.marks, recording, training⟩ }
  | enlist {n : Node} (hn : s.Admits n) : Change s (s.enlist n)
  | mark {var : Nat} {v g : Entry} (request : GradRequest) (hv : s.entries.get? var = some v)
    (grad : Nat) (hg : s.entries.get? grad = some g) (hshape : g.view.shape = v.view.shape) :
    Change s { s with tape := s.tape.mark var ⟨request, g.view⟩ }

variable {s t u : State} {α : Type}

theorem State.Change.numbers (h : s.Change t) : s.Numbers t := by
  cases h with
  | allocate shape type device storage =>
    exact (s.evolves_allocate shape type device storage).toNumbers
  | derive d he hw => exact s.numbers_insert _
  | reveal device hk => exact s.numbers_insert _
  | erase id =>
    exact ⟨Nat.le_refl _, fun k e he => .inl (Table.get?_erase_eq_some.1 he).2⟩
  | count | drain | write | deliver | switch | enlist | mark => exact .of_eq rfl rfl

/-- From `s` to `t` in changes, if the live handles of `s` have been given out. -/
def State.Becomes [HalfPrecision] (s t : State) : Prop := s.Numbered → ReflTransGen State.Change s t

theorem numbers_of_changes (h : ReflTransGen State.Change s t) : s.Numbers t := by
  induction h with
  | refl => exact .refl _
  | tail _ h ih => exact ih.trans h.numbers

theorem State.Becomes.trans (h : s.Becomes t) (hu : t.Becomes u) : s.Becomes u := fun hs =>
  (h hs).trans (hu ((numbers_of_changes (h hs)).numbered hs))

instance : Trans State.Becomes State.Becomes State.Becomes := ⟨State.Becomes.trans⟩

theorem State.Becomes.refl (s : State) : s.Becomes s := fun _ => .refl

theorem State.Change.becomes (h : s.Change t) : s.Becomes t := fun _ => .single h

abbrev Made [HalfPrecision] (a : Action State α) : Prop := Within State.Becomes a

theorem made_create (gpus : Nat) (device : Device) (shape : Shape) (type : ElementType)
    (storage : Storage) : Made (create gpus device shape type storage) := by
  refine (create_does device shape type storage).within fun t x u hu => ?_
  obtain rfl := congrArg Prod.snd hu
  exact (State.Change.allocate shape type device storage).becomes

theorem made_free (h : Handle) : Made (free h) := by
  refine .of_after fun s => ?_
  have hcount : s.Becomes { s with freeCalls := s.freeCalls + 1 } :=
    (State.Change.count _ _ _ _).becomes
  unfold Action.after
  rcases free_cases h s with ⟨-, x, hfree⟩ | ⟨-, hfree⟩
  · rw [hfree]
    exact hcount
  · rw [hfree]
    exact hcount.trans (State.Change.erase h.id).becomes

theorem made_drain : Made drain := by
  refine .of_after fun s => ?_
  rw [after_drain]
  exact State.Change.drain.becomes

theorem made_derive (h : Handle) (d : Derivation) : Made (derive h d.view) := by
  refine (derive_does h d.view).within fun t x u hu => ?_
  obtain ⟨e, w, he, hw, hu⟩ := hu
  obtain rfl := congrArg Prod.snd hu
  exact (State.Change.derive d (entry_eq_ok.1 he) hw).becomes

theorem made_viewOf (h : Handle) : Made (viewOf h) := .map _ (.query _)

theorem made_copyIn (h : Handle) (bytes : Bytes) (length : Nat) :
    Made (copyIn h bytes length) := by
  intro s
  let P : View → State → Prop := fun v t => s.Becomes t ∧ ∃ e, t.entry h = .ok e ∧ e.view = v
  have hview : Meets s.Becomes (viewOf h) P s.Becomes :=
    Meets.map (.query (fun t ht e he => ⟨ht, e, he, rfl⟩) fun _ ht => ht)
  have hdrain : ∀ v, Meets (P v) drain (fun _ => P v) s.Becomes := fun v =>
    Meets.imp (E := P v) (.of_after fun t ht => by
      rw [after_drain]
      exact ⟨ht.1.trans State.Change.drain.becomes, ht.2⟩) (fun _ ht => ht) (fun _ _ ht => ht)
      fun _ ht => ht.1
  refine hview.bind fun v => .guard (fun _ ht => ht.1) fun _ => (hdrain v).bind fun _ => .modify ?_
  rintro t ⟨ht, e, he, rfl⟩
  exact ht.trans (State.Change.write (entry_eq_ok.1 he) _).becomes

theorem made_copyOut (h : Handle) (room length : Nat) : Made (copyOut h room length) := by
  refine (made_viewOf h).bind fun view => .guard (made_drain.bind fun _ => ?_)
  exact Within.get.bind fun _ => .pure _

theorem made_wait (h : Handle) : Made (wait h) := by
  refine Within.bind (.query _) fun _ => .bind (.modify fun t => ?_) fun _ => made_drain
  exact (State.Change.count _ _ _ _).becomes

theorem made_waitAll : Made waitAll :=
  .bind (.modify fun _ => (State.Change.count _ _ _ _).becomes) fun _ => made_drain

theorem made_markOne (var : Handle) (request : GradRequest) (grad : Handle) :
    Made (markOne var request grad) := by
  refine (markOne_does var request grad).within fun t x u hu => ?_
  obtain ⟨v, g, hv, hg, hshape, rfl⟩ := hu
  exact (State.Change.mark request (entry_eq_ok.1 hv) grad.id (entry_eq_ok.1 hg) hshape).becomes

theorem made_markVariables (vars : List Handle) (requests : List GradRequest)
    (grads : List Handle) : Made (markVariables vars requests grads) :=
  .ite (.throw _) (.forM (fun _ => made_markOne _ _ _) _)

theorem made_backward (heads : List Handle) (headGradients : List (Option Handle))
    (retain : Bool) : Made (backward .asMarked heads headGradients retain) := by
  refine made_drain.bind fun _ => Within.bind (.query _) fun seeds => Within.get.bind fun s => ?_
  refine Within.bind (.modify fun t => ?_) fun _ => .transition fun t x u hu => ?_
  · have hnodes := t.tape.nodes_afterPass retain
    have htape : t.tape.afterPass retain =
        ⟨(t.tape.afterPass retain).nodes, t.tape.marks, t.tape.recording, t.tape.training⟩ := by
      unfold Tape.afterPass
      split <;> rfl
    rw [htape]
    exact (State.Change.switch _ _ _ hnodes).becomes
  · obtain ⟨m, hm, hu⟩ := bind_eq_ok.1 hu
    obtain ⟨gs, -, hm⟩ := bind_eq_ok.1 hm
    obtain rfl := pure_eq_ok.1 hm
    obtain rfl := congrArg Prod.snd (pure_eq_ok.1 hu)
    exact (State.Change.deliver gs).becomes

theorem made_getGrad (h : Handle) : Made (getGrad h) := by
  refine (getGrad_does h).within fun t x u hu => ?_
  rcases hu with ⟨e, -, ⟨-, rfl⟩ | ⟨m, hm, hu⟩⟩
  · exact .refl _
  · obtain rfl := congrArg Prod.snd hu
    exact (State.Change.reveal e.device hm).becomes

theorem made_setRecording (on : Bool) : Made (setRecording on) := by
  refine .of_after fun s => (State.Change.switch _ s.tape.training _ ?_).becomes
  split
  · exact .inr rfl
  · exact .inl rfl

theorem made_setTraining (on : Bool) : Made (setTraining on) :=
  .of_after fun s => (State.Change.switch s.tape.recording on _ (.inl rfl)).becomes

theorem made_randomSeed (seed : Nat) :
    Made (modify fun s : State => { s with seed := some seed }) :=
  .modify fun _ => (State.Change.count _ _ _ _).becomes

section Submission

variable {gpus : Nat} {op : Operator} {inputs given hs' : List Handle}
variable {outputs : Option (List Handle)} {params : Params} {task : Task} {entries : List Entry}
variable {inferred : List Signature} {outs : List (Handle × View)}

/-- Handles that were live stay so when others are numbered after them. -/
structure State.Extends [HalfPrecision] (s t : State) : Prop where
  changes : ReflTransGen State.Change s t
  entries : ∀ id e, s.entries.get? id = some e → t.entries.get? id = some e

theorem State.Extends.trans (h : s.Extends t) (hu : t.Extends u) : s.Extends u :=
  ⟨h.changes.trans hu.changes, fun id e he => hu.entries id e (h.entries id e he)⟩

theorem State.Extends.shows (h : s.Extends t) {i : Tracked} (hi : s.Shows i) : t.Shows i := by
  obtain ⟨e, he, hview⟩ := hi
  exact ⟨e, h.entries _ _ he, hview⟩

theorem State.Numbered.extends_allocate [HalfPrecision] (hs : s.Numbered) (shape : Shape)
    (type : ElementType) (device : Device) (storage : Storage) :
    s.Extends (s.allocate shape type device storage).2 := by
  refine ⟨.single (.allocate shape type device storage), fun id e he => ?_⟩
  have hle := hs id e he
  have hne : id ≠ s.lastId + 1 := by omega
  simp only [State.allocate, State.insert, Table.get?_insert, if_neg hne]
  exact he

theorem State.Numbered.extends_allocateAll [HalfPrecision] (device : Device)
    (sigs : List Signature) :
    ∀ {s : State}, s.Numbered → s.Extends (allocateAll device sigs s).2 ∧
      (∀ o ∈ (allocateAll device sigs s).1, (allocateAll device sigs s).2.Shows ⟨o.1.id, o.2⟩) ∧
      List.Forall₂ (fun (o : Handle × View) (sig : Signature) => o.2.size = sig.shape.size)
        (allocateAll device sigs s).1 sigs := by
  induction sigs with
  | nil => intro s _; exact ⟨⟨.refl, fun _ _ he => he⟩, nofun, .nil⟩
  | cons sig sigs ih =>
    intro s hs
    have hfirst := hs.extends_allocate sig.shape sig.type device .dense
    obtain ⟨hrest, hshown, hsizes⟩ := ih ((numbers_of_changes hfirst.changes).numbered hs)
    rw [allocateAll_cons]
    refine ⟨hfirst.trans hrest, fun o ho => ?_, .cons rfl hsizes⟩
    rcases List.mem_cons.1 ho with rfl | ho
    · refine hrest.shows ⟨⟨_, device, .dense⟩, ?_, rfl⟩
      simp only [State.allocate, State.insert, Table.get?_insert, if_true]
      rfl
    · exact hshown o ho

theorem givenOutputs_ok (h : givenOutputs s op given inferred = .ok outs) :
    (∀ o ∈ outs, s.Shows ⟨o.1.id, o.2⟩) ∧
      List.Forall₂ (fun (o : Handle × View) (sig : Signature) => o.2.size = sig.shape.size)
        outs inferred := by
  unfold givenOutputs at h
  split at h
  · exact absurd h nofun
  · rename_i hlength
    have hall := (mapM_eq_ok.1 h).imp (S := fun p o =>
        s.Shows ⟨o.1.id, o.2⟩ ∧ o.2.size = p.2.shape.size) fun p o ho => by
      obtain ⟨e, he, ho⟩ := bind_eq_ok.1 ho
      simp only at ho
      split at ho
      · exact absurd ho nofun
      · rename_i hsize
        obtain rfl := pure_eq_ok.1 ho
        exact ⟨⟨e, entry_eq_ok.1 he, rfl⟩, not_not.1 hsize⟩
    have hzip : (given.zip inferred).map Prod.snd = inferred :=
      List.map_snd_zip (Nat.le_of_eq (not_not.1 hlength).symm)
    obtain ⟨hshown, hsizes⟩ := (List.forall₂_and_left _ _).1 hall.flip
    rw [← hzip, List.forall₂_map_right_iff]
    exact ⟨hshown, hsizes⟩

theorem State.Numbered.extends_outputsOf [HalfPrecision] (hs : s.Numbered)
    (h : outputsOf gpus s op entries inferred outputs params = .ok (outs, t)) :
    s.Extends t ∧ (∀ o ∈ outs, t.Shows ⟨o.1.id, o.2⟩) ∧
      List.Forall₂ (fun (o : Handle × View) (sig : Signature) => o.2.size = sig.shape.size)
        outs inferred := by
  cases outputs with
  | none =>
    have hall := hs.extends_allocateAll (outputDevice entries params) inferred
    rw [outputsOf_none_ok h] at hall
    exact hall
  | some given =>
    obtain ⟨hfound, rfl⟩ := outputsOf_some_ok h
    exact ⟨⟨.refl, fun _ _ he => he⟩, givenOutputs_ok hfound⟩

theorem State.Numbered.submit_admits (hs : s.Numbered)
    (h : submit gpus s op inputs outputs params = .ok (hs', task, t)) :
    ∃ n u, s.Extends u ∧ u.Admits n ∧ task = n.task ∧ t = { u with tape := u.tape.record n } := by
  obtain ⟨entries, inferred, outs, u, hentries, hinferred, houts, -, rfl, rfl⟩ := submit_eq_ok h
  obtain ⟨hextends, hshown, hsizes⟩ := hs.extends_outputsOf houts
  let n := nodeOf op params inputs entries outs
  have hviews : n.inputs.map Tracked.view = entries.map Entry.view := by
    have hle : (entries.map Entry.view).length ≤ inputs.length :=
      Nat.le_of_eq ((List.length_map _).trans (length_of_mapM_eq_ok hentries).symm)
    have hsnd := List.map_snd_zip hle
    rw [← hsnd]
    exact List.map_map
  have houtputs : n.outputs.map Tracked.view = outs.map Prod.snd := List.map_map
  -- Inputs were live when they were looked up, and stay so while outputs are allocated.
  refine ⟨n, u, hextends, ⟨fun i hi => ?_, fun o ho => ?_, inferred, ?_, ?_⟩, ?_, rfl⟩
  · obtain ⟨p, hp, rfl⟩ := List.mem_map.1 hi
    rw [List.zip_map_right] at hp
    obtain ⟨⟨h, e⟩, hmem, rfl⟩ := List.mem_map.1 hp
    have he := (List.forall₂_iff_zip.1 (mapM_eq_ok.1 hentries)).2 hmem
    exact hextends.shows ⟨e, entry_eq_ok.1 he, rfl⟩
  · obtain ⟨p, hp, rfl⟩ := List.mem_map.1 ho
    exact hshown p hp
  · have hsigs := congrArg (List.map View.signature) hviews
    rw [List.map_map, List.map_map] at hsigs
    exact (congrArg (op.infer · params) hsigs).trans hinferred
  · exact List.forall₂_map_left_iff.2 hsizes
  · unfold Node.task
    rw [hviews, houtputs]
    rfl

end Submission

theorem made_invoke (gpus : Nat) (h : OpHandle) (inputs : List Handle)
    (outputs : Option (List Handle)) (params : Params) :
    Made (invoke .deferred gpus h inputs outputs params) := by
  refine invoke_does.within fun t x u hu ht => ?_
  obtain ⟨task, v, hin, rfl⟩ := hu
  obtain ⟨op, -, hsubmit⟩ := bind_eq_ok.1 hin
  obtain ⟨n, w, hextends, hn, rfl, rfl⟩ := ht.submit_admits hsubmit
  exact hextends.changes.tail (.enlist hn)

theorem made_call (gpus : Nat) (c : Call) : Made (c.perform (library gpus)) := by
  cases c with
  | version => exact .pure _
  | gpuCount => exact .pure _
  | listOps => exact .pure _
  | getOp name => exact .map _ (.ofExcept _)
  | create d s t st delayed => exact .map _ (made_create gpus d s t st)
  | free h => exact .map _ (made_free h)
  | shape h => exact .map _ (.map _ (made_viewOf h))
  | type h => exact .map _ (.map _ (made_viewOf h))
  | device h => exact .map _ (.map _ (.query _))
  | storage h => exact .map _ (.map _ (.query _))
  | copyIn h bytes length => exact .map _ (made_copyIn h bytes length)
  | copyOut h room length => exact .map _ (made_copyOut h room length)
  | waitToRead h => exact .map _ (made_wait h)
  | waitToWrite h => exact .map _ (made_wait h)
  | waitAll => exact .map _ made_waitAll
  | invoke h inputs outputs params => exact .map _ (made_invoke gpus h inputs outputs params)
  | row h index => exact .map _ (made_derive h (.row index))
  | slice h first last => exact .map _ (made_derive h (.slice first last))
  | reshape h dims reverse => exact .map _ (made_derive h (.reshape dims reverse))
  | markVariables vars requests grads => exact .map _ (made_markVariables vars requests grads)
  | backward heads grads retain training => exact .map _ (made_backward heads grads retain)
  | getGrad h => exact .map _ (made_getGrad h)
  | setRecording on => exact .map _ (made_setRecording on)
  | setTraining on => exact .map _ (made_setTraining on)
  | randomSeed seed => exact .map _ (made_randomSeed seed)

theorem changes_step [HalfPrecision] (gpus : Nat) (hs : s.Numbered) (c : Call) :
    ReflTransGen State.Change s (c.step (library gpus) s) :=
  (made_call gpus c).after (.refl s) hs

theorem changes_run (gpus : Nat) (cs : List Call) :
    ∀ {s : State}, s.Numbered → ReflTransGen State.Change s (Call.run (library gpus) cs s) := by
  induction cs with
  | nil => intro s _; exact .refl
  | cons c cs ih =>
    intro s hs
    have hstep := changes_step gpus hs c
    exact hstep.trans (ih ((numbers_of_changes hstep).numbered hs))

theorem holds_run {P : State → Prop} (hinitial : P .initial)
    (hchange : ∀ s t, s.Numbered → P s → s.Change t → P t) (gpus : Nat) (cs : List Call) :
    P (Call.run (library gpus) cs .initial) := by
  have key : ∀ t, ReflTransGen State.Change .initial t → t.Numbered ∧ P t := by
    intro t ht
    induction ht with
    | refl => exact ⟨nofun, hinitial⟩
    | tail _ hstep ih => exact ⟨hstep.numbers.numbered ih.1, hchange _ _ ih.1 ih.2 hstep⟩
  exact (key _ (changes_run gpus cs nofun)).2

end Reference
end ScopedTensor
