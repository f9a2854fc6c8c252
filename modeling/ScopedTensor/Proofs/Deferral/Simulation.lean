import ScopedTensor.Library.Call
import ScopedTensor.Proofs.Deferral.Queue

/-! Every call of the engine that lets tasks wait does what the engine that runs them at once does,
seen from the state in which all of them were run. -/

namespace ScopedTensor.Reference

open ScopedTensor.Action State

variable {half : HalfPrecision}
variable {α β : Type}

def finished [HalfPrecision] : EStateM.Result Error State α → EStateM.Result Error State α
  | .ok x s => .ok x s.drained
  | .error e s => .error e s.drained

/-- What `a` does while tasks wait, `b` does after they were run. -/
structure Defers [HalfPrecision] (a b : Action State α) : Prop where
  keeps : Keeps State.Orderly a
  agrees : ∀ s, s.Orderly → b s.drained = finished (a s)

variable {a b : Action State α}

theorem Defers.pure (x : α) : Defers (Pure.pure x) (Pure.pure x) where
  keeps := .pure fun _ h => h
  agrees _ _ := rfl

theorem Defers.throw (e : Error) : Defers (throw e : Action State α) (throw e) where
  keeps := .throw fun _ h => h
  agrees _ _ := rfl

theorem Defers.bind {f g : α → Action State β} (h : Defers a b) (hf : ∀ x, Defers (f x) (g x)) :
    Defers (a >>= f) (b >>= g) where
  keeps := h.keeps.bind fun x => (hf x).keeps
  agrees s hs := by
    have horderly := h.keeps s hs
    change EStateM.bind b g s.drained = finished (EStateM.bind a f s)
    unfold EStateM.bind
    rw [h.agrees s hs]
    cases hr : a s with
    | ok x t =>
      rw [hr] at horderly
      exact (hf x).agrees t horderly
    | error e t => rfl

theorem Defers.map (f : α → β) (h : Defers a b) : Defers (f <$> a) (f <$> b) :=
  h.bind fun x => .pure (f x)

theorem Defers.query {f : State → Except Error α} (h : ∀ s, f s.drained = f s) :
    Defers (query f) (query f) where
  keeps := .query (fun _ hs _ _ => hs) fun _ hs => hs
  agrees s _ := by
    unfold Action.query
    rw [h]
    cases f s <;> rfl

theorem Defers.transition {f : State → Except Error (α × State)}
    (hkeeps : Keeps State.Orderly (transition f))
    (h : ∀ s, s.Orderly → f s.drained = (f s).map fun r => (r.1, r.2.drained)) :
    Defers (transition f) (transition f) where
  keeps := hkeeps
  agrees s hs := by
    unfold Action.transition
    rw [h s hs]
    cases f s <;> rfl

theorem Defers.ofExcept (r : Except Error α) :
    Defers (Action.ofExcept r) (Action.ofExcept r) := by
  cases r with
  | ok x => exact .pure x
  | error e => exact .throw e

theorem Defers.modify {f : State → State} (horderly : ∀ s, s.Orderly → (f s).Orderly)
    (h : ∀ s, (f s).drained = f s.drained) :
    Defers (modify f : Action State PUnit) (modify f) where
  keeps := .modify horderly
  agrees s _ := by
    change EStateM.Result.ok PUnit.unit (f s.drained) = .ok PUnit.unit (f s).drained
    rw [h]

theorem Defers.forM {f : β → Action State PUnit} (h : ∀ x, Defers (f x) (f x)) (xs : List β) :
    Defers (xs.forM f) (xs.forM f) := by
  induction xs with
  | nil => exact .pure _
  | cons x xs ih => exact (h x).bind fun _ => ih

theorem Defers.ite {c : Prop} [Decidable c] {b : Action State α} (ha : Defers a a)
    (hb : Defers b b) : Defers (if c then a else b) (if c then a else b) := by
  split
  · exact ha
  · exact hb

/-- From `s` to `t` the queue was run, and nothing else broke off. -/
structure State.Flushed [HalfPrecision] (s t : State) : Prop where
  settled : t.Settled
  halted : t.halted = s.drained.halted

/-- An action that is refused outright, or that starts by running the queue: what it does is what it
does once the queue was run, and it leaves no task behind. -/
def Flushing [HalfPrecision] (a : Action State α) : Prop := ∀ s : State, s.Orderly →
  (∃ e, a s = .error e s ∧ a s.drained = .error e s.drained) ∨
    (a s = a s.drained ∧ s.Flushed (a.after s))

theorem Flushing.defers (h : Flushing a) : Defers a a where
  keeps s hs := by
    rcases h s hs with ⟨e, he, -⟩ | ⟨-, hafter⟩
    · rw [he]
      exact hs
    · unfold after at hafter
      cases hr : a s with
      | ok x t => rw [hr] at hafter; exact hafter.settled.orderly
      | error e t => rw [hr] at hafter; exact hafter.settled.orderly
  agrees s hs := by
    rcases h s hs with ⟨e, he, hed⟩ | ⟨hsame, hafter⟩
    · rw [he, hed]
      rfl
    · rw [← hsame]
      unfold after at hafter
      cases hr : a s with
      | ok x t => rw [hr] at hafter; simp only [finished, drained_eq hafter.settled.empty]
      | error e t => rw [hr] at hafter; simp only [finished, drained_eq hafter.settled.empty]

theorem Flushing.query_bind {f : State → Except Error α} {k : α → Action State β}
    (h : ∀ s, f s.drained = f s) (hk : ∀ x, Flushing (k x)) : Flushing (Action.query f >>= k) := by
  intro s hs
  cases hf : f s with
  | ok x =>
    have hrun : ∀ t, f t = .ok x → (Action.query f >>= k) t = k x t := by
      intro t ht
      change EStateM.bind (Action.query f) k t = k x t
      unfold EStateM.bind Action.query
      rw [ht]
    unfold after
    rw [hrun s hf, hrun s.drained ((h s).trans hf)]
    exact hk x s hs
  | error e =>
    have hrun : ∀ t, f t = .error e → (Action.query f >>= k) t = .error e t := by
      intro t ht
      change EStateM.bind (Action.query f) k t = .error e t
      unfold EStateM.bind Action.query
      rw [ht]
    exact .inl ⟨e, hrun s hf, hrun s.drained ((h s).trans hf)⟩

theorem Flushing.guard {c : Prop} [Decidable c] {e : Error} {k : PUnit → Action State α}
    (h : Flushing (k ⟨⟩)) :
    Flushing (if c then (do let r ← MonadExcept.throw e; k r) else k ⟨⟩) := by
  split
  · exact fun s _ => .inl ⟨e, rfl, rfl⟩
  · exact h

theorem Flushing.drain_bind {k : Unit → Action State α}
    (h : ∀ s : State, Keeps s.Flushed (k ())) : Flushing (drain >>= k) := by
  intro s hs
  refine .inr ⟨?_, ?_⟩
  · rw [hs.drain_bind, hs.settled.orderly.drain_bind, drained_eq (s := s.drained) rfl]
  · have hk := (h s).after (F := s.Flushed) ⟨hs.settled, rfl⟩
    unfold after at hk ⊢
    rwa [hs.drain_bind]

theorem Flushing.modify_drain {f : State → State} (horderly : ∀ s, s.Orderly → (f s).Orderly)
    (h : ∀ s, (f s).drained = f s.drained) (hhalted : ∀ s, (f s).halted = s.halted) :
    Flushing (modify f >>= fun _ => (drain : Action State Unit)) := by
  intro s hs
  have hrun : ∀ s, s.Orderly →
      (modify f >>= fun _ => (drain : Action State Unit)) s = .ok () (f s).drained :=
    fun s hs => (horderly s hs).drain_eq
  refine .inr ⟨?_, ?_⟩
  · rw [hrun s hs, hrun s.drained hs.settled.orderly, h s.drained, h s,
      drained_eq (s := s.drained) rfl]
  · unfold after
    rw [hrun s hs]
    exact ⟨(horderly s hs).settled, (congrArg State.halted (h s)).trans (hhalted s.drained)⟩

theorem Flushing.map (f : α → β) (h : Flushing a) : Flushing (f <$> a) := by
  intro s hs
  have hrun : ∀ t u, a t = u → (f <$> a) t = EStateM.map f (fun _ => u) t := by
    intro t u hu
    change EStateM.map f a t = _
    unfold EStateM.map
    rw [hu]
  rcases h s hs with ⟨e, he, hed⟩ | ⟨hsame, hafter⟩
  · exact .inl ⟨e, hrun s _ he, hrun s.drained _ hed⟩
  · refine .inr ⟨?_, ?_⟩
    · rw [hrun s _ hsame, hrun s.drained _ rfl]
      rfl
    · rw [after_map]
      exact hafter

variable (gpus : Nat)

theorem defers_create (device : Device) (shape : Shape) (type : ElementType) (storage : Storage) :
    Defers (create gpus device shape type storage) (create gpus device shape type storage) := by
  refine .transition ((create_does device shape type storage).meets (fun s hs h t ht => ?_)
    fun _ hs => hs) fun s hs => ?_
  · obtain rfl : (s.allocate shape type device storage).2 = t := congrArg Prod.snd ht
    exact hs.allocate shape type device storage
  · rw [hs.allocate_drained]
    cases checkDevice gpus device <;> rfl

theorem State.Orderly.erase {s : State} (hs : s.Orderly) (k : Nat) :
    State.Orderly { s with entries := s.entries.erase k, tape := s.tape.unmark k } where
  tasks := hs.tasks
  entries id e he := hs.entries id e (Table.get?_erase_eq_some.1 he).2
  marks id m hm := hs.marks id m (Table.get?_erase_eq_some.1 hm).2

theorem defers_free (h : Handle) : Defers (free h) (free h) where
  keeps s hs := by
    have hcounted : State.Orderly { s with freeCalls := s.freeCalls + 1 } :=
      ⟨hs.tasks, hs.entries, hs.marks⟩
    rcases free_cases h s with ⟨-, x, hfree⟩ | ⟨-, hfree⟩
    · rw [hfree]
      exact hcounted
    · rw [hfree]
      exact hcounted.erase h.id
  agrees s _ := by
    have hentries : s.drained.entries = s.entries := rfl
    unfold free
    simp only [hentries]
    cases s.entries.get? h.id <;> rfl

theorem defers_entryOf (h : Handle) : Defers (entryOf h) (entryOf h) := .query fun _ => rfl

theorem defers_viewOf (h : Handle) : Defers (viewOf h) (viewOf h) :=
  (defers_entryOf h).bind fun e => .pure e.view

theorem State.Orderly.withMemory {s : State} (hs : s.Orderly) {m : Memory}
    (hm : m.buffers.length = s.memory.buffers.length) : State.Orderly { s with memory := m } where
  tasks := hm ▸ hs.tasks
  entries := hm ▸ hs.entries
  marks := hm ▸ hs.marks

theorem flushing_copyIn (h : Handle) (bytes : Bytes) (length : Nat) :
    Flushing (copyIn h bytes length) := by
  simp only [copyIn, viewOf, entryOf, bind_assoc, pure_bind]
  refine .query_bind (fun _ => rfl) fun view => .guard (.drain_bind ?_)
  exact fun s => .modify fun t ht =>
    ⟨⟨ht.settled.orderly.withMemory (Memory.length_write _ _ _), ht.settled.empty⟩, ht.halted⟩

theorem flushing_copyOut (h : Handle) (room length : Nat) : Flushing (copyOut h room length) := by
  simp only [copyOut, viewOf, entryOf, bind_assoc, pure_bind]
  refine .query_bind (fun _ => rfl) fun view => .guard (.drain_bind ?_)
  exact fun s => (Meets.get fun t ht => ht).bind fun t => .pure fun u hu => hu

theorem flushing_wait (h : Handle) : Flushing (wait h) := by
  refine .query_bind (fun _ => rfl) fun _ => .modify_drain ?_ (fun _ => rfl) fun _ => rfl
  exact fun s hs => ⟨hs.tasks, hs.entries, hs.marks⟩

theorem flushing_waitAll : Flushing waitAll := by
  refine .modify_drain ?_ (fun _ => rfl) fun _ => rfl
  exact fun s hs => ⟨hs.tasks, hs.entries, hs.marks⟩

theorem rowOf_buffer (index : Nat) (v w : View) (h : rowOf index v = .ok w) :
    w.buffer = v.buffer := by
  unfold rowOf at h
  split at h
  · exact absurd h nofun
  · split at h
    · exact absurd h nofun
    · rw [← Except.ok.inj h]
      rfl

theorem sliceOf_buffer (first last : Nat) (v w : View) (h : sliceOf first last v = .ok w) :
    w.buffer = v.buffer := by
  unfold sliceOf at h
  split at h
  · exact absurd h nofun
  · split at h
    · exact absurd h nofun
    · rw [← Except.ok.inj h]
      rfl

theorem reshapeOf_buffer (target : List Int) (v w : View) (h : reshapeOf target v = .ok w) :
    w.buffer = v.buffer := by
  unfold reshapeOf at h
  split at h
  · exact absurd h nofun
  · rw [← Except.ok.inj h]
    rfl

theorem defers_derive (h : Handle) {f : View → Except Error View}
    (hf : ∀ v w, f v = .ok w → w.buffer = v.buffer) : Defers (derive h f) (derive h f) := by
  refine .transition ((derive_does h f).meets (fun s hs x t ht => ?_) fun _ hs => hs)
    fun s hs => ?_
  · obtain ⟨e, w, he, hw, ht⟩ := ht
    obtain rfl : (s.insert { e with view := w }).2 = t := congrArg Prod.snd ht
    have hbound := hs.entry_bound he
    rw [← hf _ _ hw] at hbound
    exact hs.insert hbound
  · have hentry : s.drained.entry h = s.entry h := rfl
    rw [hentry]
    cases s.entry h with
    | error e => rfl
    | ok e => simp only [bind, Except.bind]; cases f e.view <;> rfl

theorem defers_markOne (var : Handle) (request : GradRequest) (grad : Handle) :
    Defers (markOne var request grad) (markOne var request grad) := by
  refine .transition ((markOne_does var request grad).meets (fun s hs x t ht => ?_) fun _ hs => hs)
    fun s hs => ?_
  · obtain ⟨v, g, -, hg, -, rfl⟩ := ht
    refine ⟨hs.tasks, hs.entries, fun id k hk => ?_⟩
    rcases Table.get?_insert_eq_some.1 hk with ⟨-, rfl⟩ | ⟨-, hk⟩
    · exact hs.entry_bound hg
    · exact hs.marks id k hk
  · have hentry : s.drained.entry = s.entry := rfl
    rw [hentry]
    cases s.entry var with
    | error e => rfl
    | ok v =>
      cases s.entry grad with
      | error e => rfl
      | ok g =>
        simp only [bind, Except.bind]
        split <;> rfl

theorem defers_markVariables (vars : List Handle) (requests : List GradRequest)
    (grads : List Handle) :
    Defers (markVariables vars requests grads) (markVariables vars requests grads) :=
  .ite (.throw _) (.forM (fun _ => defers_markOne _ _ _) _)

theorem length_backward {m m' : Memory} {nodes : List Node} {marks : Table Mark}
    {seeds : List (Nat × Values)} (h : Tape.backward m nodes marks seeds = .ok m') :
    m'.buffers.length = m.buffers.length := by
  have hdeliver : ∀ (gs : Gradients) (m : Memory) (id : Nat) (k : Mark),
      (k.deliver gs m id).buffers.length = m.buffers.length := by
    intro gs m id k
    unfold Mark.deliver
    split
    · rfl
    · split
      · rfl
      · exact Memory.length_write m _ _
      · exact Memory.length_accumulate m _ _
  obtain ⟨gs, -, hm⟩ := bind_eq_ok.1 h
  obtain rfl := pure_eq_ok.1 hm
  clear h hm
  generalize marks.entries = es
  induction es generalizing m with
  | nil => rfl
  | cons e es ih => exact (ih (m := e.2.deliver gs m e.1)).trans (hdeliver gs m e.1 e.2)

theorem flushing_backward (order : MarkOrder) (heads : List Handle)
    (headGradients : List (Option Handle)) (retain : Bool) :
    Flushing (backward order heads headGradients retain) := by
  refine .drain_bind fun s => ?_
  refine (Meets.query (Q := fun _ => s.Flushed) (fun _ ht _ _ => ht) fun _ ht => ht).bind
    fun seeds => ?_
  refine (Meets.get (Q := fun _ => s.Flushed) fun _ ht => ht).bind fun _ => ?_
  refine (Meets.modify (Q := fun _ => s.Flushed) fun t ht => ?_).bind fun _ => ?_
  · have ho := ht.settled.orderly
    refine ⟨⟨⟨ho.tasks, ho.entries, fun id k hk => ho.marks id k ?_⟩, ht.settled.empty⟩, ht.halted⟩
    unfold Tape.afterPass at hk
    split at hk <;> exact hk
  · refine Meets.transition (fun t ht x u hu => ?_) fun _ ht => ht
    obtain ⟨m, hm, hu⟩ := bind_eq_ok.1 hu
    obtain rfl := congrArg Prod.snd (pure_eq_ok.1 hu)
    exact ⟨⟨ht.settled.orderly.withMemory (length_backward hm), ht.settled.empty⟩, ht.halted⟩

theorem defers_getGrad (h : Handle) : Defers (getGrad h) (getGrad h) := by
  refine .transition ((getGrad_does h).meets (fun s hs x t ht => ?_) fun _ hs => hs) fun s hs => ?_
  · rcases ht with ⟨e, -, ⟨-, rfl⟩ | ⟨m, hm, ht⟩⟩
    · exact hs
    · obtain rfl := congrArg Prod.snd ht
      exact hs.insert (hs.marks _ _ hm)
  · have hentry : s.drained.entry h = s.entry h := rfl
    have hmarks : s.drained.tape = s.tape := rfl
    rw [hentry, hmarks]
    cases s.entry h with
    | error e => rfl
    | ok e =>
      simp only [bind, Except.bind]
      cases s.tape.marks.get? h.id <;> rfl

theorem defers_setRecording (on : Bool) : Defers (setRecording on) (setRecording on) where
  keeps _ hs := ⟨hs.tasks, hs.entries, hs.marks⟩
  agrees _ _ := rfl

theorem defers_setTraining (on : Bool) : Defers (setTraining on) (setTraining on) where
  keeps _ hs := ⟨hs.tasks, hs.entries, hs.marks⟩
  agrees _ _ := rfl

theorem defers_randomSeed (seed : Nat) :
    Defers (modify fun s : State => { s with seed := some seed })
      (modify fun s : State => { s with seed := some seed }) :=
  .modify (fun _ hs => ⟨hs.tasks, hs.entries, hs.marks⟩) fun _ => rfl

section Invocation

variable (h : OpHandle) (inputs : List Handle) (outputs : Option (List Handle)) (params : Params)

/-- An operator that is checked and recorded: the handles of its outputs, its task, and the state in
front of which the task waits. -/
def handIn (s : State) : Except Error (List Handle × Task × State) :=
  operatorOf h >>= fun op => submit gpus s op inputs outputs params

def accept (s : State) : Except Error (List Handle × State) :=
  (handIn gpus h inputs outputs params s).map fun r => (r.1, r.2.2.enqueue r.2.1)

variable {gpus h inputs outputs params} {s t : State} {hs : List Handle} {task : Task}

theorem invoke_eq [HalfPrecision] (mode : Execution) :
    invoke mode gpus h inputs outputs params =
      Action.transition (accept gpus h inputs outputs params) >>= fun hs =>
        match mode with
        | .deferred => return hs
        | .immediate => do
          drain
          return hs := by
  refine congrArg (fun f => Action.transition f >>= _) (funext fun s => ?_)
  unfold accept handIn
  cases operatorOf h with
  | error e => rfl
  | ok op =>
    cases hsubmit : submit gpus s op inputs outputs params <;>
      simp only [bind, Except.bind, hsubmit] <;> rfl

theorem invoke_does [HalfPrecision] :
    Does (invoke .deferred gpus h inputs outputs params) fun s hs t =>
    ∃ task u, handIn gpus h inputs outputs params s = .ok (hs, task, u) ∧ t = u.enqueue task := by
  have heq : invoke .deferred gpus h inputs outputs params =
      Action.transition (accept gpus h inputs outputs params) :=
    (invoke_eq .deferred).trans (bind_pure _)
  rw [heq]
  refine (Does.transition _).imp fun s hs t hr => ?_
  obtain ⟨⟨hs', task, u⟩, hin, hpair⟩ := map_eq_ok.1 hr
  obtain ⟨rfl, rfl⟩ := Prod.mk.inj hpair
  exact ⟨task, u, hin, rfl⟩

theorem step_invoke {order : MarkOrder} :
    (Library.Call.invoke h inputs outputs params).step (engine .deferred order gpus) s =
      (Action.transition (accept gpus h inputs outputs params)).after s := by
  refine (after_map _ _ _).trans (congrArg (Action.after · s) ?_)
  exact (invoke_eq .deferred).trans (bind_pure _)

theorem State.Orderly.handIn_ok (ho : s.Orderly)
    (hin : handIn gpus h inputs outputs params s = .ok (hs, task, t)) : s.Takes task t := by
  obtain ⟨op, -, hsubmit⟩ := bind_eq_ok.1 hin
  exact ho.submit_ok hsubmit

theorem State.Orderly.handIn_drained (ho : s.Orderly) :
    handIn gpus h inputs outputs params s.drained =
      (handIn gpus h inputs outputs params s).map fun r => (r.1, r.2.1, r.2.2.drained) := by
  unfold handIn
  cases operatorOf h with
  | error e => rfl
  | ok op => exact ho.submit_drained

theorem defers_invoke :
    Defers (invoke .deferred gpus h inputs outputs params)
      (invoke .immediate gpus h inputs outputs params) := by
  rw [invoke_eq, invoke_eq]
  constructor
  · refine Meets.bind (Q := fun _ => State.Orderly) (.transition (fun s ho x t ht => ?_)
      fun _ ho => ho) fun hs => .pure fun _ ho => ho
    obtain ⟨⟨hs, task, u⟩, hin, hpair⟩ := map_eq_ok.1 ht
    have htakes := ho.handIn_ok hin
    obtain rfl := congrArg Prod.snd hpair
    exact htakes.orderly.enqueue htakes.sound
  · intro s ho
    -- the task is the last one either way: of what waits, or of what has been run
    change EStateM.bind _ _ s.drained = finished (EStateM.bind _ _ s)
    unfold EStateM.bind Action.transition accept
    rw [ho.handIn_drained]
    cases hin : handIn gpus h inputs outputs params s with
    | error e => rfl
    | ok r =>
      obtain ⟨hs, task, t⟩ := r
      have htakes := ho.handIn_ok hin
      have ht := htakes.orderly
      have hnext := ht.settled.orderly.enqueue (ht.length_drained ▸ htakes.sound)
      simp only [Except.map, hnext.drain_bind, ht.drained_enqueue]
      rfl

end Invocation

theorem defers_call (order : MarkOrder) (c : Library.Call) :
    Defers (c.perform (engine .deferred order gpus)) (c.perform (engine .immediate order gpus)) := by
  -- Calls that look at memory run the queue first; the others look at handles and the tape only.
  cases c with
  | version => exact (Defers.pure _).map _
  | gpuCount => exact (Defers.pure _).map _
  | listOps => exact (Defers.pure _).map _
  | getOp name => exact (Defers.ofExcept _).map _
  | create d s t st delayed => exact (defers_create gpus d s t st).map _
  | free h => exact (defers_free h).map _
  | shape h => exact ((defers_viewOf h).bind fun _ => .pure _).map _
  | type h => exact ((defers_viewOf h).bind fun _ => .pure _).map _
  | device h => exact ((defers_entryOf h).bind fun _ => .pure _).map _
  | storage h => exact ((defers_entryOf h).bind fun _ => .pure _).map _
  | copyIn h bytes length => exact (flushing_copyIn h bytes length).defers.map _
  | copyOut h room length => exact (flushing_copyOut h room length).defers.map _
  | waitToRead h => exact (flushing_wait h).defers.map _
  | waitToWrite h => exact (flushing_wait h).defers.map _
  | waitAll => exact flushing_waitAll.defers.map _
  | invoke h inputs outputs params => exact defers_invoke.map _
  | row h index => exact (defers_derive h (rowOf_buffer index)).map _
  | slice h first last => exact (defers_derive h (sliceOf_buffer first last)).map _
  | reshape h dims reverse => exact (defers_derive h (reshapeOf_buffer dims)).map _
  | markVariables vars requests grads => exact (defers_markVariables vars requests grads).map _
  | backward heads grads retain training =>
    exact (flushing_backward order heads grads retain).defers.map _
  | getGrad h => exact (defers_getGrad h).map _
  | setRecording on => exact (defers_setRecording on).map _
  | setTraining on => exact (defers_setTraining on).map _
  | randomSeed seed => exact (defers_randomSeed seed).map _

end ScopedTensor.Reference
