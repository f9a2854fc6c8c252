import ScopedTensor.Proofs.Store.Bounds

/-! The engine with its bounds checked. Here an access beyond a buffer and a division by zero stop the
call, with no result and no state to go on from. No call of the engine is ever stopped. -/

namespace ScopedTensor

open Reference

variable {half : HalfPrecision}

instance (m : Memory) (v : View) : Decidable (m.Fits v) :=
  decidable_of_iff
    (v.buffer < m.buffers.length ∧ v.offset + v.size ≤ (m.cells v.buffer).length)
    ⟨fun h => ⟨h.1, h.2⟩, fun h => ⟨h.buffer, h.cells⟩⟩

namespace Memory

variable (m : Memory) (v : View)

def read? : Option Values := if m.Fits v then some (m.read v) else none

def write? [HalfPrecision] (values : Values) : Option Memory :=
  if m.Fits v then some (m.write v values) else none

def accumulate? [HalfPrecision] (values : Values) : Option Memory :=
  if m.Fits v then some (m.accumulate v values) else none

def operand? : Option Operand := (m.read? v).map fun values => ⟨values, v.shape⟩

end Memory

namespace Attempt

variable {α β : Type}

def div (a b : Nat) : Attempt Nat := if b = 0 then (none : Option _) else pure (a / b)

theorem some_bind (x : Except Error α) (f : α → Except Error β) (g : α → Attempt β)
    (h : ∀ a, x = .ok a → g a = some (f a)) :
    (show Attempt α from some x) >>= g = some (x >>= f) := by
  cases x with
  | error e => rfl
  | ok a => exact h a rfl

theorem some_mapM (f : α → Except Error β) (g : α → Attempt β) (xs : List α)
    (h : ∀ x ∈ xs, g x = some (f x)) : xs.mapM g = some (xs.mapM f) := by
  induction xs with
  | nil => rfl
  | cons x xs ih =>
    rw [List.mapM_cons, List.mapM_cons, h x List.mem_cons_self,
      ih fun y hy => h y (List.mem_cons_of_mem _ hy)]
    cases f x with
    | error e => rfl
    | ok y => cases xs.mapM f <;> rfl

theorem some_foldlM (f : β → α → Except Error β) (g : β → α → Attempt β) (xs : List α)
    (h : ∀ x ∈ xs, ∀ y, g y x = some (f y x)) :
    ∀ y, xs.foldlM g y = some (xs.foldlM f y) := by
  induction xs with
  | nil => exact fun y => rfl
  | cons x xs ih =>
    intro y
    rw [List.foldlM_cons, List.foldlM_cons, h x List.mem_cons_self]
    exact some_bind _ _ _ fun z _ => ih (fun x hx => h x (List.mem_cons_of_mem _ hx)) z

end Attempt

namespace Memory

variable {m : Memory} {v : View}

theorem read?_eq (h : m.Fits v) : m.read? v = some (m.read v) := if_pos h

theorem write?_eq (h : m.Fits v) (values : Values) : m.write? v values = some (m.write v values) :=
  if_pos h

theorem accumulate?_eq (h : m.Fits v) (values : Values) :
    m.accumulate? v values = some (m.accumulate v values) := if_pos h

theorem operand?_eq (h : m.Fits v) : m.operand? v = some ⟨m.read v, v.shape⟩ := by
  unfold operand?
  rw [read?_eq h]
  rfl

theorem mapM_operand? {vs : List View} (h : ∀ v ∈ vs, m.Fits v) :
    vs.mapM m.operand? = some (vs.map fun v => ⟨m.read v, v.shape⟩) := by
  induction vs with
  | nil => rfl
  | cons v vs ih =>
    rw [List.mapM_cons, operand?_eq (h v List.mem_cons_self),
      ih fun w hw => h w (List.mem_cons_of_mem _ hw)]
    rfl

def writeAll? [HalfPrecision] (m : Memory) (rs : List (View × Values)) : Option Memory :=
  rs.foldlM (fun m r => m.write? r.1 r.2) m

theorem writeAll?_eq (rs : List (View × Values)) :
    ∀ {m : Memory}, (∀ r ∈ rs, m.Fits r.1) → m.writeAll? rs = some (m.writeAll rs) := by
  induction rs with
  | nil => intro m _; rfl
  | cons r rs ih =>
    intro m h
    unfold writeAll?
    rw [List.foldlM_cons, write?_eq (h r List.mem_cons_self)]
    exact ih fun x hx => (writes_write m r.1 r.2).fits (h x (List.mem_cons_of_mem _ hx))

end Memory

def Node.contributions? (m : Memory) (n : Node) (gs : List (Option Values)) :
    Attempt (List (Option Values)) := show Option _ from do
  let inputs ← (n.inputs.map Tracked.view).mapM m.operand?
  let outputs ← (n.outputs.map Tracked.view).mapM m.operand?
  return n.op.gradient n.params inputs outputs gs

def Node.visit? (m : Memory) (gs : Gradients) (n : Node) : Attempt Gradients :=
  let outputGradients := n.outputs.map fun o => gs.get? o.id
  if outputGradients.all Option.isNone then pure gs
  else return gs.accumulateAll (n.inputs.zip (← n.contributions? m outputGradients))

def Mark.deliver? [HalfPrecision] (gs : Gradients) (m : Memory) (id : Nat) (mark : Mark) :
    Option Memory :=
  match gs.get? id with
  | none => some m
  | some g =>
    match mark.request with
    | .skip => some m
    | .write => m.write? mark.gradient g
    | .add => m.accumulate? mark.gradient g

namespace Tape

def gradients? (m : Memory) (nodes : List Node) (seeds : List (Nat × Values)) :
    Attempt Gradients :=
  nodes.reverse.foldlM (fun gs n => n.visit? m gs) (Gradients.seeded seeds)

def backward? [HalfPrecision] (m : Memory) (nodes : List Node) (marks : Table Mark)
    (seeds : List (Nat × Values)) : Attempt Memory := do
  let gs ← gradients? m nodes seeds
  ExceptT.lift (marks.entries.foldlM (fun m e => e.2.deliver? gs m e.1) m)

end Tape

section Passes

variable {m : Memory}

def Node.Readable (m : Memory) (n : Node) : Prop :=
  ∀ i ∈ n.inputs ++ n.outputs, m.Fits i.view

theorem Node.contributions?_eq {n : Node} (h : n.Readable m) (gs : List (Option Values)) :
    n.contributions? m gs = some (n.contributions m gs) := by
  have hfits : ∀ ts : List Tracked, (∀ i ∈ ts, i ∈ n.inputs ++ n.outputs) →
      (ts.map Tracked.view).mapM m.operand? = some (ts.map (Tracked.operand m)) := by
    intro ts hts
    rw [Memory.mapM_operand? fun v hv => ?_, List.map_map]
    · rfl
    · obtain ⟨i, hi, rfl⟩ := List.mem_map.1 hv
      exact h i (hts i hi)
  unfold Node.contributions?
  rw [hfits _ fun i hi => List.mem_append_left _ hi, hfits _ fun i hi => List.mem_append_right _ hi]
  rfl

theorem Node.visit?_eq {n : Node} (h : n.Readable m) (gs : Gradients) :
    n.visit? m gs = some (n.visit m gs) := by
  unfold Node.visit? Node.visit
  simp only [Node.contributions?_eq h]
  split
  · rfl
  · cases n.contributions m (n.outputs.map fun o => gs.get? o.id) <;> rfl

theorem Mark.deliver?_eq {k : Mark} (h : m.Fits k.gradient) (gs : Gradients) (id : Nat) :
    k.deliver? gs m id = some (k.deliver gs m id) := by
  unfold Mark.deliver? Mark.deliver
  cases gs.get? id with
  | none => rfl
  | some g =>
    cases k.request with
    | skip => rfl
    | write => exact Memory.write?_eq h g
    | add => exact Memory.accumulate?_eq h g

theorem foldlM_deliver? (gs : Gradients) (es : List (Nat × Mark)) :
    ∀ {m : Memory}, (∀ e ∈ es, m.Fits e.2.gradient) →
      es.foldlM (fun m e => e.2.deliver? gs m e.1) m =
        some (es.foldl (fun m e => e.2.deliver gs m e.1) m) := by
  induction es with
  | nil => intro m _; rfl
  | cons e es ih =>
    intro m h
    rw [List.foldlM_cons, Mark.deliver?_eq (h e List.mem_cons_self)]
    exact ih fun x hx =>
      (e.2.writes_deliver gs m e.1).fits (h x (List.mem_cons_of_mem _ hx))

theorem Tape.backward?_eq {nodes : List Node} {marks : Table Mark}
    (hnodes : ∀ n ∈ nodes, n.Readable m) (hmarks : ∀ e ∈ marks.entries, m.Fits e.2.gradient)
    (seeds : List (Nat × Values)) :
    Tape.backward? m nodes marks seeds = some (Tape.backward m nodes marks seeds) := by
  have hgs : Tape.gradients? m nodes seeds = some (Tape.gradients m nodes seeds) :=
    Attempt.some_foldlM _ _ _ (fun n hn gs => Node.visit?_eq (hnodes n (List.mem_reverse.1 hn)) gs) _
  unfold Tape.backward? Tape.backward
  rw [hgs]
  refine Attempt.some_bind _ _ _ fun gs _ => ?_
  rw [foldlM_deliver? gs marks.entries hmarks]
  rfl

end Passes

namespace Reference

open ScopedTensor.Action State Library

/-- A task that is stopped by no check may still break off. -/
def Task.run? [HalfPrecision] (t : Task) (m : Memory) : Option (Attempt Memory) := do
  match t.op.evaluate (← t.inputs.mapM m.operand?) t.params with
  | none => return none
  | some (.error e) => return some (.error e)
  | some (.ok results) => return some (.ok (← m.writeAll? (t.outputs.zip results)))

def runAll? [HalfPrecision] : List Task → Memory → Option ((Memory × Option Error) × Bool)
  | [], m => some ((m, none), false)
  | t :: ts, m => do
    match ← t.run? m with
    | none => return ((← runAll? ts m).1, true)
    | some (.error e) =>
      let r ← runAll? ts m
      return ((r.1.1, some e), r.2)
    | some (.ok m') => runAll? ts m'

theorem Task.run?_eq {t : Task} {m : Memory} (h : ∀ v ∈ t.inputs ++ t.outputs, m.Fits v) :
    t.run? m = some (t.run m) := by
  unfold Task.run? Task.run
  rw [Memory.mapM_operand? fun v hv => h v (List.mem_append_left _ hv)]
  simp only [Option.bind_eq_bind, Option.bind_some]
  match t.op.evaluate (t.inputs.map fun v => ⟨m.read v, v.shape⟩) t.params with
  | none => rfl
  | some (.error e) => rfl
  | some (.ok results) =>
    simp only
    rw [Memory.writeAll?_eq _ fun r hr => h r.1 (List.mem_append_right _ (List.of_mem_zip hr).1)]
    rfl

theorem runAll?_eq [HalfPrecision] (ts : List Task) :
    ∀ {m : Memory}, (∀ t ∈ ts, ∀ v ∈ t.inputs ++ t.outputs, m.Fits v) →
      runAll? ts m = some (runAll ts m, breaksOff ts m) := by
  induction ts with
  | nil => intro m _; rfl
  | cons t ts ih =>
    intro m h
    have hsame := ih fun k hk => h k (List.mem_cons_of_mem _ hk)
    unfold runAll? runAll breaksOff
    rw [Task.run?_eq (h t List.mem_cons_self)]
    rcases hrun : t.run m with _ | (e | m')
    · simp only [Option.bind_eq_bind, Option.bind_some, hsame]
      rfl
    · simp only [Option.bind_eq_bind, Option.bind_some, hsame]
      rfl
    · have hrest := ih fun k hk v hv =>
        (Task.writes_run hrun).fits (h k (List.mem_cons_of_mem _ hk) v hv)
      simp only [Option.bind_eq_bind, Option.bind_some, hrest]

abbrev Checked (α : Type) := ExceptT Error (StateT State Option) α

namespace Checked

variable {α β : Type}

def ofAction (a : Action State α) : Checked α := fun s =>
  match a s with
  | .ok x t => some (.ok x, t)
  | .error e t => some (.error e, t)

def query (f : State → Attempt α) : Checked α := fun s => (f s).run.map fun r => (r, s)

def transition (f : State → Attempt (α × State)) : Checked α := fun s =>
  (f s).run.map fun
    | .ok (x, t) => (.ok x, t)
    | .error e => (.error e, s)

def drain [HalfPrecision] : Checked Unit := fun s =>
  (runAll? s.queue s.memory).map fun r =>
    ((match r.1.2 with
      | none => .ok ()
      | some e => .error e),
      { s with memory := r.1.1, queue := [], halted := s.halted || r.2 })

def copyIn [HalfPrecision] (h : Handle) (bytes : Bytes) (length : Nat) : Checked Unit := do
  let view ← ofAction (viewOf h)
  if length ≠ view.size ∨ bytes.length ≠ length * view.type.bytes then
    throw (.native "sync_copy_from_cpu" (.hostSource view.size length bytes.length))
  drain
  transition fun s => show Option _ from do
    return .ok ((), { s with memory := ← s.memory.write? view (view.type.decode bytes) })

def copyOut [HalfPrecision] (h : Handle) (room length : Nat) : Checked Bytes := do
  let view ← ofAction (viewOf h)
  if length ≠ view.size ∨ room ≠ length * view.type.bytes then
    throw (.native "sync_copy_to_cpu" (.hostTarget view.size length room))
  drain
  query fun s => show Option _ from do
    return .ok (view.type.encode (← s.memory.read? view))

def wait [HalfPrecision] (h : Handle) : Checked Unit := do
  let _ ← ofAction (entryOf h)
  modify fun s => { s with waits := s.waits + 1 }
  drain

def waitAll [HalfPrecision] : Checked Unit := do
  modify fun s => { s with waitAlls := s.waitAlls + 1 }
  drain

def rowOf (index : Nat) (v : View) : Attempt View :=
  match v.shape.dims with
  | [] => throw (.native "at" (.index index v.shape))
  | n :: rest =>
    if n ≤ index then throw (.native "at" (.index index v.shape))
    else return v.window (index * (← Attempt.div v.size n)) ⟨if rest.isEmpty then [1] else rest⟩

def sliceOf (first last : Nat) (v : View) : Attempt View :=
  match v.shape.dims with
  | [] => throw (.native "slice" (.range first last v.shape))
  | n :: _ =>
    if last ≤ first ∨ n < last then throw (.native "slice" (.range first last v.shape))
    else
      return v.window (first * (← Attempt.div v.size n)) (v.shape.withDim 0 (last - first))

def derive (h : Handle) (f : View → Attempt View) : Checked Handle :=
  transition fun s => do
    let e ← show Attempt Entry from some (s.entry h)
    return s.insert { e with view := ← f e.view }

def seedOf (s : State) (head : Handle) (headGradient : Option Handle) :
    Attempt (Nat × Values) := do
  let e ← show Attempt Entry from some (s.entry head)
  match headGradient with
  | none => return (head.id, List.replicate e.view.size .one)
  | some g => do
    let seed ← show Attempt Entry from some (s.entry g)
    let values ← ExceptT.lift (s.memory.read? seed.view)
    if values.length ≠ e.view.size then
      throw (.native "backward" (.headGradient values.length e.view.size))
    else return (head.id, values)

def seedsOf (s : State) (heads : List Handle) (headGradients : List (Option Handle)) :
    Attempt (List (Nat × Values)) :=
  heads.zipIdx.mapM fun (head, i) => seedOf s head (headGradients[i]?.join)

def backward [HalfPrecision] (heads : List Handle) (headGradients : List (Option Handle))
    (retain : Bool) : Checked Unit := do
  drain
  let seeds ← query fun s => seedsOf s heads headGradients
  let nodes := (← get).tape.nodes
  modify fun s => { s with tape := s.tape.afterPass retain }
  transition fun s => do
    let memory ← Tape.backward? s.memory nodes s.tape.marks seeds
    return ((), { s with memory })

def perform [HalfPrecision] (gpus : Nat) : Call → Checked Answer
  | .copyIn h bytes length => (fun _ => .done) <$> copyIn h bytes length
  | .copyOut h room length => .bytes <$> copyOut h room length
  | .waitToRead h => (fun _ => .done) <$> wait h
  | .waitToWrite h => (fun _ => .done) <$> wait h
  | .waitAll => (fun _ => .done) <$> waitAll
  | .row h index => .handle <$> derive h (rowOf index)
  | .slice h first last => .handle <$> derive h (sliceOf first last)
  | .backward heads grads retain _ => (fun _ => .done) <$> backward heads grads retain
  | c => ofAction (c.perform (library gpus))

end Checked

/-- Where `P` holds, the checked action is not stopped, and does what `a` does. -/
def Follows {α : Type} (P : State → Prop) (c : Checked α) (a : Action State α) : Prop :=
  ∀ s, P s → c s = Checked.ofAction a s

section Following

variable {α β : Type} {P P' : State → Prop} {c : Checked α} {a : Action State α}

theorem Follows.imp (h : Follows P c a) (hP : ∀ s, P' s → P s) : Follows P' c a :=
  fun s hs => h s (hP s hs)

theorem Follows.refl (a : Action State α) : Follows P (Checked.ofAction a) a := fun _ _ => rfl

theorem Follows.bind {Q : α → State → Prop} {E : State → Prop} {k : α → Checked β}
    {f : α → Action State β} (h : Follows P c a) (ha : Meets P a Q E)
    (hk : ∀ x, Follows (Q x) (k x) (f x)) : Follows P (c >>= k) (a >>= f) := by
  intro s hs
  have hmeets := ha s hs
  change ((c s).bind fun r => ExceptT.bindCont k r.1 r.2) = _
  rw [h s hs]
  unfold Checked.ofAction
  cases hr : a s with
  | ok x t =>
    rw [hr] at hmeets
    rw [bind_of_ok hr]
    exact hk x t hmeets
  | error e t =>
    rw [bind_error hr]
    rfl

theorem Follows.map (f : α → β) (h : Follows P c a) : Follows P (f <$> c) (f <$> a) := by
  intro s hs
  change ((c s).bind fun r => _) = Checked.ofAction (EStateM.map f a) s
  rw [h s hs]
  unfold Checked.ofAction EStateM.map
  cases a s <;> rfl

theorem Follows.guard {p : Prop} [Decidable p] {e : Error} {k : PUnit → Checked α}
    {f : PUnit → Action State α} (h : Follows P (k ⟨⟩) (f ⟨⟩)) :
    Follows P (if p then (do let r ← MonadExcept.throw e; k r) else k ⟨⟩)
      (if p then (do let r ← MonadExcept.throw e; f r) else f ⟨⟩) := by
  split
  · exact fun _ _ => rfl
  · exact h

theorem Follows.query {f : State → Attempt α} {g : State → Except Error α}
    (h : ∀ s, P s → f s = some (g s)) : Follows P (Checked.query f) (Action.query g) := by
  intro s hs
  unfold Checked.query Checked.ofAction Action.query
  rw [h s hs]
  cases g s <;> rfl

theorem Follows.transition {f : State → Attempt (α × State)}
    {g : State → Except Error (α × State)} (h : ∀ s, P s → f s = some (g s)) :
    Follows P (Checked.transition f) (Action.transition g) := by
  intro s hs
  unfold Checked.transition Checked.ofAction Action.transition
  rw [h s hs]
  cases g s <;> rfl

theorem Follows.modify (f : State → State) :
    Follows P (modify f : Checked PUnit) (modify f) := fun _ _ => rfl

theorem bounded_drain (F : View → Prop) :
    Keeps (fun s => s.Bounded ∧ ∀ v, F v → s.memory.Fits v) State.drain := by
  refine .of_after fun s hs => ?_
  rw [after_drain]
  exact ⟨hs.1.change .drain, fun v hv => (writes_runAll _ _).fits (hs.2 v hv)⟩

theorem follows_drain (F : View → Prop) :
    Follows (fun s => s.Bounded ∧ ∀ v, F v → s.memory.Fits v) Checked.drain State.drain := by
  intro s hs
  have hrun := runAll?_eq s.queue fun t ht v hv => hs.1 v (.task ht hv)
  unfold Checked.drain Checked.ofAction State.drain State.drained
  rw [hrun, Option.map_some]
  cases (runAll s.queue s.memory).2 <;> rfl

theorem bounded_viewOf (h : Handle) :
    Meets State.Bounded (viewOf h) (fun v s => s.Bounded ∧ ∀ w, w = v → s.memory.Fits w)
      fun _ => True := by
  refine .map (.query (fun s hs e he => ⟨hs, fun w hw => ?_⟩) fun _ _ => trivial)
  rw [hw]
  exact hs _ (.entry (entry_eq_ok.1 he))

theorem follows_copyIn (h : Handle) (bytes : Bytes) (length : Nat) :
    Follows State.Bounded (Checked.copyIn h bytes length) (copyIn h bytes length) := by
  refine (Follows.refl _).bind (bounded_viewOf h) fun v => .guard ?_
  refine (follows_drain _).bind ((bounded_drain _).imp (fun _ h => h) (fun _ _ h => h)
    fun _ _ => trivial) fun _ => ?_
  refine Follows.transition (g := fun s => .ok ((), { s with
    memory := s.memory.write v (v.type.decode bytes) })) fun s hs => ?_
  rw [Memory.write?_eq (hs.2 v rfl)]
  rfl

theorem follows_copyOut (h : Handle) (room length : Nat) :
    Follows State.Bounded (Checked.copyOut h room length) (copyOut h room length) := by
  refine (Follows.refl _).bind (bounded_viewOf h) fun v => .guard ?_
  refine (follows_drain _).bind ((bounded_drain _).imp (fun _ h => h) (fun _ _ h => h)
    fun _ _ => trivial) fun _ => ?_
  refine Follows.query (g := fun s => .ok (v.type.encode (s.memory.read v))) fun s hs => ?_
  rw [Memory.read?_eq (hs.2 v rfl)]
  rfl

theorem follows_waitAll : Follows State.Bounded Checked.waitAll waitAll := by
  refine (Follows.modify _).bind (Q := fun _ => State.Bounded) (E := fun _ => True)
    (.modify fun s hs => hs.change (.count _ _ _ _)) fun _ => ?_
  exact (follows_drain fun _ => False).imp fun s hs => ⟨hs, nofun⟩

theorem follows_wait (h : Handle) : Follows State.Bounded (Checked.wait h) (wait h) := by
  refine (Follows.refl _).bind (Q := fun _ => State.Bounded) (E := fun _ => True)
    (.query (fun _ hs _ _ => hs) fun _ _ => trivial) fun _ => ?_
  refine (Follows.modify _).bind (Q := fun _ => State.Bounded) (E := fun _ => True)
    (.modify fun s hs => hs.change (.count _ _ _ _)) fun _ => ?_
  exact (follows_drain fun _ => False).imp fun s hs => ⟨hs, nofun⟩

theorem Attempt.div_eq {a b : Nat} (h : b ≠ 0) : Attempt.div a b = pure (a / b) := if_neg h

theorem Checked.rowOf_eq (index : Nat) (v : View) :
    Checked.rowOf index v = some (Reference.rowOf index v) := by
  unfold Checked.rowOf Reference.rowOf
  cases v.shape.dims with
  | nil => rfl
  | cons n rest =>
    simp only
    by_cases hindex : n ≤ index
    · rw [if_pos hindex, if_pos hindex]
      rfl
    · rw [if_neg hindex, if_neg hindex, Attempt.div_eq (by omega)]
      rfl

theorem Checked.sliceOf_eq (first last : Nat) (v : View) :
    Checked.sliceOf first last v = some (Reference.sliceOf first last v) := by
  unfold Checked.sliceOf Reference.sliceOf
  cases v.shape.dims with
  | nil => rfl
  | cons n rest =>
    simp only
    by_cases hrange : last ≤ first ∨ n < last
    · rw [if_pos hrange, if_pos hrange]
      rfl
    · rw [if_neg hrange, if_neg hrange, Attempt.div_eq (by omega)]
      rfl

theorem follows_derive (h : Handle) {f : View → Attempt View} {g : View → Except Error View}
    (hf : ∀ v, f v = some (g v)) : Follows P (Checked.derive h f) (derive h g) := by
  refine .transition fun s _ => Attempt.some_bind _ _ _ fun e _ => ?_
  rw [hf]
  exact Attempt.some_bind _ _ _ fun w _ => rfl

theorem seedOf_eq {s : State} (hs : s.Bounded) (head : Handle) (headGradient : Option Handle) :
    Checked.seedOf s head headGradient = some (seedOf s head headGradient) := by
  refine Attempt.some_bind _ _ _ fun e _ => ?_
  cases headGradient with
  | none => rfl
  | some g =>
    refine Attempt.some_bind _ _ _ fun k hk => ?_
    rw [Memory.read?_eq (hs _ (.entry (entry_eq_ok.1 hk)))]
    change (if _ then _ else _ : Attempt _) = some (if _ then _ else _)
    split <;> rfl

theorem follows_backward (heads : List Handle) (headGradients : List (Option Handle))
    (retain : Bool) : Follows State.Bounded (Checked.backward heads headGradients retain)
      (backward .asMarked heads headGradients retain) := by
  have hnone : ∀ s : State, s.Bounded → s.Bounded ∧ ∀ v, False → s.memory.Fits v :=
    fun s hs => ⟨hs, nofun⟩
  refine ((follows_drain fun _ => False).imp hnone).bind (Q := fun _ => State.Bounded)
    (E := fun _ => True) ((bounded_drain _).imp hnone (fun _ _ h => h.1) fun _ _ => trivial)
    fun _ => ?_
  refine (Follows.query fun s hs => Attempt.some_mapM _ _ _ fun p _ => seedOf_eq hs _ _).bind
    (Q := fun _ => State.Bounded) (E := fun _ => True) (.query (fun _ hs _ _ => hs)
      fun _ _ => trivial) fun seeds => ?_
  refine Follows.bind (c := get) (Q := fun t s => s = t ∧ s.Bounded) (E := fun _ => True)
    (fun _ _ => rfl) (.get fun s hs => ⟨rfl, hs⟩) fun t => ?_
  refine (Follows.modify _).bind (E := fun _ => True)
    (Q := fun _ s => s.Bounded ∧ ∀ n ∈ t.tape.nodes, n.Readable s.memory)
    (.modify fun s hs => ?_) fun _ => .transition fun s hs => ?_
  · obtain ⟨rfl, hs⟩ := hs
    refine ⟨fun v hv => hs v (hv.mono (fun _ _ h => h) (fun _ h => h) (fun n hn => ?_) ?_),
      fun n hn i hi => hs _ (.node hn hi)⟩
    · rcases s.tape.nodes_afterPass retain with hnodes | hnodes
      · exact hnodes ▸ hn
      · exact absurd (hnodes ▸ hn) List.not_mem_nil
    · exact fun _ h => s.tape.marks_afterPass retain ▸ h
  · rw [Tape.backward?_eq hs.2 fun e he => hs.1 _ (.mark he)]
    exact Attempt.some_bind _ _ _ fun m _ => rfl

/-- Where all views in use are inside their buffers, no call is stopped. -/
theorem follows_perform (gpus : Nat) (c : Call) :
    Follows State.Bounded (Checked.perform gpus c) (c.perform (library gpus)) := by
  cases c with
  | copyIn h bytes length => exact (follows_copyIn h bytes length).map _
  | copyOut h room length => exact (follows_copyOut h room length).map _
  | waitToRead h => exact (follows_wait h).map _
  | waitToWrite h => exact (follows_wait h).map _
  | waitAll => exact follows_waitAll.map _
  | row h index => exact (follows_derive h (Checked.rowOf_eq index)).map _
  | slice h first last => exact (follows_derive h (Checked.sliceOf_eq first last)).map _
  | backward heads grads retain training => exact (follows_backward heads grads retain).map _
  | _ => exact fun _ _ => rfl

end Following

theorem Checked.ofAction_perform (gpus : Nat) (c : Call) (s : State) :
    Checked.ofAction (c.perform (library gpus)) s =
      some (c.reply (library gpus) s, c.step (library gpus) s) := by
  unfold Checked.ofAction Call.reply Call.step after
  cases c.perform (library gpus) s <;> rfl

/-- After any calls every view in use, by a handle, a task that waits, a recorded operator or a mark,
lies inside its buffer. So none of the checks ever stops a call: whatever call is made next, the
checked engine replies as the engine does and ends in the same state. -/
theorem calls_in_bounds [HalfPrecision] (gpus : Nat) (cs : List Call) :
    let s := Call.run (library gpus) cs .initial
    (∀ v, s.Holds v → v.buffer < s.memory.buffers.length ∧
      v.offset + v.shape.size ≤ (s.memory.cells v.buffer).length) ∧
    ∀ c : Call, Checked.perform gpus c s =
      some (c.reply (library gpus) s, c.step (library gpus) s) := by
  intro s
  have hs : s.Bounded := bounded_run gpus cs
  refine ⟨fun v hv => ⟨(hs v hv).buffer, (hs v hv).cells⟩, fun c => ?_⟩
  rw [follows_perform gpus c s hs, Checked.ofAction_perform]

end Reference
end ScopedTensor
