import ScopedTensor.Proofs.Deferral.Runs

/-! What the engine's calls leave alone. A call that writes touches the cells of the views it is
given and no others, whatever waited in the queue before it, and all else it may do is add
buffers. -/

namespace ScopedTensor

open Binary

variable {half : HalfPrecision}

namespace View

def Covers (v : View) (buffer k : Nat) : Prop :=
  v.buffer = buffer ∧ v.offset ≤ k ∧ k < v.offset + v.size

def Disjoint (v w : View) : Prop := ∀ b k, v.Covers b k → ¬ w.Covers b k

def Apart (v w : View) : Prop :=
  v.buffer ≠ w.buffer ∨ v.offset + v.size ≤ w.offset ∨ w.offset + w.size ≤ v.offset

variable {v w : View}

instance (b k : Nat) : Decidable (v.Covers b k) := inferInstanceAs (Decidable (_ ∧ _ ∧ _))

instance : Decidable (v.Apart w) := inferInstanceAs (Decidable (_ ∨ _ ∨ _))

theorem Apart.disjoint (h : v.Apart w) : v.Disjoint w := by
  rintro b k hk ⟨hb, hle, hlt⟩
  rcases h with h | h | h
  · exact h (hk.1.trans hb.symm)
  · exact absurd hk.2.2 (by omega)
  · exact absurd hk.2.1 (by omega)

end View

theorem getElem?_overlay (f : Binary64 → Binary64 → Binary64) (start : Nat) (cells values : Values)
    (k : Nat) : (overlay f start cells values)[k]? =
      cells[k]?.map fun old => if start ≤ k then values[k - start]?.elim old (f old) else old := by
  by_cases hk : k < cells.length
  · have hstart : (cells.take start).length = min start cells.length := List.length_take
    have hmiddle : ((cells.drop start).zipWith f values).length =
        min (cells.length - start) values.length := by simp
    unfold overlay
    rw [List.append_assoc, List.getElem?_eq_getElem (l := cells) hk, Option.map_some]
    split
    case isFalse hlt =>
      rw [List.getElem?_append_left (by omega), List.getElem?_take_of_lt (by omega),
        List.getElem?_eq_getElem hk]
    case isTrue hle =>
      rw [List.getElem?_append_right (by omega), hstart, Nat.min_eq_left (by omega)]
      by_cases hvalue : k - start < values.length
      · rw [List.getElem?_append_left (by omega), List.getElem?_zipWith, List.getElem?_drop,
          Nat.add_sub_cancel' hle, List.getElem?_eq_getElem hk, List.getElem?_eq_getElem hvalue]
        rfl
      · rw [List.getElem?_append_right (by omega), hmiddle, Nat.min_eq_right (by omega),
          List.getElem?_drop, List.getElem?_eq_none (l := values) (by omega)]
        have hplace : start + values.length + (k - start - values.length) = k := by omega
        rw [hplace, List.getElem?_eq_getElem hk]
        rfl
  · rw [List.getElem?_eq_none (by rw [length_overlay]; omega),
      List.getElem?_eq_none (l := cells) (by omega)]
    rfl

namespace Memory

/-- From `m` to `m'` no cells but those of `ws` were written, and no buffer was lost. -/
structure Writes (ws : List View) (m m' : Memory) : Prop where
  length_le : m.buffers.length ≤ m'.buffers.length
  length : ∀ b < m.buffers.length, (m'.cells b).length = (m.cells b).length
  cells : ∀ b < m.buffers.length, ∀ k, (∀ w ∈ ws, ¬ w.Covers b k) →
    (m'.cells b)[k]? = (m.cells b)[k]?

variable {ws us : List View} {m m' m'' : Memory} {v : View}

theorem Writes.refl (m : Memory) : Writes ws m m :=
  ⟨Nat.le_refl _, fun _ _ => rfl, fun _ _ _ _ => rfl⟩

theorem Writes.mono (h : Writes ws m m') (hws : ∀ w ∈ ws, w ∈ us) : Writes us m m' :=
  ⟨h.length_le, h.length, fun b hb k hk => h.cells b hb k fun w hw => hk w (hws w hw)⟩

theorem Writes.trans (h : Writes ws m m') (h' : Writes ws m' m'') : Writes ws m m'' where
  length_le := Nat.le_trans h.length_le h'.length_le
  length b hb := (h'.length b (Nat.lt_of_lt_of_le hb h.length_le)).trans (h.length b hb)
  cells b hb k hk :=
    (h'.cells b (Nat.lt_of_lt_of_le hb h.length_le) k hk).trans (h.cells b hb k hk)

theorem Writes.of_fresh (h : Writes us m m')
    (hus : ∀ w ∈ us, w ∈ ws ∨ m.buffers.length ≤ w.buffer) : Writes ws m m' where
  length_le := h.length_le
  length := h.length
  cells b hb k hk := h.cells b hb k fun w hw hcovers => by
    rcases hus w hw with hw | hle
    · exact hk w hw hcovers
    · exact absurd hb (by rw [← hcovers.1]; omega)

theorem writes_grow (m : Memory) (fresh : List Values) : Writes ws m (m.grow fresh) := by
  have hcells : ∀ b < m.buffers.length, (m.grow fresh).cells b = m.cells b := by
    intro b hb
    unfold cells grow
    rw [List.getD_append _ _ _ _ hb]
  refine ⟨by simp [grow], fun b hb => by rw [hcells b hb], fun b hb k _ => by rw [hcells b hb]⟩

theorem getElem?_update (m : Memory) (v : View) (f : Binary64 → Binary64 → Binary64)
    (values : Values) (b k : Nat) : ((m.update v f values).cells b)[k]? =
      (m.cells b)[k]?.map fun old =>
        if v.Covers b k then values[k - v.offset]?.elim old (f old) else old := by
  unfold cells update
  simp only [List.getD_eq_getElem?_getD, List.getElem?_modify]
  cases m.buffers[b]? with
  | none => rfl
  | some cells =>
    change (if v.buffer = b then overlay f v.offset cells (values.take v.size) else cells)[k]? =
      cells[k]?.map _
    by_cases hb : v.buffer = b
    · rw [if_pos hb, getElem?_overlay]
      congr 1
      funext old
      have hcovers : v.Covers b k ↔ v.offset ≤ k ∧ k - v.offset < v.size :=
        ⟨fun ⟨_, hle, hlt⟩ => ⟨hle, by omega⟩, fun ⟨hle, hlt⟩ => ⟨hb, hle, by omega⟩⟩
      rw [List.getElem?_take, if_congr hcovers rfl rfl]
      by_cases hle : v.offset ≤ k
      · by_cases hlt : k - v.offset < v.size
        · rw [if_pos hle, if_pos hlt, if_pos ⟨hle, hlt⟩]
        · rw [if_pos hle, if_neg hlt, if_neg fun h => hlt h.2]
          rfl
      · rw [if_neg hle, if_neg fun h => hle h.1]
    · have hout : ¬ v.Covers b k := fun h => hb h.1
      simp [hb, hout]

theorem length_cells_update (m : Memory) (v : View) (f : Binary64 → Binary64 → Binary64)
    (values : Values) (b : Nat) : ((m.update v f values).cells b).length = (m.cells b).length := by
  unfold cells update
  simp only [List.getD_eq_getElem?_getD, List.getElem?_modify]
  cases m.buffers[b]? with
  | none => rfl
  | some cells =>
    change (if v.buffer = b then overlay f v.offset cells (values.take v.size) else cells).length =
      cells.length
    split
    · exact length_overlay f _ _ _
    · rfl

theorem writes_update (m : Memory) (v : View) (f : Binary64 → Binary64 → Binary64)
    (values : Values) : Writes [v] m (m.update v f values) where
  length_le := Nat.le_of_eq (length_update m v f values).symm
  length b _ := length_cells_update m v f values b
  cells b _ k hk := by
    have hout : ¬ v.Covers b k := hk v List.mem_cons_self
    rw [getElem?_update]
    simp only [if_neg hout, Option.map_id_fun', id_eq]

theorem writes_write (m : Memory) (v : View) (values : Values) :
    Writes [v] m (m.write v values) := writes_update m v _ values

theorem writes_writeAll (rs : List (View × Values)) :
    ∀ m : Memory, Writes (rs.map Prod.fst) m (m.writeAll rs) := by
  induction rs with
  | nil => exact fun m => .refl m
  | cons r rs ih =>
    intro m
    have hfirst : Writes ((r :: rs).map Prod.fst) m (m.write r.1 r.2) :=
      (writes_write m r.1 r.2).mono (by simp)
    exact hfirst.trans ((ih _).mono fun w hw => List.mem_cons_of_mem _ hw)

theorem getElem?_read (m : Memory) (v : View) (k : Nat) :
    (m.read v)[k]? = if k < v.size then (m.cells v.buffer)[v.offset + k]? else none := by
  unfold read
  rw [List.getElem?_take, List.getElem?_drop]

theorem Writes.length_read (h : Writes ws m m') (hv : v.buffer < m.buffers.length) :
    (m'.read v).length = (m.read v).length := by
  unfold read
  rw [List.length_take, List.length_take, List.length_drop, List.length_drop, h.length _ hv]

theorem Writes.read_disjoint (h : Writes ws m m') (hv : v.buffer < m.buffers.length)
    (hws : ∀ w ∈ ws, v.Disjoint w) : m'.read v = m.read v := by
  refine List.ext_getElem? fun k => ?_
  rw [getElem?_read, getElem?_read]
  split
  · rename_i hk
    exact h.cells _ hv _ fun w hw => hws w hw _ _ ⟨rfl, by omega, by omega⟩
  · rfl

theorem Writes.read_eq (h : Writes ws m m') (hv : v.buffer < m.buffers.length)
    (hws : ∀ w ∈ ws, v.Apart w) : m'.read v = m.read v :=
  h.read_disjoint hv fun w hw => (hws w hw).disjoint

end Memory

def Mark.target (k : Mark) : List View := if k.request = .skip then [] else [k.gradient]

theorem Mark.writes_deliver (k : Mark) (gs : Gradients) (m : Memory) (id : Nat) :
    Memory.Writes k.target m (k.deliver gs m id) := by
  unfold Mark.deliver Mark.target
  cases gs.get? id with
  | none => exact .refl m
  | some g =>
    cases k.request with
    | skip => exact .refl m
    | write => exact Memory.writes_write m _ _
    | add => exact Memory.writes_update m _ _ _

theorem writes_deliver (gs : Gradients) (es : List (Nat × Mark)) :
    ∀ m : Memory, Memory.Writes (es.flatMap fun e => e.2.target) m
      (es.foldl (fun m e => e.2.deliver gs m e.1) m) := by
  induction es with
  | nil => exact fun m => .refl m
  | cons e es ih =>
    intro m
    rw [List.flatMap_cons]
    exact ((e.2.writes_deliver gs m e.1).mono fun w hw => List.mem_append_left _ hw).trans
      ((ih _).mono fun w hw => List.mem_append_right _ hw)

theorem mem_of_target {es : List (Nat × Mark)} {w : View}
    (h : w ∈ es.flatMap fun e => e.2.target) :
    ∃ e ∈ es, e.2.request ≠ .skip ∧ e.2.gradient = w := by
  obtain ⟨e, he, hw⟩ := List.mem_flatMap.1 h
  unfold Mark.target at hw
  split at hw
  · exact absurd hw List.not_mem_nil
  · rename_i hrequest
    exact ⟨e, he, hrequest, (List.mem_singleton.1 hw).symm⟩

theorem writes_backward {m m' : Memory} {nodes : List Node} {marks : Table Mark}
    {seeds : List (Nat × Values)} (h : Tape.backward m nodes marks seeds = .ok m') :
    Memory.Writes (marks.entries.flatMap fun e => e.2.target) m m' := by
  obtain ⟨gs, -, hm⟩ := bind_eq_ok.1 h
  obtain rfl := pure_eq_ok.1 hm
  exact writes_deliver gs marks.entries m

namespace Reference

open ScopedTensor.Action State Library

def targets (s : State) : Call → List View
  | .copyIn h _ _ => (s.entries.get? h.id).toList.map Entry.view
  | .invoke _ _ (some hs) _ => hs.filterMap fun h => (s.entries.get? h.id).map Entry.view
  | .backward .. => s.tape.marks.entries.map fun e => e.2.gradient
  | _ => []

def written [HalfPrecision] (gpus : Nat) (s : State) (c : Call) : List View :=
  if (c.perform (library gpus)).succeeds s then targets s c else []

variable {gpus : Nat} {s t : State} {c : Call} {α : Type}

theorem Task.writes_run {k : Task} {m m' : Memory} (h : k.run m = some (.ok m')) :
    Memory.Writes k.outputs m m' := by
  obtain ⟨results, rfl⟩ := Task.exists_of_run h
  refine (Memory.writes_writeAll _ m).mono fun w hw => ?_
  obtain ⟨r, hr, rfl⟩ := List.mem_map.1 hw
  exact (List.of_mem_zip hr).1

theorem writes_runAll [HalfPrecision] (ts : List Task) (m : Memory) :
    Memory.Writes (ts.flatMap Task.outputs) m (runAll ts m).1 :=
  runAll_preserves (fun _ ht _ _ hm hrun => hm.trans ((Task.writes_run hrun).mono fun _ hw =>
    List.mem_flatMap.2 ⟨_, ht, hw⟩)) (.refl m)

theorem State.Idles.drained_memory (h : s.Idles t) (hs : s.Orderly) :
    ∃ fresh, t.drained.memory = s.drained.memory.grow fresh := by
  obtain ⟨fresh, hfresh⟩ := h.memory
  refine ⟨fresh, ?_⟩
  have hrun := congrArg Prod.fst (hs.runs fresh).grown
  unfold drained at hrun ⊢
  simp only [h.queue, hfresh, hrun]

theorem drain_empty {P : State → Prop} (h : ∀ s, P s → s.queue = []) : Keeps P drain := by
  intro s hs
  have hdrain : drain s = .ok () s := by
    unfold drain
    rw [h s hs, drained_eq (h s hs)]
    rfl
  rw [hdrain]
  exact hs

/-- What an action writes where nothing waits; one that fails writes nothing. -/
def Stores (ws : State → List View) (a : Action State α) : Prop := ∀ s : State, s.queue = [] →
  Meets (· = s) a (fun _ t => Memory.Writes (ws s) s.memory t.memory) fun t => t.memory = s.memory

theorem Stores.map {ws : State → List View} {β : Type} {f : α → β} {a : Action State α}
    (h : Stores ws a) : Stores ws (f <$> a) := fun s hs => (h s hs).map

theorem Stores.mono {ws us : State → List View} {a : Action State α} (h : Stores ws a)
    (hws : ∀ s, ∀ w ∈ ws s, w ∈ us s) : Stores us a := fun s hs =>
  (h s hs).imp (fun _ ht => ht) (fun _ _ ht => ht.mono (hws s)) fun _ ht => ht

theorem Stores.of_memory {ws : State → List View} {a : Action State α}
    (h : ∀ s : State, Keeps (fun t : State => t.queue = [] ∧ t.memory = s.memory) a) :
    Stores ws a :=
  fun s hs => (h s).imp (fun t ht => by rw [ht]; exact ⟨hs, rfl⟩)
    (fun _ t ht => by rw [ht.2]; exact .refl _) fun _ ht => ht.2

theorem stores_copyIn (h : Handle) (bytes : Bytes) (length : Nat) :
    Stores (targets · (.copyIn h bytes length)) (copyIn h bytes length) := by
  intro s hs
  let P : View → State → Prop := fun v t => t = s ∧ v ∈ targets s (.copyIn h bytes length)
  have hview : Meets (· = s) (viewOf h) P fun t => t.memory = s.memory := by
    refine Meets.map (.query (fun t ht e he => ⟨ht, ?_⟩) fun t ht => ht ▸ rfl)
    rw [ht] at he
    change e.view ∈ (s.entries.get? h.id).toList.map Entry.view
    rw [entry_eq_ok.1 he]
    exact List.mem_singleton.2 rfl
  refine hview.bind fun v => .guard (fun t ht => ht.1 ▸ rfl) fun _ => ?_
  have hdrain : Meets (P v) drain (fun _ => P v) fun t => t.memory = s.memory :=
    (drain_empty fun t (ht : P v t) => ht.1 ▸ hs).imp (fun _ ht => ht) (fun _ _ ht => ht)
      fun t ht => ht.1 ▸ rfl
  refine hdrain.bind fun _ => .modify fun t ht => ?_
  rw [ht.1]
  exact (Memory.writes_write _ _ _).mono fun w hw => List.mem_singleton.1 hw ▸ ht.2

theorem stores_copyOut (ws : State → List View) (h : Handle) (room length : Nat) :
    Stores ws (copyOut h room length) := by
  refine .of_memory fun s => ?_
  refine Meets.bind (Q := fun _ t => t.queue = [] ∧ t.memory = s.memory)
    (.map (.query (fun _ ht _ _ => ht) fun _ ht => ht)) fun v => ?_
  refine .guard (fun _ ht => ht) fun _ => (drain_empty fun _ ht => ht.1).bind fun _ => ?_
  exact .get_bind fun t ht => .done ht

theorem stores_wait (ws : State → List View) (h : Handle) : Stores ws (wait h) := by
  refine .of_memory fun s => ?_
  refine (Meets.query (fun _ ht _ _ => ht) fun _ ht => ht).bind fun _ => ?_
  exact .modify_bind (fun _ ht => ht) (drain_empty fun _ ht => ht.1)

theorem stores_waitAll (ws : State → List View) : Stores ws waitAll :=
  .of_memory fun _ => .modify_bind (fun _ ht => ht) (drain_empty fun _ ht => ht.1)

theorem stores_backward (heads : List Handle) (headGradients : List (Option Handle))
    (retain : Bool) :
    Stores (fun s => s.tape.marks.entries.flatMap fun e => e.2.target)
      (backward .asMarked heads headGradients retain) := by
  intro s hs
  let P : State → Prop := fun t => t.queue = [] ∧ t.memory = s.memory ∧ t.tape.marks = s.tape.marks
  have hP : ∀ t, P t → t.memory = s.memory := fun t ht => ht.2.1
  have hdrain : Meets P drain (fun _ => P) (fun t => t.memory = s.memory) :=
    (drain_empty fun t ht => ht.1).imp (fun _ ht => ht) (fun _ _ ht => ht) hP
  refine Meets.of_imp (P := P) (hdrain.bind fun _ => ?_) fun t ht => ht ▸ ⟨hs, rfl, rfl⟩
  refine (Meets.query (Q := fun _ => P) (fun _ ht _ _ => ht) hP).bind fun seeds => ?_
  refine .get_bind fun u hu => .modify_bind (I := P) (fun t ht => ?_) ?_
  · rw [ht]
    refine ⟨hu.1, hu.2.1, Eq.trans ?_ hu.2.2⟩
    unfold Tape.afterPass
    split <;> rfl
  · refine .transition (fun t ht x v hv => ?_) hP
    obtain ⟨m, hm, hv⟩ := bind_eq_ok.1 hv
    obtain rfl := congrArg Prod.snd (pure_eq_ok.1 hv)
    have hwrites := writes_backward hm
    rw [ht.2.1, ht.2.2] at hwrites
    exact hwrites

theorem stores_of_drains [HalfPrecision] (gpus : Nat) (hc : drains c = true) :
    Stores (targets · c) (c.perform (engine .immediate .asMarked gpus)) := by
  cases c with
  | copyIn h bytes length => exact (stores_copyIn h bytes length).map
  | copyOut h room length => exact (stores_copyOut _ h room length).map
  | waitToRead h => exact (stores_wait _ h).map
  | waitToWrite h => exact (stores_wait _ h).map
  | waitAll => exact (stores_waitAll _).map
  | backward heads grads retain training =>
    refine ((stores_backward heads grads retain).mono fun s w hw => ?_).map
    obtain ⟨e, he, -, rfl⟩ := mem_of_target hw
    exact List.mem_map_of_mem he
  | _ => exact absurd hc nofun

section Invocation

variable {h : OpHandle} {op : Operator} {inputs hs : List Handle} {outputs : Option (List Handle)}
variable {params : Params} {task : Task} {entries : List Entry} {inferred : List Signature}
variable {outs : List (Handle × View)}

theorem allocateAll_fresh (device : Device) (sigs : List Signature) :
    ∀ s : State, ∀ o ∈ (allocateAll device sigs s).1, s.memory.buffers.length ≤ o.2.buffer := by
  induction sigs with
  | nil => exact fun _ => nofun
  | cons sig sigs ih =>
    intro s o ho
    rw [allocateAll_cons] at ho
    rcases List.mem_cons.1 ho with rfl | ho
    · exact Nat.le_refl _
    · refine Nat.le_trans ?_ (ih _ o ho)
      simp [State.allocate, State.insert, Memory.allocate]

theorem outputsOf_targets (h : OpHandle) (inputs : List Handle)
    (houts : outputsOf gpus s op entries inferred outputs params = .ok (outs, t)) :
    ∀ o ∈ outs, o.2 ∈ targets s (.invoke h inputs outputs params) ∨
      s.memory.buffers.length ≤ o.2.buffer := by
  intro o ho
  cases outputs with
  | some given =>
    obtain ⟨hfound, -⟩ := outputsOf_some_ok houts
    unfold givenOutputs at hfound
    split at hfound
    · exact absurd hfound nofun
    · obtain ⟨⟨g, sig⟩, hg, hview⟩ := exists_of_mapM_eq_ok hfound ho
      obtain ⟨e, he, hview⟩ := bind_eq_ok.1 hview
      simp only at hview
      split at hview
      · exact absurd hview nofun
      · refine .inl (List.mem_filterMap.2 ⟨g, (List.of_mem_zip hg).1, ?_⟩)
        rw [entry_eq_ok.1 he, ← pure_eq_ok.1 hview]
        rfl
  | none =>
    have hfresh := allocateAll_fresh (outputDevice entries params) inferred s
    rw [outputsOf_none_ok houts] at hfresh
    exact .inr (hfresh o ho)

theorem handIn_targets (hin : handIn gpus h inputs outputs params s = .ok (hs, task, t)) :
    ∀ w ∈ task.outputs, w ∈ targets s (.invoke h inputs outputs params) ∨
      s.memory.buffers.length ≤ w.buffer := by
  obtain ⟨op, -, hsubmit⟩ := bind_eq_ok.1 hin
  obtain ⟨entries, inferred, outs, u, -, -, houts, -, rfl, -⟩ := submit_eq_ok hsubmit
  intro w hw
  obtain ⟨o, ho, rfl⟩ := List.mem_map.1 hw
  exact outputsOf_targets h inputs houts o ho

theorem State.Orderly.writes_handIn [HalfPrecision] (ho : s.Orderly)
    (hin : handIn gpus h inputs outputs params s = .ok (hs, task, t)) :
    Memory.Writes task.outputs s.drained.memory (t.enqueue task).drained.memory := by
  have htakes := ho.handIn_ok hin
  obtain ⟨fresh, hfresh⟩ := htakes.idles.drained_memory ho
  rw [← htakes.orderly.drained_enqueue]
  have hwrites := writes_runAll [task] t.drained.memory
  rw [List.flatMap_singleton, hfresh] at hwrites
  rw [← hfresh] at hwrites
  exact (hfresh ▸ Memory.writes_grow _ fresh).trans hwrites

theorem succeeds_invoke :
    ((Call.invoke h inputs outputs params).perform (library gpus)).succeeds s =
      (handIn gpus h inputs outputs params s).isOk := by
  refine (succeeds_map _ _ s).trans ?_
  have hinvoke : (library gpus).invoke h inputs outputs params =
      Action.transition (accept gpus h inputs outputs params) :=
    (invoke_eq .deferred).trans (bind_pure _)
  rw [hinvoke]
  unfold Action.succeeds Action.transition accept
  cases handIn gpus h inputs outputs params s <;> rfl

end Invocation

theorem writes_step (hs : s.Orderly) (c : Call) :
    Memory.Writes (written gpus s c) s.drained.memory (c.step (library gpus) s).drained.memory := by
  -- Operators write when they are run, other calls write before they come back or not at all.
  by_cases hinvoke : ∃ h inputs outputs params, c = .invoke h inputs outputs params
  · obtain ⟨h, inputs, outputs, params, rfl⟩ := hinvoke
    have hstep : (Call.invoke h inputs outputs params).step (library gpus) s = _ := step_invoke
    unfold after Action.transition accept at hstep
    unfold written
    rw [succeeds_invoke]
    cases hin : handIn gpus h inputs outputs params s with
    | error e =>
      rw [hin] at hstep
      rw [hstep]
      exact .refl _
    | ok r =>
      obtain ⟨hs', task, t⟩ := r
      rw [hin] at hstep
      rw [hstep]
      refine (hs.writes_handIn hin).of_fresh fun w hw => ?_
      rw [hs.length_drained]
      exact handIn_targets hin w hw
  · cases hc : drains c with
    | false =>
      have hidle := idle_call .asMarked gpus c hc fun h inputs outputs params hcall =>
        hinvoke ⟨h, inputs, outputs, params, hcall⟩
      obtain ⟨fresh, hfresh⟩ := (hidle.after (.refl s)).drained_memory hs
      unfold Call.step
      rw [hfresh]
      exact Memory.writes_grow _ fresh
    | true =>
      have hstores := stores_of_drains gpus hc s.drained rfl s.drained rfl
      rw [(defers_call gpus .asMarked c).agrees s hs] at hstores
      unfold written Action.succeeds Call.step after
      cases hr : c.perform (library gpus) s with
      | ok x t =>
        rw [hr] at hstores
        simp only
        exact hstores
      | error e t =>
        rw [hr] at hstores
        simp only
        exact Eq.symm hstores ▸ .refl _

end Reference
end ScopedTensor
