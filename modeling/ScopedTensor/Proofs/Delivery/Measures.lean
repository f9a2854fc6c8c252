import ScopedTensor.Proofs.Delivery.Sizes

/-! Arrays and their numbers. A number stands for one view for good, on the tape as among the live
handles, so the gradients of a pass over the engine's tape are as long as the arrays that they are
for. -/

namespace ScopedTensor

open Binary Gradients

variable {half : HalfPrecision}

def Node.Filled (n : Node) : Prop :=
  ∃ sigs, n.op.infer (n.inputs.map fun i => i.view.signature) n.params = .ok sigs ∧
    List.Forall₂ (fun (o : Tracked) (sig : Signature) => o.view.size = sig.shape.size) n.outputs sigs

namespace Reference

open State

/-- The views that numbers stand for: those of live handles, and those of arrays on the tape. -/
inductive State.Tells (s : State) : Tracked → Prop
  | entry {id : Nat} {e : Entry} (he : s.entries.get? id = some e) : Tells s ⟨id, e.view⟩
  | node {n : Node} {i : Tracked} (hn : n ∈ s.tape.nodes) (hi : i ∈ n.inputs ++ n.outputs) :
    Tells s i

/-- Numbers stand for one view each, operators on the tape were admitted, and marked variables have
gradients of their own shape. -/
structure State.Coherent (s : State) : Prop where
  one : ∀ i j, s.Tells i → s.Tells j → i.id = j.id → i.view = j.view
  le : ∀ i, s.Tells i → i.id ≤ s.lastId
  filled : ∀ n ∈ s.tape.nodes, n.Filled
  keys : s.tape.marks.keys.Nodup
  shapes : ∀ id k, s.tape.marks.get? id = some k →
    ∃ e, s.entries.get? id = some e ∧ k.gradient.shape = e.view.shape

variable {s t : State} {i : Tracked}

theorem State.Tells.mono (h : t.Tells i)
    (he : ∀ id e, t.entries.get? id = some e → s.entries.get? id = some e)
    (hn : ∀ n ∈ t.tape.nodes, n ∈ s.tape.nodes) : s.Tells i := by
  cases h with
  | entry h => exact .entry (he _ _ h)
  | node hmem hi => exact .node (hn _ hmem) hi

theorem tells_insert {e : Entry} (h : (s.insert e).2.Tells i) :
    s.Tells i ∨ i = ⟨s.lastId + 1, e.view⟩ := by
  cases h with
  | @entry id x h =>
    rcases Table.get?_insert_eq_some.1 h with ⟨rfl, rfl⟩ | ⟨-, h⟩
    · exact .inr rfl
    · exact .inl (.entry h)
  | node hn hi => exact .inl (.node hn hi)

theorem State.Shows.tells (h : s.Shows i) : s.Tells i := by
  obtain ⟨e, he, hview⟩ := h
  have htells : s.Tells ⟨i.id, e.view⟩ := .entry he
  rwa [hview] at htells

theorem tells_enlist {n : Node} (hn : s.Admits n) (h : (s.enlist n).Tells i) : s.Tells i := by
  cases h with
  | entry h => exact .entry h
  | node hmem hi =>
    rcases Tape.mem_nodes_record hmem with hmem | rfl
    · exact .node hmem hi
    · exact ((List.mem_append.1 hi).elim (hn.inputs i) (hn.outputs i)).tells

theorem State.Coherent.of_tells (hs : s.Coherent) (htells : ∀ i, t.Tells i → s.Tells i)
    (hlast : s.lastId ≤ t.lastId) (hfilled : ∀ n ∈ t.tape.nodes, n.Filled)
    (hkeys : t.tape.marks.keys.Nodup)
    (hshapes : ∀ id k, t.tape.marks.get? id = some k →
      ∃ e, t.entries.get? id = some e ∧ k.gradient.shape = e.view.shape) : t.Coherent where
  one i j hi hj := hs.one i j (htells i hi) (htells j hj)
  le i hi := Nat.le_trans (hs.le i (htells i hi)) hlast
  filled := hfilled
  keys := hkeys
  shapes := hshapes

theorem State.Coherent.congr (hs : s.Coherent) (he : t.entries = s.entries) (ht : t.tape = s.tape)
    (hlast : t.lastId = s.lastId) : t.Coherent := by
  refine hs.of_tells (fun i hi => hi.mono (fun _ _ h => he ▸ h) fun _ h => ht ▸ h)
    (Nat.le_of_eq hlast.symm) (ht ▸ hs.filled) (ht ▸ hs.keys) ?_
  rw [he, ht]
  exact hs.shapes

theorem State.Coherent.insert (hs : s.Coherent) (e : Entry) : (s.insert e).2.Coherent where
  one i j hi hj hid := by
    rcases tells_insert hi with hi | rfl <;> rcases tells_insert hj with hj | rfl
    · exact hs.one i j hi hj hid
    · have hle := hs.le i hi
      simp only at hid
      omega
    · have hle := hs.le j hj
      simp only at hid
      omega
    · rfl
  le i hi := by
    rcases tells_insert hi with hi | rfl
    · exact Nat.le_succ_of_le (hs.le i hi)
    · exact Nat.le_refl _
  filled := hs.filled
  keys := hs.keys
  shapes id k hk := by
    obtain ⟨x, hx, hshape⟩ := hs.shapes id k hk
    have hle : id ≤ s.lastId := hs.le _ (.entry hx)
    have hne : id ≠ s.lastId + 1 := by omega
    exact ⟨x, Table.get?_insert_eq_some.2 (.inr ⟨hne, hx⟩), hshape⟩

theorem State.Coherent.change (hs : s.Coherent) (h : s.Change t) : t.Coherent := by
  cases h with
  | count | drain | write | deliver => exact hs.congr rfl rfl rfl
  | allocate shape type device storage =>
    have hmemory : State.Coherent { s with memory := (s.memory.allocate shape type).2 } :=
      hs.congr rfl rfl rfl
    exact hmemory.insert _
  | derive d he hw => exact hs.insert _
  | reveal device hk => exact hs.insert _
  | erase id =>
    refine hs.of_tells (fun i hi => hi.mono (fun k e he => (Table.get?_erase_eq_some.1 he).2)
      fun _ h => h) (Nat.le_refl _) hs.filled (Table.nodup_erase hs.keys) fun k m hm => ?_
    obtain ⟨hne, hm⟩ := Table.get?_erase_eq_some.1 hm
    obtain ⟨e, he, hshape⟩ := hs.shapes k m hm
    exact ⟨e, Table.get?_erase_eq_some.2 ⟨hne, he⟩, hshape⟩
  | switch recording training nodes hn =>
    have hnodes : ∀ n ∈ nodes, n ∈ s.tape.nodes := by
      rcases hn with rfl | rfl
      · exact fun _ h => h
      · exact fun _ h => absurd h List.not_mem_nil
    exact hs.of_tells (fun i hi => hi.mono (fun _ _ h => h) hnodes) (Nat.le_refl _)
      (fun n hmem => hs.filled n (hnodes n hmem)) hs.keys hs.shapes
  | @enlist n hn =>
    refine hs.of_tells (fun i => tells_enlist hn) (Nat.le_refl _) (fun m hm => ?_) ?_ ?_
    · rcases Tape.mem_nodes_record hm with hm | rfl
      · exact hs.filled m hm
      · exact hn.inferred
    · exact (s.tape.marks_record n).symm ▸ hs.keys
    · exact (s.tape.marks_record n).symm ▸ hs.shapes
  | @mark var v g request hv grad hg hshape =>
    refine hs.of_tells (fun i hi => hi.mono (fun _ _ h => h) fun _ h => h) (Nat.le_refl _)
      hs.filled (Table.nodup_insert hs.keys _) fun id k hk => ?_
    rcases Table.get?_insert_eq_some.1 hk with ⟨rfl, rfl⟩ | ⟨-, hk⟩
    · exact ⟨v, hv, hshape⟩
    · exact hs.shapes id k hk

theorem coherent_run (gpus : Nat) (cs : List Library.Call) :
    (Library.Call.run (library gpus) cs .initial).Coherent := by
  refine holds_run ⟨fun i j hi => ?_, fun i hi => ?_, nofun, List.nodup_nil, nofun⟩
    (fun s t _ hs h => hs.change h) gpus cs
  · cases hi with | entry h | node h => exact absurd h nofun
  · cases hi with | entry h | node h => exact absurd h nofun

def State.Measures (s : State) (gs : Gradients) : Prop :=
  ∀ i, s.Tells i → ∀ g, gs.get? i.id = some g → g.length = i.view.size

/-- As long as the array with the number. -/
def State.Suits (s : State) (c : Nat × Values) : Prop :=
  ∃ i, s.Tells i ∧ i.id = c.1 ∧ c.2.length = i.view.size

/-- Every gradient is for an array, and as long as it. -/
def State.Fills (s : State) (gs : Gradients) : Prop :=
  ∀ id g, gs.get? id = some g → s.Suits (id, g)

variable {m : Memory} {gs : Gradients}

theorem length_plus (old g : Values) : (plus old g).length = old.length := by
  unfold plus
  rw [List.length_append, List.length_zipWith, List.length_drop]
  omega

theorem State.Fills.measures (h : s.Fills gs) (hs : s.Coherent) : s.Measures gs := by
  intro i hi g hg
  obtain ⟨j, hj, hid, hlength⟩ := h i.id g hg
  exact hlength.trans (congrArg View.size (hs.one j i hj hi hid))

theorem fills_empty (s : State) : s.Fills .empty := fun _ _ hg => absurd hg nofun

theorem State.Fills.accumulate (h : s.Fills gs) {c : Nat × Values} (hc : s.Suits c) :
    s.Fills (gs.accumulate c.1 c.2) := by
  intro id g hg
  rw [get?_accumulate] at hg
  split at hg
  · rename_i hid
    subst hid
    cases hold : gs.get? c.1 with
    | none =>
      rw [hold] at hg
      exact Option.some.inj hg ▸ hc
    | some old =>
      rw [hold] at hg
      obtain ⟨i, hi, hiid, hlength⟩ := h c.1 old hold
      exact ⟨i, hi, hiid, (Option.some.inj hg ▸ length_plus old c.2).trans hlength⟩
  · exact h id g hg

theorem State.Fills.take (h : s.Fills gs) (cs : List (Nat × Values)) (hcs : ∀ c ∈ cs, s.Suits c) :
    s.Fills (gs.take cs) := by
  induction cs generalizing gs with
  | nil => exact h
  | cons c cs ih =>
    exact ih (h.accumulate (hcs c List.mem_cons_self)) fun c hc => hcs c (List.mem_cons_of_mem _ hc)

/-- What the rule of a recorded operator finds: operands as it was accepted with, each as long as
its shape says, and gradients as long as the outputs they are for. -/
theorem State.Coherent.operands (hs : s.Coherent) (hm : ∀ i, s.Tells i → m.Fits i.view)
    (h : s.Measures gs) {n : Node} (hn : n ∈ s.tape.nodes) :
    ∃ sigs, n.op.infer (n.inputs.map fun i => i.view.signature) n.params = .ok sigs ∧
      (∀ x ∈ n.inputs.map (Tracked.operand m), x.values.length = x.shape.size) ∧
      List.Forall₂ (fun (y : Operand) (sig : Signature) => y.values.length = sig.shape.size)
        (n.outputs.map (Tracked.operand m)) sigs ∧
      List.Forall₂ (fun (g : Option Values) (y : Operand) =>
        ∀ v, g = some v → v.length = y.values.length)
        (n.outputGradients gs.get?) (n.outputs.map (Tracked.operand m)) := by
  have htells : ∀ i ∈ n.inputs ++ n.outputs, s.Tells i := fun i hi => .node hn hi
  have hwhole : ∀ i ∈ n.inputs ++ n.outputs,
      (i.operand m).values.length = (i.operand m).shape.size := fun i hi =>
    (hm i (htells i hi)).length_read
  obtain ⟨sigs, hsigs, hsizes⟩ := hs.filled n hn
  refine ⟨sigs, hsigs, fun x hx => ?_, ?_, ?_⟩
  · obtain ⟨i, hi, rfl⟩ := List.mem_map.1 hx
    exact hwhole i (List.mem_append_left _ hi)
  · refine List.forall₂_map_left_iff.2 (List.Forall₂.imp (fun o sig ho => ?_)
      ((List.forall₂_and_left _ _).2 ⟨fun o ho => hwhole o (List.mem_append_right _ ho), hsizes⟩))
    exact ho.1.trans ho.2
  · refine List.forall₂_map_left_iff.2 (List.forall₂_map_right_iff.2
      (List.forall₂_same.2 fun o ho g hg => ?_))
    have ho := List.mem_append_right n.inputs ho
    exact (h o (htells o ho) g hg).trans (hwhole o ho).symm

theorem State.Coherent.suits_handed (hs : s.Coherent) (hm : ∀ i, s.Tells i → m.Fits i.view)
    (h : s.Measures gs) {n : Node} (hn : n ∈ s.tape.nodes) {gs' : Gradients}
    (hvisit : n.visit m gs = .ok gs') {c : Nat × Values} (hc : c ∈ n.handed m gs.get?) :
    s.Suits c := by
  have hreached : n.Reached gs.get? := by
    by_contra hnot
    rw [Node.handed_of_not_reached hnot] at hc
    exact absurd hc List.not_mem_nil
  obtain ⟨cs, hcs⟩ := (Node.visit_ok hvisit).2 hreached
  rw [Node.handed_of_contributions hreached hcs] at hc
  obtain ⟨sigs, hsigs, hin, hout, hgs⟩ := hs.operands hm h hn
  have hfitting : Operator.Fitting (n.inputs.map (Tracked.operand m)) cs := by
    refine Operator.gradient_fitting hsigs ?_ hin hout hgs hcs
    rw [List.map_map, List.map_map]
    rfl
  obtain ⟨p, hp, hpair⟩ := List.mem_filterMap.1 hc
  obtain ⟨g, hg, rfl⟩ := Option.map_eq_some_iff.1 hpair
  have htells : s.Tells p.1 := .node hn (List.mem_append_left _ (List.of_mem_zip hp).1)
  refine ⟨p.1, htells, rfl, ?_⟩
  have hmem : (p.1.operand m, p.2) ∈ (n.inputs.map (Tracked.operand m)).zip cs := by
    rw [List.zip_map_left]
    exact List.mem_map_of_mem hp
  rw [hfitting _ hmem g hg]
  exact (hm _ htells).length_read

theorem State.Coherent.fills_visit (hs : s.Coherent) (hm : ∀ i, s.Tells i → m.Fits i.view)
    (h : s.Fills gs) {n : Node} (hn : n ∈ s.tape.nodes) {gs' : Gradients}
    (hvisit : n.visit m gs = .ok gs') : s.Fills gs' := by
  rw [(Node.visit_ok hvisit).1]
  exact h.take _ fun c hc => hs.suits_handed hm (h.measures hs) hn hvisit hc

theorem State.Coherent.fills_gradients (hs : s.Coherent) (hm : ∀ i, s.Tells i → m.Fits i.view)
    {seeds : List (Nat × Values)} (hseeds : ∀ c ∈ seeds, s.Suits c) {nodes : List Node}
    (hnodes : ∀ n ∈ nodes, n ∈ s.tape.nodes) (hgs : Tape.gradients m nodes seeds = .ok gs) :
    s.Fills gs := by
  induction nodes generalizing gs with
  | nil =>
    rw [← pure_eq_ok.1 hgs, seeded_eq_take]
    exact (fills_empty s).take seeds hseeds
  | cons n nodes ih =>
    rw [Tape.gradients_cons] at hgs
    obtain ⟨later, hlater, hvisit⟩ := bind_eq_ok.1 hgs
    exact hs.fills_visit hm (ih (fun k hk => hnodes k (List.mem_cons_of_mem _ hk)) hlater)
      (hnodes n List.mem_cons_self) hvisit

theorem State.Coherent.length_delivered (hs : s.Coherent) (h : s.Measures gs) {id : Nat} {k : Mark}
    (hk : s.tape.marks.get? id = some k) {g : Values} (hg : gs.get? id = some g) :
    g.length = k.gradient.size := by
  obtain ⟨e, he, hshape⟩ := hs.shapes id k hk
  have hlength : g.length = e.view.size := h _ (.entry he) g hg
  unfold View.size
  rwa [hshape]

theorem suits_seed {heads : List Handle} {headGradients : List (Option Handle)}
    {seeds : List (Nat × Values)} (h : seedsOf s heads headGradients = .ok seeds)
    {c : Nat × Values} (hc : c ∈ seeds) : s.Suits c := by
  obtain ⟨⟨head, i⟩, -, hseed⟩ := exists_of_mapM_eq_ok h hc
  obtain ⟨e, he, hseed⟩ := bind_eq_ok.1 hseed
  have htells : s.Tells ⟨head.id, e.view⟩ := .entry (entry_eq_ok.1 he)
  refine ⟨_, htells, ?_⟩
  simp only at hseed
  split at hseed
  · rw [← pure_eq_ok.1 hseed]
    exact ⟨rfl, List.length_replicate⟩
  · obtain ⟨g, -, hseed⟩ := bind_eq_ok.1 hseed
    split at hseed
    · exact absurd hseed nofun
    · rename_i hlength
      rw [← pure_eq_ok.1 hseed]
      exact ⟨rfl, not_not.1 hlength⟩

theorem State.Bounded.fits_drained (hs : s.Bounded) (hi : s.drained.Tells i) :
    s.drained.memory.Fits i.view := by
  refine (writes_runAll s.queue s.memory).fits (hs i.view ?_)
  cases hi with
  | entry he => exact .entry he
  | node hn hi => exact .node hn hi

end Reference
end ScopedTensor
