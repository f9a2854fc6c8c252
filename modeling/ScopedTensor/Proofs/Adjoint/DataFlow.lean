import Mathlib.Data.List.Nodup
import Mathlib.Data.Nat.Pairing
import ScopedTensor.Element.Interchange
import ScopedTensor.Proofs.Adjoint.Passes

/-! Tapes that write into arrays that were there before. An array then holds one value after the
other, and what flows through a tape are these values rather than the arrays. The engine keeps one
gradient per array and never takes it away from the array's earlier values, which is right as long
as every array that has a gradient is written at most once, and is read only afterwards. -/

namespace ScopedTensor

open Binary Gradients

/-- The number of what array `id` holds after it was written `k` times. -/
def value (id k : Nat) : Nat := Nat.pair id k

theorem value_inj {id j k l : Nat} : value id k = value j l ↔ id = j ∧ k = l := Nat.pair_eq_pair

def Tracked.valued (written : List Nat) (t : Tracked) : Tracked :=
  { t with id := value t.id (written.count t.id) }

namespace Node

def writes (n : Node) : List Nat := n.outputs.map Tracked.id

def valuedOutputs : List Nat → List Tracked → List Tracked
  | _, [] => []
  | written, o :: os =>
    o.valued (written ++ [o.id]) :: valuedOutputs (written ++ [o.id]) os

def valued (written : List Nat) (n : Node) : Node :=
  { n with
    inputs := n.inputs.map (Tracked.valued written)
    outputs := valuedOutputs written n.outputs }

end Node

namespace Tape

def writes (nodes : List Node) : List Nat := nodes.flatMap Node.writes

/-- The nodes of a tape with values in place of arrays. -/
def valued : List Nat → List Node → List Node
  | _, [] => []
  | written, n :: ns => n.valued written :: valued (written ++ n.writes) ns

end Tape

def Gradients.valued (written : List Nat) (cs : List (Nat × Values)) : List (Nat × Values) :=
  cs.map fun c => (value c.1 (written.count c.1), c.2)

/-- `f` gives what array `id` holds after `k` writes the gradient that flows to it. Seeds are for
what the heads hold in the end. A view counts as an array of its own: what is written through it
is no write to the array it was made of. -/
def DataFlow (m : Memory) (nodes : List Node) (seeds : List (Nat × Values))
    (f : Nat → Nat → Option Values) : Prop :=
  Adjoint m (Tape.valued [] nodes) (Gradients.valued (Tape.writes nodes) seeds)
    fun v => f v.unpair.1 v.unpair.2

/-- Arrays that have a gradient are written once at most, and neither the node that writes one nor a
node before it hands it anything. Writes are told apart by the number of the array they are made to,
so that a view counts as an array of its own. -/
structure WrittenOnce (f : Nat → Option Values) (nodes : List Node) : Prop where
  once : ∀ id, (f id).isSome → (Tape.writes nodes).count id ≤ 1
  own : ∀ n ∈ nodes, n.Reached f → ∀ i ∈ n.inputs, (f i.id).isSome → i.id ∉ n.writes
  earlier : nodes.Pairwise fun a b =>
    a.Reached f → ∀ i ∈ a.inputs, (f i.id).isSome → i.id ∉ b.writes

variable {m : Memory} {nodes : List Node} {seeds : List (Nat × Values)} {n : Node}
variable {written all : List Nat} {gs gs' : Gradients} {f : Nat → Option Values}

theorem mem_valuedOutputs {os : List Tracked} :
    ∀ {written : List Nat} {v : Tracked}, v ∈ Node.valuedOutputs written os →
      ∃ o ∈ os, ∃ k, v.id = value o.id k ∧ written.count o.id < k ∧
        k ≤ (written ++ os.map Tracked.id).count o.id := by
  induction os with
  | nil => exact nofun
  | cons o os ih =>
    intro written v hv
    rcases List.mem_cons.1 hv with rfl | hv
    · refine ⟨o, List.mem_cons_self, _, rfl, ?_, ?_⟩ <;> simp [List.count_append]
    · obtain ⟨p, hp, k, hid, hlt, hle⟩ := ih hv
      refine ⟨p, List.mem_cons_of_mem _ hp, k, hid, ?_, ?_⟩
      · rw [List.count_append] at hlt
        omega
      · simpa [List.append_assoc] using hle

theorem Tape.mem_valued {written : List Nat} {v : Node} (h : v ∈ Tape.valued written nodes) :
    ∃ n ∈ nodes, ∃ before, written <+: before ∧ v = n.valued before := by
  induction nodes generalizing written with
  | nil => exact absurd h List.not_mem_nil
  | cons n ns ih =>
    rcases List.mem_cons.1 h with rfl | h
    · exact ⟨n, List.mem_cons_self, written, List.prefix_rfl, rfl⟩
    · obtain ⟨a, ha, before, hbefore, rfl⟩ := ih h
      exact ⟨a, List.mem_cons_of_mem _ ha, before, (List.prefix_append _ _).trans hbefore, rfl⟩

theorem valued_input_ne_output {before : List Nat} {a b : Node} {i o : Tracked}
    (hcut : written <+: before) (hi : i ∈ (a.valued written).inputs)
    (ho : o ∈ (b.valued before).outputs) : i.id ≠ o.id := by
  obtain ⟨j, -, rfl⟩ := List.mem_map.1 hi
  obtain ⟨p, -, k, hid, hlt, -⟩ := mem_valuedOutputs ho
  intro heq
  rw [hid] at heq
  obtain ⟨hjp, rfl⟩ := value_inj.1 heq
  have hle := hcut.sublist.count_le p.id
  rw [hjp] at hlt
  omega

theorem Tape.descending_valued (written : List Nat) (nodes : List Node) :
    Descending (Tape.valued written nodes).reverse where
  own v hv o ho i hi := by
    obtain ⟨n, -, before, -, rfl⟩ := Tape.mem_valued (List.mem_reverse.1 hv)
    exact valued_input_ne_output List.prefix_rfl hi ho
  later := by
    rw [List.pairwise_reverse]
    induction nodes generalizing written with
    | nil => exact List.Pairwise.nil
    | cons n ns ih =>
      refine List.pairwise_cons.2 ⟨fun v hv o ho i hi => ?_, ih _⟩
      obtain ⟨b, -, before, hbefore, rfl⟩ := Tape.mem_valued hv
      exact valued_input_ne_output ((List.prefix_append _ _).trans hbefore) hi ho

theorem gathered_valued (written : List Nat) (cs : List (Nat × Values)) (id k : Nat) :
    gathered (value id k) (valued written cs) =
      if k = written.count id then gathered id cs else [] := by
  induction cs with
  | nil => simp [valued, gathered]
  | cons c cs ih =>
    have hcons : valued written (c :: cs) =
        [(value c.1 (written.count c.1), c.2)] ++ valued written cs := rfl
    rw [hcons, gathered_append, ih, ← List.singleton_append, gathered_append]
    by_cases hid : c.1 = id
    · subst hid
      by_cases hk : k = written.count c.1
      · simp [gathered, hk]
      · have hne : value c.1 (written.count c.1) ≠ value c.1 k :=
          fun h => hk (value_inj.1 h).2.symm
        simp [gathered, hk, hne]
    · have hne : ∀ k, value c.1 (written.count c.1) ≠ value id k :=
        fun k h => hid (value_inj.1 h).1
      by_cases hk : k = written.count id <;> simp [gathered, hk, hne, hid]

theorem received_valued (written : List Nat) (is : List Tracked) (cs : List (Option Values)) :
    received ((is.map (Tracked.valued written)).zip cs) = valued written (received (is.zip cs)) := by
  simp only [received, valued, List.zip_map_left, List.filterMap_map, List.map_filterMap]
  congr 1
  funext c
  cases h : c.2 <;> simp [Tracked.valued, h]

/-- The gradients of arrays are those of the last values they hold; earlier values have none. -/
structure Follows (all : List Nat) (gs gs' : Gradients) : Prop where
  last : ∀ id, gs'.get? (value id (all.count id)) = gs.get? id
  earlier : ∀ id k, k < all.count id → gs'.get? (value id k) = none

theorem Follows.take (h : Follows all gs gs') {cs : List (Nat × Values)}
    (hlast : ∀ c ∈ cs, written.count c.1 = all.count c.1) :
    Follows all (gs.take cs) (gs'.take (valued written cs)) := by
  have hnone : ∀ id, written.count id ≠ all.count id → gathered id cs = [] :=
    fun id hne => gathered_eq_nil fun c hc hid => hne (hid ▸ hlast c hc)
  constructor
  · intro id
    rw [get?_take, get?_take, gathered_valued, h.last]
    split
    · rfl
    · rename_i hne
      rw [hnone id (Ne.symm hne)]
  · intro id k hk
    rw [get?_take, gathered_valued, h.earlier id k hk]
    split
    · rename_i hk'
      rw [hnone id (by omega)]
      rfl
    · rfl

theorem follows_seeded (all : List Nat) (seeds : List (Nat × Values)) :
    Follows all (seeded seeds) (seeded (valued all seeds)) :=
  Follows.take ⟨fun _ => rfl, fun _ _ _ => rfl⟩ fun _ _ => rfl

theorem Follows.outputGradients (h : Follows all gs gs') (os : List Tracked) :
    ∀ {written : List Nat}, written ++ os.map Tracked.id <+: all →
      (∀ o ∈ os, (gs.get? o.id).isSome → all.count o.id ≤ 1) →
      (Node.valuedOutputs written os).map (fun o => gs'.get? o.id) =
        os.map fun o => gs.get? o.id := by
  induction os with
  | nil => intro _ _ _; rfl
  | cons o os ih =>
    intro written hcut honce
    have hrest : written ++ [o.id] ++ os.map Tracked.id <+: all := by simpa using hcut
    have hle : (written ++ [o.id]).count o.id ≤ all.count o.id :=
      ((List.prefix_append _ _).trans hrest).sublist.count_le o.id
    have hfirst : gs'.get? (value o.id ((written ++ [o.id]).count o.id)) = gs.get? o.id := by
      rcases Nat.lt_or_eq_of_le hle with hlt | heq
      -- a value that is written over has no gradient, and then neither has the array
      · rw [h.earlier _ _ hlt]
        cases hgs : gs.get? o.id with
        | none => rfl
        | some g =>
          have := honce o List.mem_cons_self (by rw [hgs]; rfl)
          rw [List.count_append, List.count_singleton_self] at hlt
          omega
      · rw [heq, h.last]
    have hos := ih hrest fun p hp => honce p (List.mem_cons_of_mem _ hp)
    exact congrArg₂ List.cons hfirst hos

theorem Node.contributions_valued (written : List Nat) (n : Node) (gs : List (Option Values)) :
    (n.valued written).contributions m gs = n.contributions m gs := by
  have houtputs : ∀ (os : List Tracked) (written : List Nat),
      (Node.valuedOutputs written os).map (Tracked.operand m) = os.map (Tracked.operand m) := by
    intro os
    induction os with
    | nil => intro _; rfl
    | cons o os ih => intro written; exact congrArg (List.cons _) (ih _)
  unfold contributions valued
  rw [List.map_map, houtputs]
  rfl

/-- A visit to a node is a visit to the node with values in place of arrays, if it hands gradients
only to what its inputs hold in the end. -/
theorem Follows.visit (h : Follows all gs gs') {gs₁ : Gradients}
    (hcut : written ++ n.writes <+: all)
    (honce : ∀ o ∈ n.outputs, (gs.get? o.id).isSome → all.count o.id ≤ 1)
    (hlast : ∀ c ∈ n.handed m gs.get?, written.count c.1 = all.count c.1)
    (hvisit : n.visit m gs = .ok gs₁) :
    ∃ gs₁', (n.valued written).visit m gs' = .ok gs₁' ∧ Follows all gs₁ gs₁' := by
  obtain ⟨rfl, hok⟩ := Node.visit_ok hvisit
  have hout : (n.valued written).outputGradients gs'.get? = n.outputGradients gs.get? :=
    h.outputGradients n.outputs hcut honce
  have hreached : (n.valued written).Reached gs'.get? ↔ n.Reached gs.get? := by
    rw [Node.reached_iff, Node.reached_iff, hout]
  have hcontributions : (n.valued written).contributions m
      ((n.valued written).outputGradients gs'.get?) =
        n.contributions m (n.outputGradients gs.get?) := by
    rw [Node.contributions_valued, hout]
  have hhanded : (n.valued written).handed m gs'.get? = valued written (n.handed m gs.get?) := by
    by_cases hn : n.Reached gs.get?
    · obtain ⟨cs, hcs⟩ := hok hn
      rw [Node.handed_of_contributions hn hcs,
        Node.handed_of_contributions (hreached.2 hn) (hcontributions.trans hcs)]
      exact received_valued written n.inputs cs
    · rw [Node.handed_of_not_reached hn, Node.handed_of_not_reached (mt hreached.1 hn)]
      rfl
  refine ⟨_, Node.visit_of_contributions fun hn => ?_, hhanded ▸ h.take hlast⟩
  rw [hcontributions]
  exact hok (hreached.1 hn)

theorem Node.isSome_of_visit {gs₁ : Gradients} (h : n.visit m gs = .ok gs₁) (id : Nat)
    (hid : (gs.get? id).isSome) : (gs₁.get? id).isSome := by
  obtain ⟨g, hg⟩ := Option.isSome_iff_exists.1 hid
  rw [(visit_ok h).1, get?_take, hg, foldl_addTo_some]
  rfl

theorem Node.reached_of_handed {c : Nat × Values} (h : c ∈ n.handed m f) : n.Reached f := by
  by_contra hn
  rw [handed_of_not_reached hn] at h
  exact List.not_mem_nil h

theorem Node.Reached.mono {g : Nat → Option Values} (h : n.Reached f)
    (hfg : ∀ id, (f id).isSome → (g id).isSome) : n.Reached g := by
  obtain ⟨o, ho, hsome⟩ := h
  exact ⟨o, ho, hfg o.id hsome⟩

theorem Node.isSome_of_handed {gs₁ : Gradients} (h : n.visit m gs = .ok gs₁) {c : Nat × Values}
    (hc : c ∈ n.handed m gs.get?) : (gs₁.get? c.1).isSome := by
  have hmem : c.2 ∈ gathered c.1 (n.handed m gs.get?) := mem_gathered.2 hc
  rw [(visit_ok h).1, get?_take]
  cases hg : gathered c.1 (n.handed m gs.get?) with
  | nil => exact absurd (hg ▸ hmem) List.not_mem_nil
  | cons x xs => cases gs.get? c.1 <;> exact (congrArg _ (foldl_addTo_some xs _)).trans rfl

theorem Follows.pass (hf : ∀ id, (f id).isSome → all.count id ≤ 1) :
    ∀ {written : List Nat} {gs : Gradients}, written ++ Tape.writes nodes = all →
      (∀ n ∈ nodes, n.Reached f → ∀ i ∈ n.inputs, (f i.id).isSome → i.id ∉ n.writes) →
      (nodes.Pairwise fun a b =>
        a.Reached f → ∀ i ∈ a.inputs, (f i.id).isSome → i.id ∉ b.writes) →
      Tape.gradients m nodes seeds = .ok gs → (∀ id, (gs.get? id).isSome → (f id).isSome) →
      ∃ gs', Tape.gradients m (Tape.valued written nodes) (valued all seeds) = .ok gs' ∧
        Follows all gs gs' := by
  induction nodes with
  | nil =>
    intro written gs _ _ _ hgs _
    obtain rfl := pure_eq_ok.1 hgs
    exact ⟨_, rfl, follows_seeded all seeds⟩
  | cons n ns ih =>
    intro written gs hall hown hearlier hgs hsub
    rw [Tape.gradients_cons] at hgs
    obtain ⟨gs₀, hgs₀, hvisit⟩ := bind_eq_ok.1 hgs
    have hsub₀ := fun id hid => hsub id (Node.isSome_of_visit hvisit id hid)
    have hall' : written ++ n.writes ++ Tape.writes ns = all := by
      rw [← hall, List.append_assoc]
      rfl
    obtain ⟨gs₀', hgs₀', hfollows⟩ := ih hall' (fun a ha => hown a (List.mem_cons_of_mem _ ha))
      (List.pairwise_cons.1 hearlier).2 hgs₀ hsub₀
    have hlast : ∀ c ∈ n.handed m gs₀.get?, written.count c.1 = all.count c.1 := by
      intro c hc
      obtain ⟨i, hi, hic⟩ := Node.mem_inputs_of_handed hc
      have hreached : n.Reached f := (Node.reached_of_handed hc).mono hsub₀
      have hsome : (f i.id).isSome := hsub i.id (hic ▸ Node.isSome_of_handed hvisit hc)
      have hn := hown n List.mem_cons_self hreached i hi hsome
      have hns : i.id ∉ Tape.writes ns := by
        intro hmem
        obtain ⟨b, hb, hib⟩ := List.mem_flatMap.1 hmem
        exact (List.pairwise_cons.1 hearlier).1 b hb hreached i hi hsome hib
      rw [← hic, ← hall', List.count_append, List.count_append, List.count_eq_zero.2 hn,
        List.count_eq_zero.2 hns]
      rfl
    obtain ⟨gs₁', hvisit', hfollows'⟩ := hfollows.visit (hall' ▸ List.prefix_append _ _)
      (fun o _ ho => hf o.id (hsub₀ o.id ho)) hlast hvisit
    exact ⟨gs₁', (Tape.gradients_cons _ _).trans (bind_eq_ok.2 ⟨gs₀', hgs₀', hvisit'⟩), hfollows'⟩

theorem Tape.dataFlow
    (h : Tape.gradients m (Tape.valued [] nodes) (Gradients.valued (Tape.writes nodes) seeds) =
      .ok gs) :
    DataFlow m nodes seeds (fun id k => gs.get? (value id k)) ∧
      ∀ f, DataFlow m nodes seeds f → f = fun id k => gs.get? (value id k) := by
  have hdescending := Tape.descending_valued [] nodes
  have hflow : DataFlow m nodes seeds fun id k => gs.get? (value id k) := by
    have hadjoint := hdescending.adjoint h
    unfold DataFlow value
    simpa only [Nat.pair_unpair] using hadjoint
  refine ⟨hflow, fun f hf => ?_⟩
  have hsame := hdescending.unique hf hflow
  funext id k
  simpa only [value, Nat.unpair_pair] using congrFun hsame (value id k)

theorem WrittenOnce.dataFlow (hgs : Tape.gradients m nodes seeds = .ok gs)
    (h : WrittenOnce gs.get? nodes) :
    ∃ f, DataFlow m nodes seeds f ∧ (∀ g, DataFlow m nodes seeds g → g = f) ∧
      ∀ id, gs.get? id = f id ((Tape.writes nodes).count id) := by
  obtain ⟨gs', hgs', hfollows⟩ :=
    Follows.pass h.once (List.nil_append _) h.own h.earlier hgs fun _ hid => hid
  obtain ⟨hflow, hunique⟩ := Tape.dataFlow hgs'
  exact ⟨_, hflow, hunique, fun id => (hfollows.last id).symm⟩

theorem writtenOnce_of_nodup (hnodup : (Tape.writes nodes).Nodup)
    (hown : ∀ n ∈ nodes, ∀ i ∈ n.inputs, i.id ∉ n.writes)
    (hearlier : nodes.Pairwise fun a b => ∀ i ∈ a.inputs, i.id ∉ b.writes) :
    WrittenOnce f nodes where
  once id _ := List.nodup_iff_count_le_one.1 hnodup id
  own n hn _ i hi _ := hown n hn i hi
  earlier := hearlier.imp fun h _ i hi _ => h i hi

namespace Reference

open Library

section

variable {half : HalfPrecision}

/-- Let a pass of the engine succeed, over whatever its calls have recorded, operators that write
into arrays that were there before among it. If each array with a gradient is written once at most,
and read only afterwards, then the pass delivers to every marked array the gradient that flows to
what the array holds in the end. A view of an array counts as an array of its own. -/
theorem backward_follows_data_flow [HalfPrecision] (gpus : Nat) (calls : List Call)
    (heads : List Handle) (headGradients : List (Option Handle)) (retain training : Bool)
    (t : State) (h : (library gpus).backward heads headGradients retain training
      (Call.run (library gpus) calls .initial) = .ok () t) :
    let s := Call.run (library gpus) calls .initial
    ∃ seeds gs, seedsOf s.drained heads headGradients = .ok seeds ∧
      Tape.gradients s.drained.memory s.tape.nodes seeds = .ok gs ∧
      t.memory = s.tape.marks.entries.foldl (fun m e => e.2.deliver gs m e.1) s.drained.memory ∧
      (WrittenOnce gs.get? s.tape.nodes →
        ∃ f, DataFlow s.drained.memory s.tape.nodes seeds f ∧
          (∀ g, DataFlow s.drained.memory s.tape.nodes seeds g → g = f) ∧
          ∀ id, gs.get? id = f id ((Tape.writes s.tape.nodes).count id)) := by
  intro s
  obtain ⟨seeds, hseeds, hpass⟩ := backward_ok (orderly_run orderly_initial) h
  obtain ⟨gs, hgs, hmemory⟩ := bind_eq_ok.1 hpass
  exact ⟨seeds, gs, hseeds, hgs, (pure_eq_ok.1 hmemory).symm, fun honce => honce.dataFlow hgs⟩

end

open Interchange

/-- A square that is copied into an array that was there before, and squared again from there. -/
theorem backward_follows_data_flow_copied :
    let calls : List Call := [.create .cpu ⟨[1]⟩ .f32 .dense false,
      .create .cpu ⟨[1]⟩ .f32 .dense false, .setRecording true,
      .invoke ⟨(Operator.pairwise .mul).number⟩ [⟨1⟩, ⟨1⟩] none .empty,
      .invoke ⟨Operator.copyTo.number⟩ [⟨3⟩] (some [⟨2⟩]) .empty,
      .invoke ⟨(Operator.pairwise .mul).number⟩ [⟨2⟩, ⟨2⟩] none .empty]
    let s := Call.run (library 0) calls .initial
    ∃ (t : State) (gs : Gradients) (f : Nat → Nat → Option Values),
      (library 0).backward [⟨4⟩] [] false true s = .ok () t ∧
      WrittenOnce gs.get? s.tape.nodes ∧ DataFlow s.drained.memory s.tape.nodes [(4, [.one])] f ∧
      gs.get? 1 = f 1 0 ∧ gs.get? 2 = f 2 1 := by
  intro calls s
  obtain ⟨_, ht⟩ := Action.exists_ok (by decide +kernel :
    ((library 0).backward [⟨4⟩] [] false true).succeeds s = true)
  obtain ⟨seeds, gs, hseeds, -, -, hflow⟩ :=
    backward_follows_data_flow 0 calls [⟨4⟩] [] false true _ ht
  have hwritten : WrittenOnce gs.get? s.tape.nodes :=
    writtenOnce_of_nodup (by decide +kernel) (by decide +kernel) (by decide +kernel)
  obtain ⟨f, hf, -, heq⟩ := hflow hwritten
  have hone : seedsOf s.drained [⟨4⟩] [] = .ok [(4, [.one])] :=
    eq_ok_of_toOption (by decide +kernel)
  obtain rfl := Except.ok.inj (hone.symm.trans hseeds)
  have hfirst : (Tape.writes s.tape.nodes).count 1 = 0 := by decide +kernel
  have hsecond : (Tape.writes s.tape.nodes).count 2 = 1 := by decide +kernel
  exact ⟨_, gs, f, ht, hwritten, hf, hfirst ▸ heq 1, hsecond ▸ heq 2⟩

/-- Without that condition it fails. Of two arrays that are copied over a third, the first has no
part in what the third holds in the end, so that nothing flows to it, and yet the engine delivers a
gradient to it. -/
theorem copied_over_gets_gradient :
    let calls : List Call := [.create .cpu ⟨[1]⟩ .f64 .dense false,
      .create .cpu ⟨[1]⟩ .f64 .dense false, .create .cpu ⟨[1]⟩ .f64 .dense false,
      .create .cpu ⟨[1]⟩ .f64 .dense false, .markVariables [⟨1⟩] [.write] [⟨4⟩],
      .setRecording true, .invoke ⟨Operator.copyTo.number⟩ [⟨1⟩] (some [⟨3⟩]) .empty,
      .invoke ⟨Operator.copyTo.number⟩ [⟨2⟩] (some [⟨3⟩]) .empty]
    let s := Call.run (library 0) calls .initial
    ∃ (t : State) (f : Nat → Nat → Option Values),
      (library 0).backward [⟨3⟩] [] false true s = .ok () t ∧
      seedsOf s.drained [⟨3⟩] [] = .ok [(3, [.one])] ∧
      DataFlow s.drained.memory s.tape.nodes [(3, [.one])] f ∧
      (∀ g, DataFlow s.drained.memory s.tape.nodes [(3, [.one])] g → g = f) ∧
      f 1 0 = none ∧ f 2 0 = some [.one] ∧
      s.drained.memory.read ⟨3, 0, ⟨[1]⟩, .f64⟩ = [.zero] ∧
      t.memory.read ⟨3, 0, ⟨[1]⟩, .f64⟩ = [.one] := by
  intro calls s
  obtain ⟨_, ht⟩ := Action.exists_ok (by decide +kernel :
    ((library 0).backward [⟨3⟩] [] false true).succeeds s = true)
  obtain ⟨gs, hgs, hvalues⟩ := exists_ok_of_any (by decide +kernel :
    (Tape.gradients s.drained.memory (Tape.valued [] s.tape.nodes)
      (Gradients.valued (Tape.writes s.tape.nodes) [(3, [.one])])).toOption.any (fun gs =>
        gs.get? (value 1 0) = none ∧ gs.get? (value 2 0) = some [.one]) = true)
  obtain ⟨hnone, hone⟩ := of_decide_eq_true hvalues
  obtain ⟨hflow, hunique⟩ := Tape.dataFlow hgs
  exact ⟨_, _, ht, eq_ok_of_toOption (by decide +kernel), hflow, hunique, hnone, hone,
    by decide +kernel, by decide +kernel⟩

end Reference
end ScopedTensor
