import Mathlib.Data.List.Basic
import ScopedTensor.Proofs.Adjoint.Gradients

/-! Tapes whose outputs are numbered above whatever was there before them. A pass over such a tape
solves the adjoint equations, and nothing else solves them. -/

namespace ScopedTensor

open Binary Gradients

variable {m : Memory} {nodes : List Node} {seeds : List (Nat × Values)}

/-- Everything that the heads and the nodes contribute to gradients, in the order in which it is
added: the seeds first, then the nodes from the latest on. -/
def Tape.contributions (m : Memory) (nodes : List Node) (seeds : List (Nat × Values))
    (f : Nat → Option Values) : List (Nat × Values) :=
  seeds ++ nodes.reverse.flatMap fun n => n.handed m f

/-- `f` gives each array the sum of its contributions, where a node's are made of what `f` gives its
outputs. -/
structure Adjoint (m : Memory) (nodes : List Node) (seeds : List (Nat × Values))
    (f : Nat → Option Values) : Prop where
  contributes : ∀ n ∈ nodes, n.Reached f → ∃ cs, n.contributions m (n.outputGradients f) = .ok cs
  equation : ∀ id, f id = total (gathered id (Tape.contributions m nodes seeds f))

/-- Each node's outputs are numbered above its inputs, and above those of every node before it. -/
structure Ascending (nodes : List Node) : Prop where
  own : ∀ n ∈ nodes, ∀ o ∈ n.outputs, ∀ i ∈ n.inputs, i.id < o.id
  earlier : nodes.Pairwise fun a b => ∀ o ∈ b.outputs, ∀ i ∈ a.inputs, i.id < o.id

theorem Ascending.snoc {n : Node} (h : Ascending nodes)
    (hn : ∀ o ∈ n.outputs, ∀ i ∈ n.inputs, i.id < o.id)
    (hnodes : ∀ a ∈ nodes, ∀ o ∈ n.outputs, ∀ i ∈ a.inputs, i.id < o.id) :
    Ascending (nodes ++ [n]) where
  own a ha := by
    rcases List.mem_append.1 ha with ha | ha
    · exact h.own a ha
    · rw [List.mem_singleton.1 ha]
      exact hn
  earlier := by
    rw [List.pairwise_append]
    refine ⟨h.earlier, List.pairwise_singleton _ _, fun a ha b hb => ?_⟩
    rw [List.mem_singleton.1 hb]
    exact hnodes a ha

/-- In the order of a pass: what comes later has no inputs among a node's outputs. -/
structure Descending (rs : List Node) : Prop where
  own : ∀ n ∈ rs, ∀ o ∈ n.outputs, ∀ i ∈ n.inputs, i.id ≠ o.id
  later : rs.Pairwise fun a b => ∀ o ∈ a.outputs, ∀ i ∈ b.inputs, i.id ≠ o.id

theorem Ascending.descending (h : Ascending nodes) : Descending nodes.reverse where
  own n hn o ho i hi := Nat.ne_of_lt (h.own n (List.mem_reverse.1 hn) o ho i hi)
  later := by
    rw [List.pairwise_reverse]
    exact h.earlier.imp fun hab o ho i hi => Nat.ne_of_lt (hab o ho i hi)

theorem Node.gathered_handed {n : Node} {f : Nat → Option Values} {id : Nat}
    (h : ∀ i ∈ n.inputs, i.id ≠ id) : gathered id (n.handed m f) = [] := by
  refine gathered_eq_nil fun c hc => ?_
  obtain ⟨i, hi, hic⟩ := mem_inputs_of_handed hc
  rw [← hic]
  exact h i hi

theorem Node.get?_visit {n : Node} {gs gs' : Gradients} (h : n.visit m gs = .ok gs') {id : Nat}
    (hid : ∀ i ∈ n.inputs, i.id ≠ id) : gs'.get? id = gs.get? id := by
  rw [(visit_ok h).1, get?_take, gathered_handed hid]
  rfl

theorem get?_foldlM_visit {rs : List Node} {id : Nat} :
    ∀ {gs gs' : Gradients}, rs.foldlM (fun gs n => n.visit m gs) gs = .ok gs' →
      (∀ n ∈ rs, ∀ i ∈ n.inputs, i.id ≠ id) → gs'.get? id = gs.get? id := by
  induction rs with
  | nil =>
    intro gs gs' h _
    rw [pure_eq_ok.1 h]
  | cons n rs ih =>
    intro gs gs' h hid
    rw [List.foldlM_cons] at h
    obtain ⟨gs₁, hvisit, hrest⟩ := bind_eq_ok.1 h
    rw [ih hrest fun a ha => hid a (List.mem_cons_of_mem _ ha)]
    exact Node.get?_visit hvisit (hid n List.mem_cons_self)

theorem Descending.head_final {n : Node} {rs : List Node} (h : Descending (n :: rs))
    {gs gs' : Gradients} (hrun : (n :: rs).foldlM (fun gs n => n.visit m gs) gs = .ok gs') :
    ∀ o ∈ n.outputs, gs'.get? o.id = gs.get? o.id := by
  intro o ho
  refine get?_foldlM_visit hrun fun a ha i hi => ?_
  rcases List.mem_cons.1 ha with rfl | ha
  · exact h.own a List.mem_cons_self o ho i hi
  · exact (List.pairwise_cons.1 h.later).1 a ha o ho i hi

theorem Descending.tail {n : Node} {rs : List Node} (h : Descending (n :: rs)) : Descending rs where
  own a ha := h.own a (List.mem_cons_of_mem _ ha)
  later := (List.pairwise_cons.1 h.later).2

theorem Descending.foldlM_visit {rs : List Node} :
    ∀ {gs gs' : Gradients}, Descending rs → rs.foldlM (fun gs n => n.visit m gs) gs = .ok gs' →
      (∀ id, gs'.get? id =
        (gathered id (rs.flatMap fun n => n.handed m gs'.get?)).foldl addTo (gs.get? id)) ∧
      ∀ n ∈ rs, n.Reached gs'.get? →
        ∃ cs, n.contributions m (n.outputGradients gs'.get?) = .ok cs := by
  induction rs with
  | nil =>
    intro gs gs' _ h
    rw [pure_eq_ok.1 h]
    exact ⟨fun _ => rfl, nofun⟩
  | cons n rs ih =>
    intro gs gs' hd h
    have hfinal := hd.head_final h
    rw [List.foldlM_cons] at h
    obtain ⟨gs₁, hvisit, hrest⟩ := bind_eq_ok.1 h
    obtain ⟨hgs₁, hok⟩ := Node.visit_ok hvisit
    obtain ⟨hsum, hoks⟩ := ih hd.tail hrest
    -- what is visited later has no inputs among the node's outputs
    have hhanded : n.handed m gs.get? = n.handed m gs'.get? :=
      Node.handed_congr fun o ho => (hfinal o ho).symm
    refine ⟨fun id => ?_, fun a ha hreached => ?_⟩
    · calc gs'.get? id
          = (gathered id (rs.flatMap fun n => n.handed m gs'.get?)).foldl addTo (gs₁.get? id) :=
            hsum id
        _ = (gathered id (rs.flatMap fun n => n.handed m gs'.get?)).foldl addTo
              ((gathered id (n.handed m gs'.get?)).foldl addTo (gs.get? id)) := by
            rw [hgs₁, get?_take, hhanded]
        _ = (gathered id ((n :: rs).flatMap fun n => n.handed m gs'.get?)).foldl addTo
              (gs.get? id) := by
            rw [List.flatMap_cons, gathered_append, List.foldl_append]
    · rcases List.mem_cons.1 ha with rfl | ha
      · have hout := Node.outputGradients_congr (n := a) hfinal
        have hreached : a.Reached gs.get? := by
          rw [Node.reached_iff, ← hout]
          exact Node.reached_iff.1 hreached
        rw [hout]
        exact hok hreached
      · exact hoks a ha hreached

theorem Descending.adjoint {gs : Gradients} (h : Descending nodes.reverse)
    (hgs : Tape.gradients m nodes seeds = .ok gs) : Adjoint m nodes seeds gs.get? := by
  obtain ⟨hsum, hok⟩ := h.foldlM_visit hgs
  refine ⟨fun n hn => hok n (List.mem_reverse.2 hn), fun id => ?_⟩
  rw [hsum id, seeded_eq_take, get?_take, Tape.contributions, gathered_append, total_eq_foldl,
    List.foldl_append]
  rfl

theorem mem_contributions {f : Nat → Option Values} {c : Nat × Values} :
    c ∈ Tape.contributions m nodes seeds f ↔ c ∈ seeds ∨ ∃ n ∈ nodes, c ∈ n.handed m f := by
  unfold Tape.contributions
  simp only [List.mem_append, List.mem_flatMap, List.mem_reverse]

theorem Adjoint.agree {f g : Nat → Option Values} (hf : Adjoint m nodes seeds f)
    (hg : Adjoint m nodes seeds g) {id : Nat}
    (h : ∀ n ∈ nodes, gathered id (n.handed m f) = gathered id (n.handed m g)) : f id = g id := by
  rw [hf.equation, hg.equation]
  unfold Tape.contributions
  rw [gathered_append, gathered_append, gathered_flatMap, gathered_flatMap,
    List.flatMap_congr fun n hn => h n (List.mem_reverse.1 hn)]

theorem Descending.agree {f g : Nat → Option Values} (hf : Adjoint m nodes seeds f)
    (hg : Adjoint m nodes seeds g) {rest : List Node} :
    ∀ {done : List Node}, Descending rest → (∀ n ∈ nodes, n ∈ done ∨ n ∈ rest) →
      (∀ n ∈ done, n.handed m f = n.handed m g) → ∀ n ∈ rest, n.handed m f = n.handed m g := by
  induction rest with
  | nil => exact fun _ _ _ => nofun
  | cons n rest ih =>
    intro done hd hmem hdone
    have hn : n.handed m f = n.handed m g := by
      refine Node.handed_congr fun o ho => hf.agree hg fun a ha => ?_
      rcases hmem a ha with ha | ha
      · rw [hdone a ha]
      · have hnone : ∀ i ∈ a.inputs, i.id ≠ o.id := by
          rcases List.mem_cons.1 ha with rfl | ha
          · exact hd.own a List.mem_cons_self o ho
          · exact (List.pairwise_cons.1 hd.later).1 a ha o ho
        rw [Node.gathered_handed hnone, Node.gathered_handed hnone]
    have hmem' : ∀ a ∈ nodes, a ∈ n :: done ∨ a ∈ rest := fun a ha => by
      simpa only [List.mem_cons, or_assoc, or_left_comm] using hmem a ha
    have hrest := ih hd.tail hmem' (List.forall_mem_cons.2 ⟨hn, hdone⟩)
    exact List.forall_mem_cons.2 ⟨hn, hrest⟩

/-- There is one solution: gradients are determined in the order of the visits. -/
theorem Descending.unique {f g : Nat → Option Values} (h : Descending nodes.reverse)
    (hf : Adjoint m nodes seeds f) (hg : Adjoint m nodes seeds g) : f = g := by
  have hmem : ∀ n ∈ nodes, n ∈ [] ∨ n ∈ nodes.reverse := fun n hn => .inr (List.mem_reverse.2 hn)
  have hall := Descending.agree hf hg h hmem nofun
  funext id
  exact hf.agree hg fun n hn => by rw [hall n (List.mem_reverse.2 hn)]

end ScopedTensor
