import ScopedTensor.Autograd.Backward
import ScopedTensor.Proofs.Result

/-! The backward pass as a solution of equations. Each array's gradient is an ordered sum: the seeds
given for it, then what the nodes hand to it, the latest node first. What a node hands on is made of
the gradients of its outputs, and since those are numbered above its inputs they are complete when
the node is reached. No law of addition is used. -/

namespace ScopedTensor

open Binary

namespace Gradients

def plus (old g : Values) : Values := old.zipWith (· + ·) g ++ old.drop g.length

def total : List Values → Option Values
  | [] => none
  | g :: gs => some (gs.foldl plus g)

def addTo (old : Option Values) (g : Values) : Option Values :=
  match old with
  | none => some g
  | some old => some (plus old g)

theorem foldl_addTo_some (gs : List Values) :
    ∀ g, gs.foldl addTo (some g) = some (gs.foldl plus g) := by
  induction gs with
  | nil => intro g; rfl
  | cons x gs ih => intro g; exact ih (plus g x)

theorem total_eq_foldl (gs : List Values) : total gs = gs.foldl addTo none := by
  cases gs with
  | nil => rfl
  | cons g gs => exact (foldl_addTo_some gs g).symm

theorem isSome_total (gs : List Values) : (total gs).isSome ↔ ∃ g, g ∈ gs := by
  cases gs with
  | nil => simp [total]
  | cons g gs => exact ⟨fun _ => ⟨g, List.mem_cons_self⟩, fun _ => rfl⟩

def gathered (id : Nat) (cs : List (Nat × Values)) : List Values :=
  (cs.filter fun c => c.1 == id).map Prod.snd

theorem gathered_append (id : Nat) (cs ds : List (Nat × Values)) :
    gathered id (cs ++ ds) = gathered id cs ++ gathered id ds := by
  simp only [gathered, List.filter_append, List.map_append]

theorem gathered_flatMap {α : Type} (id : Nat) (xs : List α) (f : α → List (Nat × Values)) :
    gathered id (xs.flatMap f) = xs.flatMap fun x => gathered id (f x) := by
  induction xs with
  | nil => rfl
  | cons x xs ih => rw [List.flatMap_cons, gathered_append, ih, List.flatMap_cons]

theorem mem_gathered {id : Nat} {cs : List (Nat × Values)} {g : Values} :
    g ∈ gathered id cs ↔ (id, g) ∈ cs := by
  simp only [gathered, List.mem_map, List.mem_filter, beq_iff_eq]
  constructor
  · rintro ⟨⟨j, x⟩, ⟨hc, rfl⟩, rfl⟩
    exact hc
  · intro h
    exact ⟨(id, g), ⟨h, rfl⟩, rfl⟩

theorem gathered_eq_nil {id : Nat} {cs : List (Nat × Values)} (h : ∀ c ∈ cs, c.1 ≠ id) :
    gathered id cs = [] := by
  have hnone : cs.filter (fun c => c.1 == id) = [] := by
    rw [List.filter_eq_nil_iff]
    intro c hc
    simpa using h c hc
  rw [gathered, hnone, List.map_nil]

theorem get?_accumulate (gs : Gradients) (id j : Nat) (g : Values) :
    (gs.accumulate id g).get? j = if j = id then addTo (gs.get? id) g else gs.get? j := by
  unfold accumulate
  cases gs.get? id <;> exact Table.get?_insert gs id j _

def take (gs : Gradients) (cs : List (Nat × Values)) : Gradients :=
  cs.foldl (fun gs c => gs.accumulate c.1 c.2) gs

theorem get?_take (id : Nat) (cs : List (Nat × Values)) :
    ∀ gs : Gradients, (gs.take cs).get? id = (gathered id cs).foldl addTo (gs.get? id) := by
  induction cs with
  | nil => intro gs; rfl
  | cons c cs ih =>
    intro gs
    change ((gs.accumulate c.1 c.2).take cs).get? id = _
    have hrest := ih (gs.accumulate c.1 c.2)
    rw [get?_accumulate] at hrest
    by_cases hc : id = c.1
    · subst hc
      rw [if_pos rfl] at hrest
      simpa [gathered] using hrest
    · rw [if_neg hc] at hrest
      have hne : (c.1 == id) = false := by simpa using Ne.symm hc
      simpa [gathered, hne] using hrest

theorem seeded_eq_take (seeds : List (Nat × Values)) :
    seeded seeds = take (Table.empty : Gradients) seeds := rfl

def received (cs : List (Tracked × Option Values)) : List (Nat × Values) :=
  cs.filterMap fun c => c.2.map fun g => (c.1.id, g)

theorem accumulateAll_eq_take (cs : List (Tracked × Option Values)) :
    ∀ gs : Gradients, gs.accumulateAll cs = gs.take (received cs) := by
  induction cs with
  | nil => intro gs; rfl
  | cons c cs ih =>
    intro gs
    obtain ⟨i, g⟩ := c
    cases g with
    | none => exact ih gs
    | some g => exact ih (gs.accumulate i.id g)

end Gradients

open Gradients

namespace Node

def Reached (f : Nat → Option Values) (n : Node) : Prop := ∃ o ∈ n.outputs, (f o.id).isSome

def outputGradients (f : Nat → Option Values) (n : Node) : List (Option Values) :=
  n.outputs.map fun o => f o.id

def handed (m : Memory) (f : Nat → Option Values) (n : Node) : List (Nat × Values) :=
  if (n.outputGradients f).all Option.isNone then []
  else
    match n.contributions m (n.outputGradients f) with
    | .ok cs => received (n.inputs.zip cs)
    | .error _ => []

variable {m : Memory} {f g : Nat → Option Values} {n : Node}

theorem reached_iff : n.Reached f ↔ (n.outputGradients f).all Option.isNone = false := by
  unfold Reached outputGradients
  rw [List.all_eq_false]
  constructor
  · rintro ⟨o, ho, hsome⟩
    refine ⟨f o.id, List.mem_map_of_mem ho, ?_⟩
    rw [Option.isNone_iff_eq_none]
    intro hnone
    rw [hnone] at hsome
    exact absurd hsome nofun
  · rintro ⟨x, hx, hsome⟩
    obtain ⟨o, ho, rfl⟩ := List.mem_map.1 hx
    exact ⟨o, ho, by simpa [Option.isSome_iff_ne_none] using hsome⟩

theorem not_reached_iff : ¬ n.Reached f ↔ (n.outputGradients f).all Option.isNone = true := by
  rw [reached_iff, Bool.not_eq_false]

theorem handed_of_not_reached (h : ¬ n.Reached f) : n.handed m f = [] := by
  rw [handed, if_pos (not_reached_iff.1 h)]

theorem handed_of_contributions {cs : List (Option Values)} (h : n.Reached f)
    (hcs : n.contributions m (n.outputGradients f) = .ok cs) :
    n.handed m f = received (n.inputs.zip cs) := by
  rw [handed, reached_iff.1 h, hcs]
  rfl

theorem outputGradients_congr (h : ∀ o ∈ n.outputs, f o.id = g o.id) :
    n.outputGradients f = n.outputGradients g := List.map_congr_left h

theorem handed_congr (h : ∀ o ∈ n.outputs, f o.id = g o.id) : n.handed m f = n.handed m g := by
  rw [handed, handed, outputGradients_congr h]

theorem mem_inputs_of_handed {c : Nat × Values} (h : c ∈ n.handed m f) :
    ∃ i ∈ n.inputs, i.id = c.1 := by
  unfold handed at h
  split at h
  · exact absurd h List.not_mem_nil
  · split at h
    · obtain ⟨p, hp, hc⟩ := List.mem_filterMap.1 h
      obtain ⟨x, -, rfl⟩ := Option.map_eq_some_iff.1 hc
      exact ⟨p.1, (List.of_mem_zip hp).1, rfl⟩
    · exact absurd h List.not_mem_nil

theorem visit_of_reached {gs : Gradients} (h : n.Reached gs.get?) :
    n.visit m gs = (n.contributions m (n.outputGradients gs.get?)).map fun cs =>
      gs.accumulateAll (n.inputs.zip cs) :=
  if_neg ((Bool.not_eq_true _).mpr (reached_iff.1 h))

theorem visit_of_not_reached {gs : Gradients} (h : ¬ n.Reached gs.get?) :
    n.visit m gs = .ok gs := if_pos (not_reached_iff.1 h)

theorem visit_ok {gs gs' : Gradients} (h : n.visit m gs = .ok gs') :
    gs' = gs.take (n.handed m gs.get?) ∧
      (n.Reached gs.get? → ∃ cs, n.contributions m (n.outputGradients gs.get?) = .ok cs) := by
  by_cases hreached : n.Reached gs.get?
  · rw [visit_of_reached hreached] at h
    obtain ⟨cs, hcs, rfl⟩ := map_eq_ok.1 h
    rw [handed_of_contributions hreached hcs, accumulateAll_eq_take]
    exact ⟨rfl, fun _ => ⟨cs, hcs⟩⟩
  · rw [visit_of_not_reached hreached] at h
    rw [handed_of_not_reached hreached, ← Except.ok.inj h]
    exact ⟨rfl, fun h => absurd h hreached⟩

theorem visit_of_contributions {gs : Gradients}
    (h : n.Reached gs.get? → ∃ cs, n.contributions m (n.outputGradients gs.get?) = .ok cs) :
    n.visit m gs = .ok (gs.take (n.handed m gs.get?)) := by
  by_cases hreached : n.Reached gs.get?
  · obtain ⟨cs, hcs⟩ := h hreached
    rw [visit_of_reached hreached, handed_of_contributions hreached hcs, hcs,
      ← accumulateAll_eq_take]
    rfl
  · rw [visit_of_not_reached hreached, handed_of_not_reached hreached]
    rfl

end Node
end ScopedTensor
