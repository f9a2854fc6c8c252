/-! Tables keyed by natural numbers that remember the order in which keys first came in.
Looking a key up after a write sees the write, and other keys are left as they were. -/

namespace ScopedTensor

structure Table (α : Type) where
  entries : List (Nat × α)

namespace Table

variable {α : Type}

def empty : Table α := ⟨[]⟩

def keys (t : Table α) : List Nat := t.entries.map Prod.fst

def size (t : Table α) : Nat := t.entries.length

def get? (t : Table α) (k : Nat) : Option α :=
  (t.entries.find? (fun e => e.1 == k)).map Prod.snd

def contains (t : Table α) (k : Nat) : Bool := (t.get? k).isSome

def modify (t : Table α) (k : Nat) (f : α → α) : Table α :=
  ⟨t.entries.map fun e => if e.1 == k then (e.1, f e.2) else e⟩

/-- A key that is there keeps its place; a new one goes to the end. -/
def insert (t : Table α) (k : Nat) (a : α) : Table α :=
  if t.contains k then t.modify k fun _ => a else ⟨t.entries ++ [(k, a)]⟩

def erase (t : Table α) (k : Nat) : Table α :=
  ⟨t.entries.filter fun e => !(e.1 == k)⟩

@[simp] theorem get?_empty (k : Nat) : (empty : Table α).get? k = none := rfl

theorem get?_modify (t : Table α) (k j : Nat) (f : α → α) :
    (t.modify k f).get? j = if j = k then (t.get? j).map f else t.get? j := by
  obtain ⟨es⟩ := t
  simp only [get?, modify]
  induction es with
  | nil => simp
  | cons e es ih =>
    rw [List.map_cons, List.find?_cons, List.find?_cons]
    by_cases hj : e.1 = j
    · by_cases hk : e.1 = k
      · subst hj; subst hk; simp
      · have hjk : ¬ j = k := fun h => hk (hj.trans h)
        simp [hj, hjk]
    · by_cases hk : e.1 = k
      · have hne : (k == j) = false := by simpa [← hk] using hj
        simpa [hk, hne] using ih
      · have hne : (e.1 == j) = false := by simpa using hj
        simpa [hk, hne] using ih

theorem get?_append_of_none (t : Table α) (k j : Nat) (a : α) (h : t.get? k = none) :
    (Table.mk (t.entries ++ [(k, a)])).get? j = if j = k then some a else t.get? j := by
  obtain ⟨es⟩ := t
  simp only [get?, Option.map_eq_none_iff, List.find?_append] at h ⊢
  by_cases hj : j = k
  · subst hj; simp [h]
  · have hne : (k == j) = false := by simpa using Ne.symm hj
    simp [hj, hne]

theorem get?_insert (t : Table α) (k j : Nat) (a : α) :
    (t.insert k a).get? j = if j = k then some a else t.get? j := by
  unfold insert
  split
  · rename_i h
    rw [get?_modify]
    by_cases hj : j = k
    · subst hj
      obtain ⟨b, hb⟩ := Option.isSome_iff_exists.1 h
      simp [hb]
    · simp [hj]
  · rename_i h
    exact get?_append_of_none t k j a (by simpa [contains] using h)

theorem get?_erase (t : Table α) (k j : Nat) :
    (t.erase k).get? j = if j = k then none else t.get? j := by
  obtain ⟨es⟩ := t
  simp only [get?, erase]
  by_cases hj : j = k
  · subst hj
    have hnone : (es.filter fun e => !(e.1 == j)).find? (fun e => e.1 == j) = none := by
      simp only [List.find?_eq_none, List.mem_filter]
      intro e he
      simpa using he.2
    simp [hnone]
  · simp only [hj, if_false]
    congr 1
    induction es with
    | nil => rfl
    | cons e es ih =>
      by_cases hk : e.1 = k
      · have hne : (k == j) = false := by simpa using Ne.symm hj
        simp [hk, hne, ih]
      · simp [hk, List.find?_cons, ih]

theorem get?_modify_eq_some {t : Table α} {k j : Nat} {f : α → α} {b : α} :
    (t.modify k f).get? j = some b ↔
      j = k ∧ (∃ a, t.get? j = some a ∧ f a = b) ∨ j ≠ k ∧ t.get? j = some b := by
  rw [get?_modify]
  by_cases hj : j = k <;> simp [hj]

theorem get?_insert_eq_some {t : Table α} {k j : Nat} {a b : α} :
    (t.insert k a).get? j = some b ↔ j = k ∧ a = b ∨ j ≠ k ∧ t.get? j = some b := by
  rw [get?_insert]
  by_cases hj : j = k <;> simp [hj]

theorem get?_erase_eq_some {t : Table α} {k j : Nat} {a : α} :
    (t.erase k).get? j = some a ↔ j ≠ k ∧ t.get? j = some a := by
  rw [get?_erase]
  by_cases hj : j = k <;> simp [hj]

theorem mem_keys_iff (t : Table α) (k : Nat) : k ∈ t.keys ↔ ∃ a, t.get? k = some a := by
  obtain ⟨es⟩ := t
  simp only [keys, get?, List.mem_map, Option.map_eq_some_iff]
  constructor
  · rintro ⟨e, he, rfl⟩
    cases hf : es.find? (fun e' => e'.1 == e.1) with
    | none => exact absurd (List.find?_eq_none.1 hf e he) (by simp)
    | some x => exact ⟨x.2, x, rfl, rfl⟩
  · rintro ⟨a, e, he, rfl⟩
    exact ⟨e, List.mem_of_find?_eq_some he, by simpa using List.find?_some he⟩

theorem not_mem_keys_iff (t : Table α) (k : Nat) : k ∉ t.keys ↔ t.get? k = none := by
  rw [mem_keys_iff]
  cases t.get? k <;> simp

theorem length_keys (t : Table α) : t.keys.length = t.size := List.length_map _

@[simp] theorem keys_modify (t : Table α) (k : Nat) (f : α → α) : (t.modify k f).keys = t.keys := by
  simp only [keys, modify, List.map_map]
  refine List.map_congr_left fun e _ => ?_
  simp only [Function.comp_apply]
  split <;> rfl

theorem insert_of_none {t : Table α} {k : Nat} (a : α) (h : t.get? k = none) :
    t.insert k a = ⟨t.entries ++ [(k, a)]⟩ := by
  simp [insert, contains, h]

theorem keys_insert_of_none {t : Table α} {k : Nat} (a : α) (h : t.get? k = none) :
    (t.insert k a).keys = t.keys ++ [k] := by
  simp [insert_of_none a h, keys]

theorem keys_erase (t : Table α) (k : Nat) :
    (t.erase k).keys = t.keys.filter (fun j => !(j == k)) := by
  simp only [keys, erase, List.filter_map]
  rfl

theorem get?_eq_some_of_mem {t : Table α} (h : t.keys.Nodup) {e : Nat × α} (he : e ∈ t.entries) :
    t.get? e.1 = some e.2 := by
  obtain ⟨es⟩ := t
  simp only [keys, get?] at h ⊢
  induction es with
  | nil => simp at he
  | cons x es ih =>
    rw [List.map_cons, List.nodup_cons] at h
    rcases List.mem_cons.1 he with rfl | he
    · simp
    · have hne : x.1 ≠ e.1 := fun hx => h.1 (hx ▸ List.mem_map_of_mem he)
      rw [List.find?_cons_of_neg (by simpa using hne)]
      exact ih h.2 he

theorem mem_of_get?_eq_some {t : Table α} {k : Nat} {a : α} (h : t.get? k = some a) :
    (k, a) ∈ t.entries := by
  obtain ⟨e, he, rfl⟩ := Option.map_eq_some_iff.1 h
  have hk : e.1 = k := by simpa using List.find?_some he
  exact hk ▸ List.mem_of_find?_eq_some he

theorem mem_of_mem_insert {t : Table α} {k : Nat} {a : α} {e : Nat × α}
    (h : e ∈ (t.insert k a).entries) : e ∈ t.entries ∨ e = (k, a) := by
  unfold insert at h
  split at h
  · obtain ⟨x, hx, rfl⟩ := List.mem_map.1 h
    split
    · rename_i hk
      exact .inr (by rw [eq_of_beq hk])
    · exact .inl hx
  · exact (List.mem_append.1 h).imp id List.mem_singleton.1

theorem mem_of_mem_erase {t : Table α} {k : Nat} {e : Nat × α} (h : e ∈ (t.erase k).entries) :
    e ∈ t.entries := (List.mem_filter.1 h).1

theorem any_entries_iff {t : Table α} (h : t.keys.Nodup) (p : Nat × α → Bool) :
    t.entries.any p = true ↔ ∃ k a, t.get? k = some a ∧ p (k, a) = true := by
  rw [List.any_eq_true]
  constructor
  · rintro ⟨e, he, hp⟩
    exact ⟨e.1, e.2, get?_eq_some_of_mem h he, hp⟩
  · rintro ⟨k, a, ha, hp⟩
    exact ⟨(k, a), mem_of_get?_eq_some ha, hp⟩

theorem map_get?_modify {β : Type} (t : Table α) (k j : Nat) (f : α → α) (p : α → β)
    (h : ∀ a, p (f a) = p a) : ((t.modify k f).get? j).map p = (t.get? j).map p := by
  rw [get?_modify]
  split
  · cases t.get? j <;> simp [h]
  · rfl

theorem bind_get?_modify {β : Type} (t : Table α) (k j : Nat) (f : α → α) (p : α → Option β)
    (h : ∀ a, p (f a) = p a) : ((t.modify k f).get? j).bind p = (t.get? j).bind p := by
  rw [get?_modify]
  split
  · cases t.get? j <;> simp [h]
  · rfl

theorem bind_get?_insert {β : Type} {t : Table α} {k : Nat} (j : Nat) {a : α} {p : α → Option β}
    (hk : t.get? k = none) (ha : p a = none) :
    ((t.insert k a).get? j).bind p = (t.get? j).bind p := by
  rw [get?_insert]
  split
  · rename_i hj
    simp [hj, hk, ha]
  · rfl

theorem bind_get?_erase {β : Type} {t : Table α} {k : Nat} (j : Nat) {p : α → Option β}
    (hk : (t.get? k).bind p = none) : ((t.erase k).get? j).bind p = (t.get? j).bind p := by
  rw [get?_erase]
  split
  · rename_i hj
    rw [hj, hk]
    rfl
  · rfl

theorem mem_keys_insert {t : Table α} {k j : Nat} {a : α} :
    j ∈ (t.insert k a).keys ↔ j ∈ t.keys ∨ j = k := by
  rw [mem_keys_iff, mem_keys_iff, get?_insert]
  by_cases hj : j = k <;> simp [hj]

theorem mem_keys_erase {t : Table α} {k j : Nat} : j ∈ (t.erase k).keys ↔ j ∈ t.keys ∧ j ≠ k := by
  simp [keys_erase]

theorem erase_of_not_mem {t : Table α} {k : Nat} (h : k ∉ t.keys) : t.erase k = t := by
  unfold erase
  congr 1
  refine List.filter_eq_self.2 fun e he => ?_
  have hne : e.1 ≠ k := by
    rintro rfl
    exact h (List.mem_map_of_mem he)
  simpa using hne

theorem modify_modify (t : Table α) (k : Nat) (f g : α → α) :
    (t.modify k f).modify k g = t.modify k fun a => g (f a) := by
  simp only [modify, List.map_map]
  congr 1
  refine List.map_congr_left fun e _ => ?_
  simp only [Function.comp_apply]
  split <;> simp_all

theorem modify_insert {t : Table α} {k j : Nat} (f : α → α) (a : α) (hk : t.get? k = none)
    (hj : j ≠ k) : (t.insert k a).modify j f = (t.modify j f).insert k a := by
  have hk' : (t.modify j f).get? k = none := by
    rw [get?_modify, if_neg (Ne.symm hj), hk]
  rw [insert_of_none a hk, insert_of_none a hk']
  simp [modify, Ne.symm hj]

theorem modify_of_not_mem {t : Table α} {k : Nat} (f : α → α) (h : k ∉ t.keys) :
    t.modify k f = t := by
  unfold modify
  congr 1
  refine (List.map_congr_left fun e he => ?_).trans (List.map_id t.entries)
  have hne : e.1 ≠ k := by
    rintro rfl
    exact h (List.mem_map_of_mem he)
  simp [hne]

theorem modify_insert_self {t : Table α} {k : Nat} (f : α → α) (a : α) (hk : t.get? k = none) :
    (t.insert k a).modify k f = t.insert k (f a) := by
  have hold : (t.modify k f).entries = t.entries :=
    congrArg entries (modify_of_not_mem f ((not_mem_keys_iff _ _).2 hk))
  rw [insert_of_none a hk, insert_of_none (f a) hk]
  refine congrArg Table.mk (List.map_append.trans ?_)
  rw [show t.entries.map _ = t.entries from hold]
  simp

theorem erase_insert {t : Table α} {k : Nat} (a : α) (hk : t.get? k = none) :
    (t.insert k a).erase k = t := by
  have hold := erase_of_not_mem ((not_mem_keys_iff _ _).2 hk)
  rw [insert_of_none a hk]
  unfold erase at hold ⊢
  simpa using hold

theorem erase_modify (t : Table α) (k : Nat) (f : α → α) : (t.modify k f).erase k = t.erase k := by
  obtain ⟨es⟩ := t
  simp only [modify, erase]
  congr 1
  induction es with
  | nil => rfl
  | cons e es ih =>
    by_cases hk : e.1 = k
    · simpa [hk] using ih
    · simpa [hk] using ih

theorem modify_of_fixed {t : Table α} (h : t.keys.Nodup) {k : Nat} {a : α} {f : α → α}
    (ha : t.get? k = some a) (hf : f a = a) : t.modify k f = t := by
  unfold modify
  congr 1
  refine (List.map_congr_left fun e he => ?_).trans (List.map_id t.entries)
  by_cases hk : e.1 = k
  · have hentry := get?_eq_some_of_mem h he
    rw [hk, ha] at hentry
    have hea : e.2 = a := (Option.some.inj hentry).symm
    rw [if_pos (by simpa using hk), hea, hf, ← hea]
    rfl
  · simp [hk]

def map {β : Type} (f : α → β) (t : Table α) : Table β := ⟨t.entries.map fun e => (e.1, f e.2)⟩

section Map

variable {β : Type} {f : α → β}

theorem get?_map (f : α → β) (t : Table α) (k : Nat) : (t.map f).get? k = (t.get? k).map f := by
  simp only [get?, map, List.find?_map, Option.map_map]
  rfl

theorem keys_map (f : α → β) (t : Table α) : (t.map f).keys = t.keys := by
  simp [keys, map]

theorem map_modify {m : α → α} {g : β → β} (h : ∀ a, f (m a) = g (f a)) (t : Table α) (k : Nat) :
    (t.modify k m).map f = (t.map f).modify k g := by
  simp only [modify, map, List.map_map]
  congr 1
  refine List.map_congr_left fun e _ => ?_
  by_cases hk : e.1 = k <;> simp [hk, h]

theorem map_modify_of_eq {m : α → α} (h : ∀ a, f (m a) = f a) (t : Table α) (k : Nat) :
    (t.modify k m).map f = t.map f := by
  simp only [modify, map, List.map_map]
  congr 1
  refine List.map_congr_left fun e _ => ?_
  by_cases hk : e.1 = k <;> simp [hk, h]

theorem map_insert {t : Table α} {k : Nat} (a : α) (hk : t.get? k = none) :
    (t.insert k a).map f = (t.map f).insert k (f a) := by
  have hk' : (t.map f).get? k = none := by
    rw [get?_map, hk]
    rfl
  rw [insert_of_none a hk, insert_of_none (f a) hk']
  simp [map]

theorem map_erase (t : Table α) (k : Nat) : (t.erase k).map f = (t.map f).erase k := by
  simp only [erase, map, List.filter_map]
  rfl

end Map

theorem ne_of_split {t : Table α} (h : t.keys.Nodup) {k : Nat} {a : α}
    {before behind : List (Nat × α)} (ht : t.entries = before ++ (k, a) :: behind) :
    (∀ e ∈ before, e.1 ≠ k) ∧ ∀ e ∈ behind, e.1 ≠ k := by
  have hkeys : (before.map Prod.fst ++ k :: behind.map Prod.fst).Nodup := by
    rw [← List.map_cons (f := Prod.fst) (a := (k, a)), ← List.map_append, ← ht]
    exact h
  rw [List.nodup_append, List.nodup_cons] at hkeys
  refine ⟨fun e he => ?_, fun e he hk => ?_⟩
  · exact hkeys.2.2 e.1 (List.mem_map_of_mem he) k List.mem_cons_self
  · exact hkeys.2.1.1 (hk ▸ List.mem_map_of_mem he)

theorem exists_split {t : Table α} (h : t.keys.Nodup) {k : Nat} {a : α} (ha : t.get? k = some a) :
    ∃ before behind, t.entries = before ++ (k, a) :: behind ∧
      (∀ f, (t.modify k f).entries = before ++ (k, f a) :: behind) ∧
      (t.erase k).entries = before ++ behind := by
  obtain ⟨before, behind, he⟩ := List.append_of_mem (mem_of_get?_eq_some ha)
  obtain ⟨hbefore, hbehind⟩ := ne_of_split h he
  have hne₁ : ∀ e ∈ before, (e.1 == k) = false := fun e hm => by simpa using hbefore e hm
  have hne₂ : ∀ e ∈ behind, (e.1 == k) = false := fun e hm => by simpa using hbehind e hm
  refine ⟨before, behind, he, fun f => ?_, ?_⟩
  · have hid : ∀ es : List (Nat × α), (∀ e ∈ es, (e.1 == k) = false) →
        es.map (fun e => if e.1 == k then (e.1, f e.2) else e) = es := by
      intro es hes
      refine (List.map_congr_left fun e hm => ?_).trans (List.map_id es)
      simp [hes e hm]
    simp only [modify, he, List.map_append, List.map_cons, hid before hne₁, hid behind hne₂]
    simp
  · have hid : ∀ es : List (Nat × α), (∀ e ∈ es, (e.1 == k) = false) →
        es.filter (fun e => !(e.1 == k)) = es := by
      intro es hes
      refine List.filter_eq_self.2 fun e hm => ?_
      simp [hes e hm]
    simp only [erase, he, List.filter_append, List.filter_cons, hid before hne₁, hid behind hne₂]
    simp

theorem nodup_insert {t : Table α} {k : Nat} (h : t.keys.Nodup) (a : α) :
    (t.insert k a).keys.Nodup := by
  cases hk : t.get? k with
  | none =>
    rw [keys_insert_of_none a hk]
    refine List.nodup_append.2 ⟨h, List.pairwise_singleton _ k, fun x hx y hy hxy => ?_⟩
    rw [List.mem_singleton.1 hy] at hxy
    exact (not_mem_keys_iff t k).2 hk (hxy ▸ hx)
  | some b =>
    unfold insert contains
    rw [hk, Option.isSome_some, if_pos rfl, keys_modify]
    exact h

theorem nodup_erase {t : Table α} {k : Nat} (h : t.keys.Nodup) : (t.erase k).keys.Nodup := by
  rw [keys_erase]
  exact h.filter _

theorem size_erase {t : Table α} {k : Nat} (h : t.keys.Nodup) (hk : k ∈ t.keys) :
    (t.erase k).size + 1 = t.size := by
  obtain ⟨a, ha⟩ := (mem_keys_iff t k).1 hk
  obtain ⟨before, behind, hall, -, herase⟩ := exists_split h ha
  simp only [size, hall, herase, List.length_append, List.length_cons]
  omega

end Table
end ScopedTensor
