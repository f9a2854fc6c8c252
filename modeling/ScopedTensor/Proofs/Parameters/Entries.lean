import Mathlib.Data.List.Induction
import Mathlib.Data.List.Nodup
import ScopedTensor.Value.Params

/-! Parameters as a map: what one call changes, and what a sequence of calls leaves behind. -/

namespace ScopedTensor

namespace Params

theorem find?_map {f : String × Param → String × Param} (hf : ∀ e, (f e).1 = e.1)
    (es : List (String × Param)) (k : String) :
    (es.map f).find? (fun e => e.1 == k) = (es.find? fun e => e.1 == k).map f := by
  have hkey : (fun e : String × Param => e.1 == k) ∘ f = fun e => e.1 == k :=
    funext fun e => congrArg (· == k) (hf e)
  rw [List.find?_map, hkey]

theorem contains_iff {p : Params} {k : String} : p.contains k = true ↔ k ∈ p.keys := by
  simp [contains, keys]

theorem key_of_find? {es : List (String × Param)} {k : String} {e : String × Param}
    (h : es.find? (fun e => e.1 == k) = some e) : e.1 = k := by
  simpa using List.find?_some h

def reset (k : String) (v : Param) (e : String × Param) : String × Param :=
  if e.1 == k then (e.1, v) else e

theorem fst_reset (k : String) (v : Param) (e : String × Param) : (reset k v e).1 = e.1 := by
  unfold reset
  split <;> rfl

theorem entries_set (p : Params) (k : String) (v : Param) :
    (p.set k v).entries =
      if k ∈ p.keys then p.entries.map (reset k v) else p.entries ++ [(k, v)] := by
  unfold set
  by_cases hk : k ∈ p.keys
  · rw [if_pos hk, if_pos (contains_iff.2 hk)]
    rfl
  · rw [if_neg hk, if_neg (contains_iff.not.2 hk)]

theorem keys_set (p : Params) (k : String) (v : Param) :
    (p.set k v).keys = if k ∈ p.keys then p.keys else p.keys ++ [k] := by
  rw [keys, entries_set]
  split
  · rw [List.map_map]
    exact List.map_congr_left fun e _ => fst_reset k v e
  · rw [List.map_append]
    rfl

theorem get?_set (p : Params) (k : String) (v : Param) (k' : String) :
    (p.set k v).get? k' = if k' = k then some v else p.get? k' := by
  rw [get?, entries_set]
  by_cases hk : k ∈ p.keys
  · rw [if_pos hk, find?_map (fst_reset k v)]
    cases hfind : p.entries.find? fun e => e.1 == k' with
    | none =>
      have hne : k' ≠ k := by
        rintro rfl
        obtain ⟨e, he, hkey⟩ := List.mem_map.1 hk
        exact List.find?_eq_none.1 hfind e he (beq_iff_eq.2 hkey)
      rw [if_neg hne, get?, hfind]
      rfl
    | some e =>
      obtain rfl := key_of_find? hfind
      rw [Option.map_some, Option.map_some, reset, get?, hfind]
      by_cases he : e.1 = k
      · simp [he]
      · simp [he]
  · rw [if_neg hk, List.find?_append, get?]
    cases hfind : p.entries.find? fun e => e.1 == k' with
    | none =>
      by_cases hkey : k' = k
      · simp [hkey]
      · simp [hkey, Ne.symm hkey]
    | some e =>
      obtain rfl := key_of_find? hfind
      have hmem : e ∈ p.entries := List.mem_of_find?_eq_some hfind
      have hne : e.1 ≠ k := fun he => hk (he ▸ List.mem_map_of_mem hmem)
      rw [if_neg hne]
      rfl

/-- No key twice, and each entry is the one that is found under its key. -/
structure Distinct (p : Params) : Prop where
  nodup : p.keys.Nodup
  found : ∀ e ∈ p.entries, p.get? e.1 = some e.2

theorem distinct_empty : Distinct empty where
  nodup := .nil
  found := fun _ he => absurd he List.not_mem_nil

theorem Distinct.set {p : Params} (h : p.Distinct) (k : String) (v : Param) :
    (p.set k v).Distinct where
  nodup := by
    rw [keys_set]
    split
    · exact h.nodup
    · rename_i hk
      exact List.nodup_append_comm.1 (List.nodup_cons.2 ⟨hk, h.nodup⟩)
  found := fun e he => by
    rw [entries_set] at he
    rw [get?_set]
    split at he
    · obtain ⟨d, hd, rfl⟩ := List.mem_map.1 he
      rw [fst_reset, h.found d hd, reset]
      by_cases hkey : d.1 = k
      · simp [hkey]
      · simp [hkey]
    · rename_i hk
      rcases List.mem_append.1 he with he | he
      · have hne : e.1 ≠ k := fun hkey => hk (hkey ▸ List.mem_map_of_mem he)
        rw [if_neg hne, h.found e he]
      · obtain rfl := List.mem_singleton.1 he
        rw [if_pos rfl]

/-- A call that puts a value under a key: the value itself, or what it is made of. -/
inductive Addition where
  | set (key : String) (value : Param)
  | int (key : String) (i : Int)
  | float (key : String) (x : Binary.Binary64)
  | flag (key : String) (b : Bool)
  | text (key : String) (s : String)
  | shape (key : String) (s : Shape)
  | type (key : String) (t : ElementType)
  | device (key : String) (d : Device)

namespace Addition

def key : Addition → String
  | set k _ | int k _ | float k _ | flag k _ | text k _ | shape k _ | type k _ | device k _ => k

def value : Addition → Param
  | set _ v => v
  | int _ i => .int i
  | float _ x => .float x
  | flag _ b => .bool b
  | text _ s => .text s
  | shape _ s => dimsParam s
  | type _ t => .type t
  | device _ d => .device d

end Addition

def run (cs : List Addition) : Params := cs.foldl (fun p c => p.set c.key c.value) empty

theorem run_concat (cs : List Addition) (c : Addition) :
    run (cs ++ [c]) = (run cs).set c.key c.value := by
  rw [run, List.foldl_append]
  rfl

theorem distinct_run (cs : List Addition) : (run cs).Distinct := by
  induction cs using List.reverseRecOn with
  | nil => exact distinct_empty
  | append_singleton cs c ih => exact run_concat cs c ▸ ih.set c.key c.value

theorem eraseDups_concat (ks : List String) (k : String) :
    (ks ++ [k]).eraseDups = if k ∈ ks then ks.eraseDups else ks.eraseDups ++ [k] := by
  have hrest : [k].removeAll ks = if k ∈ ks then [] else [k] := by
    unfold List.removeAll
    rw [List.filter_singleton, Bool.cond_eq_ite]
    by_cases hk : k ∈ ks
    · simp [hk]
    · simp [hk]
  rw [List.eraseDups_append, hrest]
  by_cases hk : k ∈ ks
  · rw [if_pos hk, if_pos hk]
    exact List.append_nil _
  · rw [if_neg hk, if_neg hk]
    rfl

theorem keys_run (cs : List Addition) : (run cs).keys = (cs.map Addition.key).eraseDups := by
  induction cs using List.reverseRecOn with
  | nil => rfl
  | append_singleton cs c ih =>
    rw [run_concat, keys_set, List.map_append, List.map_singleton, eraseDups_concat, ih]
    exact if_congr List.mem_eraseDups rfl rfl

theorem get?_run (cs : List Addition) (k : String) :
    (run cs).get? k = (cs.filter fun c => c.key == k).getLast?.map Addition.value := by
  induction cs using List.reverseRecOn with
  | nil => rfl
  | append_singleton cs c ih =>
    rw [run_concat, get?_set, List.filter_append, ih]
    by_cases hk : k = c.key
    · simp [hk]
    · simp [hk, Ne.symm hk]

theorem get?_run_filter (cs : List Addition) (k : String) :
    (run (cs.filter fun c => c.key == k)).get? k = (run cs).get? k := by
  rw [get?_run, get?_run, List.filter_filter]
  simp only [Bool.and_self]

end Params
end ScopedTensor
