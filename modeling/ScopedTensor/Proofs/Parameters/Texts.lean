import ScopedTensor.Proofs.Parameters.Entries
import ScopedTensor.Proofs.Parameters.Numerals

/-! Values that are read again from the texts an engine sees. Numerals, names of element types and
names of devices share no text, so a text is read as what it was written for. -/

namespace ScopedTensor

open Text

namespace Device

def Fits : Device → Prop
  | cpu => True
  | gpu n => n < Shape.wordSize

instance : DecidablePred Fits
  | cpu => inferInstanceAs (Decidable True)
  | gpu n => inferInstanceAs (Decidable (n < Shape.wordSize))

theorem toList_gpu (n : Nat) :
    (gpu n).text.toList = ['g', 'p', 'u', '('] ++ (Nat.toDigits 10 n ++ [')']) := by
  have htext : (gpu n).text = "gpu(" ++ toString n ++ ")" := rfl
  rw [htext, String.toList_append, String.toList_append, toList_natural, List.append_assoc]
  rfl

theorem splitText_gpu (n : Nat) :
    splitText (gpu n).text.toList = (['g', 'p', 'u'], Nat.toDigits 10 n) := by
  have hopen : ∀ c ∈ (Nat.toDigits 10 n).reverse, ¬ (c == ')') = true := by
    intro c hc heq
    have hdigit := range_of_mem_toDigits (List.mem_reverse.1 hc)
    rw [beq_iff_eq.1 heq] at hdigit
    exact absurd hdigit.1 (by decide)
  have hends : ((Nat.toDigits 10 n ++ [')']).reverse.dropWhile (· == ')')).reverse =
      Nat.toDigits 10 n := by
    rw [List.reverse_append, List.dropWhile_append_of_pos (by simp),
      List.dropWhile_eq_self_iff.2 fun hl => hopen _ (List.getElem_mem hl), List.reverse_reverse]
  rw [toList_gpu]
  exact congrArg (Prod.mk _) hends

theorem refuseOrRead_eq {s : String} {d : Device} (hd : d.Fits)
    (hs : lower (trim s.toList) = d.text.toList ∨ lower (trim s.toList) = d.parameterText.toList) :
    refuseOrRead s = .ok d := by
  rw [refuseOrRead]
  cases d with
  | cpu =>
    rcases hs with hs | hs
    · rw [hs]
      rfl
    · rw [hs]
      rfl
  | gpu n =>
    have hs : lower (trim s.toList) = (gpu n).text.toList := hs.elim id id
    simp [hs, splitText_gpu, natural?_toDigits hd]

theorem plain_of_mem_text {d : Device} : ∀ c ∈ d.text.toList, Plain c := by
  cases d with
  | cpu => exact plain_of_all (by decide)
  | gpu n =>
    intro c hc
    rw [toList_gpu] at hc
    rcases List.mem_append.1 hc with hc | hc
    · exact plain_of_all (by decide) c hc
    · rcases List.mem_append.1 hc with hc | hc
      · exact plain_of_mem_toDigits hc
      · obtain rfl := List.mem_singleton.1 hc
        decide

theorem read_surrounded {d : Device} (hd : d.Fits) {before w behind : List Char}
    (hbefore : ∀ c ∈ before, isBlank c = true) (hbehind : ∀ c ∈ behind, isBlank c = true)
    (hw : lower w = d.text.toList) :
    Device.read (String.ofList (before ++ w ++ behind)) = .ok d := by
  have hsolid : ∀ c ∈ w, isBlank c = false := by
    intro c hc
    have hmem : c.toLower ∈ lower w := List.mem_map_of_mem hc
    rw [hw] at hmem
    rw [← isBlank_toLower]
    exact (plain_of_mem_text _ hmem).isBlank
  have hs : lower (trim (String.ofList (before ++ w ++ behind)).toList) = d.text.toList := by
    rw [String.toList_ofList, trim_surrounded hbefore hbehind hsolid, hw]
  rw [Device.read, refuseOrRead_eq hd (.inl hs)]
  rfl

theorem read_parameterText {d : Device} (hd : d.Fits) : Device.read d.parameterText = .ok d := by
  have hs : lower (trim d.parameterText.toList) = d.parameterText.toList := by
    have hplain : ∀ c ∈ d.parameterText.toList, Plain c := by
      cases d with
      | cpu => exact plain_of_all (by decide)
      | gpu n => exact @plain_of_mem_text (gpu n)
    rw [trim_of_plain hplain, lower_of_plain hplain]
  rw [Device.read, refuseOrRead_eq hd (.inr hs)]
  rfl

theorem integer?_gpu (n : Nat) : integer? (Nat.pow 2 63) (gpu n).text.toList = none := by
  rw [toList_gpu]
  rfl

theorem gpu_ne {s : String} (hs : s.toList.head? ≠ some 'g') (n : Nat) : (gpu n).text ≠ s := by
  rintro rfl
  rw [toList_gpu] at hs
  exact hs rfl

theorem kind_of_read {s : String} {d : Device} (h : (Device.read s).toOption = some d) :
    (splitText (lower (trim s.toList))).1 ∈ ["cpu".toList, "gpu".toList, "cuda".toList] := by
  have hkind : ∀ {cs : List Char} {kind : String}, String.ofList cs = kind → cs = kind.toList := by
    rintro cs _ rfl
    exact String.toList_ofList.symm
  unfold Device.read refuseOrRead at h
  simp only at h
  split at h
  · cases h
  · split at h
    · rename_i hcpu
      exact hkind hcpu ▸ by simp
    · rename_i hgpu
      exact hkind hgpu ▸ by simp
    · rename_i hcuda
      exact hkind hcuda ▸ by simp
    · cases h

theorem read_numeral {i : Int} (hlo : -Int.pow 2 63 ≤ i) (hhi : i < Int.pow 2 63) :
    (Device.read (toString i)).toOption = none := by
  refine Option.eq_none_iff_forall_ne_some.2 fun d hd => ?_
  have hplain : ∀ c ∈ (toString i).toList, Plain c := fun _ => plain_of_mem_integer
  have hkind := kind_of_read hd
  rw [trim_of_plain hplain, lower_of_plain hplain] at hkind
  have hwhole : (splitText (toString i).toList).1 = (toString i).toList := by
    refine List.takeWhile_eq_self_iff.2 fun c hc => ?_
    have hrange := range_of_mem_integer hc
    have hopen : c ≠ '(' ∧ c ≠ ':' := by
      constructor
      · rintro rfl
        exact absurd hrange.1 (by decide)
      · rintro rfl
        exact absurd hrange.2 (by decide)
    simp [hopen]
  have hword : ∀ w ∈ ["cpu".toList, "gpu".toList, "cuda".toList],
      integer? (Nat.pow 2 63) w = none := by decide
  have hnumeral := integer?_toString hlo hhi
  rw [hword _ (hwhole ▸ hkind)] at hnumeral
  cases hnumeral

end Device

namespace ElementType

theorem lower_of_read {s : String} {t : ElementType} (h : (ElementType.read s).toOption = some t) :
    lower s.toList = t.name.toList ∨ lower s.toList = t.tag.toList := by
  unfold ElementType.read at h
  simp only at h
  split at h
  · rename_i hfind
    cases h
    have hname := List.find?_some hfind
    simp only [Bool.or_eq_true, beq_iff_eq] at hname
    rcases hname with h | h
    · exact .inl (by rw [h, String.toList_ofList])
    · exact .inr (by rw [h, String.toList_ofList])
  · cases h

theorem read_numeral {i : Int} (hlo : -Int.pow 2 63 ≤ i) (hhi : i < Int.pow 2 63) :
    (ElementType.read (toString i)).toOption = none := by
  have hword : ∀ t : ElementType, integer? (Nat.pow 2 63) t.name.toList = none ∧
      integer? (Nat.pow 2 63) t.tag.toList = none := by
    intro t
    cases t <;> exact ⟨rfl, rfl⟩
  refine Option.eq_none_iff_forall_ne_some.2 fun t ht => ?_
  have hnumeral := integer?_toString hlo hhi
  rw [← lower_of_plain fun _ => plain_of_mem_integer] at hnumeral
  rcases lower_of_read ht with h | h
  · rw [h, (hword t).1] at hnumeral
    cases hnumeral
  · rw [h, (hword t).2] at hnumeral
    cases hnumeral

theorem read_gpu (n : Nat) : (ElementType.read (Device.gpu n).text).toOption = none := by
  have hhead : ∀ t : ElementType,
      t.name.toList.head? ≠ some 'g' ∧ t.tag.toList.head? ≠ some 'g' := by
    intro t
    cases t <;> decide
  refine Option.eq_none_iff_forall_ne_some.2 fun t ht => ?_
  have hgpu : (lower (Device.gpu n).text.toList).head? = some 'g' := by
    rw [Device.toList_gpu]
    rfl
  rcases lower_of_read ht with h | h
  · exact (hhead t).1 (h ▸ hgpu)
  · exact (hhead t).2 (h ▸ hgpu)

end ElementType

namespace Param

def Fits : Param → Prop
  | int i => -Int.pow 2 63 ≤ i ∧ i < Int.pow 2 63
  | device d => d.Fits
  | _ => True

instance : DecidablePred Fits
  | int i => inferInstanceAs (Decidable (-Int.pow 2 63 ≤ i ∧ i < Int.pow 2 63))
  | device d => inferInstanceAs (Decidable d.Fits)
  | float _ | bool _ | text _ | tuple _ | type _ => inferInstanceAs (Decidable True)

/-- The kinds of values that can be read from their texts. -/
def isReadable : Param → Bool
  | int _ | bool _ | type _ | device _ => true
  | float _ | text _ | tuple _ => false

def asText (picks : Param → Bool) (v : Param) : Param := if picks v then .text v.native else v

theorem native_asText (picks : Param → Bool) (v : Param) : (v.asText picks).native = v.native := by
  unfold asText
  split <;> rfl

end Param

namespace Params

variable {picks : Param → Bool} {p : Params}

/-- Each value that is picked replaced by its text. -/
def asTexts (picks : Param → Bool) (p : Params) : Params :=
  ⟨p.entries.map fun e => (e.1, e.2.asText picks)⟩

theorem get?_asTexts (picks : Param → Bool) (p : Params) (k : String) :
    (p.asTexts picks).get? k = (p.get? k).map (Param.asText picks) := by
  have hfind := @find?_map (fun e => (e.1, e.2.asText picks)) (fun _ => rfl) p.entries k
  rw [get?, asTexts, hfind, get?, Option.map_map, Option.map_map]
  rfl

theorem native_asTexts (picks : Param → Bool) (p : Params) :
    (p.asTexts picks).native = p.native := by
  simp [native, keys, asTexts, Param.native_asText]

theorem read_asTexts {α : Type} {f : Param → Option α} {k : String}
    (hf : ∀ v, p.get? k = some v → picks v = true → f (.text v.native) = f v) :
    ((p.asTexts picks).get? k).bind f = (p.get? k).bind f := by
  rw [get?_asTexts]
  cases hget : p.get? k with
  | none => rfl
  | some v =>
    rw [Option.map_some, Option.bind_some, Option.bind_some, Param.asText]
    split
    · exact hf v hget ‹_›
    · rfl

theorem fits_get? (hp : ∀ e ∈ p.entries, e.2.Fits) {k : String} {v : Param}
    (hv : p.get? k = some v) : v.Fits := by
  obtain ⟨e, he, rfl⟩ := Option.map_eq_some_iff.1 hv
  exact hp e (List.mem_of_find?_eq_some he)

section Getters

variable (hpicks : ∀ v, picks v = true → v.isReadable = true)
include hpicks

/-- An integer other than zero and one is a flag, and its text is none. -/
theorem bool?_asTexts {k : String}
    (hk : ∀ i, p.get? k = some (.int i) → picks (.int i) = true → i = 0 ∨ i = 1) :
    (p.asTexts picks).bool? k = p.bool? k := by
  refine read_asTexts fun v hv hpicked => ?_
  have hreadable := hpicks v hpicked
  cases v with
  | int i =>
    rcases hk i hv hpicked with rfl | rfl
    · rfl
    · rfl
  | bool b => cases b <;> rfl
  | type t => cases t <;> rfl
  | device d =>
    cases d with
    | cpu => rfl
    | gpu n =>
      have htrue : ¬ ((Device.gpu n).text = "True" ∨ (Device.gpu n).text = "true" ∨
          (Device.gpu n).text = "1") := by
        rintro (h | h | h)
        all_goals exact Device.gpu_ne (by decide) n h
      have hfalse : ¬ ((Device.gpu n).text = "False" ∨ (Device.gpu n).text = "false" ∨
          (Device.gpu n).text = "0") := by
        rintro (h | h | h)
        all_goals exact Device.gpu_ne (by decide) n h
      exact (if_neg htrue).trans (if_neg hfalse)
  | float | text | tuple => cases hreadable

variable (hp : ∀ e ∈ p.entries, e.2.Fits)
include hp

theorem int?_asTexts (k : String) : (p.asTexts picks).int? k = p.int? k := by
  refine read_asTexts fun v hv hpicked => ?_
  have hfits := fits_get? hp hv
  have hreadable := hpicks v hpicked
  cases v with
  | int i => exact integer?_toString hfits.1 hfits.2
  | bool b => cases b <;> rfl
  | type t => cases t <;> rfl
  | device d =>
    cases d with
    | cpu => rfl
    | gpu n => exact Device.integer?_gpu n
  | float | text | tuple => cases hreadable

theorem type?_asTexts (k : String) : (p.asTexts picks).type? k = p.type? k := by
  refine read_asTexts fun v hv hpicked => ?_
  have hfits := fits_get? hp hv
  have hreadable := hpicks v hpicked
  cases v with
  | int i => exact ElementType.read_numeral hfits.1 hfits.2
  | bool b => cases b <;> rfl
  | type t => cases t <;> rfl
  | device d =>
    cases d with
    | cpu => rfl
    | gpu n => exact ElementType.read_gpu n
  | float | text | tuple => cases hreadable

theorem device?_asTexts (k : String) : (p.asTexts picks).device? k = p.device? k := by
  refine read_asTexts fun v hv hpicked => ?_
  have hfits := fits_get? hp hv
  have hreadable := hpicks v hpicked
  cases v with
  | int i => exact Device.read_numeral hfits.1 hfits.2
  | bool b => cases b <;> rfl
  | type t => cases t <;> rfl
  | device d => exact congrArg Except.toOption (Device.read_parameterText hfits)
  | float | text | tuple => cases hreadable

end Getters

theorem asTexts_set (picks : Param → Bool) (p : Params) (k : String) (v : Param) :
    (p.set k v).asTexts picks = (p.asTexts picks).set k (v.asText picks) := by
  have hkeys : (p.asTexts picks).keys = p.keys := List.map_map
  have hentries : ((p.set k v).asTexts picks).entries =
      ((p.asTexts picks).set k (v.asText picks)).entries := by
    rw [entries_set, hkeys, asTexts, asTexts, entries_set]
    split
    · rw [List.map_map, List.map_map]
      refine List.map_congr_left fun e _ => ?_
      by_cases he : e.1 = k
      · simp [reset, he]
      · simp [reset, he]
    · simp
  exact congrArg Params.mk hentries

theorem run_asTexts (picks : Param → Bool) (cs : List Addition) :
    (run cs).asTexts picks = run (cs.map fun c => .set c.key (c.value.asText picks)) := by
  induction cs using List.reverseRecOn with
  | nil => rfl
  | append_singleton cs c ih =>
    rw [List.map_append, List.map_singleton, run_concat, run_concat, asTexts_set, ih]
    rfl

end Params

open Params

/-- Parameters are a map whose keys keep the order in which they came in and whose values are those
that were put in last. An engine is given a key and a text for each entry. The texts of integers,
flags, element types and devices stand for what they were made of: any of them in place of its value
is read as the value was, an integer other than zero and one as a flag excepted, and the engine is
given the same. A device is read from its name in any letter case, with any blanks around. -/
theorem parameters_read_back :
    (∀ cs : List Addition,
      (run cs).keys = (cs.map Addition.key).eraseDups ∧ (run cs).keys.Nodup ∧
      (∀ e ∈ (run cs).entries, (run cs).get? e.1 = some e.2) ∧
      (∀ k, (run cs).get? k = (cs.filter fun c => c.key == k).getLast?.map Addition.value) ∧
      (∀ k, (run (cs.filter fun c => c.key == k)).get? k = (run cs).get? k) ∧
      (run cs).native.1.length = (run cs).native.2.length ∧
      (run cs).native.1.zip (run cs).native.2 =
        (run cs).entries.map (fun e => (e.1, e.2.native)) ∧
      ∀ picks : Param → Bool, (run cs).asTexts picks =
        run (cs.map fun c => .set c.key (c.value.asText picks))) ∧
    (∀ (picks : Param → Bool) (p : Params), (∀ v, picks v = true → v.isReadable = true) →
      (∀ e ∈ p.entries, e.2.Fits) →
      (p.asTexts picks).native = p.native ∧
      ∀ k, (p.asTexts picks).int? k = p.int? k ∧ (p.asTexts picks).type? k = p.type? k ∧
        (p.asTexts picks).device? k = p.device? k ∧
        ((∀ i, p.get? k = some (.int i) → picks (.int i) = true → i = 0 ∨ i = 1) →
          (p.asTexts picks).bool? k = p.bool? k)) ∧
    ∀ d : Device, d.Fits → ∀ before w behind : List Char,
      (∀ c ∈ before, isBlank c = true) → (∀ c ∈ behind, isBlank c = true) →
      lower w = d.text.toList → Device.read (String.ofList (before ++ w ++ behind)) = .ok d := by
  refine ⟨fun cs => ?_, fun picks p hpicks hp => ⟨native_asTexts picks p, fun k => ?_⟩, ?_⟩
  · have hdistinct := distinct_run cs
    refine ⟨keys_run cs, hdistinct.nodup, hdistinct.found, get?_run cs, get?_run_filter cs,
      length_native _, List.zip_map', fun picks => run_asTexts picks cs⟩
  · exact ⟨int?_asTexts hpicks hp k, type?_asTexts hpicks hp k, device?_asTexts hpicks hp k,
      bool?_asTexts hpicks⟩
  · exact fun d hd _ _ _ hbefore hbehind hw => Device.read_surrounded hd hbefore hbehind hw

/-- The least integer and the greatest ordinal there are, a flag and an element type, and a device
named in capitals between blanks. -/
theorem parameters_read_back_extremes :
    let p := run [.int "axis" 0, .device "ctx" (.gpu (Shape.wordSize - 1)), .flag "keepdims" true,
      .type "dtype" .f16, .set "axis" (.int (-Int.pow 2 63))]
    let q := p.asTexts Param.isReadable
    p.keys = ["axis", "ctx", "keepdims", "dtype"] ∧ q.int? "axis" = some (-Int.pow 2 63) ∧
    q.device? "ctx" = some (.gpu (Shape.wordSize - 1)) ∧ q.bool? "keepdims" = some true ∧
    q.type? "dtype" = some .f16 ∧ q.native = p.native ∧
    Device.read (String.ofList ([' ', '\t'] ++ "GPU(7)".toList ++ ['\n'])) = .ok (.gpu 7) := by
  intro p q
  obtain ⟨-, htexts, hdevice⟩ := parameters_read_back
  have hfits : ∀ e ∈ p.entries, e.2.Fits := by decide
  obtain ⟨hnative, hread⟩ := htexts Param.isReadable p (fun _ h => h) hfits
  refine ⟨by decide, (hread "axis").1, (hread "ctx").2.2.1, ?_, (hread "dtype").2.1, hnative,
    hdevice (.gpu 7) (by decide) _ _ _ (List.all_eq_true.1 rfl) (List.all_eq_true.1 rfl) rfl⟩
  exact (hread "keepdims").2.2.2 fun i hi => by cases hi

end ScopedTensor
