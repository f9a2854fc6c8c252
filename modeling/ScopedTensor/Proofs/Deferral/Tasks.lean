import Mathlib.Data.List.GetD
import ScopedTensor.Proofs.Result
import ScopedTensor.Reference.Library

/-! Tasks that wait in a queue. An operator whose operands were found fit can always be run,
whatever is in memory by then, and running tasks commutes with adding fresh buffers behind those in
use. -/

namespace ScopedTensor

open Binary

variable {half : HalfPrecision}

theorem Operator.evaluate_argsort {params : Params} {x : Operand} {axis : Nat}
    (h : argsort.axisOr params x.shape (-1) = .ok axis) :
    argsort.evaluate [x] params =
      (Argsort.apply x.values x.shape.dims axis ((params.bool? "is_ascend").getD true)).map
        fun values => .ok [values] := by
  simp only [evaluate, h]
  generalize hsorted : Argsort.apply x.values x.shape.dims axis _ = sorted
  change (ExceptT.lift (Argsort.apply x.values x.shape.dims axis _) >>= fun v => pure [v]) = _
  rw [hsorted]
  cases sorted <;> rfl

theorem Operator.evaluate_argsort_error {params : Params} {x : Operand} {e : Error}
    (h : argsort.axisOr params x.shape (-1) = .error e) :
    argsort.evaluate [x] params = some (.error e) := by
  simp only [evaluate, h]
  rfl

theorem Operator.evaluate_of_infer {op : Operator} {params : Params} {sigs out : List Signature}
    {inputs : List Operand} (h : op.infer sigs params = .ok out)
    (hshapes : inputs.map Operand.shape = sigs.map Signature.shape) :
    op.evaluate inputs params = none ∨
      ∃ results, op.evaluate inputs params = some (.ok results) := by
  unfold infer at h
  split at h
  case h_1 | h_2 =>
    rw [List.map_nil, List.map_eq_nil_iff] at hshapes
    exact .inr ⟨_, by rw [hshapes]; rfl⟩
  case h_3 =>
    obtain ⟨l, rest, rfl, -, hrest⟩ := List.map_eq_cons_iff.1 hshapes
    obtain ⟨r, rfl, -⟩ := List.map_eq_singleton_iff.1 hrest
    exact .inr ⟨_, rfl⟩
  case h_13 => exact absurd h nofun
  all_goals obtain ⟨x, rfl, hx⟩ := List.map_eq_singleton_iff.1 hshapes
  case h_4 =>
    obtain ⟨s, hs, -⟩ := map_eq_ok.1 h
    exact .inr ⟨_, congrArg some (bind_eq_ok.2 ⟨s, hs, rfl⟩)⟩
  case h_5 | h_6 | h_7 | h_8 => exact .inr ⟨_, rfl⟩
  all_goals
    obtain ⟨found, hfound, -⟩ := bind_eq_ok.1 h
    rw [← hx] at hfound
  case h_12 =>
    rw [show argsort.evaluate [x] params = _ from Operator.evaluate_argsort hfound]
    cases Argsort.apply x.values x.shape.dims found ((params.bool? "is_ascend").getD true) with
    | none => exact .inl rfl
    | some values => exact .inr ⟨[values], rfl⟩
  all_goals exact .inr ⟨_, congrArg some (bind_eq_ok.2 ⟨found, hfound, rfl⟩)⟩

namespace Memory

variable (m : Memory)

def grow (fresh : List Values) : Memory := ⟨m.buffers ++ fresh⟩

theorem length_update (v : View) (f : Binary64 → Binary64 → Binary64) (values : Values) :
    (m.update v f values).buffers.length = m.buffers.length := List.length_modify _ _ _

theorem length_write (v : View) (values : Values) :
    (m.write v values).buffers.length = m.buffers.length := length_update m v _ values

theorem length_accumulate (v : View) (values : Values) :
    (m.accumulate v values).buffers.length = m.buffers.length := length_update m v _ values

theorem grow_nil : m.grow [] = m := by
  unfold grow
  rw [List.append_nil]

theorem grow_grow (fresh more : List Values) :
    (m.grow fresh).grow more = m.grow (fresh ++ more) := by
  simp only [grow, List.append_assoc]

variable {m} {v : View}

theorem read_grow (h : v.buffer < m.buffers.length) (fresh : List Values) :
    (m.grow fresh).read v = m.read v := by
  unfold read cells grow
  rw [List.getD_append _ _ _ _ h]

theorem write_grow (h : v.buffer < m.buffers.length) (fresh : List Values) (values : Values) :
    (m.grow fresh).write v values = (m.write v values).grow fresh := by
  simp only [write, update, grow, mk.injEq]
  refine List.ext_getElem? fun i => ?_
  rw [List.getElem?_modify]
  by_cases hi : i < m.buffers.length
  · rw [List.getElem?_append_left hi, List.getElem?_append_left (by simpa using hi),
      List.getElem?_modify]
  · have hne : v.buffer ≠ i := fun hv => hi (hv ▸ h)
    simp only [if_neg hne, id_map']
    rw [List.getElem?_append_right (Nat.le_of_not_lt hi),
      List.getElem?_append_right (by simpa using hi), List.length_modify]

def writeAll [HalfPrecision] (m : Memory) (rs : List (View × Values)) : Memory :=
  rs.foldl (fun m r => m.write r.1 r.2) m

theorem length_writeAll (rs : List (View × Values)) :
    ∀ m : Memory, (m.writeAll rs).buffers.length = m.buffers.length := by
  induction rs with
  | nil => intro m; rfl
  | cons r rs ih => intro m; exact (ih _).trans (length_write m r.1 r.2)

theorem writeAll_grow (fresh : List Values) (rs : List (View × Values)) :
    ∀ m : Memory, (∀ r ∈ rs, r.1.buffer < m.buffers.length) →
      (m.grow fresh).writeAll rs = (m.writeAll rs).grow fresh := by
  induction rs with
  | nil => intro m _; rfl
  | cons r rs ih =>
    intro m h
    have hr := h r List.mem_cons_self
    have hrs : ∀ x ∈ rs, x.1.buffer < (m.write r.1 r.2).buffers.length := by
      intro x hx
      rw [length_write]
      exact h x (List.mem_cons_of_mem _ hx)
    calc (m.grow fresh).writeAll (r :: rs)
        = ((m.grow fresh).write r.1 r.2).writeAll rs := rfl
      _ = ((m.write r.1 r.2).grow fresh).writeAll rs := by rw [write_grow hr]
      _ = ((m.write r.1 r.2).writeAll rs).grow fresh := ih _ hrs

end Memory

def View.signature (v : View) : Signature := ⟨v.shape, v.type⟩

namespace Reference

open State

/-- A task whose operands were found fit, and all of whose cells lie in the first `n` buffers. -/
structure Task.Sound (n : Nat) (t : Task) : Prop where
  inferred : ∃ sigs, t.op.infer (t.inputs.map View.signature) t.params = .ok sigs
  inputs : ∀ v ∈ t.inputs, v.buffer < n
  outputs : ∀ v ∈ t.outputs, v.buffer < n

theorem Task.Sound.mono {n k : Nat} {t : Task} (h : t.Sound n) (hk : n ≤ k) : t.Sound k where
  inferred := h.inferred
  inputs v hv := Nat.lt_of_lt_of_le (h.inputs v hv) hk
  outputs v hv := Nat.lt_of_lt_of_le (h.outputs v hv) hk

def Task.operands (t : Task) (m : Memory) : List Operand :=
  t.inputs.map fun v => ⟨m.read v, v.shape⟩

theorem Task.operands_grow {t : Task} {m : Memory}
    (h : ∀ v ∈ t.inputs, v.buffer < m.buffers.length) (fresh : List Values) :
    t.operands (m.grow fresh) = t.operands m :=
  List.map_congr_left fun v hv => by rw [Memory.read_grow (h v hv)]

theorem Task.run_eq_map (t : Task) (m : Memory) :
    t.run m = Option.map (Except.map fun results => m.writeAll (t.outputs.zip results))
      (t.op.evaluate (t.operands m) t.params) := by
  change (t.op.evaluate (t.operands m) t.params >>= fun results =>
    (pure (m.writeAll (t.outputs.zip results)) : Attempt Memory)) = _
  match t.op.evaluate (t.operands m) t.params with
  | none => rfl
  | some (.ok results) => rfl
  | some (.error e) => rfl

theorem Task.exists_of_run {t : Task} {m m' : Memory} (h : t.run m = some (.ok m')) :
    ∃ results, m' = m.writeAll (t.outputs.zip results) := by
  rw [Task.run_eq_map] at h
  obtain ⟨r, -, hr⟩ := Option.map_eq_some_iff.1 h
  obtain ⟨results, -, rfl⟩ := map_eq_ok.1 hr
  exact ⟨results, rfl⟩

theorem Task.run_eq {t : Task} {m : Memory} {results : List Values}
    (h : t.op.evaluate (t.operands m) t.params = some (.ok results)) :
    t.run m = some (.ok (m.writeAll (t.outputs.zip results))) := by
  rw [Task.run_eq_map, h]
  rfl

theorem Task.run_eq_none {t : Task} {m : Memory}
    (h : t.op.evaluate (t.operands m) t.params = none) : t.run m = none := by
  rw [Task.run_eq_map, h]
  rfl

variable {n : Nat} {t : Task} {ts : List Task}

theorem Task.Sound.evaluates (h : t.Sound n) (m : Memory) :
    t.op.evaluate (t.operands m) t.params = none ∨
      ∃ results, t.op.evaluate (t.operands m) t.params = some (.ok results) := by
  obtain ⟨sigs, hsigs⟩ := h.inferred
  refine Operator.evaluate_of_infer hsigs ?_
  simp only [Task.operands, List.map_map]
  rfl

theorem Task.Sound.run_grow (h : t.Sound n) {m : Memory} (hn : n ≤ m.buffers.length)
    (fresh : List Values) :
    (t.run m = none ∧ t.run (m.grow fresh) = none) ∨
      ∃ m', t.run m = some (.ok m') ∧ t.run (m.grow fresh) = some (.ok (m'.grow fresh)) ∧
        m'.buffers.length = m.buffers.length := by
  have hoperands := t.operands_grow (fun v hv => Nat.lt_of_lt_of_le (h.inputs v hv) hn) fresh
  rcases h.evaluates m with hnone | ⟨results, hresults⟩
  · exact .inl ⟨Task.run_eq_none hnone, Task.run_eq_none (hoperands ▸ hnone)⟩
  · refine .inr ⟨_, Task.run_eq hresults, ?_, Memory.length_writeAll _ m⟩
    rw [Task.run_eq (hoperands ▸ hresults), Memory.writeAll_grow]
    intro r hr
    exact Nat.lt_of_lt_of_le (h.outputs r.1 (List.of_mem_zip hr).1) hn

theorem runAll_cons {m m' : Memory} (h : t.run m = some (.ok m')) :
    runAll (t :: ts) m = runAll ts m' := by
  rw [runAll, h]

theorem runAll_cons_none {m : Memory} (h : t.run m = none) : runAll (t :: ts) m = runAll ts m := by
  rw [runAll, h]

theorem breaksOff_cons {m m' : Memory} (h : t.run m = some (.ok m')) :
    breaksOff (t :: ts) m = breaksOff ts m' := by
  rw [breaksOff, h]

theorem breaksOff_cons_none {m : Memory} (h : t.run m = none) : breaksOff (t :: ts) m = true := by
  rw [breaksOff, h]

theorem breaksOff_singleton (t : Task) (m : Memory) :
    breaksOff [t] m = (t.op.evaluate (t.operands m) t.params).isNone := by
  have hrun : breaksOff [t] m = (t.run m).isNone := by
    unfold breaksOff
    match t.run m with
    | none => rfl
    | some (.ok m') => rfl
    | some (.error e) => rfl
  rw [hrun, Task.run_eq_map, Option.isNone_map]

/-- What every task preserves that comes to its end, a queue preserves. -/
theorem runAll_preserves {P : Memory → Prop} :
    ∀ {m : Memory}, (∀ t ∈ ts, ∀ m m', P m → t.run m = some (.ok m') → P m') → P m →
      P (runAll ts m).1 := by
  induction ts with
  | nil => exact fun _ hm => hm
  | cons t ts ih =>
    intro m h hm
    have hrest := fun k hk => h k (List.mem_cons_of_mem _ hk)
    unfold runAll
    rcases hrun : t.run m with _ | (e | m')
    · exact ih hrest hm
    · exact ih hrest hm
    · exact ih hrest (h t List.mem_cons_self m m' hm hrun)

/-- What a queue of sound tasks comes to, with and without more buffers. No task fails. -/
structure Runs [HalfPrecision] (ts : List Task) (fresh : List Values) (m m' : Memory) : Prop where
  run : runAll ts m = (m', none)
  grown : runAll ts (m.grow fresh) = (m'.grow fresh, none)
  breaksOff : breaksOff ts (m.grow fresh) = State.breaksOff ts m
  length : m'.buffers.length = m.buffers.length

theorem runAll_grow (hts : ∀ t ∈ ts, t.Sound n) (fresh : List Values) :
    ∀ m : Memory, n ≤ m.buffers.length → ∃ m', Runs ts fresh m m' := by
  induction ts with
  | nil => exact fun m _ => ⟨m, rfl, rfl, rfl, rfl⟩
  | cons t ts ih =>
    intro m hn
    have ih := ih fun t ht => hts t (List.mem_cons_of_mem _ ht)
    rcases (hts t List.mem_cons_self).run_grow hn fresh with ⟨hnone, hnone'⟩ | ⟨m₁, hrun, hgrown, hm⟩
    · obtain ⟨m', h⟩ := ih m hn
      exact ⟨m', (runAll_cons_none hnone).trans h.run, (runAll_cons_none hnone').trans h.grown,
        (breaksOff_cons_none hnone').trans (breaksOff_cons_none hnone).symm, h.length⟩
    · obtain ⟨m', h⟩ := ih m₁ (hm ▸ hn)
      exact ⟨m', (runAll_cons hrun).trans h.run, (runAll_cons hgrown).trans h.grown,
        (breaksOff_cons hgrown).trans (h.breaksOff.trans (breaksOff_cons hrun).symm),
        h.length.trans hm⟩

theorem runAll_append {m m' : Memory} (h : runAll ts m = (m', none)) (us : List Task) :
    runAll (ts ++ us) m = runAll us m' ∧
      breaksOff (ts ++ us) m = (breaksOff ts m || breaksOff us m') := by
  induction ts generalizing m with
  | nil =>
    obtain rfl : m = m' := congrArg Prod.fst h
    exact ⟨rfl, rfl⟩
  | cons t ts ih =>
    rcases hrun : t.run m with _ | (e | m₁)
    · rw [runAll_cons_none hrun] at h
      rw [List.cons_append, runAll_cons_none hrun, breaksOff_cons_none hrun,
        breaksOff_cons_none hrun]
      exact ⟨(ih h).1, rfl⟩
    · rw [runAll, hrun] at h
      exact absurd (congrArg Prod.snd h) nofun
    · rw [runAll_cons hrun] at h
      rw [List.cons_append, runAll_cons hrun, breaksOff_cons hrun, breaksOff_cons hrun]
      exact ih h

end Reference
end ScopedTensor
