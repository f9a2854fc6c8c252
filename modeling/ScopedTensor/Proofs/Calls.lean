import ScopedTensor.Library.Call
import ScopedTensor.Proofs.Action
import ScopedTensor.Proofs.Result
import ScopedTensor.Reference.Library

/-! What the engine's calls come to when they succeed. Whatever is kept by a call is read off here,
without another look at how the call is made. -/

namespace ScopedTensor

variable {half : HalfPrecision}

section Answers

variable {σ α : Type} {library : Library σ} {c : Library.Call} {a : Action σ α}
variable {g : α → Library.Answer} {s t : σ}

theorem Library.Call.step_of_map (hc : c.perform library = g <$> a) (s : σ) :
    c.step library s = a.after s := (congrArg (Action.after · s) hc).trans (Action.after_map g a s)

theorem Library.Call.reply_of_ok {x : α} (hc : c.perform library = g <$> a) (h : a s = .ok x t) :
    c.reply library s = .ok (g x) := by
  unfold Library.Call.reply
  rw [hc, map_eq_pure_bind, Action.bind_of_ok h]
  rfl

theorem Library.Call.reply_of_error {e : Error} (hc : c.perform library = g <$> a)
    (h : a s = .error e t) : c.reply library s = .error e := by
  unfold Library.Call.reply
  rw [hc, map_eq_pure_bind, Action.bind_error h]

theorem Action.Does.answers {Q : σ → α → σ → Prop} (h : Does a Q)
    (hc : c.perform library = g <$> a) (s : σ) :
    (∃ e, c.reply library s = .error e ∧ c.step library s = s) ∨
      ∃ x t, c.reply library s = .ok (g x) ∧ c.step library s = t ∧ Q s x t := by
  have hmeets := h s s rfl
  have hstep := Library.Call.step_of_map hc s
  cases hr : a s with
  | ok x t =>
    rw [hr] at hmeets
    exact .inr ⟨x, t, Library.Call.reply_of_ok hc hr, hstep.trans (after_ok hr), hmeets⟩
  | error e t =>
    rw [hr] at hmeets
    exact .inl ⟨e, Library.Call.reply_of_error hc hr, hstep.trans ((after_error hr).trans hmeets)⟩

end Answers

theorem Library.Call.run_append {σ : Type} (library : Library σ) (cs more : List Library.Call)
    (s : σ) : run library (cs ++ more) s = run library more (run library cs s) :=
  List.foldl_append

namespace Reference

open ScopedTensor.Action State

variable {gpus : Nat} {s t : State}

theorem create_does (device : Device) (shape : Shape) (type : ElementType) (storage : Storage) :
    Does (create gpus device shape type storage) fun s h t =>
      s.allocate shape type device storage = (h, t) := by
  refine (Does.transition _).imp fun s h t hr => ?_
  obtain ⟨-, -, hr⟩ := bind_eq_ok.1 hr
  exact pure_eq_ok.1 hr

theorem derive_does (h : Handle) (f : View → Except Error View) :
    Does (derive h f) fun s v t => ∃ e w, s.entry h = .ok e ∧ f e.view = .ok w ∧
      s.insert { e with view := w } = (v, t) := by
  refine (Does.transition _).imp fun s v t hr => ?_
  obtain ⟨e, he, hr⟩ := bind_eq_ok.1 hr
  obtain ⟨w, hw, hr⟩ := bind_eq_ok.1 hr
  exact ⟨e, w, he, hw, pure_eq_ok.1 hr⟩

theorem markOne_does (var : Handle) (request : GradRequest) (grad : Handle) :
    Does (markOne var request grad) fun s _ t => ∃ v g, s.entry var = .ok v ∧
      s.entry grad = .ok g ∧ g.view.shape = v.view.shape ∧
      t = { s with tape := s.tape.mark var.id ⟨request, g.view⟩ } := by
  refine (Does.transition _).imp fun s x t hr => ?_
  obtain ⟨v, hv, hr⟩ := bind_eq_ok.1 hr
  obtain ⟨g, hg, hr⟩ := bind_eq_ok.1 hr
  simp only at hr
  split at hr
  · exact absurd hr nofun
  · rename_i hshape
    exact ⟨v, g, hv, hg, not_not.1 hshape, (congrArg Prod.snd (pure_eq_ok.1 hr)).symm⟩

theorem getGrad_does (h : Handle) :
    Does (getGrad h) fun s g t => ∃ e, s.entry h = .ok e ∧ (g = none ∧ t = s ∨
      ∃ m, s.tape.marks.get? h.id = some m ∧
        (g, t) = (some (s.insert ⟨m.gradient, e.device, .dense⟩).1,
          (s.insert ⟨m.gradient, e.device, .dense⟩).2)) := by
  refine (Does.transition _).imp fun s g t hr => ?_
  obtain ⟨e, he, hr⟩ := bind_eq_ok.1 hr
  refine ⟨e, he, ?_⟩
  simp only at hr
  split at hr
  · obtain ⟨rfl, rfl⟩ := Prod.mk.inj (pure_eq_ok.1 hr)
    exact .inl ⟨rfl, rfl⟩
  · rename_i m hm
    exact .inr ⟨m, hm, (pure_eq_ok.1 hr).symm⟩

@[simp]
theorem MarkOrder.arrange_asMarked (marks : Table Mark) :
    MarkOrder.asMarked.arrange marks = marks := rfl

theorem free_cases (h : Handle) (s : State) :
    (s.entries.get? h.id = none ∧
      ∃ x, free h s = .error x { s with freeCalls := s.freeCalls + 1 }) ∨
    ((s.entries.get? h.id).isSome ∧ free h s = .ok () { s with
      freeCalls := s.freeCalls + 1
      entries := s.entries.erase h.id
      tape := s.tape.unmark h.id }) := by
  unfold free
  simp only
  cases s.entries.get? h.id with
  | none => exact .inl ⟨rfl, _, rfl⟩
  | some e => exact .inr ⟨rfl, rfl⟩

theorem after_free (h : Handle) (s : State) :
    ∃ marks, (free h).after s = { s with
      freeCalls := s.freeCalls + 1
      entries := s.entries.erase h.id
      tape := { s.tape with marks } } := by
  unfold Action.after
  rcases free_cases h s with ⟨hnone, x, hfree⟩ | ⟨-, hfree⟩
  · rw [hfree, Table.erase_of_not_mem ((Table.not_mem_keys_iff _ _).2 hnone)]
    exact ⟨s.tape.marks, rfl⟩
  · rw [hfree]
    exact ⟨s.tape.marks.erase h.id, rfl⟩

theorem after_drain (s : State) : drain.after s = s.drained := by
  unfold Action.after drain
  cases (runAll s.queue s.memory).2 <;> rfl

section Submission

variable {op : Operator} {inputs given hs : List Handle} {outputs : Option (List Handle)}
variable {params : Params} {task : Task} {entries : List Entry} {inferred : List Signature}
variable {outs : List (Handle × View)}

theorem outputsOf_some_ok
    (h : outputsOf gpus s op entries inferred (some given) params = .ok (outs, t)) :
    givenOutputs s op given inferred = .ok outs ∧ t = s := by
  obtain ⟨found, hfound, hpair⟩ := bind_eq_ok.1 h
  obtain ⟨rfl, rfl⟩ := Prod.mk.inj (pure_eq_ok.1 hpair)
  exact ⟨hfound, rfl⟩

theorem outputsOf_none_ok
    (h : outputsOf gpus s op entries inferred none params = .ok (outs, t)) :
    allocateAll (outputDevice entries params) inferred s = (outs, t) := by
  obtain ⟨-, -, hpair⟩ := bind_eq_ok.1 h
  exact pure_eq_ok.1 hpair

def nodeOf (op : Operator) (params : Params) (inputs : List Handle) (entries : List Entry)
    (outs : List (Handle × View)) : Node :=
  { op, params
    inputs := (inputs.zip (entries.map Entry.view)).map fun p => ⟨p.1.id, p.2⟩
    outputs := outs.map fun p => ⟨p.1.id, p.2⟩ }

theorem submit_eq_ok (h : submit gpus s op inputs outputs params = .ok (hs, task, t)) :
    ∃ entries inferred outs u, inputs.mapM s.entry = .ok entries ∧
      op.infer (entries.map fun e => ⟨e.view.shape, e.view.type⟩) params = .ok inferred ∧
      outputsOf gpus s op entries inferred outputs params = .ok (outs, u) ∧
      hs = outs.map Prod.fst ∧
      task = ⟨op, params, entries.map Entry.view, outs.map Prod.snd⟩ ∧
      t = { u with tape := u.tape.record (nodeOf op params inputs entries outs) } := by
  obtain ⟨entries, hentries, h⟩ := bind_eq_ok.1 h
  obtain ⟨inferred, hinferred, h⟩ := bind_eq_ok.1 h
  obtain ⟨⟨outs, u⟩, houts, h⟩ := bind_eq_ok.1 h
  have h := pure_eq_ok.1 h
  simp only [Prod.mk.injEq] at h
  obtain ⟨rfl, rfl, rfl⟩ := h
  exact ⟨entries, inferred, outs, u, hentries, hinferred, houts, rfl, rfl, rfl⟩

end Submission

end Reference
end ScopedTensor
