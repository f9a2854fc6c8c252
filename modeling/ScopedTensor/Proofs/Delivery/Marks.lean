import ScopedTensor.Proofs.Delivery.Deliveries
import ScopedTensor.Proofs.Delivery.Guides
import ScopedTensor.Proofs.Ownership.Atomicity
import ScopedTensor.Proofs.Store.Aliasing

/-! Marked variables of the engine. No call adds one but the call that is there for it, so gradients
keep going to different buffers as long as each one that is added goes to a buffer that no other
gradient goes to. -/

namespace ScopedTensor.Reference

open ScopedTensor.Action State Library

variable {half : HalfPrecision}
variable {gpus k : Nat} {s t u : State} {h : Handle} {α : Type}

/-- From `s` to `t` variables may have lost their marks, but none has been marked. -/
def State.Unmarks (s t : State) : Prop :=
  ∀ id k, t.tape.marks.get? id = some k → s.tape.marks.get? id = some k

theorem State.Unmarks.of_eq (h : t.tape.marks = s.tape.marks) : s.Unmarks t :=
  fun _ _ hk => h ▸ hk

theorem State.Unmarks.trans (h : s.Unmarks t) (hu : t.Unmarks u) : s.Unmarks u :=
  fun id k hk => h id k (hu id k hk)

instance : Trans State.Unmarks State.Unmarks State.Unmarks := ⟨State.Unmarks.trans⟩

abbrev Unmarking (a : Action State α) : Prop := Within State.Unmarks a

theorem unmarking_free (h : Handle) : Unmarking (free h) := by
  refine .of_after fun s => ?_
  unfold Action.after
  rcases free_cases h s with ⟨-, x, hfree⟩ | ⟨-, hfree⟩
  · rw [hfree]
    exact .of_eq rfl
  · rw [hfree]
    exact fun id k hk => (Table.get?_erase_eq_some.1 hk).2

theorem unmarking_drain : Unmarking drain := by
  refine .of_after fun s => ?_
  rw [after_drain]
  exact .of_eq rfl

theorem unmarking_viewOf (h : Handle) : Unmarking (viewOf h) := .map _ (.query _)

theorem unmarking_derive (h : Handle) (f : View → Except Error View) :
    Unmarking (derive h f) := by
  refine (derive_does h f).within fun t x u hu => ?_
  obtain ⟨e, w, -, -, hu⟩ := hu
  obtain rfl := congrArg Prod.snd hu
  exact .of_eq rfl

theorem unmarking_invoke [HalfPrecision] (gpus : Nat) (h : OpHandle) (inputs : List Handle)
    (outputs : Option (List Handle)) (params : Params) :
    Unmarking (invoke .deferred gpus h inputs outputs params) := by
  refine invoke_does.within fun t x u hu => ?_
  obtain ⟨task, v, hin, rfl⟩ := hu
  obtain ⟨_, -, hsubmit⟩ := bind_eq_ok.1 hin
  obtain ⟨n, w, -, -, rfl, -⟩ := submit_records hsubmit
  exact .of_eq (t.tape.marks_record n)

theorem unmarking_backward (heads : List Handle) (headGradients : List (Option Handle))
    (retain : Bool) : Unmarking (backward .asMarked heads headGradients retain) := by
  refine unmarking_drain.bind fun _ => Within.bind (.query _) fun _ => Within.get.bind fun _ => ?_
  refine Within.bind (.modify fun t => .of_eq (t.tape.marks_afterPass retain)) fun _ =>
    .transition fun t x u hu => ?_
  obtain ⟨m, -, hu⟩ := bind_eq_ok.1 hu
  obtain rfl := congrArg Prod.snd (pure_eq_ok.1 hu)
  exact .of_eq rfl

theorem unmarking_getGrad (h : Handle) : Unmarking (getGrad h) := by
  refine (getGrad_does h).within fun t x u hu => ?_
  rcases hu with ⟨e, -, ⟨-, rfl⟩ | ⟨m, -, hu⟩⟩
  · exact .of_eq rfl
  · obtain rfl := congrArg Prod.snd hu
    exact .of_eq rfl

theorem unmarking_call (gpus : Nat) (c : Call) (hc : c.marks = false) :
    Unmarking (c.perform (library gpus)) := by
  cases c with
  | version => exact .pure _
  | gpuCount => exact .pure _
  | listOps => exact .pure _
  | getOp name => exact .map _ (.ofExcept _)
  | create d s t st delayed =>
    refine .map _ ((create_does d s t st).within fun _ _ _ hu => ?_)
    obtain rfl := congrArg Prod.snd hu
    exact .of_eq rfl
  | free h => exact .map _ (unmarking_free h)
  | shape h => exact .map _ (.map _ (unmarking_viewOf h))
  | type h => exact .map _ (.map _ (unmarking_viewOf h))
  | device h => exact .map _ (.map _ (.query _))
  | storage h => exact .map _ (.map _ (.query _))
  | copyIn h bytes length =>
    refine .map _ ((unmarking_viewOf h).bind fun _ => .guard (unmarking_drain.bind fun _ => ?_))
    exact .modify fun _ => .of_eq rfl
  | copyOut h room length =>
    refine .map _ ((unmarking_viewOf h).bind fun _ => .guard (unmarking_drain.bind fun _ => ?_))
    exact Within.get.bind fun _ => .pure _
  | waitToRead h | waitToWrite h =>
    refine .map _ (Within.bind (.query _) fun _ => .bind (.modify fun _ => ?_) fun _ =>
      unmarking_drain)
    exact .of_eq rfl
  | waitAll => exact .map _ (.bind (.modify fun _ => .of_eq rfl) fun _ => unmarking_drain)
  | invoke h inputs outputs params => exact .map _ (unmarking_invoke gpus h inputs outputs params)
  | row h index => exact .map _ (unmarking_derive h _)
  | slice h first last => exact .map _ (unmarking_derive h _)
  | reshape h dims reverse => exact .map _ (unmarking_derive h _)
  | markVariables vars requests grads => exact absurd hc nofun
  | backward heads grads retain training => exact .map _ (unmarking_backward heads grads retain)
  | getGrad h => exact .map _ (unmarking_getGrad h)
  | setRecording on => exact .map _ (.of_after fun _ => .of_eq rfl)
  | setTraining on => exact .map _ (.of_after fun _ => .of_eq rfl)
  | randomSeed seed => exact .map _ (.modify fun _ => .of_eq rfl)

theorem unmarks_step (gpus : Nat) (s : State) {c : Call} (hc : c.marks = false) :
    s.Unmarks (c.step (library gpus) s) := (unmarking_call gpus c hc).after (.of_eq rfl)

/-- The handle has been given out, and shows none of the first `k` buffers. -/
structure State.Beyond (s : State) (k : Nat) (h : Handle) : Prop where
  le : h.id ≤ s.lastId
  buffer : ∀ e, s.entries.get? h.id = some e → k ≤ e.view.buffer

theorem State.Beyond.numbers (h : s.Numbers t) {x : Handle} (hx : s.Beyond k x) : t.Beyond k x where
  le := Nat.le_trans hx.le h.lastId
  buffer e he := by
    rcases h.entries x.id e he with hold | ⟨hnew, -⟩
    · exact hx.buffer e hold
    · exact absurd hx.le (Nat.not_le_of_lt hnew)

theorem State.Numbered.beyond (hs : s.Numbered) {c : Call} (hc : allocates c = true)
    (hh : h ∈ issued gpus s c) : (c.step (library gpus) s).Beyond s.memory.buffers.length h := by
  obtain ⟨e, he, hfresh⟩ := issued_fresh hs hc hh
  refine ⟨(numbers_step gpus s c).numbered hs _ e (entry_eq_ok.1 he), fun e' he' => ?_⟩
  rw [entry_eq_ok.1 he] at he'
  exact Option.some.inj he' ▸ hfresh

theorem State.Numbered.beyond_of_ok [HalfPrecision] (hs : s.Numbered) {c : Call}
    (hc : allocates c = true) {a : Action State α} {g : α → Answer}
    (hperform : c.perform (library gpus) = g <$> a) {x : α} (ha : a s = .ok x t)
    (hh : c.reply (library gpus) s = .ok (g x) → h ∈ issued gpus s c) :
    t.Beyond s.memory.buffers.length h := by
  have hstep : c.step (library gpus) s = t := (Call.step_of_map hperform s).trans (after_ok ha)
  exact hstep ▸ hs.beyond hc (hh (Call.reply_of_ok hperform ha))

/-- A state that the engine was brought to by calls, where gradients go to different buffers. -/
structure State.Parted [HalfPrecision] (gpus : Nat) (s : State) : Prop where
  run : ∃ cs, s = Call.run (library gpus) cs .initial
  separate : Separate s.tape.marks

theorem parted_initial (gpus : Nat) : State.initial.Parted gpus := ⟨⟨[], rfl⟩, nofun⟩

namespace State.Parted

theorem orderly (hs : s.Parted gpus) : s.Orderly := by
  obtain ⟨cs, rfl⟩ := hs.run
  exact orderly_run orderly_initial

theorem numbered (hs : s.Parted gpus) : s.Numbered := by
  obtain ⟨cs, rfl⟩ := hs.run
  exact numbered_run nofun

theorem run_step (hs : s.Parted gpus) (c : Call) :
    ∃ cs, c.step (library gpus) s = Call.run (library gpus) cs .initial := by
  obtain ⟨cs, rfl⟩ := hs.run
  exact ⟨cs ++ [c], (Call.run_append _ cs [c] _).symm⟩

theorem length_step (hs : s.Parted gpus) (c : Call) :
    s.memory.buffers.length ≤ (c.step (library gpus) s).memory.buffers.length := by
  have hchanges := changes_step gpus hs.numbered c
  generalize c.step (library gpus) s = t at hchanges
  induction hchanges with
  | refl => exact Nat.le_refl _
  | tail _ hchange ih =>
    obtain ⟨ws, hws⟩ := hchange.writes
    exact Nat.le_trans ih hws.length_le

theorem step (hs : s.Parted gpus) {c : Call} (hc : c.marks = false) :
    (c.step (library gpus) s).Parted gpus where
  run := hs.run_step c
  separate id id' k k' hk hk' :=
    hs.separate id id' k k' (unmarks_step gpus s hc id k hk) (unmarks_step gpus s hc id' k' hk')

end State.Parted

/-- From `s` to `t` gradients have come to go to no buffer that was there already. -/
def State.Renews (s t : State) : Prop :=
  ∀ id k, t.tape.marks.get? id = some k →
    s.tape.marks.get? id = some k ∨ s.memory.buffers.length ≤ k.gradient.buffer

theorem State.Parted.mark (hs : s.Parted gpus) (ht : t.Parted gpus) (hunmarks : s.Unmarks t)
    {var : Handle} {request : GradRequest} {g : Entry}
    (hg : s.memory.buffers.length ≤ g.view.buffer)
    (hrun : ∃ cs, { t with tape := t.tape.mark var.id ⟨request, g.view⟩ } =
      Call.run (library gpus) cs .initial) :
    State.Parted gpus { t with tape := t.tape.mark var.id ⟨request, g.view⟩ } ∧
      s.Renews { t with tape := t.tape.mark var.id ⟨request, g.view⟩ } := by
  have hcases : ∀ id k, (t.tape.mark var.id ⟨request, g.view⟩).marks.get? id = some k →
      id = var.id ∧ k.gradient = g.view ∨ t.tape.marks.get? id = some k := by
    intro id k hk
    rcases Table.get?_insert_eq_some.1 hk with ⟨hid, rfl⟩ | ⟨-, hk⟩
    · exact .inl ⟨hid, rfl⟩
    · exact .inr hk
  have hold : ∀ id k, t.tape.marks.get? id = some k → k.gradient.buffer < g.view.buffer :=
    fun id k hk => Nat.lt_of_lt_of_le (hs.orderly.marks id k (hunmarks id k hk)) hg
  refine ⟨⟨hrun, fun id id' k k' hk hk' hne => ?_⟩, fun id k hk => ?_⟩
  · rcases hcases id k hk with ⟨hid, hview⟩ | hk <;> rcases hcases id' k' hk' with ⟨hid', hview'⟩ | hk'
    · exact absurd (hid.trans hid'.symm) hne
    · exact hview ▸ (Nat.ne_of_lt (hold id' k' hk')).symm
    · exact hview' ▸ Nat.ne_of_lt (hold id k hk)
    · exact ht.separate id id' k k' hk hk' hne
  · rcases hcases id k hk with ⟨-, hview⟩ | hk
    · exact .inr (hview ▸ hg)
    · exact .inl (hunmarks id k hk)

end ScopedTensor.Reference
