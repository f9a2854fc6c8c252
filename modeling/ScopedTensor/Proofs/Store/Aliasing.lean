import ScopedTensor.Proofs.Store.Handles
import ScopedTensor.Proofs.Store.Indices

/-! Arrays that share memory. A view goes on showing the elements that it was made of, through any
chain of views and whatever is done later; and an element changes only where it is written through
some view that shows it. -/

namespace ScopedTensor.Reference

open ScopedTensor.Action State Library

variable {half : HalfPrecision}
variable {gpus : Nat} {s t u : State} {c : Call}

/-- A chain of derivations, the latest first, from `v` to `w`: `f` says where in `v` an element of `w`
stands. -/
inductive Chain : List Derivation → View → View → (List Nat → List Nat) → Prop
  | nil (v : View) : Chain [] v v id
  | cons {ds : List Derivation} {v w x : View} {f : List Nat → List Nat} {d : Derivation}
    (h : Chain ds v w f) (hd : d.view w = .ok x) :
    Chain (d :: ds) v x (f ∘ d.origin w.shape x.shape)

theorem Chain.shows {ds : List Derivation} {v w : View} {f : List Nat → List Nat}
    (h : Chain ds v w f) : w.Shows v f := by
  induction h with
  | nil v => exact .refl v
  | cons _ hd ih => exact (Derivation.shows hd).trans ih

theorem Chain.unique {ds : List Derivation} {v w x : View} {f g : List Nat → List Nat}
    (h : Chain ds v w f) (hx : Chain ds v x g) : x = w ∧ g = f := by
  induction h generalizing x g with
  | nil v => cases hx with | nil => exact ⟨rfl, rfl⟩
  | cons h hd ih =>
    cases hx with
    | cons hx hd' =>
      obtain ⟨rfl, rfl⟩ := ih hx
      obtain rfl := Except.ok.inj (hd'.symm.trans hd)
      exact ⟨rfl, rfl⟩

/-- From `s` on, in calls of any kind, the array `k` of `t` was made of `a` by a chain of
derivations. -/
inductive Descends [HalfPrecision] (gpus : Nat) (s : State) (a : Handle) :
    List Derivation → Handle → State → Prop
  | base : Descends gpus s a [] a s
  | call {ds : List Derivation} {k : Handle} {t : State} (c : Call)
    (h : Descends gpus s a ds k t) : Descends gpus s a ds k (c.step (library gpus) t)
  | derive {ds : List Derivation} {k x : Handle} {t : State} {d : Derivation}
    (h : Descends gpus s a ds k t) (hx : (d.call k).reply (library gpus) t = .ok (.handle x)) :
    Descends gpus s a (d :: ds) x ((d.call k).step (library gpus) t)

section Descent

variable {a h k : Handle} {e : Entry} {d : Derivation} {ds : List Derivation}

theorem Descends.exists_run (h : Descends gpus s a ds k t) :
    ∃ cs, t = Call.run (library gpus) cs s := by
  induction h with
  | base => exact ⟨[], rfl⟩
  | call c _ ih =>
    obtain ⟨cs, rfl⟩ := ih
    exact ⟨_, (Call.run_append _ cs [c] s).symm⟩
  | derive _ _ ih =>
    obtain ⟨cs, rfl⟩ := ih
    exact ⟨_, (Call.run_append _ cs [_] s).symm⟩

theorem derive_ok (h : (d.call k).reply (library gpus) s = .ok (.handle a)) :
    ∃ e w, s.entry k = .ok e ∧ d.view e.view = .ok w ∧
      (a, (d.call k).step (library gpus) s) =
        ((s.insert { e with view := w }).1, (s.insert { e with view := w }).2) := by
  rcases (derive_does k d.view).answers (d.perform_call gpus k) s with
    ⟨x, hreply, -⟩ | ⟨x, t, hreply, rfl, e, w, he, hw, ht⟩
  · exact absurd (hreply.symm.trans h) nofun
  · obtain rfl : x = a := Answer.handle.inj (Except.ok.inj (hreply.symm.trans h))
    exact ⟨e, w, he, hw, ht.symm⟩

theorem entry_insert (s : State) (e : Entry) : (s.insert e).2.entry (s.insert e).1 = .ok e := by
  rw [entry_eq_ok]
  simp only [State.insert, Table.get?_insert, if_true]

theorem getGrad_ok {g : Handle}
    (hr : (Call.getGrad h).reply (library gpus) s = .ok (.gradient (some g))) :
    ∃ e m, s.tape.marks.get? h.id = some m ∧
      ((Call.getGrad h).step (library gpus) s).entry g = .ok e ∧ e.view = m.gradient := by
  have hcall : (Call.getGrad h).perform (library gpus) = Answer.gradient <$> getGrad h := rfl
  rcases (getGrad_does h).answers hcall s with ⟨x, hreply, -⟩ | ⟨x, t, hreply, rfl, e, -, ht⟩
  · exact absurd (hreply.symm.trans hr) nofun
  · obtain rfl : x = some g := Answer.gradient.inj (Except.ok.inj (hreply.symm.trans hr))
    rcases ht with ⟨hnone, -⟩ | ⟨m, hm, ht⟩
    · exact absurd hnone nofun
    · obtain ⟨hg, hstep⟩ := Prod.mk.inj ht
      obtain rfl := Option.some.inj hg
      rw [hstep]
      exact ⟨_, m, hm, entry_insert _ _, rfl⟩

theorem State.Numbers.entry_eq (h : s.Numbers t) (hk : k.id ≤ s.lastId) {x : Entry}
    (hx : t.entry k = .ok x) : s.entry k = .ok x := by
  rcases h.entries _ _ (entry_eq_ok.1 hx) with hs | ⟨hlt, -⟩
  · exact entry_eq_ok.2 hs
  · omega

theorem Descends.exists_chain (hs : s.Numbered) (he : s.entry a = .ok e)
    (h : Descends gpus s a ds k t) : ∃ w f, Chain ds e.view w f ∧ k.id ≤ t.lastId ∧ s.Numbers t ∧
      ∀ x, t.entry k = .ok x → x.view = w := by
  induction h with
  | base =>
    refine ⟨e.view, id, .nil _, hs _ e (entry_eq_ok.1 he), .refl s, fun x hx => ?_⟩
    rw [Except.ok.inj (hx.symm.trans he)]
  | @call ds k t c _ ih =>
    obtain ⟨w, f, hchain, hk, hnumbers, hview⟩ := ih
    have hstep := numbers_step gpus t c
    refine ⟨w, f, hchain, Nat.le_trans hk hstep.lastId, hnumbers.trans hstep, fun x hx => ?_⟩
    exact hview x (hstep.entry_eq hk hx)
  | @derive ds k x t d _ hx ih =>
    obtain ⟨w, f, hchain, -, hnumbers, hview⟩ := ih
    obtain ⟨y, v, hy, hv, hnext⟩ := derive_ok hx
    obtain ⟨rfl, hstep⟩ := Prod.mk.inj hnext
    rw [hview y hy] at hv
    refine ⟨v, _, hchain.cons hv, ?_, hnumbers.trans (numbers_step gpus t _), fun z hz => ?_⟩
    · rw [hstep]
      exact Nat.le_refl _
    · rw [hstep, entry_insert] at hz
      rw [← Except.ok.inj hz]

theorem Descends.entries (hs : s.Numbered) (he : s.entry a = .ok e) {w : View}
    {f : List Nat → List Nat} (hchain : Chain ds e.view w f) (h : Descends gpus s a ds k t)
    {x y : Entry} (hx : t.entry k = .ok x) (hy : t.entry a = .ok y) : x.view = w ∧ y = e := by
  obtain ⟨w', f', hchain', -, hnumbers, hview⟩ := h.exists_chain hs he
  obtain ⟨rfl, -⟩ := hchain.unique hchain'
  have hbase := hnumbers.entry_eq (hs _ e (entry_eq_ok.1 he)) hy
  exact ⟨hview x hx, Except.ok.inj (hbase.symm.trans he)⟩

end Descent

/-- The views through which a call overwrites elements: that of an array which the host copies to,
those of the outputs of an operator which is run, and those which gradients go to. -/
inductive Overwrites [HalfPrecision] (gpus : Nat) (s : State) : Call → View → Prop
  | host {h : Handle} {bytes : Bytes} {length : Nat} {e : Entry} (he : s.entry h = .ok e)
    (hr : (Call.copyIn h bytes length).reply (library gpus) s = .ok .done) :
    Overwrites gpus s (.copyIn h bytes length) e.view
  | operator {c : Call} {task : Task} {w : View} (ht : task ∈ executed .deferred .asMarked gpus s c)
    (hw : w ∈ task.outputs) : Overwrites gpus s c w
  | gradient {heads : List Handle} {headGradients : List (Option Handle)} {retain training : Bool}
    {m : Nat × Mark} (hm : m ∈ s.tape.marks.entries) (hrequest : m.2.request ≠ .skip)
    (hr : (Call.backward heads headGradients retain training).reply (library gpus) s =
      .ok .done) :
    Overwrites gpus s (.backward heads headGradients retain training) m.2.gradient

section Writing

variable {α : Type} {a : Action State α} {g : α → Answer} {ws : State → List View}

theorem writes_of_stores (h : Stores ws a) (hc : c.perform (library gpus) = g <$> a)
    (hsame : a s = a s.drained) (hempty : (c.step (library gpus) s).queue = [])
    (hws : ∀ w ∈ ws s.drained, (∃ x, c.reply (library gpus) s = .ok (g x)) →
      Overwrites gpus s c w) :
    ∃ us, (∀ w ∈ us, Overwrites gpus s c w) ∧
      Memory.Writes us s.memory (c.step (library gpus) s).memory := by
  have hqueue : ∀ w ∈ s.queue.flatMap Task.outputs, Overwrites gpus s c w := by
    intro w hw
    obtain ⟨task, ht, hw⟩ := List.mem_flatMap.1 hw
    refine .operator ?_ hw
    rw [executed_of_empty hempty]
    exact List.mem_append_left _ ht
  have hdrain : Memory.Writes (s.queue.flatMap Task.outputs) s.memory s.drained.memory :=
    writes_runAll _ _
  have hstores := h s.drained rfl s.drained rfl
  have hstep := Call.step_of_map hc s
  rw [← hsame] at hstores
  rw [hstep]
  unfold after
  -- The queue runs whatever becomes of the call; a refused one writes nothing of its own.
  cases hr : a s with
  | ok x t =>
    rw [hr] at hstores
    refine ⟨s.queue.flatMap Task.outputs ++ ws s.drained, fun w hw => ?_, ?_⟩
    · rcases List.mem_append.1 hw with hw | hw
      · exact hqueue w hw
      · exact hws w hw ⟨x, Call.reply_of_ok hc hr⟩
    · exact (hdrain.mono fun w hw => List.mem_append_left _ hw).trans
        (Memory.Writes.mono hstores fun w hw => List.mem_append_right _ hw)
  | error e t =>
    rw [hr] at hstores
    refine ⟨_, hqueue, ?_⟩
    rw [show t.memory = s.drained.memory from hstores]
    exact hdrain

theorem State.Orderly.writes_flushing (hs : s.Orderly) (h : Stores ws a) (hflush : Flushing a)
    (hc : c.perform (library gpus) = g <$> a)
    (hws : ∀ w ∈ ws s.drained, (∃ x, c.reply (library gpus) s = .ok (g x)) →
      Overwrites gpus s c w) :
    ∃ us, (∀ w ∈ us, Overwrites gpus s c w) ∧
      Memory.Writes us s.memory (c.step (library gpus) s).memory := by
  have hstep := Call.step_of_map hc s
  rcases hflush s hs with ⟨e, he, -⟩ | ⟨hsame, hflushed⟩
  · refine ⟨[], nofun, ?_⟩
    rw [hstep]
    unfold after
    rw [he]
    exact .refl _
  · exact writes_of_stores h hc hsame (hstep ▸ hflushed.settled.empty) hws

end Writing

theorem State.Orderly.writes_call (gpus : Nat) (hs : s.Orderly) (c : Call) :
    ∃ us, (∀ w ∈ us, Overwrites gpus s c w) ∧
      Memory.Writes us s.memory (c.step (library gpus) s).memory := by
  -- A call that lets tasks wait writes at most fresh buffers, which no view shows yet.
  cases hc : drains c with
  | false =>
    have hwaits : Waits .asMarked gpus s c := waits_of_not_drains hs hc
    obtain ⟨fresh, hfresh⟩ := hwaits.memory
    refine ⟨[], nofun, ?_⟩
    have hmemory : (c.step (library gpus) s).memory = s.memory.grow fresh :=
      congrArg Memory.mk hfresh
    rw [hmemory]
    exact Memory.writes_grow _ _
  | true =>
    cases c with
    | copyIn h bytes length =>
      refine hs.writes_flushing (stores_copyIn h bytes length) (flushing_copyIn h bytes length) rfl
        fun w hw hr => ?_
      obtain ⟨-, hr⟩ := hr
      obtain ⟨e, he, rfl⟩ := List.mem_map.1 hw
      exact .host (entry_eq_ok.2 (Option.mem_toList.1 he)) hr
    | copyOut h room length =>
      exact hs.writes_flushing (stores_copyOut (fun _ => []) h room length)
        (flushing_copyOut h room length) rfl nofun
    | waitToRead h | waitToWrite h =>
      exact hs.writes_flushing (stores_wait (fun _ => []) h) (flushing_wait h) rfl nofun
    | waitAll => exact hs.writes_flushing (stores_waitAll fun _ => []) flushing_waitAll rfl nofun
    | backward heads grads retain training =>
      refine hs.writes_flushing (stores_backward heads grads retain)
        (flushing_backward _ heads grads retain) rfl fun w hw hr => ?_
      obtain ⟨-, hr⟩ := hr
      obtain ⟨m, hm, hrequest, rfl⟩ := mem_of_target hw
      exact .gradient hm hrequest hr
    | _ => exact absurd hc nofun

theorem State.Orderly.overwrites_of_ne (hs : s.Orderly) (hbounded : s.Bounded) {v : View}
    (hv : s.Holds v) {i : Nat}
    (hi : ((c.step (library gpus) s).memory.read v)[i]? ≠ (s.memory.read v)[i]?) :
    ∃ w, Overwrites gpus s c w ∧ w.Covers v.buffer (v.offset + i) := by
  obtain ⟨us, hus, hwrites⟩ := hs.writes_call gpus c
  rw [Memory.getElem?_read, Memory.getElem?_read] at hi
  by_contra hnone
  refine hi ?_
  split
  · refine hwrites.cells _ (hbounded v hv).buffer _ fun w hw hcovers => ?_
    exact hnone ⟨w, hus w hw, hcovers⟩
  · rfl

def allocates : Call → Bool
  | .create .. | .invoke _ _ none _ => true
  | _ => false

theorem issued_fresh (hs : s.Numbered) (hc : allocates c = true) {h : Handle}
    (hh : h ∈ issued gpus s c) :
    ∃ e, (c.step (library gpus) s).entry h = .ok e ∧ s.memory.buffers.length ≤ e.view.buffer := by
  cases c with
  | create device shape type storage delayed =>
    have hcall : (Call.create device shape type storage delayed).perform (library gpus) =
      Answer.handle <$> create gpus device shape type storage := rfl
    rcases (create_does device shape type storage).answers hcall s with
      ⟨x, hreply, -⟩ | ⟨x, t, hreply, rfl, ht⟩
    · simp only [issued, hreply] at hh
      exact absurd hh List.not_mem_nil
    · simp only [issued, hreply] at hh
      obtain rfl := List.mem_singleton.1 hh
      obtain ⟨rfl, hstep⟩ := Prod.mk.inj ht
      rw [← hstep]
      exact ⟨_, entry_insert _ _, Nat.le_refl _⟩
  | invoke op inputs outputs params =>
    cases outputs with
    | some given => exact absurd hc Bool.false_ne_true
    | none =>
      have hcall : (Call.invoke op inputs none params).perform (library gpus) =
        Answer.handles <$> invoke .deferred gpus op inputs none params := rfl
      rcases invoke_does.answers hcall s with ⟨x, hreply, -⟩ | ⟨made, t, hreply, hstep, ht⟩
      · simp only [issued, hreply] at hh
        exact absurd hh List.not_mem_nil
      · simp only [issued, hreply] at hh
        obtain ⟨task, u, hin, rfl⟩ := ht
        obtain ⟨_, -, hsubmit⟩ := bind_eq_ok.1 hin
        obtain ⟨entries, inferred, outs, v, -, -, houts, rfl, -, rfl⟩ := submit_eq_ok hsubmit
        obtain ⟨o, ho, rfl⟩ := List.mem_map.1 hh
        have hfresh := allocateAll_fresh (outputDevice entries params) inferred s
        rw [outputsOf_none_ok houts] at hfresh
        obtain ⟨-, hshown, -⟩ := hs.extends_outputsOf houts
        obtain ⟨e, he, hview⟩ := hshown o ho
        rw [hstep]
        exact ⟨e, entry_eq_ok.2 he, hview ▸ hfresh o ho⟩
  | _ => exact absurd hc Bool.false_ne_true

theorem State.Bounded.issued_apart (hbounded : s.Bounded) (hs : s.Numbered)
    (hc : allocates c = true) {h : Handle} (hh : h ∈ issued gpus s c) :
    ∃ e, (c.step (library gpus) s).entry h = .ok e ∧
      ∀ v, s.Holds v → e.view.buffer ≠ v.buffer := by
  obtain ⟨e, he, hfresh⟩ := issued_fresh hs hc hh
  exact ⟨e, he, fun v hv => Nat.ne_of_gt (Nat.lt_of_lt_of_le (hbounded v hv).buffer hfresh)⟩

/-- The elements that a view shows once what waits has been run. -/
def State.contents [HalfPrecision] (s : State) (v : View) : Values := s.drained.memory.read v

theorem State.Bounded.length_contents [HalfPrecision] (hs : s.Bounded) {v : View} (hv : s.Holds v) :
    (s.contents v).length = v.size :=
  ((writes_runAll _ _).fits (hs v hv)).length_read

theorem State.Orderly.reply_copyOut (gpus : Nat) (hs : s.Orderly) {h : Handle} {e : Entry}
    (he : s.entry h = .ok e) :
    (Call.copyOut h (e.view.size * e.view.type.bytes) e.view.size).reply (library gpus) s =
      .ok (.bytes (e.view.type.encode (s.contents e.view))) := by
  refine (reply_inspects gpus (show inspects h (.copyOut h _ _) from rfl) hs).trans ?_
  rw [he]
  exact if_neg (by simp)

/-- Views alias exactly, after any calls. A derivation makes a view that shows just the elements it
selects, each where `Derivation.origin` says. Through a chain of derivations each element of the last
view is one element of the first array, the same for as long as both live, and a host copy reads the
same there. A gradient that is asked for is a view of the buffer that was marked. What a live array
shows changes only where a call overwrites it, and arrays that are made by `create` or for an
operator's results share no buffer with any view in use. -/
theorem views_alias [HalfPrecision] (gpus : Nat) (cs : List Call) :
    let s := Call.run (library gpus) cs .initial
    (∀ (d : Derivation) (k h : Handle),
      (d.call k).reply (library gpus) s = .ok (.handle h) →
        ∃ e w, s.entry k = .ok e ∧ d.view e.view = .ok w ∧
          ((d.call k).step (library gpus) s).entry h = .ok { e with view := w } ∧
          w.Shows e.view (d.origin e.view.shape w.shape) ∧
          ∀ js, e.view.shape.Has js →
            (d.Selects js ↔ ∃ is, w.shape.Has is ∧ d.origin e.view.shape w.shape is = js)) ∧
    (∀ (h g : Handle), (Call.getGrad h).reply (library gpus) s = .ok (.gradient (some g)) →
      ∃ e m, s.tape.marks.get? h.id = some m ∧
        ((Call.getGrad h).step (library gpus) s).entry g = .ok e ∧ e.view = m.gradient) ∧
    (∀ (a : Handle) (e : Entry), s.entry a = .ok e →
      ∀ ds : List Derivation, (∃ k t, Descends gpus s a ds k t) →
        ∃ w f, Chain ds e.view w f ∧ w.Shows e.view f ∧
          ∀ k t, Descends gpus s a ds k t → ∀ x y, t.entry k = .ok x → t.entry a = .ok y →
            x.view = w ∧ y = e ∧
            (Call.copyOut k (w.size * w.type.bytes) w.size).reply (library gpus) t =
              .ok (.bytes (w.type.encode (t.contents w))) ∧
            (Call.copyOut a (e.view.size * e.view.type.bytes) e.view.size).reply (library gpus) t =
              .ok (.bytes (e.view.type.encode (t.contents e.view))) ∧
            (t.contents w).length = w.size ∧ (t.contents e.view).length = e.view.size ∧
            ∀ i < w.size, (t.contents w)[i]? =
              (t.contents e.view)[e.view.shape.place (f (w.shape.index i))]?) ∧
    (∀ (c : Call) (h : Handle) (e : Entry), s.entry h = .ok e → ∀ i,
      ((c.step (library gpus) s).memory.read e.view)[i]? ≠ (s.memory.read e.view)[i]? →
        ∃ w, Overwrites gpus s c w ∧ w.Covers e.view.buffer (e.view.offset + i)) ∧
    (∀ c : Call, allocates c = true → ∀ h ∈ issued gpus s c,
      ∃ e, (c.step (library gpus) s).entry h = .ok e ∧
        ∀ v, s.Holds v → e.view.buffer ≠ v.buffer) := by
  intro s
  have hnumbered : s.Numbered := numbered_run nofun
  have horderly : s.Orderly := orderly_run orderly_initial
  have hbounded : s.Bounded := bounded_run gpus cs
  refine ⟨fun d k h hr => ?_, fun h g hr => getGrad_ok hr, fun a e he ds hds => ?_,
    fun c h e he i hi => horderly.overwrites_of_ne hbounded (.entry (entry_eq_ok.1 he)) hi,
    fun c hc h hh => hbounded.issued_apart hnumbered hc hh⟩
  · obtain ⟨e, w, he, hw, hnext⟩ := derive_ok hr
    obtain ⟨rfl, hstep⟩ := Prod.mk.inj hnext
    rw [hstep]
    exact ⟨e, w, he, hw, entry_insert _ _, Derivation.shows hw, fun js => Derivation.selects_iff hw⟩
  · obtain ⟨_, _, hbefore⟩ := hds
    obtain ⟨w, f, hchain, -⟩ := hbefore.exists_chain hnumbered he
    refine ⟨w, f, hchain, hchain.shows, fun k t ht x y hx hy => ?_⟩
    obtain ⟨rfl, rfl⟩ := ht.entries hnumbered he hchain hx hy
    obtain ⟨more, rfl⟩ := ht.exists_run
    have hrun : Call.run (library gpus) more s =
        Call.run (library gpus) (cs ++ more) .initial := (Call.run_append _ cs more _).symm
    have htorderly : (Call.run (library gpus) more s).Orderly := orderly_run horderly
    have htbounded : (Call.run (library gpus) more s).Bounded := hrun ▸ bounded_run gpus _
    exact ⟨rfl, rfl, htorderly.reply_copyOut gpus hx, htorderly.reply_copyOut gpus hy,
      htbounded.length_contents (.entry (entry_eq_ok.1 hx)),
      htbounded.length_contents (.entry (entry_eq_ok.1 hy)),
      fun i hi => hchain.shows.read _ hi⟩

end ScopedTensor.Reference
