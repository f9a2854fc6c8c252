import Mathlib.Data.List.ReduceOption
import ScopedTensor.Proofs.Ownership.Ledger
import ScopedTensor.Proofs.Store.Changes

/-! The lives of handles. A handle is numbered once, when it is given out, and lives until it is freed;
a call that names one that is not alive is refused. -/

namespace ScopedTensor

variable {half : HalfPrecision}

namespace Reference

open ScopedTensor.Action State Library

variable {gpus : Nat} {s t u : State}

def issued [HalfPrecision] (gpus : Nat) (s : State) (c : Call) : List Handle :=
  match c, c.reply (library gpus) s with
  | .create .., .ok (.handle h) => [h]
  | .row .., .ok (.handle h) => [h]
  | .slice .., .ok (.handle h) => [h]
  | .reshape .., .ok (.handle h) => [h]
  | .invoke _ _ none _, .ok (.handles hs) => hs
  | .getGrad _, .ok (.gradient g) => g.toList
  | _, _ => []

def freed [HalfPrecision] (gpus : Nat) (s : State) (c : Call) : List Handle :=
  match c, c.reply (library gpus) s with
  | .free h, .ok _ => [h]
  | _, _ => []

/-- From `s` to `t` the handles `made` were given out, numbered upwards, and those of `gone` have
ended. -/
structure State.Lives (s : State) (made gone : List Handle) (t : State) : Prop where
  created : t.created = s.created + made.length
  lastId : t.lastId = s.lastId + made.length
  ids : made.map Handle.id = List.range' (s.lastId + 1) made.length
  live_iff : ∀ h : Handle, h.id ∈ t.entries.keys ↔ (h.id ∈ s.entries.keys ∨ h ∈ made) ∧ h ∉ gone
  known : ∀ h ∈ gone, h.id ∈ s.entries.keys ∨ h ∈ made
  once : gone.Nodup
  live : t.live + gone.length = s.live + made.length

theorem State.Lives.id_bounds {made gone : List Handle} (h : s.Lives made gone t) {x : Handle}
    (hx : x ∈ made) : s.lastId < x.id ∧ x.id ≤ t.lastId := by
  have hmem : x.id ∈ List.range' (s.lastId + 1) made.length := h.ids ▸ List.mem_map_of_mem hx
  have hrange := List.mem_range'_1.1 hmem
  have hlast := h.lastId
  omega

theorem State.Lives.le_lastId {made gone : List Handle} (h : s.Lives made gone t) (hs : s.Counted)
    {x : Handle} (hx : x.id ∈ s.entries.keys ∨ x ∈ made) : x.id ≤ t.lastId := by
  rcases hx with hx | hx
  · have hle := hs.le _ hx
    have hlast := h.lastId
    omega
  · exact (h.id_bounds hx).2

theorem State.Lives.trans {made gone made' gone' : List Handle} (hs : s.Counted)
    (h : s.Lives made gone t) (h' : t.Lives made' gone' u) :
    s.Lives (made ++ made') (gone ++ gone') u := by
  -- a number that is given out later was not yet known
  have hnew : ∀ x ∈ made', x ∉ gone := fun x hx hgone => by
    have hle := h.le_lastId hs (h.known x hgone)
    have hlt := (h'.id_bounds hx).1
    omega
  constructor
  case created => rw [h'.created, h.created, List.length_append, Nat.add_assoc]
  case lastId => rw [h'.lastId, h.lastId, List.length_append, Nat.add_assoc]
  case ids =>
    rw [List.map_append, h.ids, h'.ids, h.lastId, List.length_append, Nat.add_right_comm,
      List.range'_append_1]
  case live_iff =>
    intro x
    have hx := hnew x
    simp only [h'.live_iff, h.live_iff, List.mem_append]
    tauto
  case known =>
    intro x hx
    rw [List.mem_append]
    rcases List.mem_append.1 hx with hx | hx
    · exact (h.known x hx).imp id .inl
    · rcases h'.known x hx with hx | hx
      · exact ((h.live_iff x).1 hx).1.imp id .inl
      · exact .inr (.inr hx)
  case once =>
    refine List.nodup_append.2 ⟨h.once, h'.once, fun x hx y hy hxy => ?_⟩
    subst hxy
    rcases h'.known x hy with hlive | hmade
    · exact ((h.live_iff x).1 hlive).2 hx
    · exact hnew x hmade hx
  case live =>
    have hlive := h.live
    have hlive' := h'.live
    simp only [List.length_append]
    omega

theorem State.Lives.refl (s : State) : s.Lives [] [] s :=
  ⟨rfl, rfl, rfl, fun h => by simp, nofun, List.nodup_nil, rfl⟩

theorem State.Lives.congr {made gone : List Handle} (h : s.Lives made gone t)
    (he : u.entries = t.entries) (hlast : u.lastId = t.lastId) (hcreated : u.created = t.created) :
    s.Lives made gone u where
  created := hcreated.trans h.created
  lastId := hlast.trans h.lastId
  ids := h.ids
  live_iff := he ▸ h.live_iff
  known := h.known
  once := h.once
  live := by
    have hlive := h.live
    unfold State.live at hlive ⊢
    rwa [he]

theorem State.Lives.of_eq (he : t.entries = s.entries) (hlast : t.lastId = s.lastId)
    (hcreated : t.created = s.created) : s.Lives [] [] t :=
  (State.Lives.refl s).congr he hlast hcreated

theorem State.Lives.of_books (h : books t = books s) : s.Lives [] [] t := by
  obtain ⟨he, h⟩ := Prod.mk.inj h
  obtain ⟨hlast, h⟩ := Prod.mk.inj h
  exact .of_eq he hlast (Prod.mk.inj h).1

theorem State.Counted.lives_insert (hs : s.Counted) (e : Entry) :
    s.Lives [(s.insert e).1] [] (s.insert e).2 := by
  have hkeys := Table.keys_insert_of_none e hs.fresh
  refine ⟨rfl, rfl, rfl, fun h => ?_, nofun, List.nodup_nil, ?_⟩
  · have hid : h.id = s.lastId + 1 ↔ h = ⟨s.lastId + 1⟩ := id_eq_iff (h := ⟨s.lastId + 1⟩)
    unfold State.insert
    simp only [hkeys, List.mem_append, List.mem_singleton, hid, List.not_mem_nil, not_false_eq_true,
      and_true]
  · have hlength := congrArg List.length hkeys
    rw [List.length_append, Table.length_keys, Table.length_keys] at hlength
    exact hlength

theorem State.Counted.lives_free (hs : s.Counted) {h : Handle} (hh : h.id ∈ s.entries.keys)
    (he : t.entries = s.entries.erase h.id) (hlast : t.lastId = s.lastId)
    (hcreated : t.created = s.created) : s.Lives [] [h] t := by
  refine ⟨hcreated, hlast, rfl, fun x => ?_, fun x hx => ?_, List.pairwise_singleton _ h, ?_⟩
  · have hid : x.id ≠ h.id ↔ x ≠ h := not_congr id_eq_iff
    rw [he, Table.mem_keys_erase, hid]
    simp only [List.not_mem_nil, or_false, List.mem_singleton]
  · rw [List.mem_singleton.1 hx]
    exact .inl hh
  · have hsize := Table.size_erase hs.distinct hh
    unfold State.live
    rw [he]
    exact hsize

theorem State.Numbers.counted (h : s.Numbers t) (hs : s.Counted)
    (hdistinct : t.entries.keys.Nodup) : t.Counted := by
  refine ⟨hdistinct, fun id hid => ?_⟩
  obtain ⟨e, he⟩ := (Table.mem_keys_iff _ _).1 hid
  exact h.numbered (fun k x hx => hs.le k ((Table.mem_keys_iff _ _).2 ⟨x, hx⟩)) id e he

theorem State.Counted.allocate (hs : s.Counted) (shape : Shape) (type : ElementType)
    (device : Device) (storage : Storage) : (s.allocate shape type device storage).2.Counted :=
  (s.evolves_allocate shape type device storage).toNumbers.counted hs
    (Table.nodup_insert hs.distinct _)

theorem State.Change.counted (hs : s.Counted) (h : s.Change t) : t.Counted := by
  refine h.numbers.counted hs ?_
  cases h with
  | allocate | derive | reveal => exact Table.nodup_insert hs.distinct _
  | erase id => exact Table.nodup_erase hs.distinct
  | count | drain | write | deliver | switch | enlist | mark => exact hs.distinct

theorem counted_initial : State.Counted .initial := ⟨List.nodup_nil, nofun⟩

theorem State.Counted.changes (hs : s.Counted) (h : Relation.ReflTransGen State.Change s t) :
    t.Counted := by
  induction h with
  | refl => exact hs
  | tail _ h ih => exact h.counted ih

theorem State.Counted.numbered (hs : s.Counted) : s.Numbered :=
  fun id _ he => hs.le id ((Table.mem_keys_iff _ _).2 ⟨_, he⟩)

theorem State.Counted.step (hs : s.Counted) (c : Call) : (c.step (library gpus) s).Counted :=
  hs.changes (changes_step gpus hs.numbered c)

theorem State.Counted.lives_allocate (hs : s.Counted) (shape : Shape) (type : ElementType)
    (device : Device) (storage : Storage) :
    s.Lives [(s.allocate shape type device storage).1] []
      (s.allocate shape type device storage).2 := by
  have hmemory : State.Counted { s with memory := (s.memory.allocate shape type).2 } :=
    ⟨hs.distinct, hs.le⟩
  have hinsert := hmemory.lives_insert ⟨(s.memory.allocate shape type).1, device, storage⟩
  have hrest : s.Lives [] [] { s with memory := (s.memory.allocate shape type).2 } := .of_books rfl
  exact hrest.trans hs hinsert

theorem State.Counted.lives_allocateAll (device : Device) (sigs : List Signature) :
    ∀ {s : State}, s.Counted → s.Lives ((allocateAll device sigs s).1.map Prod.fst) []
      (allocateAll device sigs s).2 := by
  induction sigs with
  | nil => exact fun _ => .of_books rfl
  | cons sig sigs ih =>
    intro s hs
    rw [allocateAll_cons]
    have hfirst := hs.lives_allocate sig.shape sig.type device .dense
    exact hfirst.trans hs (ih (hs.allocate _ _ _ _))

theorem lives_of_keeps {α : Type} {a : Action State α} {g : α → Answer}
    (h : Keeps (fun u => books u = books s) a) : s.Lives [] [] ((g <$> a).after s) := by
  rw [after_map]
  exact .of_books (h.after rfl)

theorem State.Counted.lives_free_call (hs : s.Counted) (h : Handle) :
    s.Lives [] (freed gpus s (.free h)) ((Call.free h).step (library gpus) s) := by
  have hrun : (Call.free h).perform (library gpus) s =
      EStateM.map (fun _ => Answer.done) (free h) s := rfl
  unfold freed Call.reply Call.step after
  rw [hrun]
  unfold EStateM.map
  rcases free_cases h s with ⟨-, x, hfree⟩ | ⟨hsome, hfree⟩
  · rw [hfree]
    exact .of_eq rfl rfl rfl
  · rw [hfree]
    have hh : h.id ∈ s.entries.keys :=
      (Table.mem_keys_iff _ _).2 (Option.isSome_iff_exists.1 hsome)
    exact hs.lives_free hh rfl rfl rfl

theorem lives_of_does {c : Call} {a : Action State Handle} {Q : State → Handle → State → Prop}
    (h : Does a Q) (hc : c.perform (library gpus) = Answer.handle <$> a)
    (hQ : ∀ x t, Q s x t → s.Lives [x] [] t)
    (hmade : ∀ x, c.reply (library gpus) s = .ok (.handle x) → issued gpus s c = [x])
    (hnone : ∀ e, c.reply (library gpus) s = .error e → issued gpus s c = []) :
    s.Lives (issued gpus s c) [] (c.step (library gpus) s) := by
  rcases h.answers hc s with ⟨e, hreply, hstep⟩ | ⟨x, t, hreply, hstep, hx⟩
  · rw [hnone e hreply, hstep]
    exact .of_books rfl
  · rw [hmade x hreply, hstep]
    exact hQ x t hx

theorem State.Counted.lives_derive (hs : s.Counted) (h : Handle) (d : Derivation) :
    s.Lives (issued gpus s (d.call h)) [] ((d.call h).step (library gpus) s) := by
  refine lives_of_does (derive_does h d.view) (d.perform_call gpus h) (fun x t ht => ?_)
    (fun x hx => ?_) fun e he => ?_
  · obtain ⟨e, w, -, -, ht⟩ := ht
    have hlives := hs.lives_insert { e with view := w }
    rwa [ht] at hlives
  · cases d <;> simp only [issued, Derivation.call] at hx ⊢ <;> rw [hx]
  · cases d <;> simp only [issued, Derivation.call] at he ⊢ <;> rw [he]

theorem State.Counted.lives_getGrad (hs : s.Counted) (h : Handle) :
    s.Lives (issued gpus s (.getGrad h)) [] ((Call.getGrad h).step (library gpus) s) := by
  have hcall : (Call.getGrad h).perform (library gpus) = Answer.gradient <$> getGrad h := rfl
  rcases (getGrad_does h).answers hcall s with ⟨e, hreply, hstep⟩ | ⟨g, t, hreply, hstep, ht⟩
  · simp only [issued, hreply, hstep]
    exact .of_books rfl
  · simp only [issued, hreply, hstep]
    rcases ht with ⟨e, -, ⟨rfl, rfl⟩ | ⟨m, -, ht⟩⟩
    · exact .of_books rfl
    · obtain ⟨rfl, rfl⟩ := Prod.mk.inj ht
      exact hs.lives_insert ⟨m.gradient, e.device, .dense⟩

theorem State.Counted.lives_invoke (hs : s.Counted) (h : OpHandle) (inputs : List Handle)
    (outputs : Option (List Handle)) (params : Params) :
    s.Lives (issued gpus s (.invoke h inputs outputs params)) []
      ((Call.invoke h inputs outputs params).step (library gpus) s) := by
  have hcall : (Call.invoke h inputs outputs params).perform (library gpus) =
    Answer.handles <$> invoke .deferred gpus h inputs outputs params := rfl
  rcases invoke_does.answers hcall s with ⟨e, hreply, hstep⟩ | ⟨made, t, hreply, hstep, ht⟩
  · rw [hstep]
    cases outputs <;> simp only [issued, hreply] <;> exact .of_books rfl
  · obtain ⟨task, u, hin, rfl⟩ := ht
    obtain ⟨op, -, hsubmit⟩ := bind_eq_ok.1 hin
    obtain ⟨entries, inferred, outs, v, -, -, houts, rfl, -, rfl⟩ := submit_eq_ok hsubmit
    rw [hstep]
    cases outputs with
    | none =>
      simp only [issued, hreply]
      have hlives := State.Counted.lives_allocateAll (outputDevice entries params) inferred hs
      rw [outputsOf_none_ok houts] at hlives
      exact hlives.congr rfl rfl rfl
    | some given =>
      obtain ⟨-, rfl⟩ := outputsOf_some_ok houts
      exact .of_books rfl

/-- Every call gives out the handles that are next in number, or frees one, or does neither. -/
theorem State.Counted.lives_step (hs : s.Counted) (c : Call) :
    s.Lives (issued gpus s c) (freed gpus s c) (c.step (library gpus) s) := by
  cases c with
  | version | gpuCount | listOps => exact .of_books rfl
  | getOp name => exact lives_of_keeps (.ofExcept (fun _ _ _ h => h) fun _ h => h)
  | create d shape type st delayed =>
    refine lives_of_does (create_does d shape type st) rfl (fun x t ht => ?_)
      (fun x hx => by simp only [issued, hx]) fun e he => by simp only [issued, he]
    have hlives := hs.lives_allocate shape type d st
    rwa [ht] at hlives
  | free h => exact hs.lives_free_call h
  | shape h => exact lives_of_keeps ((keeps_viewOf h).bind fun _ => .pure fun _ hs => hs)
  | type h => exact lives_of_keeps ((keeps_viewOf h).bind fun _ => .pure fun _ hs => hs)
  | device h => exact lives_of_keeps ((keeps_entryOf h).bind fun _ => .pure fun _ hs => hs)
  | storage h => exact lives_of_keeps ((keeps_entryOf h).bind fun _ => .pure fun _ hs => hs)
  | copyIn h bytes length => exact lives_of_keeps (keeps_copyIn h bytes length)
  | copyOut h room length => exact lives_of_keeps (keeps_copyOut h room length)
  | waitToRead h => exact lives_of_keeps (keeps_wait h)
  | waitToWrite h => exact lives_of_keeps (keeps_wait h)
  | waitAll => exact lives_of_keeps keeps_waitAll
  | invoke h inputs outputs params => exact hs.lives_invoke h inputs outputs params
  | row h index => exact hs.lives_derive h (.row index)
  | slice h first last => exact hs.lives_derive h (.slice first last)
  | reshape h dims reverse => exact hs.lives_derive h (.reshape dims reverse)
  | markVariables vars requests grads =>
    exact lives_of_keeps (keeps_markVariables vars requests grads)
  | backward heads grads retain training => exact lives_of_keeps (keeps_backward _ heads grads retain)
  | getGrad h => exact hs.lives_getGrad h
  | setRecording on => exact .of_books rfl
  | setTraining on => exact .of_books rfl
  | randomSeed seed => exact .of_books rfl

def State.Marked (s : State) : Prop := ∀ id ∈ s.tape.marks.keys, id ∈ s.entries.keys

theorem State.Change.marked (hs : s.Marked) (h : s.Change t) : t.Marked := by
  have hinsert : ∀ e, ∀ id ∈ s.tape.marks.keys, id ∈ (s.insert e).2.entries.keys :=
    fun e id hid => Table.mem_keys_insert.2 (.inl (hs id hid))
  cases h with
  | allocate | derive | reveal => exact hinsert _
  | erase id =>
    intro k hk
    obtain ⟨hmarked, hne⟩ := Table.mem_keys_erase.1 hk
    exact Table.mem_keys_erase.2 ⟨hs k hmarked, hne⟩
  | @enlist n hn => exact fun k hk => hs k (s.tape.marks_record n ▸ hk)
  | mark request hv grad hg hshape =>
    intro k hk
    rcases Table.mem_keys_insert.1 hk with hk | rfl
    · exact hs k hk
    · exact (Table.mem_keys_iff _ _).2 ⟨_, hv⟩
  | count | drain | write | deliver | switch => exact hs

/-- The handles that a call looks up. Head gradients beyond the heads are not looked at. -/
def names : Call → List Handle
  | .free h | .shape h | .type h | .device h | .storage h | .copyIn h _ _ | .copyOut h _ _
  | .waitToRead h | .waitToWrite h | .row h _ | .slice h _ _ | .reshape h _ _ | .getGrad h => [h]
  | .invoke _ inputs outputs _ => inputs ++ outputs.getD []
  | .markVariables vars _ gradients => vars ++ gradients
  | .backward heads headGradients _ _ => heads ++ (headGradients.take heads.length).reduceOption
  | _ => []

/-- An action that succeeds only where the handles `hs` are live. -/
def Needs {α : Type} (hs : List Handle) (a : Action State α) : Prop :=
  ∀ s, Meets (· = s) a (fun _ _ => ∀ h ∈ hs, h.id ∈ s.entries.keys) fun _ => True

section Needing

variable {α β : Type} {hs : List Handle} {a : Action State α}

theorem Needs.bind {f : α → Action State β} (h : Needs hs a) : Needs hs (a >>= f) := fun s =>
  (h s).bind fun x t ht => by
    cases f x t with
    | ok => exact ht
    | error => trivial

theorem Needs.map {g : α → β} (h : Needs hs a) : Needs hs (g <$> a) := fun s => (h s).map

theorem Needs.of_does {Q : State → α → State → Prop} (h : Does a Q)
    (hQ : ∀ s x t, Q s x t → ∀ k ∈ hs, k.id ∈ s.entries.keys) : Needs hs a := fun s =>
  (h s).imp (fun _ ht => ht) (hQ s) fun _ _ => trivial

theorem mem_keys_of_entry {h : Handle} {e : Entry} (he : s.entry h = .ok e) :
    h.id ∈ s.entries.keys := (Table.mem_keys_iff _ _).2 ⟨e, entry_eq_ok.1 he⟩

theorem needs_entryOf (h : Handle) : Needs [h] (entryOf h) := fun s =>
  .query (fun t ht e he k hk => by
    obtain rfl := List.mem_singleton.1 hk
    rw [ht] at he
    exact mem_keys_of_entry he) fun _ _ => trivial

theorem needs_viewOf (h : Handle) : Needs [h] (viewOf h) := (needs_entryOf h).map

theorem needs_derive (h : Handle) (f : View → Except Error View) : Needs [h] (derive h f) :=
  .of_does (derive_does h f) fun s x t ht k hk => by
    obtain ⟨e, w, he, -, -⟩ := ht
    obtain rfl := List.mem_singleton.1 hk
    exact mem_keys_of_entry he

theorem needs_getGrad (h : Handle) : Needs [h] (getGrad h) :=
  .of_does (getGrad_does h) fun s x t ht k hk => by
    obtain ⟨e, he, -⟩ := ht
    obtain rfl := List.mem_singleton.1 hk
    exact mem_keys_of_entry he

theorem needs_free (h : Handle) : Needs [h] (free h) := by
  rintro s _ rfl
  rename_i s
  rcases free_cases h s with ⟨-, x, hfree⟩ | ⟨hsome, hfree⟩
  · rw [hfree]
    trivial
  · rw [hfree]
    intro k hk
    obtain rfl := List.mem_singleton.1 hk
    exact (Table.mem_keys_iff _ _).2 (Option.isSome_iff_exists.1 hsome)

theorem needs_invoke [HalfPrecision] (h : OpHandle) (inputs : List Handle)
    (outputs : Option (List Handle)) (params : Params) :
    Needs (inputs ++ outputs.getD []) (invoke .deferred gpus h inputs outputs params) := by
  refine .of_does invoke_does fun s x t ht k hk => ?_
  obtain ⟨task, u, hin, -⟩ := ht
  obtain ⟨op, -, hsubmit⟩ := bind_eq_ok.1 hin
  obtain ⟨entries, inferred, outs, v, hentries, -, houts, -, -, -⟩ := submit_eq_ok hsubmit
  rcases List.mem_append.1 hk with hk | hk
  · obtain ⟨e, he⟩ := isOk_of_mapM_eq_ok hentries hk
    exact mem_keys_of_entry he
  · cases outputs with
    | none => exact absurd hk List.not_mem_nil
    | some given =>
      obtain ⟨hfound, -⟩ := outputsOf_some_ok houts
      unfold givenOutputs at hfound
      split at hfound
      · exact absurd hfound nofun
      · rename_i hlength
        have hzip : (given.zip inferred).map Prod.fst = given :=
          List.map_fst_zip (Nat.le_of_eq (not_not.1 hlength))
        rw [← hzip] at hk
        obtain ⟨p, hp, rfl⟩ := List.mem_map.1 hk
        obtain ⟨o, ho⟩ := isOk_of_mapM_eq_ok hfound hp
        obtain ⟨e, he, -⟩ := bind_eq_ok.1 ho
        exact mem_keys_of_entry he

theorem needs_marks (xs : List (Handle × GradRequest × Handle)) :
    ∀ s, Meets (· = s) (xs.forM fun (var, request, grad) => markOne var request grad)
      (fun _ _ => ∀ x ∈ xs, x.1.id ∈ s.entries.keys ∧ x.2.2.id ∈ s.entries.keys)
      fun _ => True := by
  induction xs with
  | nil => exact fun s => .pure fun _ _ => nofun
  | cons x xs ih =>
    intro s
    refine Meets.bind (Q := fun _ u => u.entries = s.entries ∧
        x.1.id ∈ s.entries.keys ∧ x.2.2.id ∈ s.entries.keys)
      ((markOne_does _ _ _ s).imp (fun _ h => h) (fun _ t ht => ?_) fun _ _ => trivial) fun _ => ?_
    · obtain ⟨v, g, hv, hg, -, rfl⟩ := ht
      exact ⟨rfl, mem_keys_of_entry hv, mem_keys_of_entry hg⟩
    · refine .of_state fun u hu => (ih u).imp (fun _ h => h) (fun _ t ht y hy => ?_) fun _ h => h
      rcases List.mem_cons.1 hy with rfl | hy
      · exact hu.2
      · exact hu.1 ▸ ht y hy

theorem needs_markVariables (vars : List Handle) (requests : List GradRequest)
    (grads : List Handle) : Needs (vars ++ grads) (markVariables vars requests grads) := by
  intro s
  refine .ite (fun _ => .throw fun _ _ => trivial) fun hlength => ?_
  rw [not_or, not_not, not_not] at hlength
  refine (needs_marks _ s).to_imp fun _ t ht k hk => ?_
  have hrequests : requests.length = grads.length := hlength.1.symm.trans hlength.2
  have hzip : (vars.zip (requests.zip grads)).map Prod.fst = vars :=
    List.map_fst_zip (by rw [List.length_zip]; omega)
  have hzip' : (vars.zip (requests.zip grads)).map (fun x => x.2.2) = grads := by
    have hmap : (vars.zip (requests.zip grads)).map (fun x => x.2.2) =
        ((vars.zip (requests.zip grads)).map Prod.snd).map Prod.snd := List.map_map.symm
    rw [hmap, List.map_snd_zip (by rw [List.length_zip]; omega), List.map_snd_zip (by omega)]
  rcases List.mem_append.1 hk with hk | hk
  · rw [← hzip] at hk
    obtain ⟨x, hx, rfl⟩ := List.mem_map.1 hk
    exact (ht x hx).1
  · rw [← hzip'] at hk
    obtain ⟨x, hx, rfl⟩ := List.mem_map.1 hk
    exact (ht x hx).2

theorem seedsOf_live {heads : List Handle} {headGradients : List (Option Handle)}
    {seeds : List (Nat × Values)} (h : seedsOf s heads headGradients = .ok seeds) :
    ∀ k ∈ heads ++ (headGradients.take heads.length).reduceOption, k.id ∈ s.entries.keys := by
  intro k hk
  rcases List.mem_append.1 hk with hk | hk
  · obtain ⟨i, hi, rfl⟩ := List.mem_iff_getElem.1 hk
    have hmem : (heads[i], i) ∈ heads.zipIdx :=
      List.mem_zipIdx_iff_getElem?.2 (List.getElem?_eq_getElem hi)
    obtain ⟨seed, hseed⟩ := isOk_of_mapM_eq_ok h hmem
    obtain ⟨e, he, -⟩ := bind_eq_ok.1 hseed
    exact mem_keys_of_entry he
  · rw [List.reduceOption_mem_iff] at hk
    obtain ⟨i, hi, hik⟩ := List.mem_take_iff_getElem.1 hk
    have hi' : i < heads.length := by omega
    have hmem : (heads[i], i) ∈ heads.zipIdx :=
      List.mem_zipIdx_iff_getElem?.2 (List.getElem?_eq_getElem hi')
    obtain ⟨seed, hseed⟩ := isOk_of_mapM_eq_ok h hmem
    have hjoin : headGradients[i]?.join = some k := by
      rw [List.getElem?_eq_getElem (by omega), hik]
      rfl
    obtain ⟨e, -, hseed⟩ := bind_eq_ok.1 hseed
    simp only [hjoin] at hseed
    obtain ⟨g, hg, -⟩ := bind_eq_ok.1 hseed
    exact mem_keys_of_entry hg

theorem needs_backward (heads : List Handle) (headGradients : List (Option Handle))
    (retain : Bool) : Needs (heads ++ (headGradients.take heads.length).reduceOption)
      (backward .asMarked heads headGradients retain) := by
  intro s
  refine Meets.bind (Q := fun _ u => books u = books s) ((keeps_drain (k := books s)).imp
    (fun u hu => hu ▸ rfl) (fun _ _ h => h) fun _ _ => trivial) fun _ => ?_
  refine Meets.bind (Q := fun _ _ => ∀ k ∈ heads ++ (headGradients.take heads.length).reduceOption,
    k.id ∈ s.entries.keys) (.query (fun u hu seeds hseeds => ?_) fun _ _ => trivial) fun seeds => ?_
  · have he : u.entries = s.entries := congrArg Prod.fst hu
    exact he ▸ seedsOf_live hseeds
  · exact fun u hu => by
      split
      · exact hu
      · trivial

end Needing

theorem needs_names [HalfPrecision] (gpus : Nat) (c : Call) :
    Needs (names c) (c.perform (library gpus)) := by
  have hnone : ∀ {α : Type} (a : Action State α), Needs [] a := fun a s t ht => by
    cases a t with
    | ok => exact nofun
    | error => trivial
  cases c with
  | free h => exact (needs_free h).map
  | shape h => exact (needs_viewOf h).bind.map
  | type h => exact (needs_viewOf h).bind.map
  | device h => exact (needs_entryOf h).bind.map
  | storage h => exact (needs_entryOf h).bind.map
  | copyIn h bytes length => exact (needs_viewOf h).bind.map
  | copyOut h room length => exact (needs_viewOf h).bind.map
  | waitToRead h => exact (needs_entryOf h).bind.map
  | waitToWrite h => exact (needs_entryOf h).bind.map
  | invoke h inputs outputs params => exact (needs_invoke h inputs outputs params).map
  | row h index => exact (needs_derive h _).map
  | slice h first last => exact (needs_derive h _).map
  | reshape h dims reverse => exact (needs_derive h _).map
  | markVariables vars requests grads => exact (needs_markVariables vars requests grads).map
  | backward heads grads retain training => exact (needs_backward heads grads retain).map
  | getGrad h => exact (needs_getGrad h).map
  | _ => exact hnone _

theorem refused_of_dead (gpus : Nat) {c : Call} {h : Handle} (hh : h ∈ names c)
    (hdead : s.entries.get? h.id = none) : ∃ e, c.reply (library gpus) s = .error e := by
  have hneeds := needs_names gpus c s s rfl
  unfold Call.reply
  cases hr : c.perform (library gpus) s with
  | error e t => exact ⟨e, rfl⟩
  | ok x t =>
    rw [hr] at hneeds
    exact absurd (hneeds h hh) ((Table.not_mem_keys_iff _ _).2 hdead)

section Looking

variable {h : Handle} {e : Entry} {x : Error} {room length : Nat} {c : Call}

theorem viewOf_ok (he : s.entry h = .ok e) : viewOf h s = .ok e.view s :=
  bind_of_ok (query_ok.2 ⟨he, rfl⟩)

theorem viewOf_error (he : s.entry h = .error x) : viewOf h s = .error x s :=
  bind_error (query_error he)

theorem State.Orderly.copyOut_ok (hs : s.Orderly) (he : s.entry h = .ok e) :
    copyOut h room length s =
      if length ≠ e.view.size ∨ room ≠ length * e.view.type.bytes then
        .error (.native "sync_copy_to_cpu" (.hostTarget e.view.size length room)) s
      else .ok (e.view.type.encode (s.drained.memory.read e.view)) s.drained := by
  unfold copyOut
  rw [bind_of_ok (viewOf_ok he)]
  split
  · rfl
  · exact hs.drain_bind _

def inspects (h : Handle) : Call → Prop
  | .shape k | .type k | .device k | .storage k | .copyOut k _ _ => k = h
  | _ => False

def told [HalfPrecision] (e : Entry) (m : Memory) : Call → Except Error Answer
  | .shape _ => .ok (.shape e.view.shape)
  | .type _ => .ok (.type e.view.type)
  | .device _ => .ok (.device e.device)
  | .storage _ => .ok (.storage e.storage)
  | .copyOut _ room length =>
    if length ≠ e.view.size ∨ room ≠ length * e.view.type.bytes then
      .error (.native "sync_copy_to_cpu" (.hostTarget e.view.size length room))
    else .ok (.bytes (e.view.type.encode (m.read e.view)))
  | _ => .ok .done

theorem reply_inspects (gpus : Nat) (hc : inspects h c) (hs : s.Orderly) :
    c.reply (library gpus) s = s.entry h >>= fun e => told e s.drained.memory c := by
  cases hentry : s.entry h with
  | error x =>
    cases c with
    | shape k | type k | copyOut k room length =>
      obtain rfl : k = h := hc
      exact Call.reply_of_error rfl (bind_error (viewOf_error hentry))
    | device k | storage k =>
      obtain rfl : k = h := hc
      exact Call.reply_of_error rfl (bind_error (query_error hentry))
    | _ => exact hc.elim
  | ok e =>
    cases c with
    | shape k | type k =>
      obtain rfl : k = h := hc
      exact Call.reply_of_ok rfl (bind_of_ok (viewOf_ok hentry))
    | device k | storage k =>
      obtain rfl : k = h := hc
      exact Call.reply_of_ok rfl (bind_of_ok (query_ok.2 ⟨hentry, rfl⟩))
    | copyOut k room length =>
      obtain rfl : k = h := hc
      have hcopy : copyOut k room length s = _ := hs.copyOut_ok hentry
      by_cases hroom : length ≠ e.view.size ∨ room ≠ length * e.view.type.bytes
      · rw [if_pos hroom] at hcopy
        exact (Call.reply_of_error rfl hcopy).trans (if_pos hroom).symm
      · rw [if_neg hroom] at hcopy
        exact (Call.reply_of_ok rfl hcopy).trans (if_neg hroom).symm
    | _ => exact hc.elim

theorem State.Orderly.free_apart (gpus : Nat) (hs : s.Orderly) {k : Handle} (hk : k ≠ h) :
    let t := (Call.free h).step (library gpus) s
    t.memory = s.memory ∧ t.queue = s.queue ∧ t.entry k = s.entry k ∧
      ∀ c : Call, inspects k c → c.reply (library gpus) t = c.reply (library gpus) s := by
  intro t
  have ht : t.Orderly := (defers_call gpus .asMarked (.free h)).keeps.after hs
  obtain ⟨marks, hafter⟩ := after_free h s
  have hstep : t = { s with
      freeCalls := s.freeCalls + 1
      entries := s.entries.erase h.id
      tape := { s.tape with marks } } := (after_map _ _ _).trans hafter
  have hentry : t.entry k = s.entry k := by
    rw [hstep]
    unfold State.entry
    rw [Table.get?_erase, if_neg (mt id_eq_iff.1 hk)]
  refine ⟨hstep ▸ rfl, hstep ▸ rfl, hentry, fun c hc => ?_⟩
  have hm : t.drained.memory = s.drained.memory := hstep ▸ rfl
  rw [reply_inspects gpus hc hs, reply_inspects gpus hc ht, hentry, hm]

end Looking

def issuedBy [HalfPrecision] (gpus : Nat) (cs : List Call) (s : State) : List Handle :=
  (Call.trace (library gpus) cs s).flatMap fun p => issued gpus p.2 p.1

def freedBy [HalfPrecision] (gpus : Nat) (cs : List Call) (s : State) : List Handle :=
  (Call.trace (library gpus) cs s).flatMap fun p => freed gpus p.2 p.1

theorem State.Counted.lives_run (cs : List Call) :
    ∀ {s : State}, s.Counted → s.Lives (issuedBy gpus cs s) (freedBy gpus cs s)
      (Call.run (library gpus) cs s) := by
  induction cs with
  | nil => exact fun _ => .refl _
  | cons c cs ih =>
    intro s hs
    exact (hs.lives_step c).trans hs (ih (hs.step c))

/-- The lives of handles over any calls, successful or not. The handles that were given out are
numbered from one on, each once. A handle is live if it was given out and has not been freed, and
none is freed twice; the rest of what was given out is what is live. Marked variables are live. Calls
that name a handle which is not live are refused, and to free a handle leaves every other as it is,
in all that can be asked of it. -/
theorem handles_consistent [HalfPrecision] (gpus : Nat) (cs : List Call) :
    let s := Call.run (library gpus) cs .initial
    let made := issuedBy gpus cs .initial
    let gone := freedBy gpus cs .initial
    made.map Handle.id = List.range' 1 s.created ∧
    (∀ h : Handle, (s.entries.get? h.id).isSome ↔ h ∈ made ∧ h ∉ gone) ∧
    gone.Nodup ∧ s.live + gone.length = s.created ∧
    (∀ h : Handle, (s.tape.marks.get? h.id).isSome → (s.entries.get? h.id).isSome) ∧
    (∀ c : Call, ∀ h ∈ names c, s.entries.get? h.id = none →
      ∃ e, c.reply (library gpus) s = .error e) ∧
    ∀ h k : Handle, k ≠ h →
      let t := (Call.free h).step (library gpus) s
      t.memory = s.memory ∧ t.queue = s.queue ∧ t.entry k = s.entry k ∧
        ∀ c : Call, inspects k c → c.reply (library gpus) t = c.reply (library gpus) s := by
  intro s made gone
  have hlives : State.Lives .initial made gone s := counted_initial.lives_run cs
  have hcreated : s.created = made.length := hlives.created.trans (Nat.zero_add _)
  have hkeys : ∀ {α : Type} (t : Table α) (k : Nat), (t.get? k).isSome ↔ k ∈ t.keys :=
    fun t k => by rw [Table.mem_keys_iff, Option.isSome_iff_exists]
  have hmarked : s.Marked := holds_run nofun (fun _ _ _ hs h => h.marked hs) gpus cs
  refine ⟨?_, fun h => ?_, hlives.once, ?_, fun h hh => ?_, fun c h hh hdead => ?_, fun h k hk => ?_⟩
  · rw [hlives.ids, hcreated]
    rfl
  · rw [hkeys, hlives.live_iff]
    have hnone : h.id ∉ State.initial.entries.keys := List.not_mem_nil
    simp only [hnone, false_or]
  · rw [hcreated, hlives.live]
    exact Nat.zero_add _
  · exact (hkeys _ _).2 (hmarked h.id ((hkeys _ _).1 hh))
  · exact refused_of_dead gpus hh hdead
  · exact (orderly_run orderly_initial).free_apart gpus hk

end Reference
end ScopedTensor
