import ScopedTensor.Proofs.Calls
import ScopedTensor.Proofs.Ownership.Account

/-! The account of the reference engine: what is owned is what is live, handles that were freed
never come back, and every call of `free` has ended one handle. -/

namespace ScopedTensor.Reference

open ScopedTensor.Action

variable {half : HalfPrecision}
variable {α : Type} {spent owned : List Handle} {s : State}

/-- Live handles have different numbers, and were given out. -/
structure State.Counted (s : State) : Prop where
  distinct : s.entries.keys.Nodup
  le : ∀ id ∈ s.entries.keys, id ≤ s.lastId

theorem State.Counted.fresh (hs : s.Counted) : s.entries.get? (s.lastId + 1) = none := by
  rw [← Table.not_mem_keys_iff]
  exact fun hmem => Nat.not_succ_le_self _ (hs.le _ hmem)

theorem State.Counted.insert (hs : s.Counted) (e : Entry) : (s.insert e).2.Counted where
  distinct := Table.nodup_insert hs.distinct e
  le id hid := by
    rcases Table.mem_keys_insert.1 hid with hid | rfl
    · exact Nat.le_succ_of_le (hs.le id hid)
    · exact Nat.le_refl _

/-- What is owned is live, and what is spent will never be live again. -/
structure Ledger (spent : List Handle) (s : State) (owned : List Handle) : Prop where
  distinct : s.entries.keys.Nodup
  numbered : ∀ id ∈ s.entries.keys, 0 < id ∧ id ≤ s.lastId
  once : owned.Nodup
  live_iff : ∀ h : Handle, h.id ∈ s.entries.keys ↔ h ∈ owned
  spent : ∀ h ∈ spent, h.id ∉ s.entries.keys ∧ h.id ≤ s.lastId
  counted : s.freeCalls + s.live = s.created

theorem ledger_initial : Ledger [] .initial [] where
  distinct := List.nodup_nil
  numbered _ h := absurd h (by simp [State.initial, Table.keys, Table.empty])
  once := List.nodup_nil
  live_iff h := by simp [State.initial, Table.keys, Table.empty]
  spent _ h := absurd h (by simp)
  counted := rfl

theorem Ledger.perm {owned' : List Handle} (hperm : owned.Perm owned') (h : Ledger spent s owned) :
    Ledger spent s owned' :=
  { h with
    once := hperm.nodup_iff.1 h.once
    live_iff := fun x => (h.live_iff x).trans hperm.mem_iff }

theorem Ledger.live_eq (h : Ledger spent s owned) : s.live = owned.length := by
  have hperm : (s.entries.keys.map Handle.mk).Perm owned := by
    refine (List.perm_ext_iff_of_nodup ?_ h.once).2 fun x => ?_
    · exact List.Pairwise.map _ (fun a b hne hab => hne (congrArg Handle.id hab)) h.distinct
    · rw [← h.live_iff, List.mem_map]
      exact ⟨fun ⟨id, hid, hx⟩ => hx ▸ hid, fun hx => ⟨x.id, hx, rfl⟩⟩
  rw [← hperm.length_eq, List.length_map, Table.length_keys]
  rfl

def books (s : State) : Table Entry × Nat × Nat × Nat := (s.entries, s.lastId, s.created, s.freeCalls)

theorem Ledger.of_books {s' : State} (h : Ledger spent s owned) (hbooks : books s' = books s) :
    Ledger spent s' owned := by
  obtain ⟨lastId, entries, _, _, _, created, freeCalls, _, _, _⟩ := s
  obtain ⟨lastId', entries', _, _, _, created', freeCalls', _, _, _⟩ := s'
  simp only [books, Prod.mk.injEq] at hbooks
  obtain ⟨rfl, rfl, rfl, rfl⟩ := hbooks
  exact ⟨h.distinct, h.numbered, h.once, h.live_iff, h.spent, h.counted⟩

/-- An account that the engine's own steps with handles keep. -/
structure Bookkept (acc : State → List Handle → Prop) : Prop where
  perm : ∀ {s owned owned'}, owned.Perm owned' → acc s owned → acc s owned'
  of_books : ∀ {s s' owned}, acc s owned → books s' = books s → acc s' owned
  insert : ∀ {s owned} (e : Entry), acc s owned → acc (s.insert e).2 ((s.insert e).1 :: owned)
  free : ∀ h owned, Meets (acc · (h :: owned)) (free h) (fun _ => (acc · owned)) (acc · owned)

variable {acc : State → List Handle → Prop}

theorem Bookkept.undisturbed (hacc : Bookkept acc) {a : Action State α}
    (ha : ∀ k, Keeps (fun s => books s = k) a) : Undisturbed acc a := by
  intro owned s hs
  have := ha (books s) s rfl
  cases hr : a s with
  | ok x s' => rw [hr] at this; exact hacc.of_books hs this
  | error e s' => rw [hr] at this; exact hacc.of_books hs this

theorem keeps_query {I : State → Prop} (f : State → Except Error α) : Keeps I (Action.query f) :=
  .query (fun _ hs _ _ => hs) fun _ hs => hs

theorem keeps_entryOf {I : State → Prop} (h : Handle) : Keeps I (entryOf h) := keeps_query _

theorem keeps_viewOf {I : State → Prop} (h : Handle) : Keeps I (viewOf h) :=
  (keeps_entryOf h).bind fun _ => .pure fun _ hs => hs

section Books

variable {k : Table Entry × Nat × Nat × Nat}

theorem keeps_drain : Keeps (fun s => books s = k) State.drain := by
  intro s hs
  unfold State.drain
  cases (State.runAll s.queue s.memory).2 <;> exact hs

theorem keeps_copyIn (h : Handle) (bytes : Bytes) (length : Nat) :
    Keeps (fun s => books s = k) (copyIn h bytes length) :=
  (keeps_viewOf h).bind fun _ => .guard (fun _ hs => hs) fun _ => keeps_drain.bind fun _ =>
    .modify fun _ hs => hs

theorem keeps_copyOut (h : Handle) (room length : Nat) :
    Keeps (fun s => books s = k) (copyOut h room length) := by
  refine (keeps_viewOf h).bind fun _ => .guard (fun _ hs => hs) fun _ => keeps_drain.bind fun _ => ?_
  exact .get_bind fun t ht => .done ht

theorem keeps_wait (h : Handle) : Keeps (fun s => books s = k) (wait h) :=
  (keeps_entryOf h).bind fun _ => .modify_bind (fun _ hs => hs) keeps_drain

theorem keeps_waitAll : Keeps (fun s => books s = k) waitAll :=
  .modify_bind (fun _ hs => hs) keeps_drain

theorem keeps_markOne (var : Handle) (request : GradRequest) (grad : Handle) :
    Keeps (fun s => books s = k) (markOne var request grad) := by
  refine (markOne_does var request grad).meets (fun s hs x t ht => ?_) fun _ hs => hs
  obtain ⟨v, g, -, -, -, rfl⟩ := ht
  exact hs

theorem keeps_markVariables (vars : List Handle) (requests : List GradRequest)
    (grads : List Handle) : Keeps (fun s => books s = k) (markVariables vars requests grads) :=
  .ite (fun _ => .throw fun _ hs => hs) fun _ => Keeps.forM (fun _ => keeps_markOne _ _ _) _

theorem keeps_backward (order : MarkOrder) (heads : List Handle) (grads : List (Option Handle))
    (retain : Bool) : Keeps (fun s => books s = k) (backward order heads grads retain) := by
  refine keeps_drain.bind fun _ => (keeps_query _).bind fun seeds => ?_
  refine .get_bind fun t ht => .modify_bind (I := fun s => books s = k)
    (fun s hs => by rw [hs]; exact ht) ?_
  refine .transition (fun s hs y s' hr => ?_) fun _ hs => hs
  obtain ⟨m, -, hr⟩ := bind_eq_ok.1 hr
  obtain ⟨-, rfl⟩ := Prod.mk.inj (pure_eq_ok.1 hr)
  exact hs

end Books

theorem Bookkept.allocateAll (hacc : Bookkept acc) (device : Device) (sigs : List Signature)
    (h : acc s owned) :
    (∀ x ∈ (State.allocateAll device sigs s).1.map Prod.fst, x.isNull = false) ∧
      acc (State.allocateAll device sigs s).2
        ((State.allocateAll device sigs s).1.map Prod.fst ++ owned) := by
  induction sigs generalizing s owned with
  | nil => exact ⟨by simp [State.allocateAll], h⟩
  | cons sig sigs ih =>
    have hmemory : acc { s with memory := (s.memory.allocate sig.shape sig.type).2 } owned :=
      hacc.of_books h rfl
    have hinserted := hacc.insert ⟨(s.memory.allocate sig.shape sig.type).1, device, .dense⟩ hmemory
    obtain ⟨hnulls, hrest⟩ := ih hinserted
    unfold State.allocateAll
    refine ⟨fun x hx => ?_, hacc.perm List.perm_middle hrest⟩
    rcases List.mem_cons.1 hx with rfl | hx
    · rfl
    · exact hnulls x hx

theorem Bookkept.create (hacc : Bookkept acc) (gpus : Nat) (device : Device) (shape : Shape)
    (type : ElementType) (storage : Storage) :
    Issues acc (create gpus device shape type storage) fun h => [h] := by
  intro owned
  refine (create_does device shape type storage).meets (fun s hs h t ht => ?_) fun _ hs => hs
  obtain ⟨rfl, rfl⟩ := Prod.mk.inj ht
  have hmemory : acc { s with memory := (s.memory.allocate shape type).2 } owned :=
    hacc.of_books hs rfl
  have hinserted := hacc.insert ⟨(s.memory.allocate shape type).1, device, storage⟩ hmemory
  exact ⟨fun x hx => List.mem_singleton.1 hx ▸ rfl, hinserted⟩

theorem Bookkept.derive (hacc : Bookkept acc) (h : Handle) (f : View → Except Error View) :
    Issues acc (derive h f) fun v => [v] := by
  intro owned
  refine (derive_does h f).meets (fun s hs v t ht => ?_) fun _ hs => hs
  obtain ⟨e, view, -, -, ht⟩ := ht
  have hnull : (s.insert { e with view := view }).1.isNull = false := rfl
  have hinserted := hacc.insert { e with view := view } hs
  rw [ht] at hnull hinserted
  exact ⟨fun x hx => List.mem_singleton.1 hx ▸ hnull, hinserted⟩

theorem Bookkept.getGrad (hacc : Bookkept acc) (h : Handle) :
    Issues acc (getGrad h) Option.toList := by
  intro owned
  refine (getGrad_does h).meets (fun s hs g t ht => ?_) fun _ hs => hs
  rcases ht with ⟨e, -, ⟨rfl, rfl⟩ | ⟨m, -, ht⟩⟩
  · exact ⟨by simp, hs⟩
  · obtain ⟨rfl, rfl⟩ := Prod.mk.inj ht
    exact ⟨fun x hx => List.mem_singleton.1 hx ▸ rfl, hacc.insert ⟨m.gradient, e.device, .dense⟩ hs⟩

theorem Bookkept.invoke [HalfPrecision] (hacc : Bookkept acc) (gpus : Nat) (op : OpHandle)
    (inputs : List Handle) (params : Params) :
    Issues acc (invoke .deferred gpus op inputs none params) id := by
  intro owned
  refine Meets.bind (Q := fun hs s => (∀ h ∈ hs, h.isNull = false) ∧ acc s (hs ++ owned))
    ?_ fun hs => .pure fun _ h => h
  refine .transition (fun s hs out s' hr => ?_) fun _ hs => hs
  obtain ⟨op, -, hr⟩ := bind_eq_ok.1 hr
  obtain ⟨⟨hs', task, t⟩, hsubmit, hr⟩ := bind_eq_ok.1 hr
  obtain ⟨rfl, rfl⟩ := Prod.mk.inj (pure_eq_ok.1 hr)
  obtain ⟨entries, inferred, outs, u, -, -, hout, rfl, rfl, rfl⟩ := submit_eq_ok hsubmit
  obtain ⟨hnull, hissued⟩ := hacc.allocateAll (outputDevice entries params) inferred hs
  rw [outputsOf_none_ok hout] at hnull hissued
  exact ⟨hnull, hacc.of_books hissued rfl⟩

theorem Bookkept.invokeInto [HalfPrecision] (hacc : Bookkept acc) (gpus : Nat) (op : OpHandle)
    (inputs outputs : List Handle) (params : Params) :
    Undisturbed acc (Reference.invoke .deferred gpus op inputs (some outputs) params) := by
  refine hacc.undisturbed fun k => Meets.bind (Q := fun _ s => books s = k) ?_
    fun hs => .pure fun _ h => h
  refine .transition (fun s hs out s' hr => ?_) fun _ hs => hs
  obtain ⟨op, -, hr⟩ := bind_eq_ok.1 hr
  obtain ⟨⟨hs', task, t⟩, hsubmit, hr⟩ := bind_eq_ok.1 hr
  obtain ⟨rfl, rfl⟩ := Prod.mk.inj (pure_eq_ok.1 hr)
  obtain ⟨entries, inferred, outs, u, -, -, hout, rfl, rfl, rfl⟩ := submit_eq_ok hsubmit
  obtain ⟨-, rfl⟩ := outputsOf_some_ok hout
  exact hs

theorem Bookkept.accounted [HalfPrecision] (hacc : Bookkept acc) (gpus : Nat) :
    (library gpus).Accounted acc where
  version _ := .pure fun _ hs => hs
  gpuCount _ := .pure fun _ hs => hs
  listOps _ := .pure fun _ hs => hs
  getOp _ _ := keeps_ofExcept _
  create d s t st _ := hacc.create gpus d s t st
  free h owned _ := hacc.free h owned
  shape h _ := (keeps_viewOf h).bind fun _ => .pure fun _ hs => hs
  type h _ := (keeps_viewOf h).bind fun _ => .pure fun _ hs => hs
  device h _ := (keeps_entryOf h).bind fun _ => .pure fun _ hs => hs
  storage h _ := (keeps_entryOf h).bind fun _ => .pure fun _ hs => hs
  copyIn h bytes n := hacc.undisturbed fun _ => keeps_copyIn h bytes n
  copyOut h room n := hacc.undisturbed fun _ => keeps_copyOut h room n
  waitToRead h := hacc.undisturbed fun _ => keeps_wait h
  waitToWrite h := hacc.undisturbed fun _ => keeps_wait h
  waitAll := hacc.undisturbed fun _ => keeps_waitAll
  invoke := hacc.invoke gpus
  invokeInto := hacc.invokeInto gpus
  row h i := hacc.derive h (rowOf i)
  slice h first last := hacc.derive h (sliceOf first last)
  reshape h target _ := hacc.derive h (reshapeOf target)
  markVariables vars requests grads :=
    hacc.undisturbed fun _ => keeps_markVariables vars requests grads
  backward heads grads retain _ := hacc.undisturbed fun _ => keeps_backward _ heads grads retain
  getGrad := hacc.getGrad
  setRecording _ := hacc.undisturbed fun _ _ hs => hs
  setTraining _ := hacc.undisturbed fun _ _ hs => hs
  randomSeed _ := hacc.undisturbed fun _ => .modify fun _ hs => hs

theorem neverNull (gpus : Nat) : (library gpus).NeverNull := by
  refine Bookkept.accounted ?_ gpus
  exact ⟨fun _ h => h, fun h _ => h, fun _ h => h, fun h owned s hs => by
    cases free h s <;> trivial⟩

theorem id_eq_iff {x h : Handle} : x.id = h.id ↔ x = h := by
  constructor
  · intro hid
    obtain ⟨i⟩ := x
    obtain ⟨j⟩ := h
    exact congrArg Handle.mk hid
  · exact congrArg Handle.id

theorem Ledger.insert (h : Ledger spent s owned) (e : Entry) :
    Ledger spent (s.insert e).2 ((s.insert e).1 :: owned) := by
  -- Numbers are given out once, so no entry, owned handle or spent handle has the next one.
  have hnew : s.lastId + 1 ∉ s.entries.keys := fun hid => by
    have := (h.numbered _ hid).2
    omega
  have hkeys := Table.keys_insert_of_none e ((Table.not_mem_keys_iff _ _).1 hnew)
  unfold State.insert
  constructor
  case distinct => exact Table.nodup_insert h.distinct e
  case numbered =>
    intro id hid
    rcases Table.mem_keys_insert.1 hid with hid | rfl
    · have := h.numbered id hid
      exact ⟨this.1, Nat.le_succ_of_le this.2⟩
    · exact ⟨Nat.succ_pos _, Nat.le_refl _⟩
  case once => exact List.nodup_cons.2 ⟨fun hmem => hnew ((h.live_iff _).2 hmem), h.once⟩
  case live_iff =>
    intro x
    have hx : x.id = s.lastId + 1 ↔ x = ⟨s.lastId + 1⟩ := id_eq_iff (h := ⟨s.lastId + 1⟩)
    rw [hkeys, List.mem_append, List.mem_singleton, h.live_iff, hx, List.mem_cons]
    exact Or.comm
  case spent =>
    intro x hx
    obtain ⟨hlive, hle⟩ := h.spent x hx
    rw [hkeys, List.mem_append, List.mem_singleton]
    refine ⟨?_, Nat.le_succ_of_le hle⟩
    rintro (hmem | hid)
    · exact hlive hmem
    · omega
  case counted =>
    have hsize : (s.entries.insert (s.lastId + 1) e).size = s.entries.size + 1 := by
      rw [← Table.length_keys, hkeys, List.length_append, Table.length_keys]
      rfl
    show s.freeCalls + (s.entries.insert (s.lastId + 1) e).size = s.created + 1
    rw [hsize, ← h.counted]
    rfl

theorem Ledger.free {h : Handle} (hs : Ledger spent s (h :: owned)) :
    ∃ s', free h s = .ok () s' ∧ Ledger (h :: spent) s' owned := by
  have hid : h.id ∈ s.entries.keys := (hs.live_iff h).2 List.mem_cons_self
  obtain ⟨e, he⟩ := (Table.mem_keys_iff _ _).1 hid
  obtain ⟨hnew, honce⟩ := List.nodup_cons.1 hs.once
  refine ⟨{ s with
    freeCalls := s.freeCalls + 1
    entries := s.entries.erase h.id
    tape := s.tape.unmark h.id }, by simp [Reference.free, he], ?_⟩
  constructor
  case distinct =>
    rw [Table.keys_erase]
    exact hs.distinct.filter _
  case numbered => exact fun id hid => hs.numbered id (Table.mem_keys_erase.1 hid).1
  case once => exact honce
  case live_iff =>
    intro x
    have hx : x.id ≠ h.id ↔ x ≠ h := not_congr id_eq_iff
    rw [Table.mem_keys_erase, hs.live_iff, hx, List.mem_cons]
    constructor
    · rintro ⟨rfl | hmem, hne⟩
      · exact absurd rfl hne
      · exact hmem
    · intro hmem
      refine ⟨.inr hmem, ?_⟩
      rintro rfl
      exact hnew hmem
  case spent =>
    intro x hx
    rw [Table.mem_keys_erase]
    rcases List.mem_cons.1 hx with rfl | hx
    · exact ⟨fun hmem => hmem.2 rfl, (hs.numbered _ hid).2⟩
    · exact ⟨fun hmem => (hs.spent x hx).1 hmem.1, (hs.spent x hx).2⟩
  case counted =>
    have hsize := Table.size_erase hs.distinct hid
    have hcounted := hs.counted
    unfold State.live at hcounted
    show s.freeCalls + 1 + (s.entries.erase h.id).size = s.created
    omega

theorem Ledger.fewer {more : List Handle} (h : Ledger more s owned) (hsub : spent ⊆ more) :
    Ledger spent s owned := { h with spent := fun x hx => h.spent x (hsub hx) }

theorem bookkept_ledger : Bookkept (Ledger spent) where
  perm hperm h := h.perm hperm
  of_books h hbooks := h.of_books hbooks
  insert e h := h.insert e
  free h owned s hs := by
    obtain ⟨s', hfree, hledger⟩ := hs.free
    rw [hfree]
    exact hledger.fewer (List.subset_cons_self _ _)

theorem accounted [HalfPrecision] (gpus : Nat) : (library gpus).Accounted (Ledger spent) :=
  bookkept_ledger.accounted gpus

end ScopedTensor.Reference
