import ScopedTensor.Element.Interchange
import ScopedTensor.Proofs.Ownership.Audit
import ScopedTensor.Proofs.Ownership.Runs

/-! Handles over a whole run: what is live in the engine is what held arrays own, and nothing is
left once the engine and all arrays have been dropped. -/

namespace ScopedTensor

open ScopedTensor.Action Session

section

variable {half : HalfPrecision}
variable {σ : Type} {R : Regime σ} {s : Session σ}

theorem Operation.shut_run {e : Engine σ} (he : R.admits e.loaded) {S : ScopeId}
    (hs : Sound R {} s) (hS : S ≤ s.lastId) (hshut : s.scopes.openAt S = false)
    (ops : List Operation) : (Operation.run e s ops).scopes.openAt S = false :=
  (Operation.sound_run (R := R.barring S) he (hs.barring hS hshut) ops).openAt_barred

theorem Operation.shut_of_dropEngine [HalfPrecision] {e : Engine σ} (he : R.admits e.loaded)
    (hsystem : e.system ≤ R.floor) (hs : Sound R {} s) {ops : List Operation}
    (hmem : Operation.dropEngine ∈ ops) :
    (Operation.run e s ops).scopes.openAt e.system = false := by
  induction ops generalizing s with
  | nil => exact absurd hmem (by simp)
  | cons op ops ih =>
    rcases List.mem_cons.1 hmem with rfl | hmem
    -- the root closes at this operation, and nothing opens it again
    · have hdropped := Operation.sound_step he hs .dropEngine
      have hshut : (Operation.step e s .dropEngine).scopes.openAt e.system = false := by
        exact ((meets_drop e).to_imp fun _ _ ht => ht.2).after hs
      exact Operation.shut_run he hdropped (Nat.le_trans hsystem hdropped.rooted.floor) hshut ops
    · exact ih (Operation.sound_step he hs op) hmem

theorem Session.Sound.all_shut (hs : Sound R {} s)
    (hroot : ∀ S, R.root S → s.scopes.openAt S = false) (S : Nat) : s.scopes.openAt S = false := by
  induction S using Nat.strongRecOn with
  | ind S ih =>
    cases hopen : s.scopes.openAt S with
    | false => rfl
    | true =>
      cases hp : s.scopes.parentAt S with
      | none =>
        have hclosed := hroot S (hs.rooted.root S (Table.mem_keys_of_openAt hopen) hp)
        exact absurd (hopen.symm.trans hclosed) nofun
      | some p =>
        have hpclosed := ih p (hs.numbered.parent_lt S p hp)
        exact absurd (hs.rooted.orphaned S p hopen hp hpclosed) (by simp)

/-- Without scopes and variables only gradients hold arrays, and a gradient is younger than what
holds it. -/
theorem Session.Sound.no_arrays (hs : Sound R {} s)
    (hroot : ∀ S, R.root S → s.scopes.openAt S = false) (hheld : s.arrayHolds = []) :
    s.arrays.keys = [] := by
  have hnone : ∀ id : Nat, id ∉ s.arrays.keys := by
    intro id
    induction id using Nat.strongRecOn with
    | ind id ih =>
      intro hid
      rcases hs.held rfl id hid with hv | ⟨S, hS⟩ | ⟨j, hj⟩
      · exact absurd (hheld ▸ hv) (by simp)
      · rw [hs.registered.shut S (hs.all_shut hroot S) nofun] at hS
        exact absurd hS (by simp)
      · have hlt := hs.numbered.gradient_gt j id hj
        obtain ⟨a, ha, -⟩ := Option.bind_eq_some_iff.1 hj
        exact ih j hlt ((Table.mem_keys_iff _ _).2 ⟨a, ha⟩)
  exact List.eq_nil_iff_forall_not_mem.2 hnone

def Regime.single (account : σ → List Handle → Prop)
    (perm : ∀ n owned owned', owned.Perm owned' → account n owned → account n owned') (floor : Nat) :
    Regime σ where
  account := account
  admits e := e.library.Accounted account
  barred _ := False
  root S := S = 2
  floor := floor
  perm := perm _ _ _
  accounted h := h

section Single

variable {account : σ → List Handle → Prop}
variable (perm : ∀ n owned owned', owned.Perm owned' → account n owned → account n owned')
variable {library : Library σ} {c : Configuration} {device : Device} {n : σ} {e : Engine σ}
variable {s₀ : Session σ}

theorem sound_built (hlib : library.Accounted account) (hn : account n [])
    (hbuild : Engine.build library c device (.start n) = .ok e s₀) :
    e.system = 2 ∧ e.loaded.library.Accounted account ∧ Sound (.single account perm 2) {} s₀ := by
  have hstart : Sound (.single account perm 0) {} (.start n) := sound_start hn (fun _ h => h) rfl
  have hadmits : ∀ e : LoadedEngine σ, e.library = library →
      (Regime.single account perm 0).admits e := by
    rintro e rfl
    exact hlib
  have := meets_build (R := .single account perm 0) hlib hadmits c device (n := 0) rfl (.start n)
    ⟨hstart, rfl⟩
  rw [hbuild] at this
  obtain ⟨⟨hsystem, hlast, hlibrary⟩, hs⟩ := this
  exact ⟨hsystem, hlibrary ▸ hlib, hs.above (Nat.le_of_eq hlast.symm)⟩

theorem sound_program (hlib : library.Accounted account) (hn : account n [])
    (hbuild : Engine.build library c device (.start n) = .ok e s₀) (ops : List Operation) :
    Sound (.single account perm 2) {} (Operation.run e s₀ ops) := by
  obtain ⟨-, he, hs⟩ := sound_built perm hlib hn hbuild
  exact Operation.sound_run he hs ops

include perm in
theorem handles_of_dropped (hlib : library.Accounted account) (hn : account n [])
    (hbuild : Engine.build library c device (.start n) = .ok e s₀) {ops : List Operation}
    (hdrop : Operation.dropEngine ∈ ops) (hheld : (Operation.run e s₀ ops).arrayHolds = []) :
    (Operation.run e s₀ ops).arrays.handles = [] := by
  obtain ⟨hsystem, he, hs⟩ := sound_built perm hlib hn hbuild
  have hshut := Operation.shut_of_dropEngine he (Nat.le_of_eq hsystem) hs hdrop
  have hempty := (Operation.sound_run he hs ops).no_arrays
    (fun S hS => (show S = 2 from hS) ▸ hsystem ▸ hshut) hheld
  unfold Table.handles
  rw [List.map_eq_nil_iff.1 hempty]
  rfl

end Single

/-- What is live in the engine is what held arrays that are not released own, each handle by one
array, and every call of `free` so far has ended a live handle. -/
structure HandlesKept (engine : Reference.State) (s : Session σ) : Prop where
  live_iff : ∀ h : Handle, h.id ∈ engine.entries.keys ↔ ∃ id a, s.arrays.get? id = some a ∧
    a.owned = ⟨h⟩ ∧ a.owned.isReleased = false ∧ s.isHeld id = true
  owner_unique : ∀ id id' a a', s.arrays.get? id = some a → s.arrays.get? id' = some a' →
    a.owned.isReleased = false → a.owned = a'.owned → id = id'
  counted : engine.freeCalls + engine.live = engine.created

theorem mem_handles {arrays : Table (Tensor σ)} (hdistinct : arrays.keys.Nodup) {h : Handle} :
    h ∈ arrays.handles ↔
      ∃ id a, arrays.get? id = some a ∧ a.owned = ⟨h⟩ ∧ a.owned.isReleased = false := by
  unfold Table.handles
  rw [List.mem_filter, List.mem_map]
  constructor
  · rintro ⟨⟨e, he, rfl⟩, hnull⟩
    exact ⟨e.1, e.2, Table.get?_eq_some_of_mem hdistinct he, rfl, by
      simpa [OwnedHandle.isReleased] using hnull⟩
  · rintro ⟨id, a, ha, howned, hreleased⟩
    refine ⟨⟨(id, a), Table.mem_of_get?_eq_some ha, by rw [howned]⟩, ?_⟩
    rw [howned] at hreleased
    simpa [OwnedHandle.isReleased] using hreleased

theorem owner_unique_of_nodup {arrays : Table (Tensor σ)} (honce : arrays.handles.Nodup)
    {id id' : ArrayId} {a a' : Tensor σ} (ha : arrays.get? id = some a)
    (ha' : arrays.get? id' = some a') (hreleased : a.owned.isReleased = false)
    (howned : a.owned = a'.owned) : id = id' := by
  have hmem := Table.mem_of_get?_eq_some ha
  have hmem' := Table.mem_of_get?_eq_some ha'
  have hhandle : a.owned.handle = a'.owned.handle := congrArg OwnedHandle.handle howned
  have hnull : a.owned.handle.isNull = false := hreleased
  unfold Table.handles at honce
  obtain ⟨entries⟩ := arrays
  simp only at honce hmem hmem'
  clear ha ha' howned hreleased
  induction entries with
  | nil => exact absurd hmem (by simp)
  | cons e es ih =>
    have hin : ∀ {i : Nat} {b : Tensor σ}, (i, b) ∈ es → b.owned.handle.isNull = false →
        b.owned.handle ∈ (es.map fun e => e.2.owned.handle).filter fun h => !h.isNull :=
      fun hb hn => List.mem_filter.2 ⟨List.mem_map.2 ⟨_, hb, rfl⟩, by simp [hn]⟩
    rw [List.map_cons, List.filter_cons] at honce
    rcases List.mem_cons.1 hmem with rfl | hlater
    · rcases List.mem_cons.1 hmem' with heq | hlater'
      · exact (congrArg Prod.fst heq).symm
      · rw [if_pos (by simp [hnull])] at honce
        exact absurd (hhandle ▸ hin hlater' (hhandle ▸ hnull)) (List.nodup_cons.1 honce).1
    · rcases List.mem_cons.1 hmem' with rfl | hlater'
      · rw [if_pos (by simp [← hhandle, hnull])] at honce
        exact absurd (hhandle ▸ hin hlater hnull) (List.nodup_cons.1 honce).1
      · refine ih ?_ hlater hlater'
        split at honce
        · exact (List.nodup_cons.1 honce).2
        · exact honce

theorem handlesKept_of_ledger {spent : List Handle} {engine : Reference.State} {s : Session σ}
    {R : Regime σ} (hs : Sound R {} s) (hledger : Reference.Ledger spent engine s.arrays.handles) :
    HandlesKept engine s where
  live_iff h := by
    rw [hledger.live_iff, mem_handles hs.numbered.arraysDistinct]
    constructor
    · rintro ⟨id, a, ha, howned, hreleased⟩
      have hid : id ∈ s.arrays.keys := (Table.mem_keys_iff _ _).2 ⟨a, ha⟩
      exact ⟨id, a, ha, howned, hreleased, (isHeld_iff hs.numbered id).2 (hs.held rfl id hid)⟩
    · rintro ⟨id, a, ha, howned, hreleased, -⟩
      exact ⟨id, a, ha, howned, hreleased⟩
  owner_unique _ _ _ _ ha ha' := owner_unique_of_nodup hledger.once ha ha'
  counted := hledger.counted

theorem Reference.Ledger.nothing_live {spent : List Handle} {engine : Reference.State}
    (h : Reference.Ledger spent engine []) :
    engine.live = 0 ∧ engine.freeCalls = engine.created := by
  have hlive : engine.live = 0 := h.live_eq
  exact ⟨hlive, by rw [← h.counted, hlive, Nat.add_zero]⟩

/-- At every point of every run the live handles are those that held arrays own; no handle is freed
twice or when it is not live; and when the engine and every array variable have been dropped, no
handle is left. The run beside it is on the same engine with a record of the calls of `free`. -/
theorem reference_handles_kept [HalfPrecision] (gpus : Nat) (c : Configuration) (device : Device)
    {e : Engine Reference.State} {s₀ : Session Reference.State}
    {e' : Engine (Audited Reference.State)} {s₀' : Session (Audited Reference.State)}
    (hbuild : Engine.build (Reference.library gpus) c device (.start .initial) = .ok e s₀)
    (haudited : Engine.build (Reference.library gpus).audited c device (.start ⟨.initial, []⟩) =
      .ok e' s₀') (ops : List Operation) :
    let s := Operation.run e s₀ ops
    let s' := Operation.run e' s₀' ops
    HandlesKept s.native s ∧ HandlesKept s'.native.native s' ∧
      ((∀ f ∈ s'.native.frees, f.2 = true) ∧ s'.native.freed.Nodup) ∧
      (Operation.dropEngine ∈ ops → s.arrayHolds = [] →
        s.native.live = 0 ∧ s.native.freeCalls = s.native.created) ∧
      (Operation.dropEngine ∈ ops → s'.arrayHolds = [] →
        s'.native.native.live = 0 ∧ s'.native.native.freeCalls = s'.native.native.created) := by
  intro s s'
  have hlib : (Reference.library gpus).Accounted (Reference.Ledger []) := Reference.accounted gpus
  have hlib' := Reference.audited_accounted gpus
  have hperm : ∀ n owned owned', List.Perm owned owned' → Reference.Ledger [] n owned →
      Reference.Ledger [] n owned' := fun _ _ _ hp h => h.perm hp
  have hperm' : ∀ n owned owned', List.Perm owned owned' → Audit Reference.Ledger n owned →
      Audit Reference.Ledger n owned' := fun _ _ _ hp h => h.perm (fun hp h => h.perm hp) hp
  have hinitial' : Audit Reference.Ledger (⟨.initial, []⟩ : Audited Reference.State) [] :=
    ⟨fun f hf => absurd hf (by simp), List.nodup_nil, Reference.ledger_initial⟩
  -- One engine under two accounts: its own ledger, and the ledger beside the record of what was
  -- freed.
  have hs : Sound _ {} s := sound_program hperm hlib Reference.ledger_initial hbuild ops
  have hs' : Sound _ {} s' := sound_program hperm' hlib' hinitial' haudited ops
  have hledger : Reference.Ledger [] s.native s.arrays.handles := hs.account
  have haudit : Audit Reference.Ledger s'.native s'.arrays.handles := hs'.account
  refine ⟨handlesKept_of_ledger hs hledger, handlesKept_of_ledger hs' haudit.account,
    ⟨haudit.taken, haudit.once⟩, fun hdrop hheld => ?_, fun hdrop hheld => ?_⟩
  · rw [handles_of_dropped hperm hlib Reference.ledger_initial hbuild hdrop hheld] at hledger
    exact hledger.nothing_live
  · have haccount := haudit.account
    rw [handles_of_dropped hperm' hlib' hinitial' haudited hdrop hheld] at haccount
    exact haccount.nothing_live

end

open Interchange

/-- An array and a view of it, the engine dropped before the variables that hold them. -/
theorem reference_handles_kept_dropped :
    let ops : List Operation := [.baseScope none, .filled "_zeros" 3 ⟨[2]⟩ .f32, .row 4 0,
      .dropEngine, .dropArray 4, .dropArray 5]
    ∃ e s₀ e' s₀', Engine.build (Reference.library 0) .standard .cpu (.start .initial) = .ok e s₀ ∧
      Engine.build (Reference.library 0).audited .standard .cpu (.start ⟨.initial, []⟩) =
        .ok e' s₀' ∧
      (Operation.run e' s₀' ops).native.frees = [(⟨2⟩, true), (⟨1⟩, true)] ∧
      (Operation.run e s₀ ops).native.live = 0 ∧
      (Operation.run e s₀ ops).native.freeCalls = (Operation.run e s₀ ops).native.created := by
  intro ops
  have hrun : (match Engine.build (Reference.library 0) .standard .cpu (.start .initial) with
      | .ok e s₀ => (Operation.run e s₀ ops).arrayHolds.isEmpty
      | .error _ _ => false) = true := by decide +kernel
  have hfrees : (match Engine.build (Reference.library 0).audited .standard .cpu
        (.start ⟨.initial, []⟩) with
      | .ok e s₀ => decide ((Operation.run e s₀ ops).native.frees = [(⟨2⟩, true), (⟨1⟩, true)])
      | .error _ _ => false) = true := by decide +kernel
  cases hbuild : Engine.build (Reference.library 0) .standard .cpu (.start .initial) with
  | error x s => rw [hbuild] at hrun; exact absurd hrun nofun
  | ok e s₀ =>
    cases haudited : Engine.build (Reference.library 0).audited .standard .cpu
        (.start ⟨.initial, []⟩) with
    | error x s => rw [haudited] at hfrees; exact absurd hfrees nofun
    | ok e' s₀' =>
      rw [hbuild] at hrun
      rw [haudited] at hfrees
      have hkept := reference_handles_kept 0 .standard .cpu hbuild haudited ops
      have hdropped := hkept.2.2.2.1 (by simp [ops]) (List.isEmpty_iff.1 hrun)
      exact ⟨e, s₀, e', s₀', rfl, rfl, of_decide_eq_true hfrees, hdropped⟩

end ScopedTensor
