import ScopedTensor.Library.Restricted
import ScopedTensor.Proofs.Adjoint.Recording
import ScopedTensor.Proofs.Deferral.Runs
import ScopedTensor.Proofs.Ownership.Failures
import ScopedTensor.Proofs.Ownership.Ledger

/-! The reference engine, and engines in front of it that leave out optional calls: they may be relied
on, whatever they leave out. -/

namespace ScopedTensor

open ScopedTensor.Action

variable {half : HalfPrecision}

section General

variable {σ α : Type} {account : σ → List Handle → Prop} {I : σ → Prop} {lib : Library σ}

theorem Undisturbed.and {a : Action σ α} (h : Undisturbed account a) (hI : Keeps I a) :
    Undisturbed (fun n owned => account n owned ∧ I n) a := by
  intro owned s hs
  have hkept := h owned s hs.1
  have hinv := hI s hs.2
  cases hr : a s with
  | ok x t => rw [hr] at hkept hinv; exact ⟨hkept, hinv⟩
  | error e t => rw [hr] at hkept hinv; exact ⟨hkept, hinv⟩

theorem Issues.and {a : Action σ α} {issued : α → List Handle} (h : Issues account a issued)
    (hI : Keeps I a) : Issues (fun n owned => account n owned ∧ I n) a issued := by
  intro owned s hs
  have hissued := h owned s hs.1
  have hinv := hI s hs.2
  cases hr : a s with
  | ok x t => rw [hr] at hissued hinv; exact ⟨hissued.1, hissued.2, hinv⟩
  | error e t => rw [hr] at hissued hinv; exact ⟨hissued, hinv⟩

open Library in
theorem Library.Accounted.and (h : lib.Accounted account)
    (hI : ∀ c : Call, Keeps I (c.perform lib)) :
    lib.Accounted fun n owned => account n owned ∧ I n where
  version := h.version.and (hI .version).of_map
  gpuCount := h.gpuCount.and (hI .gpuCount).of_map
  listOps := h.listOps.and (hI .listOps).of_map
  getOp name := (h.getOp name).and (hI (.getOp name)).of_map
  create d s t st delayed := (h.create d s t st delayed).and (hI (.create d s t st delayed)).of_map
  free x owned hnull := by
    intro s hs
    have hfreed := h.free x owned hnull s hs.1
    have hinv := (hI (.free x)).of_map s hs.2
    cases hr : lib.free x s with
    | ok y t => rw [hr] at hfreed hinv; exact ⟨hfreed, hinv⟩
    | error e t => rw [hr] at hfreed hinv; exact ⟨hfreed, hinv⟩
  shape x := (h.shape x).and (hI (.shape x)).of_map
  type x := (h.type x).and (hI (.type x)).of_map
  device x := (h.device x).and (hI (.device x)).of_map
  storage x := (h.storage x).and (hI (.storage x)).of_map
  copyIn x bytes n := (h.copyIn x bytes n).and (hI (.copyIn x bytes n)).of_map
  copyOut x room n := (h.copyOut x room n).and (hI (.copyOut x room n)).of_map
  waitToRead x := (h.waitToRead x).and (hI (.waitToRead x)).of_map
  waitToWrite x := (h.waitToWrite x).and (hI (.waitToWrite x)).of_map
  waitAll := h.waitAll.and (hI .waitAll).of_map
  invoke op xs p := (h.invoke op xs p).and (hI (.invoke op xs none p)).of_map
  invokeInto op xs ys p := (h.invokeInto op xs ys p).and (hI (.invoke op xs (some ys) p)).of_map
  row x i := (h.row x i).and (hI (.row x i)).of_map
  slice x first last := (h.slice x first last).and (hI (.slice x first last)).of_map
  reshape x dims r := (h.reshape x dims r).and (hI (.reshape x dims r)).of_map
  markVariables vs rs gs := (h.markVariables vs rs gs).and (hI (.markVariables vs rs gs)).of_map
  backward hs gs r t := (h.backward hs gs r t).and (hI (.backward hs gs r t)).of_map
  getGrad x := (h.getGrad x).and (hI (.getGrad x)).of_map
  setRecording on := (h.setRecording on).and (hI (.setRecording on)).of_map
  setTraining on := (h.setTraining on).and (hI (.setTraining on)).of_map
  randomSeed seed := (h.randomSeed seed).and (hI (.randomSeed seed)).of_map

/-- An account that does not ask what is owned is kept by every call, also by those that free what
nobody owns. -/
theorem Library.Accounted.keeps_call (h : lib.Accounted fun n _ => I n)
    (hfree : ∀ x, Keeps I (lib.free x)) (c : Library.Call) : Keeps I (c.perform lib) := by
  have hissued : ∀ {α : Type} {a : Action σ α} {issued : α → List Handle},
      Issues (fun n _ => I n) a issued → Keeps I a := fun ha => (ha []).to_imp fun _ _ hs => hs.2
  cases c with
  | version => exact .map (h.version [])
  | gpuCount => exact .map (h.gpuCount [])
  | listOps => exact .map (h.listOps [])
  | getOp name => exact .map (h.getOp name [])
  | create d s t st delayed => exact .map (hissued (h.create d s t st delayed))
  | free x => exact .map (hfree x)
  | shape x => exact .map (h.shape x [])
  | type x => exact .map (h.type x [])
  | device x => exact .map (h.device x [])
  | storage x => exact .map (h.storage x [])
  | copyIn x bytes n => exact .map (h.copyIn x bytes n [])
  | copyOut x room n => exact .map (h.copyOut x room n [])
  | waitToRead x => exact .map (h.waitToRead x [])
  | waitToWrite x => exact .map (h.waitToWrite x [])
  | waitAll => exact .map (h.waitAll [])
  | invoke op inputs outputs params =>
    cases outputs with
    | none => exact .map (hissued (h.invoke op inputs params))
    | some given => exact .map (h.invokeInto op inputs given params [])
  | row x i => exact .map (hissued (h.row x i))
  | slice x first last => exact .map (hissued (h.slice x first last))
  | reshape x dims r => exact .map (hissued (h.reshape x dims r))
  | markVariables vs rs gs => exact .map (h.markVariables vs rs gs [])
  | backward hs gs r t => exact .map (h.backward hs gs r t [])
  | getGrad x => exact .map (hissued (h.getGrad x))
  | setRecording on => exact .map (h.setRecording on [])
  | setTraining on => exact .map (h.setTraining on [])
  | randomSeed seed => exact .map (h.randomSeed seed [])

theorem Undisturbed.refused (e : Error) : Undisturbed account (throw e : Action σ α) := fun _ =>
  .throw fun _ hn => hn

theorem Issues.refused (e : Error) (issued : α → List Handle) :
    Issues account (throw e : Action σ α) issued := fun _ => .throw fun _ hn => hn

theorem offered {p : α → Prop} {offer : Bool} {call refusal : α} (hcall : p call)
    (hrefusal : p refusal) : p (if offer then call else refusal) := by
  cases offer with
  | true => exact hcall
  | false => exact hrefusal

theorem Library.Accounted.offering (h : lib.Accounted account) (name : String)
    (offers : OptionalCall → Bool) : (lib.offering name offers).Accounted account where
  version := h.version
  gpuCount := h.gpuCount
  listOps := h.listOps
  getOp := h.getOp
  create := h.create
  free := h.free
  shape := h.shape
  type := h.type
  device := h.device
  storage := h.storage
  copyIn := h.copyIn
  copyOut := h.copyOut
  waitToRead := h.waitToRead
  waitToWrite := h.waitToWrite
  waitAll := h.waitAll
  invoke := h.invoke
  invokeInto := h.invokeInto
  row := offered (p := fun f : Handle → Nat → Action σ Handle => ∀ x i, Issues account (f x i) _)
    h.row fun _ _ => .refused _ _
  slice := offered (p := fun f : Handle → Nat → Nat → Action σ Handle =>
    ∀ x i j, Issues account (f x i j) _) h.slice fun _ _ _ => .refused _ _
  reshape := offered (p := fun f : Handle → List Int → Bool → Action σ Handle =>
    ∀ x dims r, Issues account (f x dims r) _) h.reshape fun _ _ _ => .refused _ _
  markVariables := offered
    (p := fun f : List Handle → List GradRequest → List Handle → Action σ Unit =>
      ∀ vs rs gs, Undisturbed account (f vs rs gs)) h.markVariables fun _ _ _ => .refused _
  backward := offered
    (p := fun f : List Handle → List (Option Handle) → Bool → Bool → Action σ Unit =>
      ∀ hs gs r t, Undisturbed account (f hs gs r t)) h.backward fun _ _ _ _ => .refused _
  getGrad := offered (p := fun f : Handle → Action σ (Option Handle) =>
    ∀ x, Issues account (f x) _) h.getGrad fun _ => .refused _ _
  setRecording := offered (p := fun f : Bool → Action σ Bool =>
    ∀ on, Undisturbed account (f on)) h.setRecording fun _ => .refused _
  setTraining := offered (p := fun f : Bool → Action σ Bool =>
    ∀ on, Undisturbed account (f on)) h.setTraining fun _ => .refused _
  randomSeed := offered (p := fun f : Nat → Action σ Unit =>
    ∀ seed, Undisturbed account (f seed)) h.randomSeed fun _ => .refused _

open Library in
theorem Library.keeps_offering (name : String) (offers : OptionalCall → Bool) (c : Call)
    (h : Keeps I (c.perform lib)) :
    Keeps I (c.perform (lib.offering name offers)) := by
  have hrefused : ∀ {α β : Type} (e : Error) (g : α → β),
      Keeps I (g <$> (throw e : Action σ α)) := fun _ _ => .map (.throw fun _ hn => hn)
  cases c with
  | row x i =>
    exact offered (p := fun f : Handle → Nat → Action σ Handle =>
      Keeps I (Answer.handle <$> f x i)) h (hrefused _ _)
  | slice x i j =>
    exact offered (p := fun f : Handle → Nat → Nat → Action σ Handle =>
      Keeps I (Answer.handle <$> f x i j)) h (hrefused _ _)
  | reshape x dims r =>
    exact offered (p := fun f : Handle → List Int → Bool → Action σ Handle =>
      Keeps I (Answer.handle <$> f x dims r)) h (hrefused _ _)
  | markVariables vs rs gs =>
    exact offered (p := fun f : List Handle → List GradRequest → List Handle → Action σ Unit =>
      Keeps I ((fun _ => Answer.done) <$> f vs rs gs)) h (hrefused _ _)
  | backward hs gs r t =>
    exact offered (p := fun f : List Handle → List (Option Handle) → Bool → Bool → Action σ Unit =>
      Keeps I ((fun _ => Answer.done) <$> f hs gs r t)) h (hrefused _ _)
  | getGrad x =>
    exact offered (p := fun f : Handle → Action σ (Option Handle) =>
      Keeps I (Answer.gradient <$> f x)) h (hrefused _ _)
  | setRecording on | setTraining on =>
    exact offered (p := fun f : Bool → Action σ Bool =>
      Keeps I (Answer.switch <$> f on)) h (hrefused _ _)
  | randomSeed seed =>
    exact offered (p := fun f : Nat → Action σ Unit =>
      Keeps I ((fun _ => Answer.done) <$> f seed)) h (hrefused _ _)
  | _ => exact h

end General

namespace Operator

/-- Without parameters no operator has more than one output: `split` then does not know how many
parts to make. -/
theorem infer_empty {op : Operator} {sigs out : List Signature}
    (h : op.infer sigs .empty = .ok out) : out.length = 1 := by
  refine infer_length h ?_
  rintro rfl
  match sigs with
  | [] => exact absurd h nofun
  | [x] =>
    obtain ⟨plan, hplan, -⟩ := bind_eq_ok.1 h
    obtain ⟨axis, -, hplan⟩ := bind_eq_ok.1 hplan
    obtain ⟨parts, hparts, -⟩ := bind_eq_ok.1 hplan
    exact absurd hparts nofun
  | _ :: _ :: _ => exact absurd h nofun

end Operator

namespace Reference

open State

variable {gpus : Nat} {base : List Nat} {s t : State} {owned : List Handle} {h : Handle}

theorem keys_free (h : Handle) (s : State) :
    ((free h).after s).entries.keys = s.entries.keys.filter fun id => !(id == h.id) := by
  obtain ⟨marks, hafter⟩ := after_free h s
  rw [hafter, Table.keys_erase]

theorem lastId_free (h : Handle) (s : State) : ((free h).after s).lastId = s.lastId := by
  obtain ⟨marks, hafter⟩ := after_free h s
  rw [hafter]

theorem State.Counted.free (hs : s.Counted) (h : Handle) : ((free h).after s).Counted where
  distinct := keys_free h s ▸ hs.distinct.filter _
  le id hid := by
    rw [keys_free] at hid
    rw [lastId_free]
    exact hs.le id (List.mem_of_mem_filter hid)

/-- Those handles are live that were live in `base` and those that are owned. -/
structure Live (base : List Nat) (s : State) (owned : List Handle) : Prop where
  counted : s.Counted
  perm : s.entries.keys.Perm (base ++ owned.map Handle.id)

theorem Live.insert (hs : Live base s owned) (e : Entry) :
    Live base (s.insert e).2 ((s.insert e).1 :: owned) where
  counted := hs.counted.insert e
  perm := by
    have hkeys : (s.insert e).2.entries.keys = s.entries.keys ++ [s.lastId + 1] :=
      Table.keys_insert_of_none e hs.counted.fresh
    rw [hkeys]
    refine (hs.perm.append_right _).trans ?_
    rw [List.append_assoc]
    exact List.Perm.append_left base (List.perm_append_singleton _ _)

theorem Live.free (hs : Live base s (h :: owned)) : Live base ((free h).after s) owned where
  counted := hs.counted.free h
  perm := by
    have hnew : h.id ∉ base := fun hmem =>
      (List.nodup_append.1 (hs.perm.nodup_iff.1 hs.counted.distinct)).2.2 _ hmem _
        List.mem_cons_self rfl
    have herase : (s.entries.keys.filter fun id => !(id == h.id)) = s.entries.keys.erase h.id :=
      (hs.counted.distinct.erase_eq_filter h.id).symm
    rw [keys_free, herase]
    refine (hs.perm.erase h.id).trans (List.Perm.of_eq ?_)
    rw [List.erase_append_right _ hnew, List.map_cons, List.erase_cons_head]

theorem bookkept_counted : Bookkept fun s _ => s.Counted where
  perm _ hs := hs
  of_books {s s' owned} hs hbooks := by
    have hentries : s'.entries = s.entries := congrArg Prod.fst hbooks
    have hlast : s'.lastId = s.lastId := congrArg (fun b => b.2.1) hbooks
    exact ⟨hentries ▸ hs.distinct, hentries ▸ hlast ▸ hs.le⟩
  insert e hs := hs.insert e
  free h _ := Meets.of_after fun _ hs => hs.free h

theorem bookkept_live (base : List Nat) : Bookkept (Live base) where
  perm hperm hs := ⟨hs.counted, hs.perm.trans ((hperm.map Handle.id).append_left base)⟩
  of_books {s s' owned} hs hbooks := by
    have hentries : s'.entries = s.entries := congrArg Prod.fst hbooks
    exact ⟨@Bookkept.of_books _ bookkept_counted s s' owned hs.counted hbooks, hentries ▸ hs.perm⟩
  insert e hs := hs.insert e
  free h owned := Meets.of_after fun _ hs => hs.free

theorem invoke_single [HalfPrecision] {op : OpHandle} {inputs hs : List Handle}
    (h : invoke .deferred gpus op inputs none .empty s = .ok hs t) : hs.length ≤ 1 := by
  obtain ⟨found, u, hsubmit, hreturn⟩ := bind_ok.1 h
  obtain ⟨o, -, hsubmit⟩ := bind_eq_ok.1 (transition_ok.1 hsubmit)
  obtain ⟨⟨submitted, task, v⟩, hsubmit, hfound⟩ := bind_eq_ok.1 hsubmit
  obtain ⟨entries, inferred, outs, w, -, hinferred, houts, rfl, -⟩ := submit_eq_ok hsubmit
  have hfound := (Prod.mk.inj (pure_eq_ok.1 hfound)).1
  have hlength := ((outputsOf_numbers houts).2.2 rfl).1
  injection hreturn with hs'
  rw [← hs', ← hfound, List.length_map, hlength]
  exact Nat.le_of_eq (Operator.infer_empty hinferred)

theorem copyIn_created (hs : s.Orderly) {device : Device} {shape : Shape} {type : ElementType}
    {storage : Storage} (hcreate : create gpus device shape type storage s = .ok h t)
    {bytes : Bytes} (hbytes : bytes.length = type.storageBytes shape.size) :
    ∃ k, copyIn h bytes shape.size t = .ok ⟨⟩ k := by
  have hallocate := @create_does gpus device shape type storage s s rfl
  rw [hcreate] at hallocate
  have hallocate : s.allocate shape type device storage = (h, t) := hallocate
  have hstate : (s.allocate shape type device storage).2 = t := congrArg Prod.snd hallocate
  have horderly : t.Orderly := hstate ▸ hs.allocate shape type device storage
  have hentry : t.entry h = .ok ⟨(s.memory.allocate shape type).1, device, storage⟩ := by
    obtain ⟨rfl, rfl⟩ := Prod.mk.inj hallocate
    refine entry_eq_ok.2 ?_
    show (s.entries.insert (s.lastId + 1) _).get? (s.lastId + 1) = _
    rw [Table.get?_insert, if_pos rfl]
    rfl
  have hview : viewOf h t = .ok (s.memory.allocate shape type).1 t :=
    bind_ok.2 ⟨_, t, query_ok.2 ⟨hentry, rfl⟩, rfl⟩
  have hfits : ¬ (shape.size ≠ (s.memory.allocate shape type).1.size ∨
      bytes.length ≠ shape.size * (s.memory.allocate shape type).1.type.bytes) := by
    refine not_or.2 ⟨fun hsize => hsize rfl, fun hlength => hlength ?_⟩
    exact hbytes.trans (Nat.mul_comm _ _)
  unfold copyIn
  rw [bind_of_ok hview, if_neg hfits]
  exact ⟨_, (bind_of_ok horderly.drain_eq).trans rfl⟩

theorem dependable (gpus : Nat) (name : String) (offers : OptionalCall → Bool) (base : List Nat) :
    ((library gpus).offering name offers).Dependable
      fun s owned => Live base s owned ∧ s.Orderly where
  neverNull := (neverNull gpus).offering name offers
  accounted := (((bookkept_live base).accounted gpus).and
    fun c => (defers_call gpus .asMarked c).keeps).offering name offers
  single h := invoke_single h
  fills hs hcreate hbytes := copyIn_created hs.2 hcreate hbytes

end Reference
end ScopedTensor
