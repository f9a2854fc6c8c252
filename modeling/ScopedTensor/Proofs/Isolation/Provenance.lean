import ScopedTensor.Proofs.Isolation.Programs

/-! Where the handles come from that libraries are given. The libraries that a program opens keep a
record of their calls, and every handle in the record was brought by the library that it is given
to. -/

namespace ScopedTensor

open ScopedTensor.Action Library Relation

variable {half : HalfPrecision}

/-- A call of the library opened in some place, and the answer unless it failed. -/
structure CallRecord where
  place : Nat
  call : Call
  answer : Option Answer

def CallRecord.brought (r : CallRecord) : List Handle := (r.answer.map r.call.brings).getD []

/-- The library in a place brought the handle. -/
def Brought (calls : List CallRecord) (place : Nat) (h : Handle) : Prop :=
  ∃ b ∈ calls, b.place = place ∧ h ∈ b.brought

/-- Every handle that a library is given was brought by that library before. -/
def Returned (calls : List CallRecord) : Prop :=
  ∀ r earlier, r :: earlier <:+ calls → ∀ h ∈ r.call.passes, Brought earlier r.place h

section Records

variable {calls : List CallRecord} {place : Nat} {h : Handle}

theorem Brought.cons (hb : Brought calls place h) (r : CallRecord) : Brought (r :: calls) place h :=
  let ⟨b, hb, hplace, hh⟩ := hb
  ⟨b, List.mem_cons_of_mem _ hb, hplace, hh⟩

theorem Returned.cons (hcalls : Returned calls) {r : CallRecord}
    (hr : ∀ h ∈ r.call.passes, Brought calls r.place h) : Returned (r :: calls) := by
  intro r' earlier hsuffix
  rcases List.suffix_cons_iff.1 hsuffix with heq | hsuffix
  · obtain ⟨rfl, rfl⟩ := List.cons.inj heq
    exact hr
  · exact hcalls r' earlier hsuffix

end Records

structure Traced (σ : Type) where
  native : σ
  /-- How many libraries were opened. -/
  opened : Nat
  /-- The latest call first. -/
  calls : List CallRecord

variable {σ α β : Type}

namespace Traced

def start (n : σ) : Traced σ := ⟨n, 0, []⟩

def logged (place : Nat) (c : Call) (g : α → Answer) (a : Action σ α) :
    Action (Traced σ) α := fun t =>
  match a t.native with
  | .ok x n => .ok x { t with native := n, calls := ⟨place, c, some (g x)⟩ :: t.calls }
  | .error e n => .error e { t with native := n, calls := ⟨place, c, none⟩ :: t.calls }

end Traced

open Traced in
def Library.traced (place : Nat) (lib : Library σ) : Library (Traced σ) where
  name := lib.name
  version := logged place .version .text lib.version
  gpuCount := logged place .gpuCount .count lib.gpuCount
  listOps := logged place .listOps .names lib.listOps
  getOp n := logged place (.getOp n) .operator (lib.getOp n)
  create d s t st b := logged place (.create d s t st b) .handle (lib.create d s t st b)
  free h := logged place (.free h) (fun _ => .done) (lib.free h)
  shape h := logged place (.shape h) .shape (lib.shape h)
  type h := logged place (.type h) .type (lib.type h)
  device h := logged place (.device h) .device (lib.device h)
  storage h := logged place (.storage h) .storage (lib.storage h)
  copyIn h bs n := logged place (.copyIn h bs n) (fun _ => .done) (lib.copyIn h bs n)
  copyOut h room n := logged place (.copyOut h room n) .bytes (lib.copyOut h room n)
  waitToRead h := logged place (.waitToRead h) (fun _ => .done) (lib.waitToRead h)
  waitToWrite h := logged place (.waitToWrite h) (fun _ => .done) (lib.waitToWrite h)
  waitAll := logged place .waitAll (fun _ => .done) lib.waitAll
  invoke op xs outs p := logged place (.invoke op xs outs p) .handles (lib.invoke op xs outs p)
  row h i := logged place (.row h i) .handle (lib.row h i)
  slice h b e := logged place (.slice h b e) .handle (lib.slice h b e)
  reshape h dims r := logged place (.reshape h dims r) .handle (lib.reshape h dims r)
  markVariables vs rs gs :=
    logged place (.markVariables vs rs gs) (fun _ => .done) (lib.markVariables vs rs gs)
  backward hs gs r t := logged place (.backward hs gs r t) (fun _ => .done) (lib.backward hs gs r t)
  getGrad h := logged place (.getGrad h) .gradient (lib.getGrad h)
  setRecording on := logged place (.setRecording on) .switch (lib.setRecording on)
  setTraining on := logged place (.setTraining on) .switch (lib.setTraining on)
  randomSeed n := logged place (.randomSeed n) (fun _ => .done) (lib.randomSeed n)

namespace Traced

def openLibrary (openLibrary : Configuration → Action σ (Library σ)) (c : Configuration) :
    Action (Traced σ) (Library (Traced σ)) := fun t =>
  match openLibrary c t.native with
  | .ok lib n => .ok (lib.traced t.opened) { t with native := n, opened := t.opened + 1 }
  | .error e n => .error e { t with native := n }

theorem map_logged (place : Nat) (c : Call) (g : α → Answer) (a : Action σ α) :
    g <$> logged place c g a = logged place c id (g <$> a) := by
  funext t
  change EStateM.map g (logged place c g a) t = logged place c id (EStateM.map g a) t
  unfold EStateM.map logged
  cases hr : a t.native <;> simp only [hr, id]

theorem perform_traced (place : Nat) (lib : Library σ) (c : Call) :
    c.perform (lib.traced place) = logged place c id (c.perform lib) := by
  cases c <;> exact map_logged _ _ _ _

theorem place_inj (t : Traced σ) {lib lib' : Library σ} {i j : Nat}
    (h : lib.traced i = lib'.traced j) : i = j := by
  have hplace : ∀ (lib : Library σ) (i : Nat),
      ((lib.traced i).version.after t).calls.head?.map CallRecord.place = some i := by
    intro lib i
    show (Action.after (logged i .version .text lib.version) t).calls.head?.map _ = some i
    unfold Action.after logged
    cases lib.version t.native <;> rfl
  have hboth := hplace lib i
  rw [h, hplace lib' j] at hboth
  exact (Option.some.inj hboth).symm

/-- What is kept from a library was brought by it. -/
structure Accounts (t : Traced σ) (libs : List (Library (Traced σ)))
    (kept : List (Library (Traced σ) × Handle)) : Prop where
  returned : Returned t.calls
  traced : ∀ lib ∈ libs, ∃ (i : Nat) (l : Library σ), lib = l.traced i
  brought : ∀ p ∈ kept, ∀ (i : Nat) (l : Library σ), p.1 = l.traced i → Brought t.calls i p.2

variable {libs : List (Library (Traced σ))} {kept : List (Library (Traced σ) × Handle)}

theorem meets_perform {lib : Library (Traced σ)} (hlib : lib ∈ libs) (c : Call)
    (hc : ∀ h ∈ c.passes, (lib, h) ∈ kept) :
    Meets (Accounts · libs kept) (c.perform lib)
      (fun a t => Accounts t libs ((c.brings a).map (lib, ·) ++ kept)) (Accounts · libs kept) := by
  intro t ht
  obtain ⟨i, l, rfl⟩ := ht.traced lib hlib
  have hreturned : ∀ answer, Returned (⟨i, c, answer⟩ :: t.calls) := fun answer =>
    ht.returned.cons fun h hh => ht.brought _ (hc h hh) i l rfl
  rw [perform_traced]
  unfold logged
  cases hr : c.perform l t.native with
  | error e n =>
    exact ⟨hreturned none, ht.traced, fun p hp j l' hp' => (ht.brought p hp j l' hp').cons _⟩
  | ok a n =>
    refine ⟨hreturned (some a), ht.traced, fun p hp j l' hp' => ?_⟩
    rcases List.mem_append.1 hp with hp | hp
    · obtain ⟨h, hh, rfl⟩ := List.mem_map.1 hp
      exact ⟨_, List.mem_cons_self, place_inj t hp', hh⟩
    · exact (ht.brought p hp j l' hp').cons _

def custody (σ : Type) : Custody (Traced σ) where
  account := Accounts
  fewer hlibs hkept h :=
    ⟨h.returned, fun lib hlib => h.traced lib (hlibs hlib),
      fun p hp => h.brought p (hkept.subset hp)⟩
  call hlib c _ _ hc := meets_perform hlib c hc
  free {libs lib} hlib h kept := by
    have hpasses : ∀ x ∈ [h], (lib, x) ∈ (lib, h) :: kept := fun x hx =>
      List.mem_singleton.1 hx ▸ List.mem_cons_self
    have hfree : Meets (Accounts · libs ((lib, h) :: kept)) (lib.free h)
        (fun _ => (Accounts · libs ((lib, h) :: kept))) (Accounts · libs ((lib, h) :: kept)) :=
      (meets_perform hlib (.free h) hpasses).of_map
    have hfewer : ∀ t, Accounts t libs ((lib, h) :: kept) → Accounts t libs kept := fun t ht =>
      ⟨ht.returned, ht.traced, fun p hp => ht.brought p (List.mem_cons_of_mem _ hp)⟩
    exact hfree.imp (fun _ ht => ht) (fun _ => hfewer) hfewer

theorem custody_opens (opener : Configuration → Action σ (Library σ)) :
    (custody σ).Opens (openLibrary opener) := by
  intro c _ libs kept t ht
  unfold openLibrary
  cases opener c t.native with
  | error e n => exact ⟨ht.returned, ht.traced, ht.brought⟩
  | ok lib n =>
    refine ⟨ht.returned, fun l hl => ?_, ht.brought⟩
    rcases List.mem_cons.1 hl with rfl | hl
    · exact ⟨t.opened, lib, rfl⟩
    · exact ht.traced l hl

theorem returned_reached {opener : Configuration → Action σ (Library σ)} {n : σ}
    {p : Program (Traced σ)}
    (hp : ReflTransGen (Program.Next (openLibrary opener)) (.start (start n)) p) :
    Returned p.session.native.calls := by
  obtain ⟨W, -, hs⟩ := Program.employs_reached (C := custody σ) (custody_opens opener)
    ⟨fun _ _ h => absurd h (by simp [start]), nofun, nofun⟩ hp
  exact hs.account.returned

end Traced
end ScopedTensor
