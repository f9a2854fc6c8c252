import ScopedTensor.Proofs.Foreign.Protocol
import ScopedTensor.Foreign.Script

/-! Numbers on their way into a foreign engine, whose functions take words of 32 bits. Lengths of
axes are looked at first. Places in an array, and the ordinals of accelerators, are cut to what a
word holds, so those that do not fit arrive as other numbers. -/

namespace ScopedTensor

open Foreign

def Device.ordinal : Device → Nat
  | cpu => 0
  | gpu n => n

namespace Foreign

def half : Nat := Nat.pow 2 31

/-- The numbers by which a call says what array to make, or where in one. -/
def Call.numbers : Call → List Int
  | create dims _ device _ _ => device.2 :: dims.map Nat.cast
  | createSparse _ dims _ device _ _ _ _ _ _ => device.2 :: dims.map Nat.cast
  | row _ index => [index]
  | slice _ first last => [first, last]
  | _ => []

end Foreign

namespace Library.Call

def numbers : Call → List Int
  | create d s _ _ _ => d.ordinal :: s.dims.map Nat.cast
  | row _ index => [index]
  | slice _ first last => [first, last]
  | _ => []

/-- Places that an unsigned word holds, ordinals that a signed one does. -/
def Narrow : Call → Prop
  | create d _ _ _ _ => d.ordinal < half
  | row _ index => index < word
  | slice _ first last => first < word ∧ last < word
  | _ => True

end Library.Call

namespace Foreign

variable {σ : Type} (host : Host σ) (c : Library.Call) (s : σ)

def asked : List Question := ((c.perform (library host.recorded)).after (s, [])).2

/-- The call fails without a word to the engine, or the engine gets the caller's numbers. -/
def Faithful : Prop :=
  ((∃ e, c.reply (library host) s = .error e) ∧ asked host c s = []) ∨
    ∃ call, (asked host c s).head? = some (.call call) ∧ call.numbers = c.numbers

theorem asked_of_not_fit (h : ¬ c.Fit) : asked host c s = [] := by
  obtain ⟨r, hr⟩ :
      ∃ r, c.perform (library host.recorded) (s, []) = .error (.invalid r) (s, []) :=
    perform_recorded_of_not_fit host [] h
  exact congrArg Prod.snd (Action.after_error hr)

theorem asked_of_fit (h : c.Fit) :
    asked host c s = .call (exchange c).call ::
      if (host.call (exchange c).call s).1.status = 0 then [] else [.lastError] := by
  unfold asked
  by_cases hstatus : (host.call (exchange c).call s).1.status = 0
  · rw [Action.after_eq (perform_recorded_of_success host [] h hstatus), Action.after_ofExcept,
      if_pos hstatus]
    rfl
  · rw [Action.after_error (perform_recorded_of_failure host [] h hstatus), if_neg hstatus]
    rfl

theorem head?_asked_of_fit (h : c.Fit) :
    (asked host c s).head? = some (.call (exchange c).call) := by
  rw [asked_of_fit host c s h]
  rfl

theorem call_mem_asked (call : Call) :
    .call call ∈ asked host c s ↔ c.Fit ∧ call = (exchange c).call := by
  by_cases hfit : c.Fit
  · rw [asked_of_fit host c s hfit]
    split <;> simp [hfit]
  · rw [asked_of_not_fit host c s hfit]
    exact iff_of_false List.not_mem_nil fun h => hfit h.1

theorem bmod_word_iff (n : Nat) : Int.bmod n word = n ↔ n < half := by
  change Int.bmod n 4294967296 = n ↔ n < 2147483648
  rw [Int.bmod_def]
  omega

theorem mod_word_iff (n : Nat) : n % word = n ↔ n < word := by
  change n % 4294967296 = n ↔ n < 4294967296
  omega

theorem code_gpu (n : Nat) : (Device.gpu n).code = (2, Int.bmod n word) := rfl

theorem ordinal_gpu (n : Nat) : (Device.gpu n).ordinal = n := rfl

theorem ordinal_code_iff (d : Device) : d.code.2 = d.ordinal ↔ d.ordinal < half := by
  cases d with
  | cpu =>
    change (0 : Int) = 0 ↔ 0 < 2147483648
    omega
  | gpu n =>
    simp only [code_gpu, ordinal_gpu]
    exact bmod_word_iff n

theorem ofCode_gpu (i : Int) (n : Nat) : Device.ofCode 2 i = .ok (.gpu n) ↔ i = n := by
  have hcode : Device.ofCode? 2 i = if 0 ≤ i then some (.gpu i.toNat) else none := by
    simp [Device.ofCode?]
  unfold Device.ofCode
  rw [hcode]
  split_ifs with hsign
  · rw [Except.ok.injEq, Device.gpu.injEq]
    omega
  · refine iff_of_false nofun ?_
    omega

theorem ofCode_code_iff (d : Device) :
    Device.ofCode d.code.1 d.code.2 = .ok d ↔ d.ordinal < half := by
  cases d with
  | cpu => exact iff_of_true rfl ((ordinal_code_iff .cpu).1 rfl)
  | gpu n =>
    simp only [code_gpu, ordinal_gpu, ofCode_gpu]
    exact bmod_word_iff n

theorem numbers_create (device : Device) (shape : Shape) (type : ElementType) (storage : Storage)
    (delayed : Bool) : (exchange (.create device shape type storage delayed)).call.numbers =
      device.code.2 :: shape.dims.map Nat.cast := by
  cases storage <;> rfl

theorem numbers_exchange_iff : (exchange c).call.numbers = c.numbers ↔ c.Narrow := by
  cases c with
  | create device shape type storage delayed =>
    rw [numbers_create]
    change _ :: _ = _ :: _ ↔ _
    rw [List.cons_eq_cons, and_iff_left rfl]
    exact ordinal_code_iff device
  | row h index =>
    change [((index % word : Nat) : Int)] = [(index : Int)] ↔ index < word
    rw [List.cons_eq_cons, and_iff_left rfl, Int.natCast_inj]
    exact mod_word_iff index
  | slice h first last =>
    change [((first % word : Nat) : Int), ((last % word : Nat) : Int)] =
      [(first : Int), (last : Int)] ↔ first < word ∧ last < word
    rw [List.cons_eq_cons, List.cons_eq_cons, and_iff_left rfl, Int.natCast_inj, Int.natCast_inj,
      mod_word_iff, mod_word_iff]
  | _ => exact ⟨fun _ => trivial, fun _ => rfl⟩

theorem faithful_iff : Faithful host c s ↔ (c.Fit → c.Narrow) := by
  constructor
  · rintro (⟨-, hnothing⟩ | ⟨call, hcall, hnumbers⟩) hfit
    · have hasked := head?_asked_of_fit host c s hfit
      rw [hnothing] at hasked
      exact absurd hasked nofun
    · rw [head?_asked_of_fit host c s hfit] at hcall
      cases hcall
      exact (numbers_exchange_iff c).1 hnumbers
  · intro h
    by_cases hfit : c.Fit
    · exact .inr ⟨_, head?_asked_of_fit host c s hfit, (numbers_exchange_iff c).2 (h hfit)⟩
    · obtain ⟨r, hr⟩ := perform_refuses host hfit
      have hreply : c.reply (library host) s = .error (.invalid r) := by
        unfold Library.Call.reply
        rw [hr]
        rfl
      exact .inl ⟨⟨_, hreply⟩, asked_of_not_fit host c s hfit⟩

def Agree (i j : Int) : Prop := i % word = j % word

theorem agree_mod (n : Nat) : Agree (n % word : Nat) n := by
  change ((n % 4294967296 : Nat) : Int) % 4294967296 = n % 4294967296
  omega

theorem agree_ordinal (d : Device) : Agree d.code.2 d.ordinal := by
  cases d with
  | cpu => rfl
  | gpu n =>
    simp only [code_gpu, ordinal_gpu]
    exact Int.bmod_emod

theorem numbers_agree : List.Forall₂ Agree (exchange c).call.numbers c.numbers := by
  cases c with
  | create device shape type storage delayed =>
    rw [numbers_create]
    exact .cons (agree_ordinal device) (List.forall₂_same.2 fun _ _ => rfl)
  | row h index => exact .cons (agree_mod index) .nil
  | slice h first last => exact .cons (agree_mod first) (.cons (agree_mod last) .nil)
  | _ => exact .nil

/-- Exactly the numbers that fit arrive as they are; of every number the low 32 bits do. The
engine's pair for a device leads back to it exactly when the ordinal fits. -/
theorem numbers_arrive (host : Host σ) (c : Library.Call) (s : σ) (d : Device) :
    (Faithful host c s ↔ (c.Fit → c.Narrow)) ∧
    (c.Fit → ∃ call, (asked host c s).head? = some (.call call) ∧
      List.Forall₂ Agree call.numbers c.numbers) ∧
    (Device.ofCode d.code.1 d.code.2 = .ok d ↔ d.ordinal < half) :=
  ⟨faithful_iff host c s, fun h => ⟨_, head?_asked_of_fit host c s h, numbers_agree c⟩,
    ofCode_code_iff d⟩

/-- A place past the word asks for the first row, and an accelerator past half of it is lost. -/
theorem row_cut_short :
    asked Script.host (.row ⟨1⟩ word) .empty = [.call (.row ⟨1⟩ 0)] ∧
    ¬ Faithful Script.host (.row ⟨1⟩ word) .empty ∧
    Device.ofCode (Device.gpu half).code.1 (Device.gpu half).code.2 ≠ .ok (.gpu half) := by
  refine ⟨rfl, ?_, ?_⟩
  · rw [faithful_iff]
    exact fun h => Nat.lt_irrefl word (h trivial)
  · rw [Ne, ofCode_code_iff]
    exact Nat.lt_irrefl half

end Foreign
end ScopedTensor
