import ScopedTensor.Foreign.Library
import ScopedTensor.Library.Call
import ScopedTensor.Proofs.Action
import ScopedTensor.Proofs.Result

/-! How a library in front of a foreign engine deals with it. Arguments the engine's functions have
no form for are refused before anything is asked. Everything else is one question; only when the
engine answers that it failed is it asked why, before anything else. -/

namespace ScopedTensor

open Foreign

namespace Library.Call

/-- A text that may end at a zero character, because it holds none. -/
def Terminable (s : String) : Prop := Char.ofNat 0 ∉ s.toList

/-- The functions take lengths of 32 bits, texts that end at a zero, and lists with one count. -/
def Fit : Call → Prop
  | create _ s _ _ _ => ∀ d ∈ s.dims, d < word
  | getOp name => Terminable name
  | invoke _ _ _ params =>
    (∀ key ∈ params.native.1, Terminable key) ∧ ∀ value ∈ params.native.2, Terminable value
  | markVariables vars requests gradients =>
    vars.length = requests.length ∧ vars.length = gradients.length
  | _ => True

def function : Call → String
  | version => "MXGetVersion"
  | gpuCount => "MXGetGPUCount"
  | listOps => "MXListAllOpNames"
  | getOp _ => "NNGetOpHandle"
  | create _ _ _ .dense _ => "MXNDArrayCreateEx"
  | create .. => "MXNDArrayCreateSparseEx"
  | free _ => "MXNDArrayFree"
  | shape _ => "MXNDArrayGetShape"
  | type _ => "MXNDArrayGetDType"
  | device _ => "MXNDArrayGetContext"
  | storage _ => "MXNDArrayGetStorageType"
  | copyIn .. => "MXNDArraySyncCopyFromCPU"
  | copyOut .. => "MXNDArraySyncCopyToCPU"
  | waitToRead _ => "MXNDArrayWaitToRead"
  | waitToWrite _ => "MXNDArrayWaitToWrite"
  | waitAll => "MXNDArrayWaitAll"
  | invoke .. => "MXImperativeInvoke"
  | row .. => "MXNDArrayAt"
  | slice .. => "MXNDArraySlice"
  | reshape .. => "MXNDArrayReshape64"
  | markVariables .. => "MXAutogradMarkVariables"
  | backward .. => "MXAutogradBackwardEx"
  | getGrad _ => "MXNDArrayGetGrad"
  | setRecording _ => "MXAutogradSetIsRecording"
  | setTraining _ => "MXAutogradSetIsTraining"
  | randomSeed _ => "MXRandomSeed"

end Library.Call

namespace Foreign

/-- A question, and what is made of the answer to it. -/
structure Exchange where
  call : Call
  conclude : call.Out → Except Error Library.Answer

def exchange : Library.Call → Exchange
  | .version => ⟨.version, fun v => .ok (.text (versionText v))⟩
  | .gpuCount => ⟨.gpuCount, fun n => .ok (.count n.toNat)⟩
  | .listOps => ⟨.opNames, fun l => .ok (.names (l.toList.map Text.decodeTerminated))⟩
  | .getOp name =>
    ⟨.opHandle name, fun op => if op.id = 0 then .error (.unsupported name) else .ok (.operator op)⟩
  | .create device shape type .dense delayed =>
    ⟨.create shape.dims (counted shape.dims) device.code delayed type.code,
      fun h => .ok (.handle h)⟩
  | .create device shape type storage delayed =>
    let n := storage.auxiliaryCount
    ⟨.createSparse storage.code shape.dims (counted shape.dims) device.code delayed type.code n
      (List.replicate n indexType) (List.replicate n 1) (List.replicate n 0),
      fun h => .ok (.handle h)⟩
  | .free h => ⟨.free h, fun _ => .ok .done⟩
  | .shape h => ⟨.shape h, fun l => .ok (.shape ⟨l.toList⟩)⟩
  | .type h => ⟨.type h, fun code => (ElementType.ofCode code).map .type⟩
  | .device h => ⟨.context h, fun place => (Device.ofCode place.1 place.2).map .device⟩
  | .storage h => ⟨.storage h, fun code => (Storage.ofCode code).map .storage⟩
  | .copyIn h bytes length => ⟨.copyIn h bytes length, fun _ => .ok .done⟩
  | .copyOut h room length =>
    ⟨.copyOut h room length, fun written => .ok (.bytes (filled room written))⟩
  | .waitToRead h => ⟨.waitToRead h, fun _ => .ok .done⟩
  | .waitToWrite h => ⟨.waitToWrite h, fun _ => .ok .done⟩
  | .waitAll => ⟨.waitAll, fun _ => .ok .done⟩
  | .invoke op inputs outputs params =>
    let given := outputs.getD []
    ⟨.invoke op (counted inputs) inputs (counted given)
      (if given.isEmpty then none else some given)
      (counted params.native.1) params.native.1 params.native.2,
      fun produced => .ok (.handles (outputs.getD produced.toList))⟩
  | .row h index => ⟨.row h (index % word), fun v => .ok (.handle v)⟩
  | .slice h first last => ⟨.slice h (first % word) (last % word), fun v => .ok (.handle v)⟩
  | .reshape h dims reverse => ⟨.reshape h (counted dims) dims reverse, fun v => .ok (.handle v)⟩
  | .markVariables vars requests gradients =>
    ⟨.markVariables (counted vars) vars (requests.map GradRequest.code) gradients,
      fun _ => .ok .done⟩
  | .backward heads headGradients retain training =>
    let gradients := headGradients.map fun g => g.getD ⟨0⟩
    ⟨.backward (counted heads) heads (if gradients.isEmpty then none else some gradients) retain
      training, fun _ => .ok .done⟩
  | .getGrad h => ⟨.getGrad h, fun g => .ok (.gradient (if g.isNull then none else some g))⟩
  | .setRecording on => ⟨.setRecording on, fun previous => .ok (.switch (previous != 0))⟩
  | .setTraining on => ⟨.setTraining on, fun previous => .ok (.switch (previous != 0))⟩
  | .randomSeed seed => ⟨.randomSeed (Int.bmod seed word), fun _ => .ok .done⟩

theorem symbol_exchange (c : Library.Call) : (exchange c).call.symbol = c.function := by
  cases c with
  | create _ _ _ storage _ => cases storage <;> rfl
  | _ => rfl

section Arguments

variable {α : Type} {check : α → Except Error α}

theorem mapM_eq_self {xs : List α} (h : ∀ x ∈ xs, check x = .ok x) : xs.mapM check = .ok xs := by
  have hself : List.Forall₂ (fun x y => check x = .ok y) xs xs := List.forall₂_same.2 h
  exact mapM_eq_ok.2 hself

theorem mapM_refuses (hcheck : ∀ x, check x = .ok x ∨ ∃ r, check x = .error (.invalid r))
    {xs : List α} (h : ∃ x ∈ xs, check x ≠ .ok x) : ∃ r, xs.mapM check = .error (.invalid r) := by
  induction xs with
  | nil =>
    obtain ⟨x, hx, -⟩ := h
    exact absurd hx List.not_mem_nil
  | cons x xs ih =>
    rw [List.mapM_cons]
    rcases hcheck x with hx | ⟨r, hx⟩
    · have hrest : ∃ y ∈ xs, check y ≠ .ok y := by
        obtain ⟨y, hy, hne⟩ := h
        rcases List.mem_cons.1 hy with rfl | hy
        · exact absurd hx hne
        · exact ⟨y, hy, hne⟩
      obtain ⟨r, hr⟩ := ih hrest
      rw [hx, hr]
      exact ⟨r, rfl⟩
    · rw [hx]
      exact ⟨r, rfl⟩

theorem nativeDims_of_fit {s : Shape} (h : ∀ d ∈ s.dims, d < word) :
    nativeDims s = .ok s.dims := by
  apply mapM_eq_self
  intro d hd
  exact if_pos (h d hd)

theorem nativeDims_refuses {s : Shape} (h : ¬ ∀ d ∈ s.dims, d < word) :
    ∃ r, nativeDims s = .error (.invalid r) := by
  apply mapM_refuses
  · intro d
    by_cases hd : d < word
    · exact .inl (if_pos hd)
    · exact .inr ⟨.dimension d, if_neg hd⟩
  · obtain ⟨d, hd, hlong⟩ : ∃ d ∈ s.dims, ¬ d < word := by
      simpa only [not_forall, exists_prop] using h
    refine ⟨d, hd, ?_⟩
    rw [if_neg hlong]
    nofun

theorem nativeText_of_terminable {s : String} (h : Library.Call.Terminable s) :
    nativeText s = .ok s := by
  have hzero : ¬ s.toList.contains (Char.ofNat 0) = true := by
    rw [List.contains_iff_mem]
    exact h
  exact if_neg hzero

theorem nativeText_refuses {s : String} (h : ¬ Library.Call.Terminable s) :
    nativeText s = .error (.invalid (.zeroOctet s)) := by
  have hzero : s.toList.contains (Char.ofNat 0) = true := by
    rw [List.contains_iff_mem]
    exact not_not.1 h
  exact if_pos hzero

theorem nativeTexts_of_terminable {texts : List String}
    (h : ∀ s ∈ texts, Library.Call.Terminable s) : texts.mapM nativeText = .ok texts :=
  mapM_eq_self fun s hs => nativeText_of_terminable (h s hs)

theorem nativeTexts_refuses {texts : List String} (h : ¬ ∀ s ∈ texts, Library.Call.Terminable s) :
    ∃ r, texts.mapM nativeText = .error (.invalid r) := by
  apply mapM_refuses
  · intro s
    by_cases hs : Library.Call.Terminable s
    · exact .inl (nativeText_of_terminable hs)
    · exact .inr ⟨.zeroOctet s, nativeText_refuses hs⟩
  · push Not at h
    obtain ⟨s, hs, hzero⟩ := h
    refine ⟨s, hs, ?_⟩
    rw [nativeText_refuses hzero]
    nofun

end Arguments

section Calls

variable {σ : Type} (host : Host σ)

theorem map_ofExcept {α β : Type} (g : α → β) (r : Except Error α) :
    (g <$> Action.ofExcept r : Action σ β) = Action.ofExcept (r.map g) := by
  cases r <;> rfl

def Exchange.run (e : Exchange) : Action σ Library.Answer := do
  Action.ofExcept (e.conclude (← ask host e.call))

theorem perform_of_fit {c : Library.Call} (h : c.Fit) :
    c.perform (library host) = (exchange c).run host := by
  cases c with
  | create device s type storage delayed =>
    change Library.Answer.handle <$> create host device s type storage delayed = _
    unfold create
    rw [nativeDims_of_fit h]
    cases storage <;> rfl
  | getOp name =>
    change Library.Answer.operator <$> getOp host name = _
    unfold getOp
    rw [nativeText_of_terminable h]
    change Library.Answer.operator <$> (ask host (.opHandle name) >>= fun op =>
      if op.id = 0 then throw (.unsupported name) else return op) = _
    rw [map_bind]
    refine bind_congr fun op => ?_
    change _ = Action.ofExcept (if op.id = 0 then _ else _)
    split <;> rfl
  | invoke op inputs outputs params =>
    change Library.Answer.handles <$> invoke host op inputs outputs params = _
    unfold invoke
    simp only [nativeTexts_of_terminable h.1, nativeTexts_of_terminable h.2]
    change Library.Answer.handles <$> (ask host _ >>= _) = _
    rw [map_bind]
    rfl
  | markVariables vars requests gradients =>
    have hlengths : ¬ (vars.length ≠ requests.length ∨ vars.length ≠ gradients.length) := by
      rw [not_or, not_not, not_not]
      exact h
    change (fun _ => Library.Answer.done) <$> markVariables host vars requests gradients = _
    unfold markVariables
    rw [if_neg hlengths]
    rfl
  | type | device | storage =>
    change _ <$> (_ >>= _) = _
    rw [map_bind]
    exact bind_congr fun _ => map_ofExcept _ _
  | version | gpuCount | listOps | shape | copyOut | getGrad | setRecording | setTraining =>
    change _ <$> (_ >>= _) = _
    rw [map_bind]
    rfl
  | _ => rfl

theorem perform_refuses {c : Library.Call} (h : ¬ c.Fit) :
    ∃ r, c.perform (library host) = throw (.invalid r) := by
  cases c with
  | create device s type storage delayed =>
    obtain ⟨r, hr⟩ := nativeDims_refuses h
    refine ⟨r, ?_⟩
    change Library.Answer.handle <$> create host device s type storage delayed = _
    unfold create
    rw [hr]
    rfl
  | getOp name =>
    refine ⟨.zeroOctet name, ?_⟩
    change Library.Answer.operator <$> getOp host name = _
    unfold getOp
    rw [nativeText_refuses h]
    rfl
  | invoke op inputs outputs params =>
    change ∃ r, Library.Answer.handles <$> invoke host op inputs outputs params = _
    unfold invoke
    by_cases hkeys : ∀ key ∈ params.native.1, Library.Call.Terminable key
    · have hvalues : ¬ ∀ value ∈ params.native.2, Library.Call.Terminable value :=
        fun hvalues => h ⟨hkeys, hvalues⟩
      obtain ⟨r, hr⟩ := nativeTexts_refuses hvalues
      refine ⟨r, ?_⟩
      simp only [nativeTexts_of_terminable hkeys, hr]
      rfl
    · obtain ⟨r, hr⟩ := nativeTexts_refuses hkeys
      refine ⟨r, ?_⟩
      simp only [hr]
      rfl
  | markVariables vars requests gradients =>
    have hlengths : vars.length ≠ requests.length ∨ vars.length ≠ gradients.length :=
      Decidable.not_and_iff_or_not.1 h
    refine ⟨.markLengths, ?_⟩
    change (fun _ => Library.Answer.done) <$> markVariables host vars requests gradients = _
    unfold markVariables
    rw [if_pos hlengths]
    rfl
  | _ => exact absurd trivial h

end Calls

section Record

inductive Question where
  | call (c : Call)
  | lastError
  deriving DecidableEq

def Host.recorded {σ : Type} (host : Host σ) : Host (σ × List Question) where
  call c s := ((host.call c s.1).1, (host.call c s.1).2, s.2 ++ [.call c])
  lastError s := ((host.lastError s.1).1, (host.lastError s.1).2, s.2 ++ [.lastError])

def explanation (text : Option Bytes) : String :=
  (text.map Text.decodeTerminated).getD "unknown native error"

variable {σ : Type} (host : Host σ)

theorem ask_of_success {c : Call} {s : σ} (h : (host.call c s).1.status = 0) :
    ask host c s = .ok (host.call c s).1.out (host.call c s).2 := if_pos h

theorem ask_of_failure {c : Call} {s : σ} (h : (host.call c s).1.status ≠ 0) :
    ask host c s = .error
      (.native c.symbol (.text (explanation (host.lastError (host.call c s).2).1)))
      (host.lastError (host.call c s).2).2 := if_neg h

variable {c : Library.Call} {s : σ} (log : List Question)

theorem perform_recorded_of_not_fit (h : ¬ c.Fit) :
    ∃ r, c.perform (library host.recorded) (s, log) = .error (.invalid r) (s, log) := by
  obtain ⟨r, hr⟩ := perform_refuses host.recorded h
  exact ⟨r, congrFun hr (s, log)⟩

theorem perform_recorded_of_success (h : c.Fit)
    (hstatus : (host.call (exchange c).call s).1.status = 0) :
    c.perform (library host.recorded) (s, log) =
      Action.ofExcept ((exchange c).conclude (host.call (exchange c).call s).1.out)
        ((host.call (exchange c).call s).2, log ++ [.call (exchange c).call]) := by
  have hask : ask host.recorded (exchange c).call (s, log) =
      .ok (host.call (exchange c).call s).1.out
        ((host.call (exchange c).call s).2, log ++ [.call (exchange c).call]) :=
    ask_of_success host.recorded hstatus
  rw [perform_of_fit host.recorded h]
  exact Action.bind_of_ok hask

theorem perform_recorded_of_failure (h : c.Fit)
    (hstatus : (host.call (exchange c).call s).1.status ≠ 0) :
    c.perform (library host.recorded) (s, log) =
      .error (.native c.function
          (.text (explanation (host.lastError (host.call (exchange c).call s).2).1)))
        ((host.lastError (host.call (exchange c).call s).2).2,
          log ++ [.call (exchange c).call, .lastError]) := by
  have hask : ask host.recorded (exchange c).call (s, log) = .error
      (.native (exchange c).call.symbol
        (.text (explanation (host.lastError (host.call (exchange c).call s).2).1)))
      ((host.lastError (host.call (exchange c).call s).2).2,
        log ++ [.call (exchange c).call] ++ [.lastError]) :=
    ask_of_failure host.recorded hstatus
  have hlog : log ++ [.call (exchange c).call] ++ [.lastError] =
      log ++ [.call (exchange c).call, .lastError] := List.append_assoc ..
  rw [perform_of_fit host.recorded h, ← symbol_exchange c, ← hlog]
  exact Action.bind_error hask

/-- One question for each call that is fit to be asked, its answer taken as the answer; a second
one, why, after a failure and nowhere else. -/
theorem perform_recorded (host : Host σ) (c : Library.Call) (s : σ) (log : List Question) :
    let call := (exchange c).call
    let answer := (host.call call s).1
    let t := (host.call call s).2
    call.symbol = c.function ∧
    (¬ c.Fit → ∃ r, c.perform (library host.recorded) (s, log) = .error (.invalid r) (s, log)) ∧
    (c.Fit → answer.status = 0 →
      c.perform (library host.recorded) (s, log) =
        Action.ofExcept ((exchange c).conclude answer.out) (t, log ++ [.call call])) ∧
    (c.Fit → answer.status ≠ 0 →
      c.perform (library host.recorded) (s, log) =
        .error (.native c.function (.text (explanation (host.lastError t).1)))
          ((host.lastError t).2, log ++ [.call call, .lastError])) :=
  ⟨symbol_exchange c, perform_recorded_of_not_fit host log,
    perform_recorded_of_success host log, perform_recorded_of_failure host log⟩

end Record

end Foreign
end ScopedTensor
