import ScopedTensor.Proofs.Agreement.Readings

/-! Operators that the reference engine runs on arrays of a session. An operator whose inputs fit
makes an array of the shape that was inferred, and contents are copied between arrays of one
shape. -/

namespace ScopedTensor

open ScopedTensor.Action Session Backends Relation

variable {half : HalfPrecision}
variable {α β : Type} {gpus : Nat → Nat} {W : Watch Backends} {s t : Session Backends}
variable {id j : ArrayId} {a : Tensor Backends} {h : Handle} {i : Nat} {e : Reference.Entry}
variable {k : Trait} {x : Library.Answer} {engine : LoadedEngine Backends}

theorem forall₂_singleton_left {R : α → β → Prop} {x : α} {ys : List β}
    (h : List.Forall₂ R [x] ys) : ∃ y, R x y ∧ ys = [y] := by
  obtain ⟨y, _, hxy, hrest, rfl⟩ := List.forall₂_cons_left_iff.1 h
  exact ⟨y, hxy, by rw [List.forall₂_nil_left_iff.1 hrest]⟩

theorem Action.Checks.mapM_fact {σ : Type} {P : σ → Prop} {f : β → Action σ α} {C : β → α → Prop}
    (h : ∀ y, Checks P (f y) fun x s => P s ∧ C y x) (ys : List β) :
    Checks P (ys.mapM f) fun xs s => P s ∧ List.Forall₂ C ys xs := by
  induction ys with
  | nil => exact checks_pure fun _ hs => ⟨hs, .nil⟩
  | cons y ys ih =>
    rw [List.mapM_cons]
    refine (h y).bind_fact fun x hx => ih.bind_fact fun xs hxs => ?_
    exact checks_pure fun _ hs => ⟨hs, .cons hx hxs⟩

namespace Backends

theorem invoke_operators (op : Operator) (i n : Nat) (inputs : List Handle)
    (outputs : Option (List Handle)) (params : Params) :
    Reference.operators.invoke (referenceLibrary i n) op.name inputs outputs params =
      inPlace i (Reference.invoke .deferred n ⟨op.number⟩ inputs outputs params) := by
  unfold OperatorTable.invoke
  rw [Reference.lookup_operators]
  rfl

end Backends

namespace Session

theorem run_eq {op : Operator} {handles made : List Handle} {outputs : Option (List Handle)}
    {params : Params} {n : Reference.State} (hloaded : engine.operators = Reference.operators)
    (hlib : engine.library = referenceLibrary i (gpus i))
    (hinvoke : Reference.invoke .deferred (gpus i) ⟨op.number⟩ handles outputs params
      (t.native.reference i) = .ok made n) :
    run engine op.name handles outputs params t =
      .ok made { t with native :=
        { t.native with references := t.native.references.set i n } } := by
  refine onNative_ok ?_
  rw [hloaded, hlib, invoke_operators]
  exact inPlace_ok.2 ⟨n, hinvoke, rfl⟩

theorem reads_operands (hs : InStep gpus W s) (id : ArrayId) (inputs : List ArrayId) :
    Checks (Reads gpus W s)
      (inputs.mapM fun input => do
        requireSameEngine .foreignOperand id input
        handle input)
      fun handles t => Reads gpus W s t ∧ List.Forall₂
        (fun input h => s.Together id input ∧ ∃ i e, Stands gpus s input h i e) inputs handles := by
  refine Checks.mapM_fact (fun input => ?_) inputs
  refine (reads_requireSameEngine .foreignOperand id input).bind_fact fun _ htogether => ?_
  exact (reads_handle hs input).imp (fun _ ht => ht) fun _ _ ht => ⟨ht.1, htogether, ht.2⟩

theorem InStep.operands (hs : InStep gpus W s) (ha : s.arrays.get? id = some a)
    (hlib : a.engine.library = referenceLibrary i (gpus i)) {inputs : List ArrayId}
    {handles : List Handle} (h : List.Forall₂
      (fun input h => s.Together id input ∧ ∃ i e, Stands gpus s input h i e) inputs handles) :
    ∃ entries, handles.mapM (s.native.reference i).entry = .ok entries ∧
      List.Forall₂ (fun input e => ∃ h, Stands gpus s input h i e) inputs entries := by
  induction h with
  | nil => exact ⟨[], rfl, .nil⟩
  | @cons input h inputs handles hfirst _ ih =>
    obtain ⟨entries, hentries, hall⟩ := ih
    obtain ⟨⟨a', b, ha', hb, hid⟩, j, e, hst⟩ := hfirst
    obtain rfl : a' = a := Option.some.inj (ha'.symm.trans ha)
    have hengine : b.engine = a'.engine := hs.tended.together ha' hb hid
    obtain ⟨b', hb', -, hlib'⟩ := hst.array
    obtain rfl : b' = b := Option.some.inj (hb'.symm.trans hb)
    obtain rfl : i = j := place_inj hst.place (hlib'.symm.trans (hengine ▸ hlib))
    refine ⟨e :: entries, ?_, .cons ⟨h, hst⟩ hall⟩
    exact mapM_eq_ok.2 (.cons (Reference.entry_eq_ok.2 hst.entry) (mapM_eq_ok.1 hentries))

theorem Tells.entered (hx : s.Tells id k x) (S : ScopeId) (j : ArrayId) : (s.entered S j).Tells id k x := by
  intro a ha hopen
  rcases Table.get?_modify_eq_some.1 ha with ⟨rfl, b, hb, rfl⟩ | ⟨-, ha⟩
  · exact hx b hb hopen
  · exact hx a ha hopen

theorem says_wrapped (hx : s.native.Vouches engine.library h k x) (known : Option Description) :
    (s.wrapped engine h known).Tells (s.lastId + 1) k x := by
  intro a ha _
  rcases Table.get?_insert_eq_some.1 ha with ⟨-, rfl⟩ | ⟨hne, -⟩
  · exact hx
  · exact absurd rfl hne

theorem checks_wrapAll (owner : Option ScopeId) (known : Option Description) :
    Checks (fun t => t.native.Vouches engine.library h k x) (wrapAll engine owner known [h])
      fun ids t => ∃ g, ids = [g] ∧ t.Tells g k x := by
  refine Checks.bind (Q := fun ids t => ∃ g, ids = [g] ∧ t.Tells g k x) (fun t ht => ?_) fun ids => ?_
  · have hwrap : [h].mapM (fun h => wrap engine h known) t =
        .ok [t.lastId + 1] (t.wrapped engine h known) := by
      rw [List.mapM_cons]
      exact bind_ok.2 ⟨_, _, wrap_eq t engine h known, rfl⟩
    rw [hwrap]
    exact ⟨_, rfl, says_wrapped ht known⟩
  · refine .of_state fun t ⟨g, hids, hg⟩ => ?_
    subst hids
    have hattach : Checks (fun t => t.Tells g k x) (attach owner g) fun _ t => t.Tells g k x :=
      checks_attach (fun _ S id ht => ht.entered S id) owner g
    have hall : Checks (fun t => t.Tells g k x) ([g].forM (attach owner)) fun _ t => t.Tells g k x :=
      hattach.bind fun _ => checks_pure fun _ ht => ht
    exact (hall.start hg).bind fun _ => checks_pure fun _ ht => ⟨g, rfl, ht⟩

variable {op : Operator} {first : ArrayId} {rest : List ArrayId} {params : Params}
variable {C : Signature → Prop}

theorem reads_outputsOf (hs : InStep gpus W s) (id : ArrayId)
    (hinfer : ∀ i entries,
      List.Forall₂ (fun input e => ∃ h, Stands gpus s input h i e) (first :: rest) entries →
        ∃ sig, op.infer (entries.map Reference.Entry.signature) params = .ok [sig] ∧ C sig) :
    Checks (Reads gpus W s) (outputsOf id op.name (first :: rest) params)
      fun ids t => ∃ g sig, ids = [g] ∧ C sig ∧ t.Tells g .shape (.shape sig.shape) := by
  refine (reads_operands hs id (first :: rest)).bind_fact fun handles hhandles => ?_
  refine (reads_array id).bind fun b t ⟨ht, a, ha, hengine⟩ => ?_
  obtain ⟨i, hlib⟩ := (hs.equipped.arrays id a ha).library
  have hloaded := (hs.equipped.arrays id a ha).operators
  obtain ⟨entries, hentries, hall⟩ := hs.operands ha hlib hhandles
  obtain ⟨sig, hsig, hC⟩ := hinfer i entries hall
  obtain ⟨e, entries, ⟨h, hst⟩, -, rfl⟩ := List.forall₂_cons_left_iff.1 hall
  have hdevice := hs.maintained.housed i _ _ hst.entry
  obtain ⟨g, n, hinvoke, hvouches⟩ := Reference.invoke_makes hentries hsig hdevice
  rw [← ht.asked.native] at hinvoke
  rw [hengine] at hloaded hlib
  rw [bind_of_ok (run_eq hloaded hlib hinvoke)]
  have hmade : Backends.Vouches { t.native with references := t.native.references.set i n }
      b.engine.library g .shape (.shape sig.shape) := by
    have hi : i < t.native.references.length := ht.asked.native ▸ hst.place
    refine ⟨i, gpus i, by simpa using hi, hlib, ?_⟩
    rw [reference_set_self hi]
    exact hvouches
  have hwrapped : Checks (fun u => u.native.Vouches b.engine.library g .shape (.shape sig.shape))
      (wrapAll b.engine b.owner none [g]) _ := checks_wrapAll b.owner none
  refine (hwrapped.imp (fun _ hu => hu) fun ids u ⟨g, hids, hg⟩ => ?_) _ hmade
  exact ⟨g, sig, hids, hC, hg⟩

theorem reads_outputOf (hs : InStep gpus W s) (id : ArrayId)
    (hinfer : ∀ i entries,
      List.Forall₂ (fun input e => ∃ h, Stands gpus s input h i e) (first :: rest) entries →
        ∃ sig, op.infer (entries.map Reference.Entry.signature) params = .ok [sig] ∧ C sig) :
    Checks (Reads gpus W s) (outputOf id op.name (first :: rest) params)
      fun g t => ∃ sig, C sig ∧ t.Tells g .shape (.shape sig.shape) := by
  refine (reads_outputsOf hs id hinfer).bind fun ids => .of_state fun t ⟨g, sig, hids, hC, hg⟩ => ?_
  subst hids
  exact checks_of_ok (a := do
    [].forM letGo
    return g) rfl ⟨sig, hC, hg⟩

theorem checks_copyInto (source target : ArrayId) :
    Checks (InStep gpus W) (copyInto source target) fun _ _ => True := by
  refine .of_state fun s hs => ?_
  suffices hcopy : Checks (Reads gpus W s) (copyInto source target) fun _ _ => True from
    hcopy.start hs.reads
  refine (reads_requireSameEngine .foreignDestination source target).bind_fact fun _ htogether => ?_
  refine (reads_shape hs source).bind_fact fun y hy => (reads_shape hs target).bind_fact fun z hz => ?_
  refine .guard (.invalid _) fun hshape => ?_
  refine (reads_handle hs target).bind_fact fun th ⟨j, d, htarget⟩ => ?_
  refine (reads_handle hs source).bind_fact fun sh ⟨i, e, hsource⟩ => ?_
  refine (reads_array source).bind fun c t ⟨ht, a, ha, hengine⟩ => ?_
  obtain ⟨a', ha', -, hlib⟩ := hsource.array
  obtain rfl : a' = a := Option.some.inj (ha'.symm.trans ha)
  have hoperands : List.Forall₂ (fun input h => s.Together source input ∧ ∃ i e,
      Stands gpus s input h i e) [target] [th] := .cons ⟨htogether, j, d, htarget⟩ .nil
  obtain ⟨entries, hentries, hall⟩ := hs.operands ha hlib hoperands
  obtain ⟨d', ⟨th', htarget'⟩, rfl⟩ := forall₂_singleton_left hall
  obtain ⟨rfl, rfl, rfl⟩ := htarget.unique htarget'
  have hsame : d'.view.shape = e.view.shape := by
    rw [hsource.shape_eq hy, htarget.shape_eq hz, not_not.1 hshape]
  obtain ⟨tape, hinvoke⟩ := Reference.invoke_copies (gpus i) hsource.entry htarget'.entry
    (congrArg Shape.size hsame)
  rw [← ht.asked.native] at hinvoke
  have hloaded := (hs.equipped.arrays source a' ha).operators
  rw [hengine] at hloaded hlib
  have hrun : run c.engine "_copyto" [sh] (some [th']) .empty t = _ := run_eq hloaded hlib hinvoke
  rw [bind_of_ok hrun]
  trivial

end Session
end ScopedTensor
