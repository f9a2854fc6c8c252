import ScopedTensor.Element.Interchange
import ScopedTensor.Proofs.Conversions.Copies

/-! Elements are narrowed wherever they are stored, and so contents come back as they were: through
a host buffer, through another array of the type, and through an array of doubles. -/

namespace ScopedTensor

open ScopedTensor.Action Binary Library Reference Relation Session Backends

section

variable {half : HalfPrecision}

namespace Reference

variable {gpus : Nat} {s : State} {h g : Handle} {e d : Entry}

theorem State.Narrowed.contents_copyIn [LawfulHalfPrecision] (hs : s.Narrowed)
    (hbounded : s.Bounded) (he : s.entries.get? h.id = some e) {t : State} (ht : t.Orderly)
    (htb : t.Bounded) (hd : t.entries.get? g.id = some d) (htype : d.view.type = e.view.type)
    (hsize : d.view.size = e.view.size) :
    ∃ u, copyIn g (e.view.type.encode (s.contents e.view)) e.view.size t = .ok ⟨⟩ u ∧
      u.contents d.view = s.contents e.view := by
  have hlength := (hbounded.length_contents (.entry he)).trans hsize.symm
  have hnarrow := hs.map_contents hbounded he
  rw [← htype] at hnarrow ⊢
  rw [← hsize]
  exact Reference.contents_copyIn ht htb hd hlength hnarrow

theorem State.Narrowed.contents_copyTo [LawfulHalfPrecision] (hs : s.Narrowed)
    (horderly : s.Orderly) (hbounded : s.Bounded) (he : s.entries.get? h.id = some e)
    (hd : s.entries.get? g.id = some d) (htype : d.view.type = e.view.type)
    (hsize : d.view.size = e.view.size) :
    ∃ t, (library gpus).invoke ⟨Operator.copyTo.number⟩ [h] (some [g]) .empty s = .ok [g] t ∧
      t.contents d.view = s.contents e.view := by
  obtain ⟨tape, hinvoked⟩ := invoke_copies gpus he hd hsize
  refine ⟨_, hinvoked, ?_⟩
  rw [Reference.contents_copyTo horderly hbounded he hd hsize tape, htype]
  exact hs.map_contents hbounded he

end Reference

/-- In every state that calls lead an engine to, whatever the calls, the views in use agree on the
type of each buffer and every element is narrowed to it. If halves come back from doubles as they
were, octets that are read and written back change nothing, also in another array and at another
time, and neither does a copy between arrays of one type; and in every state that a program reaches
an array that has its handle is copied to doubles and back to what it was. -/
theorem elements_reproduced [HalfPrecision] (load : Foreign.Loader) :
    (∀ (gpus : Nat) (cs : List Call), (Call.run (library gpus) cs .initial).Narrowed) ∧
    (LawfulHalfPrecision →
      (∀ (gpus : Nat) (cs : List Call) (h : Handle) (e : Entry),
        let s := Call.run (library gpus) cs .initial
        s.entries.get? h.id = some e →
          (∃ bytes, (library gpus).copyOut h (e.view.type.storageBytes e.view.size) e.view.size s =
              .ok bytes s.drained ∧
            (library gpus).copyIn h bytes e.view.size s.drained = .ok ⟨⟩ s.drained ∧
            ∀ (later : List Call) (g : Handle) (d : Entry),
              let t := Call.run (library gpus) later s
              t.entries.get? g.id = some d → d.view.type = e.view.type →
              d.view.size = e.view.size →
                ∃ u, (library gpus).copyIn g bytes e.view.size t = .ok ⟨⟩ u ∧
                  u.contents d.view = s.contents e.view) ∧
          ∀ (g : Handle) (d : Entry), s.entries.get? g.id = some d → d.view.type = e.view.type →
            d.view.size = e.view.size →
              ∃ t, (library gpus).invoke ⟨Operator.copyTo.number⟩ [h] (some [g]) .empty s =
                .ok [g] t ∧ t.contents d.view = s.contents e.view) ∧
      ∀ p, ReflTransGen (Program.Turn (openLibrary load) Operation.Sized) (.start .initial) p →
        ∀ id a, p.session.arrays.get? id = some a → a.owned.isReleased = false →
          ∃ gpus i e, Stands gpus p.session id a.owned.handle i e ∧
            ∀ copy copyBack, ∃ wide t new u g d,
              toType id .f64 copy p.session = .ok wide t ∧
              toType wide e.view.type copyBack t = .ok new u ∧
              Stands gpus u new g i d ∧ d.view.type = e.view.type ∧
              d.view.shape = e.view.shape ∧
              (u.native.reference i).contents d.view =
                (p.session.native.reference i).contents e.view) := by
  refine ⟨narrowed_run, fun hlawful => ⟨fun gpus cs h e => ?_, fun p hp => ?_⟩⟩
  · intro s he
    have hnarrowed : s.Narrowed := narrowed_run gpus cs
    have hbounded : s.Bounded := bounded_run gpus cs
    have horderly : s.Orderly := orderly_run orderly_initial
    refine ⟨⟨_, copyOut_accepted horderly he, ?_, ?_⟩, ?_⟩
    · exact copyIn_contents hnarrowed horderly hbounded he
    · intro later g d t hd htype hsize
      have ht : t = Call.run (library gpus) (cs ++ later) .initial :=
        (Call.run_append _ cs later _).symm
      exact hnarrowed.contents_copyIn hbounded he (orderly_run horderly) (ht ▸ bounded_run gpus _)
        hd htype hsize
    · exact fun g d hd htype hsize => hnarrowed.contents_copyTo horderly hbounded he hd htype hsize
  · obtain ⟨gpus, ⟨W, -, hs⟩, -, -⟩ := Program.inStep_reached hp
    have hsound := Backends.sound_reached (hp.lift id fun _ _ hturn => Program.Turn.next hturn)
    intro id a ha hopen
    obtain ⟨i, e, hst⟩ := hs.stands ha (OwnedHandle.get_eq_ok.2 ⟨hopen, rfl⟩)
    refine ⟨gpus, i, e, hst, fun copy copyBack => ?_⟩
    obtain ⟨wide, t, g, d, hwide, ht, htsound, hshown⟩ := hst.toType hs hsound .f64 copy
    obtain ⟨new, u, g', d', hnew, -, -, hback⟩ :=
      hshown.stands.toType ht htsound e.view.type copyBack
    refine ⟨wide, t, new, u, g', d', hwide, hnew, hback.stands, hback.type,
      hback.shape.trans hshown.shape, ?_⟩
    have hdoubles : ElementType.f64.cast = fun x : Binary64 => x := funext ElementType.cast_f64
    obtain ⟨cs, hcs⟩ := hs.maintained i
    have hbounded : (p.session.native.reference i).Bounded := hcs ▸ bounded_run _ cs
    have hnarrowed : (p.session.native.reference i).Narrowed := hcs ▸ narrowed_run _ cs
    rw [hback.contents, hshown.contents, hdoubles, List.map_id',
      hnarrowed.map_contents hbounded hst.entry]

end

open Interchange

/-- A pair of halves in an engine, and a matrix of a program. -/
theorem elements_reproduced_matrix :
    let load : Foreign.Loader := fun _ => .ok []
    let s := Call.run (library 0) [.create .cpu ⟨[2]⟩ .f16 .dense false] .initial
    (∃ bytes, (library 0).copyOut ⟨1⟩ 4 2 s = .ok bytes s.drained ∧
      (library 0).copyIn ⟨1⟩ bytes 2 s.drained = .ok ⟨⟩ s.drained) ∧
    ∃ p a wide t type new u,
      ReflTransGen (Program.Turn (openLibrary load) Operation.Sized) (.start .initial) p ∧
      p.session.arrays.get? 3 = some a ∧ toType 3 .f64 false p.session = .ok wide t ∧
      toType wide type false t = .ok new u := by
  intro load s
  obtain ⟨p, hp, -, htest⟩ := Program.exists_turned (openLibrary load) Operation.Sized
    .initial (c := .standard) rfl [.create 2 ⟨[2, 3]⟩ .f32] (by simp [Operation.Sized])
    (fun s => (s.arrays.get? 3).any fun a : Tensor Backends => !a.owned.isReleased)
    (by decide +kernel)
  obtain ⟨a, ha, hopen⟩ := (Option.any_eq_true _ _).1 htest
  obtain ⟨-, hreproduced⟩ := elements_reproduced load
  obtain ⟨hcopied, hconverted⟩ := hreproduced inferInstance
  have hentry : s.entries.get? 1 = some ⟨⟨0, 0, ⟨[2]⟩, .f16⟩, .cpu, .dense⟩ := by rfl
  obtain ⟨⟨bytes, hread, hwritten, -⟩, -⟩ := hcopied 0 _ ⟨1⟩ _ hentry
  obtain ⟨gpus, i, e, -, hback⟩ := hconverted p hp 3 a ha (by simpa using hopen)
  obtain ⟨wide, t, new, u, g, d, hwide, hnew, -⟩ := hback false false
  exact ⟨⟨bytes, hread, hwritten⟩, p, a, wide, t, e.view.type, new, u, hp, ha, hwide, hnew⟩

end ScopedTensor
