import Mathlib.Data.List.Induction
import ScopedTensor.Element.Interchange
import ScopedTensor.Proofs.Calls

/-! Marking several variables by one call. The places of the lists are gone through in order and
each is checked only when it is come to, so a place that is refused ends the call after the places in
front of it took effect. -/

namespace ScopedTensor

namespace Tape

def markAll (t : Tape) (ms : List (Nat × Mark)) : Tape := ms.foldl (fun t m => t.mark m.1 m.2) t

/-- The mark that counts among several: the last one for the number. -/
def lastMark? (ms : List (Nat × Mark)) (id : Nat) : Option Mark :=
  (ms.reverse.find? fun m => m.1 == id).map Prod.snd

theorem lastMark?_append (ms : List (Nat × Mark)) (m : Nat × Mark) (id : Nat) :
    lastMark? (ms ++ [m]) id = if id = m.1 then some m.2 else lastMark? ms id := by
  unfold lastMark?
  rw [List.reverse_append, List.reverse_singleton, List.singleton_append, List.find?_cons]
  by_cases hid : id = m.1
  · rw [if_pos hid, beq_iff_eq.2 hid.symm]
    rfl
  · rw [if_neg hid, beq_eq_false_iff_ne.2 (Ne.symm hid)]

theorem get?_markAll (t : Tape) (ms : List (Nat × Mark)) (id : Nat) :
    (t.markAll ms).marks.get? id = (lastMark? ms id).or (t.marks.get? id) := by
  induction ms using List.reverseRecOn with
  | nil => rfl
  | append_singleton ms m ih =>
    have hlast : t.markAll (ms ++ [m]) = (t.markAll ms).mark m.1 m.2 := List.foldl_append
    rw [hlast, lastMark?_append]
    change ((t.markAll ms).marks.insert m.1 m.2).get? id = _
    rw [Table.get?_insert, ih]
    split <;> rfl

theorem markAll_unnoticed_iff (t : Tape) (ms : List (Nat × Mark)) :
    (∀ id, (t.markAll ms).marks.get? id = t.marks.get? id) ↔
      ∀ id m, lastMark? ms id = some m → t.marks.get? id = some m := by
  constructor
  · intro h id m hm
    rw [← h id, get?_markAll, hm]
    rfl
  · intro h id
    rw [get?_markAll]
    cases hm : lastMark? ms id with
    | none => rfl
    | some m => exact (h id m hm).symm

end Tape

namespace Reference

open ScopedTensor.Action State Library

section

variable {half : HalfPrecision}
variable {gpus : Nat}

/-- One place of the lists of a marking call: a variable, what is asked for it, and its gradient. -/
abbrev Place := Handle × GradRequest × Handle

def State.markOf (s : State) (p : Place) : Except Error (Nat × Mark) := do
  let v ← s.entry p.1
  let g ← s.entry p.2.2
  if g.view.shape ≠ v.view.shape then
    .error (.native "mark_variables" (.markShapes g.view.shape v.view.shape))
  else return (p.1.id, ⟨p.2.1, g.view⟩)

def State.markAll (s : State) (ms : List (Nat × Mark)) : State :=
  { s with tape := s.tape.markAll ms }

theorem markOne_eq (p : Place) :
    markOne p.1 p.2.1 p.2.2 =
      transition fun s => (s.markOf p).map fun m => ((), s.markAll [m]) := by
  refine congrArg transition (funext fun s => ?_)
  unfold State.markOf
  rw [map_bind_eq]
  refine bind_congr fun v => ?_
  rw [map_bind_eq]
  refine bind_congr fun g => ?_
  by_cases hshape : g.view.shape ≠ v.view.shape
  · rw [if_pos hshape, if_pos hshape]
    rfl
  · rw [if_neg hshape, if_neg hshape]
    rfl

theorem markOne_ok {s : State} {p : Place} {m : Nat × Mark} (h : s.markOf p = .ok m) :
    markOne p.1 p.2.1 p.2.2 s = .ok () (s.markAll [m]) := by
  rw [markOne_eq, transition_ok, h]
  rfl

theorem markOne_error {s : State} {p : Place} {e : Error} (h : s.markOf p = .error e) :
    markOne p.1 p.2.1 p.2.2 s = .error e s := by
  rw [markOne_eq]
  unfold transition
  simp only [h]
  rfl

/-- The loop over the places: either all of them lead to marks, which are then set, or it stops at
the first that does not, with the marks of those in front of it set. -/
theorem forM_markOne (ps : List Place) (s : State) :
    (∃ ms, ps.mapM s.markOf = .ok ms ∧
      (ps.forM fun p => markOne p.1 p.2.1 p.2.2) s = .ok () (s.markAll ms)) ∨
    ∃ front p rest ms e, ps = front ++ p :: rest ∧ front.mapM s.markOf = .ok ms ∧
      s.markOf p = .error e ∧
      (ps.forM fun p => markOne p.1 p.2.1 p.2.2) s = .error e (s.markAll ms) := by
  induction ps generalizing s with
  | nil => exact .inl ⟨[], rfl, rfl⟩
  | cons p ps ih =>
    cases hp : s.markOf p with
    | error e => exact .inr ⟨[], p, ps, [], e, rfl, rfl, hp, bind_error (markOne_error hp)⟩
    | ok m =>
      have hsame : (s.markAll [m]).markOf = s.markOf := rfl
      -- the rest meets the state that the first mark leaves, where the same places are refused
      rcases hsame ▸ ih (s.markAll [m]) with
        ⟨ms, hms, hrest⟩ | ⟨front, q, rest, ms, e, rfl, hms, hq, hrest⟩
      · exact .inl ⟨m :: ms, mapM_eq_ok.2 (.cons hp (mapM_eq_ok.1 hms)),
          (bind_of_ok (markOne_ok hp)).trans hrest⟩
      · exact .inr ⟨p :: front, q, rest, m :: ms, e, rfl,
          mapM_eq_ok.2 (.cons hp (mapM_eq_ok.1 hms)), hq, (bind_of_ok (markOne_ok hp)).trans hrest⟩

/-- What a marking call does in any state. Lists of different lengths are refused and nothing is
marked. Otherwise either every place leads to a mark and all of them are set, or the call comes back
with what is wrong with the first place that does not, and exactly the marks of the places in front
of it are set, which goes unnoticed exactly if those that count were set already. In no case does
anything but the marks change. -/
theorem marking_stops_at_refusal [HalfPrecision] (gpus : Nat) (s : State) (vars : List Handle)
    (requests : List GradRequest) (grads : List Handle) :
    let c : Call := .markVariables vars requests grads
    let places := vars.zip (requests.zip grads)
    if vars.length ≠ requests.length ∨ vars.length ≠ grads.length then
      c.reply (library gpus) s = .error (.native "mark_variables" .markLengths) ∧
        c.step (library gpus) s = s
    else
      (∃ ms, places.mapM s.markOf = .ok ms ∧ c.reply (library gpus) s = .ok .done ∧
        c.step (library gpus) s = s.markAll ms) ∨
      ∃ front p rest ms e, places = front ++ p :: rest ∧ front.mapM s.markOf = .ok ms ∧
        s.markOf p = .error e ∧ c.reply (library gpus) s = .error e ∧
        c.step (library gpus) s = s.markAll ms ∧
        ((∀ id, (s.markAll ms).tape.marks.get? id = s.tape.marks.get? id) ↔
          ∀ id m, Tape.lastMark? ms id = some m → s.tape.marks.get? id = some m) := by
  intro c places
  have hcall : c.perform (library gpus) =
      (fun _ => Answer.done) <$> markVariables vars requests grads := rfl
  have hstep := Call.step_of_map hcall s
  split
  · rename_i hlengths
    have hrun : markVariables vars requests grads s =
        .error (.native "mark_variables" .markLengths) s := by
      unfold markVariables
      rw [if_pos hlengths]
      rfl
    exact ⟨Call.reply_of_error hcall hrun, hstep.trans (after_error hrun)⟩
  · rename_i hlengths
    have hloop : markVariables vars requests grads =
        places.forM fun p => markOne p.1 p.2.1 p.2.2 := if_neg hlengths
    rcases forM_markOne places s with
      ⟨ms, hms, hrun⟩ | ⟨front, p, rest, ms, e, hsplit, hms, hp, hrun⟩
    · rw [← hloop] at hrun
      exact .inl ⟨ms, hms, Call.reply_of_ok hcall hrun, hstep.trans (after_ok hrun)⟩
    · rw [← hloop] at hrun
      exact .inr ⟨front, p, rest, ms, e, hsplit, hms, hp, Call.reply_of_error hcall hrun,
        hstep.trans (after_error hrun), Tape.markAll_unnoticed_iff s.tape ms⟩

end

open Interchange

/-- A variable that is not there is refused, and the one in front of it has a mark it did not have
before. -/
theorem refused_marking_half_done :
    let s := Call.run (library 0) [.create .cpu ⟨[2]⟩ .f32 .dense false,
      .create .cpu ⟨[2]⟩ .f32 .dense false] .initial
    let c : Call := .markVariables [⟨1⟩, ⟨9⟩] [.write, .write] [⟨2⟩, ⟨2⟩]
    c.reply (library 0) s = .error (.native "lookup" (.unknownArray 9)) ∧
      s.tape.marks.get? 1 = none ∧
      (c.step (library 0) s).tape.marks.get? 1 = some ⟨.write, ⟨1, 0, ⟨[2]⟩, .f32⟩⟩ := by
  decide +kernel

end Reference
end ScopedTensor
