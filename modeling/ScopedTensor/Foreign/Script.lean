import ScopedTensor.Foreign.Call

/-! A foreign engine that follows a script: each call takes the next reply and is written down. A
call beyond the script succeeds with zeros, missing lists and fresh handles. -/

namespace ScopedTensor.Foreign

structure Reply where
  status : Int
  /-- The text kept when the status is not zero. -/
  error : Option Bytes
  ints : Option (List Int)
  handles : Option (List Nat)
  names : Option (List Bytes)
  bytes : Bytes
  /-- How many octets of a host buffer are looked at. -/
  peek : Nat
  /-- Lists are missing. -/
  absent : Bool

def Reply.silent : Reply := ⟨0, none, none, none, none, [], 0, false⟩

namespace Reply

variable (r : Reply)

def int (i : Nat) : Int := ((r.ints.getD []).getD i 0).bmod (Nat.pow 2 32)

def listing {α : Type} (xs : List α) : Listing α :=
  ⟨xs.length, if r.absent then none else some xs⟩

end Reply

/-- A call as far as it is looked at: no head gradients beyond the count of the heads. -/
def Call.seen : Call → Call
  | .backward count heads headGradients retain training =>
    .backward count heads (headGradients.map fun gs => gs.take count) retain training
  | c => c

inductive Event where
  /-- A call, and how many octets of its host buffer were looked at. -/
  | call (c : Call) (peek : Nat)
  | lastError
  deriving DecidableEq

structure Script where
  replies : List Reply
  lastError : Option Bytes
  lastHandle : Nat
  log : List Event

namespace Script

def empty : Script := ⟨[], none, 0, []⟩

variable (s : Script)

def fresh : Nat × Script := (s.lastHandle + 1, { s with lastHandle := s.lastHandle + 1 })

def handle (r : Reply) : Nat × Script :=
  match r.handles with
  | some (h :: _) => (h, s)
  | _ => s.fresh

def arrayHandle (r : Reply) : Handle × Script :=
  let (n, s) := s.handle r
  (⟨n⟩, s)

def outputs (r : Reply) : Listing Handle × Script :=
  if r.handles.isNone && r.ints.isNone && !r.absent then
    let (n, s) := s.fresh
    (⟨1, some [⟨n⟩]⟩, s)
  else
    let hs := (r.handles.getD []).map Handle.mk
    let count := if (r.ints.getD []).isEmpty then (hs.length : Int) else r.int 0
    (⟨count, if r.absent then none else some hs⟩, s)

def written (r : Reply) : (c : Call) → c.Out × Script
  | .version | .gpuCount | .type _ | .storage _ | .setRecording _ | .setTraining _ => (r.int 0, s)
  | .context _ => ((r.int 0, r.int 1), s)
  | .shape _ => (r.listing ((r.ints.getD []).map fun i => (i % Int.pow 2 32).toNat), s)
  | .opNames => (r.listing (r.names.getD []), s)
  | .invoke _ _ _ _ (some given) _ _ _ => (⟨given.length, some given⟩, s)
  | .invoke _ _ _ _ none _ _ _ => s.outputs r
  | .create .. | .createSparse .. | .row .. | .slice .. | .reshape .. | .getGrad _ =>
    s.arrayHandle r
  | .opHandle _ =>
    let (n, s) := s.handle r
    (⟨n⟩, s)
  | .copyOut .. => (r.bytes, s)
  | .randomSeed _ | .free _ | .copyIn .. | .waitToRead _ | .waitToWrite _ | .waitAll
  | .markVariables .. | .backward .. => ((), s)

def note (e : Event) : Script := { s with log := s.log ++ [e] }

def answer (c : Call) (s : Script) : Answer c.Out × Script :=
  let r := s.replies.head?.getD .silent
  let s := { s with replies := s.replies.tail }.note (.call c.seen r.peek)
  if r.status = 0 then
    let (out, s) := s.written r c
    (⟨0, out⟩, s)
  else (⟨r.status, c.unwritten⟩, { s with lastError := r.error })

def host : Host Script where
  call := answer
  lastError s := (s.lastError, s.note .lastError)

end Script
end ScopedTensor.Foreign
