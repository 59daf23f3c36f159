import DeferredOpen.Stop
import DeferredOpen.Text.Utf8

/-!
# Sinks

A sink takes the bytes that a run writes. It may have room for a number of bytes only, and one of
its flushes may fail. A write into too little room still fills what is left; then it fails with
the sink's own fault or, without one, because nothing more is taken.
-/

namespace DeferredOpen

/-- Where a run writes, and what has been written so far. -/
structure Sink where
  /-- The bytes that can still be taken; without a number, all. -/
  room : Option Nat := none
  /-- What a write meets when there is no room. -/
  refusal : Option Fault := none
  /-- The flush that fails, counted from 1, and what it meets. -/
  flushFault : Option (Nat × Fault) := none
  accepted : Bytes := []
  flushes : Nat := 0
  deriving DecidableEq, Repr, Inhabited

namespace Sink

def writeZero : Fault := .ofKind .writeZero "failed to write whole buffer"

/-- Why a write stops at the end of the room. An interrupted write is tried again, and here it is
interrupted again each time. -/
def refuse (s : Sink) : Stop :=
  match s.refusal with
  | none => .failed writeZero
  | some fault => if fault.kind? = some .interrupted then .endless else .failed fault

def fitting (s : Sink) (bytes : Bytes) : Bytes :=
  match s.room with
  | none => bytes
  | some n => bytes.take n

def write (s : Sink) (bytes : Bytes) : Except Stop Unit × Sink :=
  let taken := s.fitting bytes
  let after : Sink :=
    { s with accepted := s.accepted ++ taken, room := s.room.map (· - taken.length) }
  (if taken.length = bytes.length then .ok () else .error s.refuse, after)

def flush (s : Sink) : Except Stop Unit × Sink :=
  let after : Sink := { s with flushes := s.flushes + 1 }
  match s.flushFault with
  | some (nth, fault) => (if after.flushes = nth then .error (.failed fault) else .ok (), after)
  | none => (.ok (), after)

@[simp] theorem accepted_write (s : Sink) (bytes : Bytes) :
    (s.write bytes).2.accepted = s.accepted ++ s.fitting bytes := rfl

@[simp] theorem accepted_flush (s : Sink) : s.flush.2.accepted = s.accepted := by
  unfold flush
  cases s.flushFault <;> rfl

@[simp] theorem flushes_flush (s : Sink) : s.flush.2.flushes = s.flushes + 1 := by
  unfold flush
  cases s.flushFault <;> rfl

end Sink

end DeferredOpen
