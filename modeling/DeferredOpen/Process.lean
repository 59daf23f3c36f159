import DeferredOpen.Log
import DeferredOpen.Sink
import DeferredOpen.Timer.Flags
import DeferredOpen.Timer.Wait
import DeferredOpen.World

/-!
# Processes

A process lives in a world that it shares with others, and has a state of its own: the time it has
reached, its flags and descriptors, what it has written, the children it has started, and a
history of all it has done. An `Action` runs in a process: it changes the state and gives a value,
or stops.
-/

namespace DeferredOpen

structure Child where
  pid : Nat
  image : Image
  command : Command
  deriving DecidableEq, Repr

inductive Event where
  | asked (name : Variable)
  | wrote (bytes : Bytes)
  | flushed
  | slept (sleep : Timer.Sleep)
  | opened (path : Path) (result : Except SystemFault Descriptor)
  | started (command : Command) (result : Except Fault Child)
  | logged (record : Log.Record)

structure Process where
  world : World
  now : Nat := 0
  flags : Flags := {}
  /-- Cancellations that others are going to make, and when. -/
  pending : List (Nat × Flag) := []
  /-- The descriptors in use, the newest first. -/
  held : List Descriptor := [⟨2⟩, ⟨1⟩, ⟨0⟩]
  out : Sink := {}
  children : List Child := []
  history : List Event := []

abbrev Action := ExceptT Stop (StateM Process)

namespace Process

def after (p : Process) (e : Event) : Process := { p with history := p.history ++ [e] }

@[simp] theorem history_after (p : Process) (e : Event) :
    (p.after e).history = p.history ++ [e] := rfl

@[simp] theorem world_after (p : Process) (e : Event) : (p.after e).world = p.world := rfl

@[simp] theorem now_after (p : Process) (e : Event) : (p.after e).now = p.now := rfl

@[simp] theorem flags_after (p : Process) (e : Event) : (p.after e).flags = p.flags := rfl

@[simp] theorem held_after (p : Process) (e : Event) : (p.after e).held = p.held := rfl

@[simp] theorem out_after (p : Process) (e : Event) : (p.after e).out = p.out := rfl

@[simp] theorem children_after (p : Process) (e : Event) :
    (p.after e).children = p.children := rfl

def records (p : Process) : List Log.Record :=
  p.history.filterMap fun
    | .logged r => some r
    | _ => none

/-- Whether a flag is raised for those who look at it at an instant. -/
def raisedAt (p : Process) (flag : Flag) (t : Nat) : Bool :=
  p.flags.isRaised flag || p.pending.any fun (due, f) => f = flag && due ≤ t

/-- The process when all pending cancellations have been made. -/
def settle (p : Process) : Process :=
  p.pending.foldl
    (fun q c => { q with now := max q.now c.1, flags := q.flags.raise c.2 })
    { p with pending := [] }

/-- A process at its start, in the same world at the same time. -/
def fresh (p : Process) : Process := { world := p.world, now := p.now }

def openedInOrder (p : Process) : List Nat :=
  p.history.filterMap fun
    | .opened _ (.ok d) => some d.number
    | _ => none

end Process

namespace Action

def runIn (a : Action α) (p : Process) : Except Stop α × Process := a p

def fail (fault : Fault) : Action α := throw (.failed fault)

def log (r : Log.Record) : Action Unit := fun p => (.ok (), p.after (.logged r))

def write (text : String) : Action Unit := fun p =>
  let bytes := Utf8.encode text
  let (result, out) := p.out.write bytes
  (result, { p with out }.after (.wrote (p.out.fitting bytes)))

def flush : Action Unit := fun p =>
  let (result, out) := p.out.flush
  (result, { p with out }.after .flushed)

def settings : Action Settings := fun p =>
  let reading := Settings.read p.world.answer
  (reading.result, { p with history := p.history ++ reading.asked.map .asked })

/-- Makes a flag that belongs to nobody else. -/
def makeFlag : Action Flag := fun p =>
  (.ok p.flags.next, { p with flags := p.flags.make })

def openFile (path : Path) : Action Descriptor := fun p =>
  match p.world.opens p.now path with
  | .error e =>
    (.error (.failed ((Fault.ofSystem e).context ("Unable to open '" ++ path.shown ++ "'"))),
      p.after (.opened path (.error e)))
  | .ok () =>
    let d := p.world.numbering.pick p.held
    let opened := { p with held := d :: p.held }.after (.opened path (.ok d))
    (.ok d, opened.after (.logged (.opened path d.number)))

/-- A text to be passed to the system holds a NUL. -/
def nulFault : Fault := .ofKind .invalidInput "nul byte found in provided data"

/-- What the system makes of a command: a child, or a fault. -/
def startable (p : Process) (c : Command) : Except Fault Child :=
  if c.holdsNul then .error nulFault
  else match p.world.find p.world.files c with
    | .error e => .error (.ofSystem e)
    | .ok image => .ok ⟨p.children.length + 1, image, c⟩

/-- Starts a command without waiting for its end. -/
def start (c : Command) : Action Child := fun p =>
  match startable p c with
  | .error fault =>
    (.error (.failed (fault.context ("Unable to spawn '" ++ c.app.shown ++ "'"))),
      p.after (.started c (.error fault)))
  | .ok child =>
    let started := { p with children := p.children ++ [child] }.after (.started c (.ok child))
    (.ok child, started.after (.logged (.spawned c child.pid)))

def thisProgram : Action Command := fun p =>
  match p.world.executable with
  | .ok app => (.ok { app }, p)
  | .error e =>
    (.error (.failed ((Fault.ofSystem e).context "Unable to locate current executable")), p)

end Action

end DeferredOpen
