import DeferredOpen.Session.Operation
import DeferredOpen.Session.Table

/-!
# Sessions

A session is one process in which things are made, run and dropped by name. `Session.step` does
one operation. Handles are names for flags, so they stay good when the timer they were taken from
is gone. A run with a cancellation to come ends only when that has been made, too.
-/

namespace DeferredOpen

/-- A process and the things it keeps under names. -/
structure Session where
  process : Process
  probes : Table Probe := {}
  timers : Table (Timer Session.Task) := {}
  handles : Table Flag := {}
  launchers : Table Launcher := {}

namespace Session

def inWorld (world : World) : Session := { process := { world } }

def runIn (s : Session) (a : Action α) : Except Stop α × Session :=
  let (result, process) := a.runIn s.process
  (result, { s with process })

def changeFiles (s : Session) (change : Files → Files) : Session :=
  let world := s.process.world
  { s with process := { s.process with world := { world with files := change world.files } } }

def writingTo (s : Session) (out : Sink) : Session :=
  { s with process := { s.process with out } }

/-- Lets someone else raise a flag after a while. -/
def cancelling (s : Session) (flag : Option Flag) (after : Option Duration) : Session :=
  match flag, after with
  | some flag, some delay =>
    let due := (s.process.now + delay.nanos, flag)
    { s with process := { s.process with pending := due :: s.process.pending } }
  | _, _ => s

/-- Waits until all cancellations have been made that are to come. -/
def settle (s : Session) : Session := { s with process := s.process.settle }

/-- Lets the children run to their end that were started after the first `count`, and gives the
code of the last. -/
def reap (s : Session) (count : Nat) : Option Nat × Session :=
  (s.process.children.drop count).foldl
    (fun (_, s) child =>
      let ended := child.run s.process
      (ended.code, s.changeFiles fun _ => ended.process.world.files))
    (none, s)

/-- What the file of the recorder holds. The file is taken away. -/
def takeRecorded (s : Session) : Option Bytes × Session :=
  (s.process.world.files.content? Recorder.path,
    s.changeFiles (·.attempt fun files => files.unlink Recorder.path))

def makeProbe (s : Session) (name : String) (source : Settings.Source) : Answer × Session :=
  match source.settings with
  | .error stop => (.stopped stop, s)
  | .ok settings =>
    match s.runIn (Probe.create settings) with
    | (.ok probe, s) => (.settings settings, { s with probes := s.probes.insert name probe })
    | (.error stop, s) => (.stopped stop, s)

def runProbe (s : Session) (name : String) (out : Sink) (cancelAfter : Option Duration) :
    Answer × Session :=
  match s.probes.get? name with
  | none => (.unknownName, s)
  | some probe =>
    let started := (s.writingTo out).cancelling probe.flag? cancelAfter
    let (result, process, probe) := Probe.runTaking (started.process, probe)
    let after := { started with process, probes := s.probes.insert name probe }.settle
    (.probeRan result process.out probe.state, after)

/-- Makes a probe for settings and runs it, without giving it a name. -/
def probeOnce (s : Session) (source : Settings.Source) (out : Sink) : Answer × Session :=
  match source.settings with
  | .error stop => (.probedOnce (.error stop) out, s)
  | .ok settings =>
    let (result, ran) := (s.writingTo out).runIn (Probe.runWith settings)
    (.probedOnce result ran.process.out, ran)

def Task.run : Task → Action String
  | .give text => pure text
  | .panic => throw .panicked

def timerAction (timer : Timer Task) : Action (Option String) := do
  match ← timer.run with
  | some task => some <$> task.run
  | none => pure none

/-- Runs the timer under a name, which is gone then. -/
def runTimer (s : Session) (name : String) (cancelAfter : Option Duration) : Answer × Session :=
  match s.timers.get? name with
  | none => (.unknownName, s)
  | some timer =>
    let taken := { s with timers := s.timers.erase name }
    let (result, ran) :=
      (taken.cancelling (some timer.flag) cancelAfter).runIn (timerAction timer)
    let answer : Answer :=
      match result with
      | .error stop => .stopped stop
      | .ok none => .notFired
      | .ok (some text) => .fired text (s.process.now + timer.delay.nanos ≤ ran.process.now)
    (answer, ran.settle)

/-- Starts a command and waits for its end. -/
def start (s : Session) (command : Command) : Answer × Session :=
  match s.runIn (Action.start command) with
  | (.error stop, s) => (.stopped stop, s)
  | (.ok _, started) =>
    let (code, reaped) := started.reap s.process.children.length
    let (recorded, after) := reaped.takeRecorded
    (.childEnded code recorded, after)

/-- Runs the launcher under a name and waits for the end of its child. -/
def runLauncher (s : Session) (name : String) (out : Sink) : Answer × Session :=
  match s.launchers.get? name with
  | none => (.unknownName, s)
  | some launcher =>
    let (result, ran) := (s.writingTo out).runIn launcher.run
    let (code, reaped) := ran.reap s.process.children.length
    let (recorded, after) := reaped.takeRecorded
    (.launcherRan (result.map fun _ => code) ran.process.out recorded, after)

def withNamed (s : Session) (thing : Option α) (answer : α → Answer × Session) :
    Answer × Session :=
  match thing with
  | some thing => answer thing
  | none => (.unknownName, s)

def step (s : Session) : Operation → Answer × Session
  | .add path entry => (.done, s.changeFiles (·.attempt (·.add path entry)))
  | .erase path => (.done, s.changeFiles (·.attempt (·.erase path)))
  | .rename source target => (.done, s.changeFiles (·.attempt (·.rename source target)))
  | .enter path => (.done, s.changeFiles (·.attempt (·.enter path)))
  | .openFile path =>
    match s.runIn (Action.openFile path) with
    | (.ok d, s) => (.opened d, s)
    | (.error stop, s) => (.stopped stop, s)
  | .makeProbe name source => s.makeProbe name source
  | .probeState name => s.withNamed (s.probes.get? name) fun probe => (.state probe.state, s)
  | .probeHandle name handle =>
    s.withNamed (s.probes.get? name) fun probe =>
      match probe.flag? with
      | some flag => (.handleTaken true, { s with handles := s.handles.insert handle flag })
      | none => (.handleTaken false, s)
  | .runProbe name out cancelAfter => s.runProbe name out cancelAfter
  | .probeOnce source out => s.probeOnce source out
  | .makeTimer name delay task =>
    match s.runIn (Timer.create delay task) with
    | (.ok timer, s) => (.done, { s with timers := s.timers.insert name timer })
    | (.error stop, s) => (.stopped stop, s)
  | .timerDelay name => s.withNamed (s.timers.get? name) fun timer => (.delay timer.delay, s)
  | .timerHandle name handle =>
    s.withNamed (s.timers.get? name) fun timer =>
      (.done, { s with handles := s.handles.insert handle timer.flag })
  | .runTimer name cancelAfter => s.runTimer name cancelAfter
  | .copyHandle name handle =>
    s.withNamed (s.handles.get? name) fun flag =>
      (.done, { s with handles := s.handles.insert handle flag })
  | .cancel name =>
    s.withNamed (s.handles.get? name) fun flag =>
      (.done, { s with process := { s.process with flags := s.process.flags.raise flag } })
  | .isCancelled name =>
    s.withNamed (s.handles.get? name) fun flag =>
      (.cancelled (s.process.flags.isRaised flag), s)
  | .drop name =>
    let known := s.probes.contains name || s.timers.contains name ||
      s.handles.contains name || s.launchers.contains name
    (.dropped known, { s with
      probes := s.probes.erase name
      timers := s.timers.erase name
      handles := s.handles.erase name
      launchers := s.launchers.erase name })
  | .start command => s.start command
  | .makeLauncher name command =>
    let launcher := Launcher.ofCommand command
    (.command launcher.command, { s with launchers := s.launchers.insert name launcher })
  | .runLauncher name out => s.runLauncher name out

structure Report where
  answer : Answer
  records : List Log.Record

def report (s : Session) (op : Operation) : Report × Session :=
  let (answer, after) := s.step op
  (⟨answer, after.process.records.drop s.process.records.length⟩, after)

end Session

end DeferredOpen
