import DeferredOpen.Log.Filter
import DeferredOpen.Program

/-!
# Command line

Runs the program against the system it stands on. A run is a function of the world; where it
depends on whether a file can be opened, the real system is asked at that moment, and the run is
continued with the answer. A child runs inside the same process, at the same time as its parent.
-/

namespace DeferredOpen.CommandLine

/-- The number of the system's fault behind a failed request. -/
def faultOf : IO.Error → SystemFault
  | .noFileOrDirectory _ code _ | .permissionDenied _ code _ | .inappropriateType _ code _
  | .invalidArgument _ code _ | .resourceExhausted _ code _ | .noSuchThing _ code _ =>
    ⟨code.toNat⟩
  | .hardwareFault code _ | .otherError code _ | .resourceBusy code _ => ⟨code.toNat⟩
  | _ => ⟨5⟩

def request (path : Path) : IO (Except SystemFault Unit) := do
  try
    let _ ← IO.FS.Handle.mk path.shown .read
    pure (.ok ())
  catch e => pure (.error (faultOf e))

def environment : IO (List (String × Bytes)) :=
  [Variable.delay, Variable.file].filterMapM fun v => do
    pure ((← IO.getEnv v.name).map fun text => (v.name, Utf8.encode text))

def filter : IO Log.Filter := do
  pure (Log.Filter.ofText ((← IO.getEnv "RUST_LOG").getD ""))

/-- Lets an event happen, and gives the children that it starts. -/
def perform (filter : Log.Filter) : Event → IO (List Child)
  | .wrote bytes => do
    (← IO.getStdout).putStr (Utf8.shown bytes)
    pure []
  | .flushed => do
    (← IO.getStdout).flush
    pure []
  | .slept sleep => do
    IO.sleep (UInt32.ofNat (sleep.length / Duration.perMillisecond + 1))
    pure []
  | .logged record => do
    if filter.keeps {} record then IO.eprintln (record.line {})
    pure []
  | .started _ (.ok child) => pure [child]
  | _ => pure []

def isOpening : Event → Bool
  | .opened _ _ => true
  | _ => false

/-- Runs the program and lets its events happen. -/
partial def live (world : World) (arguments : List Bytes) : IO UInt32 := do
  let filter ← filter
  let run (w : World) : Ended := Program.main arguments { world := w }
  let happen (events : List Event) : IO (List (Task (Except IO.Error UInt32))) :=
    events.foldlM (fun tasks e => do
      let children ← perform filter e
      let started ← children.mapM fun c => IO.asTask (live world c.arguments) .dedicated
      pure (tasks ++ started)) []
  let draft := run world
  let before := draft.process.history.takeWhile fun e => !isOpening e
  let tasks ← happen before
  let (ended, more) ←
    match draft.process.history[before.length]? with
    | some (.opened path _) => do
      let answer ← request path
      let ended := run { world with access := fun _ _ _ => answer }
      pure (ended, ← happen (ended.process.history.drop before.length))
    | _ => pure (draft, [])
  match ended.complaint with
  | .fault text => IO.eprint text
  | .panic => IO.eprintln "panic"
  | .none => pure ()
  for task in tasks ++ more do
    let _ ← IO.wait task
  pure (UInt32.ofNat (ended.code.getD 0))

end DeferredOpen.CommandLine

def main (arguments : List String) : IO UInt32 := do
  let given ← DeferredOpen.CommandLine.environment
  let world := DeferredOpen.World.installed DeferredOpen.Files.standard given
  DeferredOpen.CommandLine.live world (("program" :: arguments).map DeferredOpen.Utf8.encode)
