import DeferredOpen.Timer.Basic

/-!
# Probes

A probe announces itself, waits, opens its file and prints the descriptor. It can do so once:
its timer is gone with the first run, whatever comes of that run. `Probe.run` tells what a run does
in its process; `Probe.runTaking` has the probe in its hands, too, and takes the timer out of it as
the first of its steps.
-/

namespace DeferredOpen

structure Probe where
  file : Path
  timer : Option (Timer Path)

namespace Probe

inductive State where
  | waiting
  | done
  deriving DecidableEq, Repr

def State.name : State → String
  | .waiting => "Waiting"
  | .done => "Done"

/-- A probe for these settings. No file is touched yet. -/
def create (settings : Settings) : Action Probe := do
  let timer ← Timer.create settings.delay settings.file
  pure { file := settings.file, timer := some timer }

def state (p : Probe) : State := if p.timer.isSome then .waiting else .done

/-- What cancels a probe, while it has still to run. -/
def flag? (p : Probe) : Option Flag := p.timer.map (·.flag)

def spent (p : Probe) : Probe := { p with timer := none }

@[simp] theorem state_spent (p : Probe) : p.spent.state = .done := rfl

def announcement : String := "child, reading files\n"

def report (d : Descriptor) : String := "fd: " ++ toString d.number ++ "\n"

def alreadyRun : Fault := .ofText "Probe has already run"

def run (p : Probe) : Action (Option Descriptor) := do
  match p.timer with
  | none => Action.fail alreadyRun
  | some timer =>
    Action.write announcement
    Action.flush
    Action.log (.reading p.file timer.delay)
    match ← timer.run with
    | none => pure none
    | some file =>
      let d ← Action.openFile file
      Action.write (report d)
      Action.flush
      pure (some d)

def runWith (settings : Settings) : Action (Option Descriptor) := do
  Action.log (.probing settings)
  let probe ← create settings
  probe.run

/-- What runs in a process with a probe in its hands. -/
abbrev Handling := ExceptT Stop (StateM (Process × Probe))

namespace Handling

def inProcess (a : Action α) : Handling α := fun s => ((a s.1).1, (a s.1).2, s.2)

def inHands : Handling Probe := fun s => (.ok s.2, s)

def takeTimer : Handling (Option (Timer Path)) := fun s => (.ok s.2.timer, s.1, s.2.spent)

end Handling

open Handling in
/-- Goes on with what has been taken out of the probe in hand. -/
def goOn : Option (Timer Path) → Handling (Option Descriptor)
  | none => inProcess (Action.fail alreadyRun)
  | some timer => do
    inProcess (Action.write announcement)
    inProcess Action.flush
    let probe ← inHands
    inProcess (Action.log (.reading probe.file timer.delay))
    match ← inProcess timer.run with
    | none => pure none
    | some file =>
      let d ← inProcess (Action.openFile file)
      inProcess (Action.write (report d))
      inProcess Action.flush
      pure (some d)

def runTaking : Handling (Option Descriptor) := Handling.takeTimer >>= goOn

end Probe

end DeferredOpen
