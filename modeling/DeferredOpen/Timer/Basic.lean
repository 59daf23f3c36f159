import DeferredOpen.Process

/-!
# Timers

A timer holds a task back for a delay and can be cancelled through its flag until then. Running it
gives the task when the delay is over and nothing when it was cancelled. The deadline is fixed
first of all: a delay that leads past the end of time breaks the run even of a cancelled timer.
-/

namespace DeferredOpen

structure Timer (α : Type) where
  delay : Duration
  flag : Flag
  task : α

namespace Timer

def create (delay : Duration) (task : α) : Action (Timer α) := do
  let flag ← Action.makeFlag
  pure ⟨delay, flag, task⟩

/-- Waits until the deadline, and tells whether the timer fires. The delay counts from what the
clock reads first. -/
def await (t : Timer α) : Action Bool := fun p =>
  let start := p.world.clock.reading p.now
  match Instant.after? start t.delay with
  | none => (.error .panicked, { p with now := start })
  | some deadline =>
    let w := wait p.world.clock (p.raisedAt t.flag) deadline start
    (.ok w.fired, { p with now := w.ended, history := p.history ++ w.sleeps.map Event.slept })

def run (t : Timer α) : Action (Option α) := do
  if ← t.await then
    Action.log (.timerFired t.delay)
    pure (some t.task)
  else
    Action.log .timerCancelled
    pure none

end Timer

end DeferredOpen
