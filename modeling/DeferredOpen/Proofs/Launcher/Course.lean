import DeferredOpen.Launcher
import DeferredOpen.Proofs.Process.Effects

/-!
# The course of a launcher

A launcher takes five steps: it announces itself, passes that on, starts its command, takes its
leave and passes that on, too.
-/

namespace DeferredOpen.Launcher

def heading : Bytes := Utf8.encode announcement

def footing : Bytes := Utf8.encode farewell

/-- The five steps of a launcher. -/
def course (l : Launcher) (q : Process) : List (Step Child) :=
  [.writing q.out [] heading q.now,
    .passing q.out 1 q.now,
    .starting l.command (Action.startable q l.command) q.now,
    .writing q.out heading footing q.now,
    .passing q.out 2 q.now]

/-- What a launcher does whose command is under way. -/
def takeLeave (child : Child) : Action Child := do
  Action.log (.launched child.pid)
  Action.write farewell
  Action.flush
  pure child

theorem run_eq (l : Launcher) :
    l.run = (do
      Action.write announcement
      Action.flush
      let child ← Action.start l.command
      takeLeave child) := rfl

theorem takeLeave_follows (child : Child) {base : Sink} {q : Process}
    (hpast : base.Past heading 1 q.out) :
    Follows (takeLeave child) q
      [.writing base heading footing q.now, .passing base 2 q.now] (.ok child) := by
  refine Follows.log _ ?_
  refine Follows.write hpast ?_
  intro hpast
  refine Follows.flush hpast ?_
  intro hpast
  exact Follows.pure child

/-- A launcher takes its steps one after the other. -/
theorem run_follows (l : Launcher) {q : Process} {last : Except Stop Child}
    (hgives : q.out.GivesUp)
    (hlast : ∀ child, Action.startable q l.command = .ok child → last = .ok child) :
    Follows l.run q (course l q) last := by
  refine Follows.write (Sink.Past.begin hgives) ?_
  intro hpast
  refine Follows.flush hpast ?_
  intro hpast
  refine Follows.start (Action.startable_congr _ rfl rfl) ?_
  intro child hchild
  rw [hlast child hchild]
  exact takeLeave_follows child hpast

/-- Where all can be written, a launcher whose command is started comes to its end. -/
theorem run_of_startable {l : Launcher} {q : Process} {child : Child} (hout : q.out = {})
    (hchild : Action.startable q l.command = .ok child) :
    (l.run.runIn q).1 = .ok child ∧
      q.Leads (l.run.runIn q).2
        [.wrote heading, .flushed, .started l.command (.ok child), .wrote footing, .flushed]
        q.now := by
  have hgives : q.out.GivesUp := by
    rw [hout]
    exact Sink.givesUp_default
  have hrun : Follows l.run q (course l q) (.ok child) := by
    refine run_follows l hgives ?_
    intro other hother
    rw [hchild] at hother
    cases hother
    rfl
  constructor
  · rw [hrun.result, course, hout, hchild]
    rfl
  · have hleads := hrun.leads
    rw [course, hout, hchild] at hleads
    exact hleads

end DeferredOpen.Launcher
