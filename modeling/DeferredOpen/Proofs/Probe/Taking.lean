import DeferredOpen.Proofs.Process.Steps
import DeferredOpen.Probe

/-!
# A run takes the timer first

A run with the probe in its hands takes the timer out of it and then does what `Probe.run` says.
Nothing that follows touches the probe again, so it is spent whichever of the steps is the last one:
a refused write, a panic of the timer or a failed opening.
-/

namespace DeferredOpen.Probe

/-- What is done with a probe in hand comes to what is done in the process alone. -/
def Mirrors (probe : Probe) (h : Handling α) (a : Action α) : Prop :=
  ∀ p : Process, h (p, probe) = ((a.runIn p).1, (a.runIn p).2, probe)

namespace Mirrors

variable {α β : Type} {probe : Probe}

theorem inProcess (a : Action α) : Mirrors probe (Handling.inProcess a) a := fun _ => rfl

theorem pure (x : α) : Mirrors probe (Pure.pure x) (Pure.pure x) := fun _ => rfl

theorem bind {h : Handling β} {a : Action β} {k : β → Handling α} {l : β → Action α}
    (ha : Mirrors probe h a) (hk : ∀ x, Mirrors probe (k x) (l x)) :
    Mirrors probe (h >>= k) (a >>= l) := by
  intro p
  change ExceptT.bindCont k (h (p, probe)).1 (h (p, probe)).2 = _
  rw [ha p]
  cases hrun : a.runIn p with
  | mk result q =>
    cases result with
    | ok x =>
      rw [Action.runIn_bind_ok hrun]
      exact hk x q
    | error stop =>
      rw [Action.runIn_bind_error hrun]
      rfl

theorem inHands {k : Probe → Handling α} {a : Action α} (hk : Mirrors probe (k probe) a) :
    Mirrors probe (Handling.inHands >>= k) a := hk

end Mirrors

/-- A run does in its process what `run` says, and leaves the probe spent however it ends. -/
theorem runTaking_eq (probe : Probe) (p : Process) :
    runTaking (p, probe) = ((probe.run.runIn p).1, (probe.run.runIn p).2, probe.spent) := by
  -- What follows the taking has the spent probe in its hands.
  suffices h : Mirrors probe.spent (goOn probe.timer) probe.run from h p
  unfold run
  cases probe.timer with
  | none => exact .inProcess _
  | some timer =>
    refine .bind (.inProcess _) fun _ => ?_
    refine .bind (.inProcess _) fun _ => ?_
    refine .inHands ?_
    refine .bind (.inProcess _) fun _ => ?_
    refine .bind (.inProcess _) fun fired => ?_
    cases fired with
    | none => exact .pure _
    | some file =>
      refine .bind (.inProcess _) fun d => ?_
      refine .bind (.inProcess _) fun _ => ?_
      refine .bind (.inProcess _) fun _ => ?_
      exact .pure _

end DeferredOpen.Probe
