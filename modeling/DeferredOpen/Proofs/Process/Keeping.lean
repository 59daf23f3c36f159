import DeferredOpen.Launcher
import DeferredOpen.Probe
import DeferredOpen.Proofs.Process.Steps

/-!
# What an action leaves alone

Something about a process is kept by an action if each of its parts keeps it, whatever comes of the
parts. The flags are kept by everything that runs: only making a timer makes a flag, and raising one
is up to those who hold it.
-/

namespace DeferredOpen

namespace Action

variable {α β γ : Type} {kept : Process → γ}

/-- An action leaves something about its process as it is, whatever comes of the action. -/
def Keeps (kept : Process → γ) (a : Action α) : Prop := ∀ p, kept (a.runIn p).2 = kept p

namespace Keeps

theorem pure (x : α) : Action.Keeps kept (Pure.pure x) := fun _ => rfl

theorem fail (fault : Fault) : Action.Keeps kept (Action.fail fault : Action α) := fun _ => rfl

theorem panic : Action.Keeps kept (throw .panicked : Action α) := fun _ => rfl

/-- What the second part keeps is as the first one has left it. -/
theorem bind_right (a : Action β) {k : β → Action α} (hk : ∀ x, (k x).Keeps kept) (p : Process) :
    kept ((a >>= k).runIn p).2 = kept (a.runIn p).2 := by
  cases hrun : a.runIn p with
  | mk result q =>
    cases result with
    | ok x =>
      rw [runIn_bind_ok hrun]
      exact hk x q
    | error stop => rw [runIn_bind_error hrun]

/-- What each part keeps is kept; a part that stops the run is the last one. -/
theorem bind {a : Action β} {k : β → Action α} (ha : a.Keeps kept) (hk : ∀ x, (k x).Keeps kept) :
    (a >>= k).Keeps kept := fun p => (bind_right a hk p).trans (ha p)

/-- Behind a first part that keeps something the rest finds it as it was, unless the first part is
the last one. -/
theorem bind_cases {a : Action β} {k : β → Action α} (ha : a.Keeps kept) (p : Process) :
    kept ((a >>= k).runIn p).2 = kept p ∨
      ∃ x q, kept q = kept p ∧ (a >>= k).runIn p = (k x).runIn q := by
  have hp := ha p
  cases hrun : a.runIn p with
  | mk result q =>
    rw [hrun] at hp
    cases result with
    | ok x => exact .inr ⟨x, q, hp, runIn_bind_ok hrun⟩
    | error stop =>
      rw [runIn_bind_error hrun]
      exact .inl hp

theorem map (f : β → α) {a : Action β} (ha : a.Keeps kept) : (f <$> a).Keeps kept := by
  intro p
  rw [runIn_map]
  exact ha p

end Keeps

theorem start_keeps_flags (c : Command) : (start c).Keeps Process.flags := by
  intro p
  simp only [start, runIn]
  cases startable p c <;> rfl

end Action

/-- Something about a process that is no matter of its time, its output, its descriptors and its
history. -/
def Process.SetApart (kept : Process → γ) : Prop :=
  ∀ (p : Process) now held out history, kept { p with now, held, out, history } = kept p

section

variable {kept : Process → γ}

theorem Action.openFile_keeps (hkept : Process.SetApart kept) (path : Path) :
    (openFile path).Keeps kept := by
  intro p
  simp only [openFile, runIn]
  cases p.world.opens p.now path with
  | error e => exact hkept p p.now p.held p.out _
  | ok _ => exact hkept p p.now (_ :: p.held) p.out _

theorem Timer.run_keeps (hkept : Process.SetApart kept) (t : Timer α) : t.run.Keeps kept := by
  have hlog (r : Log.Record) : (Action.log r).Keeps kept := fun p => hkept p p.now p.held p.out _
  refine .bind ?_ fun fired => ?_
  · intro p
    simp only [await, Action.runIn]
    cases Instant.after? (p.world.clock.reading p.now) t.delay with
    | none => exact hkept p _ p.held p.out p.history
    | some deadline => exact hkept p _ p.held p.out _
  · cases fired with
    | true => exact .bind (hlog _) fun _ => .pure _
    | false => exact .bind (hlog _) fun _ => .pure _

/-- A probe has a hand in the time, the output, the descriptors and the history only. -/
theorem Probe.run_keeps (hkept : Process.SetApart kept) (probe : Probe) :
    probe.run.Keeps kept := by
  have hwrite (text : String) : (Action.write text).Keeps kept :=
    fun p => hkept p p.now p.held _ _
  have hflush : Action.flush.Keeps kept := fun p => hkept p p.now p.held _ _
  have hlog (r : Log.Record) : (Action.log r).Keeps kept := fun p => hkept p p.now p.held p.out _
  unfold run
  cases probe.timer with
  | none => exact .fail _
  | some timer =>
    refine .bind (hwrite _) fun _ => ?_
    refine .bind hflush fun _ => ?_
    refine .bind (hlog _) fun _ => ?_
    refine .bind (timer.run_keeps hkept) fun fired => ?_
    cases fired with
    | none => exact .pure _
    | some file =>
      refine .bind (Action.openFile_keeps hkept file) fun d => ?_
      refine .bind (hwrite _) fun _ => ?_
      exact .bind hflush fun _ => .pure _

end

theorem Process.setApart_flags : SetApart Process.flags := fun _ _ _ _ _ => rfl

theorem Action.openFile_keeps_flags (path : Path) : (openFile path).Keeps Process.flags :=
  openFile_keeps Process.setApart_flags path

theorem Timer.run_keeps_flags (t : Timer α) : t.run.Keeps Process.flags :=
  t.run_keeps Process.setApart_flags

theorem Probe.run_keeps_flags (probe : Probe) : probe.run.Keeps Process.flags :=
  probe.run_keeps Process.setApart_flags

/-- A probe that is made and run has a flag of its own. -/
theorem Probe.flags_runWith (settings : Settings) (p : Process) :
    ((runWith settings).runIn p).2.flags = p.flags.make := by
  let probe : Probe := ⟨settings.file, some ⟨settings.delay, p.flags.next, settings.file⟩⟩
  let made : Process := { p.after (.logged (.probing settings)) with flags := p.flags.make }
  have hmade : (runWith settings).runIn p = probe.run.runIn made := rfl
  rw [hmade]
  exact probe.run_keeps_flags made

theorem Launcher.run_keeps_flags (l : Launcher) : l.run.Keeps Process.flags := by
  refine .bind (fun _ => rfl) fun _ => ?_
  refine .bind (fun _ => rfl) fun _ => ?_
  refine .bind (Action.start_keeps_flags l.command) fun child => ?_
  refine .bind (fun _ => rfl) fun _ => ?_
  refine .bind (fun _ => rfl) fun _ => ?_
  exact .bind (fun _ => rfl) fun _ => .pure _

end DeferredOpen
