import DeferredOpen.Proofs.Probe.Course
import DeferredOpen.Proofs.Process.Obtaining

/-!
# A probe as a timer with a task

Once a probe has announced itself, its run is the run of its timer, and the task is to open the file
and to report on it. A sink that takes the announcement has no say in whether the task is run.
-/

namespace DeferredOpen.Probe

def openAndReport (file : Path) : Action Descriptor := do
  let d ← Action.openFile file
  Action.write (report d)
  Action.flush
  pure d

def announcing : Action Unit := do
  Action.write announcement
  Action.flush

/-- Behind its announcement a probe runs its timer, and the task is to open the file. -/
theorem run_eq_announcing {probe : Probe} {timer : Timer Path} (htimer : probe.timer = some timer) :
    probe.run = (do
      announcing
      Action.log (.reading probe.file timer.delay)
      timer.runTask openAndReport) := by
  simp only [run, htimer, announcing, Timer.runTask, bind_assoc]
  refine bind_congr fun _ => bind_congr fun _ => bind_congr fun _ => bind_congr fun fired => ?_
  -- What is left is the same task, told step by step or as a whole.
  cases fired with
  | none => rfl
  | some file => simp [openAndReport]

/-- The process in which a probe has announced itself. -/
def announced (q : Process) (file : Path) (delay : Duration) : Process :=
  (q.wrote heading).passedOn.after (.logged (.reading file delay))

theorem announcing_of_announced {q : Process} (h : Announced q) :
    announcing.runIn q = (.ok (), (q.wrote heading).passedOn) := by
  have hwritten : (Action.write announcement).runIn q = (.ok (), q.wrote heading) :=
    Action.write_of_takes h.1
  rw [announcing, Action.runIn_bind_ok hwritten]
  exact Action.flush_of_fault_none h.2

theorem run_of_announced {probe : Probe} {timer : Timer Path} {q : Process}
    (htimer : probe.timer = some timer) (h : Announced q) :
    probe.run.runIn q =
      (timer.runTask openAndReport).runIn (announced q probe.file timer.delay) := by
  rw [run_eq_announcing htimer, Action.runIn_bind_ok (announcing_of_announced h)]
  rfl

variable {file : Path} {q : Process}

theorem openings_openFile (file : Path) (q : Process) :
    ((Action.openFile file).runIn q).2.openings =
      q.openings ++ [(file, (q.world.opens q.now file).map fun _ => next q)] :=
  (Action.obtains_openFile file q).openings

/-- The task tries one opening, whatever comes of the report. -/
theorem obtains_openAndReport (file : Path) (q : Process) :
    q.Obtains [(file, (q.world.opens q.now file).map fun _ => next q)]
      ((openAndReport file).runIn q).2 := by
  refine (Action.obtains_openFile file q).congr rfl ?_
  exact Action.Keeps.bind_right _ (fun d => Action.print_keeps_holdings (report d) d) q

/-- The task gives the descriptor, or the fault of the opening, if the report can be printed. -/
theorem result_openAndReport (htakes : q.out.takes (line q).length = true)
    (hflush : q.out.flushFaultAt? 1 = none) :
    ((openAndReport file).runIn q).1 =
      match q.world.opens q.now file with
      | .ok () => .ok (next q)
      | .error e => .error (.failed ((Fault.ofSystem e).context
          ("Unable to open '" ++ file.shown ++ "'"))) := by
  cases hopens : q.world.opens q.now file with
  | error e =>
    rw [openAndReport, Action.runIn_bind_error (Action.openFile_of_refused hopens)]
  | ok _ =>
    have hopened : (Action.openFile file).runIn q = (.ok (next q), q.opened file) :=
      Action.openFile_of_opens hopens
    have hroom : (q.opened file).out.takes (line q).length = true := htakes
    rw [openAndReport, Action.runIn_bind_ok hopened, Action.print_of_takes hroom hflush]
    rfl

/-- What comes of opening a file when a wait is over, if it can be reported on. -/
def endingAt (q : Process) (file : Path) (ended : Nat) : Except Stop (Option Descriptor) :=
  match q.world.opens ended file with
  | .ok () => .ok (some (next q))
  | .error e =>
    .error (.failed ((Fault.ofSystem e).context ("Unable to open '" ++ file.shown ++ "'")))

theorem holdings_made (settings : Settings) (q : Process) :
    (made settings q).holdings = q.holdings :=
  (Action.makeFlag_keeps_holdings _).trans (Action.log_keeps_holdings rfl q)

theorem announcing_keeps_holdings : announcing.Keeps Process.holdings :=
  .bind (Action.write_keeps_holdings _) fun _ => Action.flush_keeps_holdings

/-- Neither the announcement nor what is told of the wait is a matter of descriptors. -/
theorem holdings_announced (q : Process) (file : Path) (delay : Duration) :
    (announced q file delay).holdings = q.holdings := by
  have hwritten : (q.wrote heading).holdings = q.holdings :=
    Action.write_keeps_holdings announcement q
  have hpassed : (q.wrote heading).passedOn.holdings = q.holdings :=
    (Action.flush_keeps_holdings _).trans hwritten
  exact (Action.log_keeps_holdings rfl _).trans hpassed

theorem holdings_fired (timer : Timer Path) (p : Process) (w : Timer.Wait) :
    (timer.fired p w).holdings = p.holdings :=
  (Action.log_keeps_holdings rfl (p.waited w)).trans (p.holdings_waited w)

theorem holdings_cancelled (p : Process) (w : Timer.Wait) :
    ((p.waited w).after (.logged .timerCancelled)).holdings = p.holdings :=
  (Action.log_keeps_holdings rfl (p.waited w)).trans (p.holdings_waited w)

section

variable {probe : Probe} {timer : Timer Path} {deadline : Nat}

/-- A probe that was cancelled before it is run leaves its file unopened. -/
theorem run_of_raised (htimer : probe.timer = some timer) (h : Announced q)
    (hraised : q.flags.isRaised timer.flag = true) :
    (probe.run.runIn q).1 = Timer.cancelledEnd (q.world.clock.reading q.now) timer.delay ∧
      (probe.run.runIn q).2.openings = q.openings := by
  obtain ⟨hresult, hdeeds⟩ :=
    Timer.runTask_of_raised (p := announced q probe.file timer.delay) hraised openAndReport
  rw [run_of_announced htimer h]
  refine ⟨hresult, ?_⟩
  rw [Process.openings, hdeeds]
  exact Process.openings_of_holdings (holdings_announced q probe.file timer.delay)

/-- A timer that fires makes a probe try its file once, at the end of the wait. -/
theorem run_of_fired (htimer : probe.timer = some timer) (h : Announced q)
    (hdeadline : Instant.after? (q.world.clock.reading q.now) timer.delay = some deadline)
    (hfired : (Timer.waitIn timer.flag q deadline).fired = true) :
    let ended := (Timer.waitIn timer.flag q deadline).ended
    (probe.run.runIn q).2.openings =
        q.openings ++ [(timer.task, (q.world.opens ended timer.task).map fun _ => next q)] ∧
      (probe.run.runIn q).1 ≠ .ok none ∧
      (Reported q → (probe.run.runIn q).1 = endingAt q timer.task ended) := by
  intro ended
  let start := announced q probe.file timer.delay
  let fired := timer.fired start (Timer.waitIn timer.flag q deadline)
  have hrun : (timer.runTask openAndReport).runIn start =
      (((openAndReport timer.task).runIn fired).1.map some,
        ((openAndReport timer.task).runIn fired).2) :=
    Timer.runTask_of_fired (p := start) hdeadline hfired openAndReport
  rw [run_of_announced htimer h, hrun]
  refine ⟨?_, ?_, ?_⟩
  · have hbefore : fired.holdings = q.holdings :=
      (holdings_fired timer start _).trans (holdings_announced q _ _)
    rw [(obtains_openAndReport timer.task fired).openings, Process.openings_of_holdings hbefore]
    rfl
  · cases ((openAndReport timer.task).runIn fired).1 <;> simp [Except.map]
  · intro hreported
    obtain ⟨htakes, hflush⟩ := hreported
    have hroom : fired.out.takes (line fired).length = true :=
      (Sink.takes_printed h.1 _).trans htakes
    have hpasses : fired.out.flushFaultAt? 1 = none :=
      (q.out.flushFaultAt?_printed heading 1).trans hflush
    have hopens : fired.world.opens fired.now timer.task = q.world.opens ended timer.task := rfl
    simp only [result_openAndReport hroom hpasses, hopens, endingAt]
    cases q.world.opens ended timer.task <;> rfl

end

end DeferredOpen.Probe
