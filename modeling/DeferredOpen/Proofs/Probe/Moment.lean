import DeferredOpen.Proofs.Probe.Firing

/-!
# A probe opens its file as it is when its timer fires

Others may change the files as long as a probe is held and while it waits, and the settings that it
was made for may be changed, too. None of this is noticed. What comes of the probe is what comes of
opening its file by itself, in the files of the moment at which its timer fires.
-/

namespace DeferredOpen

namespace World

/-- A world whose files are at every instant what a history says. -/
def through (w : World) (history : Nat → Files) : World :=
  { w with access := fun t _ => w.access t (history t) }

theorem opens_through (w : World) (history : Nat → Files) (t : Nat) (path : Path) :
    (w.through history).opens t path = { w with files := history t }.opens t path := rfl

end World

/-- A process that has come to an instant of a history, whatever lies behind it. -/
structure Process.IsAt (r : Process) (w : World) (history : Nat → Files) (t : Nat) : Prop where
  now : r.now = t
  files : r.world.files = history t
  access : r.world.access t = w.access t

/-- The timer with a flag fires at an instant when it is run in a process. -/
def Timer.FiresAt (flag : Flag) (delay : Duration) (q : Process) (t : Nat) : Prop :=
  ∃ deadline, Instant.after? (q.world.clock.reading q.now) delay = some deadline ∧
    (waitIn flag q deadline).fired = true ∧ (waitIn flag q deadline).ended = t

/-- What runs in a process with settings at hand, which may be changed. -/
abbrev Holding := ExceptT Stop (StateM (Process × Settings))

namespace Holding

def inProcess (a : Action α) : Holding α := fun (p, settings) =>
  let (result, q) := a.runIn p
  (result, q, settings)

end Holding

namespace Probe

/-- Makes a probe for the settings at hand, and runs it when something has been done in between. -/
def makeAndRun (between : Holding Unit) : Holding (Option Descriptor) := do
  let (_, settings) ← get
  let probe ← Holding.inProcess (create settings)
  between
  Holding.inProcess probe.run

variable {between : Holding Unit} {p q r : Process} {settings changed : Settings} {w : World}
  {history : Nat → Files} {t : Nat}

/-- The run is that of the probe for the settings that were at hand when it was made. -/
theorem makeAndRun_of_ok
    (hbetween : between (((create settings).runIn p).2, settings) = (.ok (), q, changed)) :
    let ran := (fresh settings p.flags.next).run.runIn q
    makeAndRun between (p, settings) = (ran.1, ran.2, changed) := by
  have hrun : makeAndRun between (p, settings) =
      (between >>= fun _ => Holding.inProcess (fresh settings p.flags.next).run)
        (((create settings).runIn p).2, settings) := rfl
  rw [hrun]
  simp only [bind, ExceptT.bind, ExceptT.mk, StateT.bind, hbetween]
  rfl

/-- A process at an instant meets what others meet then in the same history. -/
theorem opens_of_isAt (hworld : q.world = w.through history) (hat : r.IsAt w history t)
    (file : Path) : r.world.opens r.now file = q.world.opens t file := by
  rw [hworld, World.opens_through, hat.now]
  simp only [World.opens, hat.files, hat.access]

/-- What comes of opening a file by itself is what comes of it at the end of a wait. -/
theorem openFile_eq_endingAt (hworld : q.world = w.through history) (hat : r.IsAt w history t)
    (hnext : next r = next q) (file : Path) :
    ((Action.openFile file).runIn r).1.map some = endingAt q file t := by
  have hopens := opens_of_isAt hworld hat file
  unfold endingAt
  cases hanswer : q.world.opens t file with
  | error e =>
    rw [Action.openFile_of_refused (hopens.trans hanswer)]
    rfl
  | ok _ =>
    rw [Action.openFile_of_opens (hopens.trans hanswer), ← hnext]
    rfl

/-- Whatever happens to the files and to the settings behind the making of a probe: if its timer
fires in the end, the probe comes to what opening the file of its first settings comes to at that
moment, in any process that meets the same files then. The making itself makes a flag and does
nothing else. -/
theorem opens_as_when_fired
    (hbetween : between (((create settings).runIn p).2, settings) = (.ok (), q, changed))
    (hworld : q.world = w.through history) (hout : q.out.TakesAll)
    (hfires : Timer.FiresAt p.flags.next settings.delay q t) (hat : r.IsAt w history t)
    (hnext : next r = next q) :
    let ran := makeAndRun between (p, settings)
    let direct := (Action.openFile settings.file).runIn r
    (create settings).runIn p =
        (.ok (fresh settings p.flags.next), { p with flags := p.flags.make }) ∧
      q.now + settings.delay.nanos ≤ t ∧ ran.1 = direct.1.map some ∧
      ∃ tried, ran.2.1.openings = q.openings ++ [tried] ∧
        direct.2.openings = r.openings ++ [tried] := by
  intro ran direct
  obtain ⟨deadline, hdeadline, hfired, rfl⟩ := hfires
  let probe : Probe := fresh settings p.flags.next
  have htimer : probe.timer = some ⟨settings.delay, p.flags.next, settings.file⟩ := rfl
  obtain ⟨hopenings, -, hresult⟩ :=
    run_of_fired htimer (announced_of_takesAll hout) hdeadline hfired
  have hran : ran = ((probe.run.runIn q).1, (probe.run.runIn q).2, changed) :=
    makeAndRun_of_ok hbetween
  have hsame : ran.1 = direct.1.map some := by
    rw [hran, openFile_eq_endingAt hworld hat hnext]
    exact hresult (reported_of_takesAll hout)
  have hdirect : direct.2.openings = r.openings ++ [_] := openings_openFile settings.file r
  rw [opens_of_isAt hworld hat, hnext] at hdirect
  refine ⟨create_runIn settings p, Timer.add_delay_le_ended hdeadline hfired, hsame, _, ?_, hdirect⟩
  rw [hran]
  exact hopenings

/-- A file with a short name is looked for in the working directory. -/
theorem readable_short {files : Files} {place : Place} (there : Bool)
    (hworking : files.working = ⟨place, 0⟩) (hentered : files.get? place = some .directory)
    (hplaced : files.get? (place ++ [Utf8.encode "x"]) =
      if there then some (.plain []) else none) :
    files.readable (.ofString "x") = if there then .ok () else .error .notFound := by
  have hsteps : Files.steps (.ofString "x") = [Utf8.encode "x"] := by decide +kernel
  have hdot : Utf8.encode "x" ≠ Path.dot := by decide
  have hdotDot : Utf8.encode "x" ≠ Path.dotDot := by decide
  have hshort : ¬ Files.maxName < (Utf8.encode "x").length := by decide
  rw [Files.readable, Files.entry, Files.resolve, Files.follow, hsteps, if_neg (by decide),
    if_neg (by decide), Files.origin, if_neg (by decide +kernel), Files.walk, hworking]
  cases there <;>
    simp [hdot, hdotDot, hshort, hplaced, hentered, Files.entryAt, Files.walk, Entry.plain]

/-- The working directory changes while a probe waits, and the file is there from then on. That the
settings at hand name another file and another delay by now makes no difference. -/
theorem opens_as_when_fired_of_late_file :
    let place : Place := [Utf8.encode "d"]
    let ready : Files :=
      ⟨[(place, .directory), (place ++ [Utf8.encode "x"], .plain [])], ⟨place, 0⟩⟩
    let history : Nat → Files := fun t => if t < 2 then {} else ready
    let w : World := .installed {} []
    let settings : Settings := { delay := ⟨2⟩ }
    let changed : Settings := { delay := ⟨0⟩, file := .ofString "y" }
    let between : Holding Unit := do
      let (p, _) ← get
      set ({ p with world := w.through history }, changed)
    (w.through history).opens 1 settings.file = .error .notFound ∧
    (makeAndRun between ({ world := w }, settings)).1 = .ok (some ⟨3⟩) := by
  intro place ready history w settings changed between
  let p : Process := { world := w }
  let q : Process := { p with flags := p.flags.make, world := w.through history }
  let r : Process := { world := { w with files := ready }, now := 2 }
  have hmissing : ({} : Files).readable settings.file = .error .notFound :=
    readable_short false rfl rfl rfl
  have hthere : ready.readable settings.file = .ok () := readable_short true rfl rfl rfl
  have hlate : (w.through history).opens 1 settings.file = .error .notFound :=
    congrArg (Except.mapError SystemFault.normalize) hmissing
  have hready : r.world.opens r.now settings.file = .ok () :=
    congrArg (Except.mapError SystemFault.normalize) hthere
  have hended : (Timer.waitIn p.flags.next q 2).ended = 2 := Timer.ended_of_exact (Nat.zero_le 2)
  have hfires : Timer.FiresAt p.flags.next settings.delay q 2 :=
    ⟨2, rfl, Timer.fired_of_not_raised rfl rfl, hended⟩
  have hbetween : between (((create settings).runIn p).2, settings) = (.ok (), q, changed) := rfl
  have hat : r.IsAt w history 2 := ⟨rfl, rfl, rfl⟩
  have hnext : next r = next q := rfl
  obtain ⟨-, -, hran, -⟩ :=
    opens_as_when_fired hbetween rfl Sink.takesAll_default hfires hat hnext
  have hdirect : ((Action.openFile settings.file).runIn r).1 = .ok ⟨3⟩ := by
    rw [Action.openFile_of_opens hready]
    rfl
  refine ⟨hlate, ?_⟩
  rw [hran, hdirect]
  rfl

end Probe

end DeferredOpen
