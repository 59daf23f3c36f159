import DeferredOpen.Proofs.Probe.Course

/-!
# A probe that nobody hinders

Where all output is taken and nobody cancels, what comes of a probe is up to the clock, its delay
and the answer to the opening. What it has printed and which file it has opened can be read off
its result.
-/

namespace DeferredOpen.Probe

variable {settings : Settings} {flag : Flag} {q : Process}

theorem takesAll_of_default (hout : q.out = {}) : q.out.TakesAll := hout ▸ Sink.takesAll_default

theorem announced_of_default (hout : q.out = {}) : Announced q :=
  announced_of_takesAll (takesAll_of_default hout)

theorem reported_of_default (hout : q.out = {}) : Reported q :=
  reported_of_takesAll (takesAll_of_default hout)

def ending (settings : Settings) (q : Process) : Except Stop (Option Descriptor) :=
  match Instant.after? (q.world.clock.reading q.now) settings.delay with
  | none => .error .panicked
  | some deadline =>
    let waited := Timer.wait q.world.clock (fun _ => false) deadline (q.world.clock.reading q.now)
    match q.world.opens waited.ended settings.file with
    | .ok () => .ok (some (next q))
    | .error e =>
      .error (.failed ((Fault.ofSystem e).context
        ("Unable to open '" ++ settings.file.shown ++ "'")))

def found (result : Except Stop (Option Descriptor)) : Option Descriptor := result.toOption.join

def reportOn : Option Descriptor → Bytes
  | none => []
  | some d => Utf8.encode (report d)

/-- What the run of a probe comes to that nobody hinders. -/
structure EndsUnhindered (settings : Settings) (q : Process)
    (ran : Except Stop (Option Descriptor) × Process) : Prop where
  result : ran.1 = ending settings q
  accepted : ran.2.out.accepted = heading ++ reportOn (found (ending settings q))
  openings : ran.2.openings.filterMap (fun o => o.2.toOption) = (found (ending settings q)).toList

theorem endsUnhindered_of_never (hout : q.out = {}) (hopenings : q.openings = [])
    (hnever : Instant.after? (q.world.clock.reading q.now) settings.delay = none) :
    EndsUnhindered settings q ((fresh settings flag).run.runIn q) := by
  have hgives : q.out.GivesUp := by
    rw [hout]
    exact Sink.givesUp_default
  have hrun := run_follows_of_never settings q flag (.error .panicked) hgives hnever
  have hresult := hrun.result
  have haccepted := hrun.leads.accepted
  have hopened := hrun.leads.openings
  rw [hout] at hresult haccepted hopened
  rw [hopenings] at hopened
  have hending : ending settings q = .error .panicked := by
    rw [ending, hnever]
  constructor
  · rw [hending]
    exact hresult
  · rw [hending]
    exact haccepted
  · rw [hending, hopened]
    rfl

theorem endsUnhindered_of_deadline {deadline : Nat} (hout : q.out = {})
    (hopenings : q.openings = []) (hraised : q.raisedAt flag = fun _ => false)
    (hdeadline : Instant.after? (q.world.clock.reading q.now) settings.delay = some deadline) :
    EndsUnhindered settings q ((fresh settings flag).run.runIn q) := by
  have hgives : q.out.GivesUp := by
    rw [hout]
    exact Sink.givesUp_default
  have hrun := run_follows settings q flag hgives hdeadline
  generalize hw : Timer.waitIn flag q deadline = w at hrun
  -- Nobody raises the flag, so the end of the wait is up to the clock alone.
  have hwait : w = Timer.wait q.world.clock (fun _ => false) deadline
      (q.world.clock.reading q.now) := by
    rw [← hw, Timer.waitIn, hraised]
  have hfired : w.fired = true := by
    rw [hwait]
    exact Timer.fired_of_never_raised _ _ _
  have hannounced := announced_of_default hout
  have hresult := hrun.result
  rw [outcome_course_of_announced settings q w hannounced, hfired, if_pos rfl] at hresult
  have haccepted : ((fresh settings flag).run.runIn q).2.out.accepted = printed settings q w := by
    rw [hrun.leads.accepted, written_course, hout]
    rfl
  have hopened : ((fresh settings flag).run.runIn q).2.openings = [(settings.file,
      (q.world.opens w.ended settings.file).map fun _ => next q)] := by
    rw [hrun.leads.openings, openings_course, hopenings, List.nil_append, tried,
      if_pos ⟨hannounced, hfired⟩]
  cases hopens : q.world.opens w.ended settings.file with
  | error e =>
    have hending : ending settings q = .error (.failed ((Fault.ofSystem e).context
        ("Unable to open '" ++ settings.file.shown ++ "'"))) := by
      simp only [ending, hdeadline, ← hwait, hopens]
    have hplain : printed settings q w = heading := by
      refine printed_eq_heading settings q w (.inr ?_)
      rw [Opened, hopens]
      intro h
      cases h
    constructor
    · rw [hresult, hending]
      simp [reading, Step.outcome, Step.opening, hopens]
    · rw [haccepted, hplain, hending]
      exact (List.append_nil _).symm
    · rw [hopened, hopens, hending]
      rfl
  | ok _ =>
    have hending : ending settings q = .ok (some (next q)) := by
      simp only [ending, hdeadline, ← hwait, hopens]
    have hfull : printed settings q w = heading ++ line q := by
      rw [printed, hannounced.2, hfired, hopens]
    constructor
    · rw [hresult, hending, outcome_reading]
      exact ⟨rfl, hopens, reported_of_default hout⟩
    · rw [haccepted, hfull, hending]
      rfl
    · rw [hopened, hopens, hending]
      rfl

variable (settings) in
/-- A probe that nobody hinders comes to its own end, whatever the clock and the system do. -/
theorem run_endsUnhindered (hout : q.out = {}) (hopenings : q.openings = [])
    (hraised : q.raisedAt flag = fun _ => false) :
    EndsUnhindered settings q ((fresh settings flag).run.runIn q) := by
  cases hdeadline : Instant.after? (q.world.clock.reading q.now) settings.delay with
  | none => exact endsUnhindered_of_never hout hopenings hdeadline
  | some deadline => exact endsUnhindered_of_deadline hout hopenings hraised hdeadline

variable (settings flag q) in
/-- On an exact clock a probe that nobody hinders tries its file just when its delay is over. -/
theorem openings_of_exact {deadline : Nat} (hout : q.out = {})
    (hraised : q.raisedAt flag = fun _ => false) (hclock : q.world.clock = .exact)
    (hdeadline : Instant.after? q.now settings.delay = some deadline) :
    ((fresh settings flag).run.runIn q).2.openings = q.openings ++
      [(settings.file, (q.world.opens deadline settings.file).map fun _ => next q)] := by
  have hgives : q.out.GivesUp := by
    rw [hout]
    exact Sink.givesUp_default
  have hreading : q.world.clock.reading q.now = q.now := by
    rw [hclock]
    rfl
  have hrun := run_follows settings q flag hgives (by rwa [hreading])
  have hwait : Timer.waitIn flag q deadline =
      Timer.wait .exact (fun _ => false) deadline q.now := by
    rw [Timer.waitIn, hraised, hreading, hclock]
  have hfired := Timer.fired_of_never_raised .exact deadline q.now
  have hlate : q.now ≤ deadline := by
    rw [Instant.eq_of_after? hdeadline]
    exact Nat.le_add_right _ _
  rw [hrun.leads.openings, openings_course, hwait, tried,
    if_pos ⟨announced_of_default hout, hfired⟩, Timer.ended_of_exact hlate]

end DeferredOpen.Probe
