import DeferredOpen.Proofs.Session.Lineage
import DeferredOpen.Proofs.Session.Steps

/-!
# Flags and lineage

The flags of a session say where everything in it comes from, and after every operation they agree
with its lineage. So the flag of a handle is raised by what cancels the timer that the handle goes
back to, and by nothing else.
-/

namespace DeferredOpen

namespace Table

variable {α β : Type}

def map (f : α → β) (t : Table α) : Table β := ⟨t.rows.map fun row => (row.1, f row.2)⟩

theorem get?_map (f : α → β) (t : Table α) (name : String) :
    (t.map f).get? name = (t.get? name).map f := by
  obtain ⟨rows⟩ := t
  simp only [get?, map]
  induction rows with
  | nil => rfl
  | cons row rows ih =>
    obtain ⟨key, thing⟩ := row
    simp only [List.map_cons, List.lookup_cons]
    cases name == key with
    | true => rfl
    | false => exact ih

theorem map_erase (f : α → β) (t : Table α) (name : String) :
    (t.erase name).map f = (t.map f).erase name := by
  simp only [map, erase, List.filter_map]
  rfl

theorem map_insert (f : α → β) (t : Table α) (name : String) (thing : α) :
    (t.insert name thing).map f = (t.map f).insert name (f thing) := by
  rw [insert, insert, ← map_erase]
  rfl

end Table

namespace Session

/-- The session with one more handle, if there is a flag for it. -/
def handing (s : Session) (handle : String) : Option Flag → Session
  | some flag => { s with handles := s.handles.insert handle flag }
  | none => s

def makingOf (timer : Timer α) : Making α := ⟨timer.flag.id, timer.delay, timer.task⟩

/-- Where everything in a session comes from, told by the flags. -/
def lineage (s : Session) : Lineage where
  makings := s.process.flags.made
  timers := s.timers.map makingOf
  probes := s.probes.map fun probe => probe.timer.map makingOf
  handles := s.handles.map Flag.id

theorem Beside.lineage {s t : Session} (h : s.Beside t) : t.lineage = s.lineage := by
  simp only [Session.lineage, h.probes, h.timers, h.handles, h.flags]

section

variable (s : Session) (name : String)

theorem get?_lineage_timers :
    s.lineage.timers.get? name = (s.timers.get? name).map makingOf :=
  Table.get?_map _ _ _

theorem get?_lineage_probes :
    s.lineage.probes.get? name =
      (s.probes.get? name).map fun probe => probe.timer.map makingOf :=
  Table.get?_map _ _ _

theorem get?_lineage_handles :
    s.lineage.handles.get? name = (s.handles.get? name).map Flag.id :=
  Table.get?_map _ _ _

/-- A handle that is put under a name goes back to what its flag says. -/
theorem lineage_handing (flag : Option Flag) :
    (s.handing name flag).lineage = s.lineage.handing name (flag.map Flag.id) := by
  cases flag with
  | none => rfl
  | some flag => simp only [handing, lineage, Lineage.handing, Option.map_some, Table.map_insert]

end

theorem timerAction_keeps_flags (timer : Timer Task) :
    (timerAction timer).Keeps Process.flags := by
  refine .bind timer.run_keeps_flags fun fired => ?_
  cases fired with
  | none => exact .pure _
  | some task =>
    cases task with
    | give text => exact .map _ (.pure _)
    | panic => exact .map _ .panic

/-- When a run is over, the flag is raised that others have raised in the meantime. -/
theorem flags_settle_of_run {s : Session} (hpending : s.process.pending = [])
    (flag : Option Flag) (cancelAfter : Option Duration) {a : Action α} {m : Nat}
    (hgrows : a.Grows Event.isOpening m) (hkeeps : a.Keeps Process.flags) :
    (a.runIn (s.cancelling flag cancelAfter).process).2.settle.flags =
      { s.process.flags with
        raised := (cancelAfter.bind fun _ => flag).toList ++ s.process.flags.raised } := by
  have hran (pending : List (Nat × Flag)) :
      let ran := (a.runIn { s.process with pending }).2
      ran.pending = pending ∧ ran.flags = s.process.flags :=
    ⟨(hgrows _).pending, hkeeps _⟩
  -- Without a cancellation to come the process runs as it is.
  have hnobody (hsame : s.cancelling flag cancelAfter = s) :
      (a.runIn (s.cancelling flag cancelAfter).process).2.settle.flags = s.process.flags := by
    obtain ⟨hleft, hflags⟩ := hran s.process.pending
    rw [hsame, Process.settle_of_pending_nil (hleft.trans hpending)]
    exact hflags
  cases cancelAfter with
  | none => exact hnobody (by cases flag <;> rfl)
  | some delay =>
    cases flag with
    | none => exact hnobody rfl
    | some flag =>
      obtain ⟨hleft, hflags⟩ := hran [(s.process.now + delay.nanos, flag)]
      simp only [cancelling, hpending]
      rw [Process.settle, hleft, hflags]
      rfl

/-- A session has gone on as the lineage says: everything comes from where an operation takes it,
and the flag is raised whose timer it cancels. -/
structure Agrees (s t : Session) (op : Operation) : Prop where
  lineage : t.lineage = s.lineage.step op
  raised : t.process.flags.raised =
    ((s.lineage.cancels op).map Flag.mk).toList ++ s.process.flags.raised

namespace Agrees

variable {s t : Session} {op : Operation}

theorem of_isBeside (s : Session) (h : op.isBeside = true) : s.Agrees (s.step op).2 op := by
  have hbeside : s.Beside (s.step op).2 := s.step_beside h
  have hnothing : s.lineage.step op = s.lineage ∧ s.lineage.cancels op = none := by
    cases op with
    | add | erase | rename | enter | openFile | probeState | timerDelay | isCancelled | start
    | runLauncher => exact ⟨rfl, rfl⟩
    | _ => cases h
  constructor
  · rw [hnothing.1]
    exact hbeside.lineage
  · rw [hnothing.2, hbeside.flags]
    rfl

/-- An operation that takes a handle, if there is something to take it from. -/
theorem of_handing (handle : String) (flag : Option Flag)
    (hstep : s.lineage.step op = s.lineage.handing handle (flag.map Flag.id))
    (hcancels : s.lineage.cancels op = none) (ht : t = s.handing handle flag) :
    s.Agrees t op := by
  rw [ht]
  constructor
  · rw [hstep, lineage_handing]
  · rw [hcancels]
    cases flag <;> rfl

/-- An operation that asks for something that is not there. -/
theorem of_nothing (hstep : s.lineage.step op = s.lineage)
    (hcancels : s.lineage.cancels op = none) : s.Agrees s op :=
  ⟨hstep.symm, by rw [hcancels]; rfl⟩

end Agrees

theorem runTimer_agrees {s : Session} (hpending : s.process.pending = []) (name : String)
    (cancelAfter : Option Duration) :
    s.Agrees (s.runTimer name cancelAfter).2 (.runTimer name cancelAfter) := by
  have hfrom := s.get?_lineage_timers name
  cases htimer : s.timers.get? name with
  | none =>
    rw [htimer] at hfrom
    rw [runTimer, htimer]
    refine .of_nothing ?_ ?_
    · simp only [Lineage.step, hfrom, Option.map_none]
    · cases cancelAfter with
      | none => rfl
      | some delay =>
        rw [Lineage.cancels, hfrom]
        rfl
  | some timer =>
    rw [htimer, Option.map_some] at hfrom
    have hflags := flags_settle_of_run hpending (some timer.flag) cancelAfter
      (timerAction_grows timer) (timerAction_keeps_flags timer)
    rw [runTimer_eq htimer]
    constructor
    · simp only [lineage, Lineage.step, hflags] at hfrom ⊢
      rw [hfrom, Table.map_erase]
    · simp only [hflags]
      cases cancelAfter with
      | none => rfl
      | some delay =>
        rw [Lineage.cancels, hfrom]
        rfl

theorem runProbe_agrees {s : Session} (hpending : s.process.pending = []) (name : String)
    (out : Sink) (cancelAfter : Option Duration) :
    s.Agrees (s.runProbe name out cancelAfter).2 (.runProbe name out cancelAfter) := by
  have hfrom := s.get?_lineage_probes name
  cases hprobe : s.probes.get? name with
  | none =>
    rw [hprobe] at hfrom
    rw [runProbe, hprobe]
    refine .of_nothing ?_ ?_
    · simp only [Lineage.step, hfrom, Option.map_none]
    · cases cancelAfter with
      | none => rfl
      | some delay =>
        rw [Lineage.cancels, hfrom]
        rfl
  | some probe =>
    rw [hprobe, Option.map_some] at hfrom
    have hwriting : (s.writingTo out).process.pending = [] := hpending
    have hflags := flags_settle_of_run hwriting probe.flag? cancelAfter probe.run_grows
      probe.run_keeps_flags
    rw [runProbe_eq hprobe]
    constructor
    · simp only [lineage, Lineage.step, hflags] at hfrom ⊢
      rw [hfrom, Table.map_insert]
      rfl
    · simp only [hflags]
      cases cancelAfter with
      | none => rfl
      | some delay =>
        rw [Lineage.cancels, hfrom, Probe.flag?]
        cases probe.timer <;> rfl

theorem probeOnce_agrees (s : Session) (source : Settings.Source) (out : Sink) :
    s.Agrees (s.probeOnce source out).2 (.probeOnce source out) := by
  cases hsource : source.settings with
  | error stop =>
    rw [probeOnce, hsource]
    exact .of_nothing (by simp only [Lineage.step, hsource]) rfl
  | ok settings =>
    have hflags : ((Probe.runWith settings).runIn (s.writingTo out).process).2.flags =
        s.process.flags.make := Probe.flags_runWith settings _
    rw [probeOnce, hsource]
    constructor
    · simp only [lineage, Lineage.step, hsource, runIn, hflags]
      rfl
    · simp only [runIn, hflags]
      rfl

/-- After each operation the flags agree with the lineage. -/
theorem step_agrees {s : Session} (hpending : s.process.pending = []) (op : Operation) :
    s.Agrees (s.step op).2 op := by
  cases op with
  | add | erase | rename | enter | openFile | probeState | timerDelay | isCancelled | start
  | runLauncher => exact .of_isBeside s rfl
  | makeProbe name source =>
    simp only [step, makeProbe]
    cases hsource : source.settings with
    | error stop => exact .of_nothing (by simp only [Lineage.step, hsource]) rfl
    | ok settings =>
      refine ⟨?_, rfl⟩
      simp only [Lineage.step, hsource]
      exact congrArg (fun probes => { s.lineage with makings := s.process.flags.made + 1, probes })
        (Table.map_insert _ _ _ _)
  | probeOnce source out => exact s.probeOnce_agrees source out
  | makeTimer name delay task =>
    refine ⟨?_, rfl⟩
    exact congrArg (fun timers => { s.lineage with makings := s.process.flags.made + 1, timers })
      (Table.map_insert _ _ _ _)
  | timerHandle name handle =>
    refine .of_handing handle ((s.timers.get? name).map fun timer => timer.flag) ?_ rfl ?_
    · rw [Lineage.step, get?_lineage_timers, Option.map_map, Option.map_map]
      rfl
    · simp only [step]
      cases s.timers.get? name <;> rfl
  | probeHandle name handle =>
    refine .of_handing handle ((s.probes.get? name).bind Probe.flag?) ?_ rfl ?_
    · rw [Lineage.step, get?_lineage_probes]
      cases s.probes.get? name with
      | none => rfl
      | some probe =>
        rw [Option.map_some, Option.bind_some, Probe.flag?]
        cases probe.timer <;> rfl
    · simp only [step]
      cases s.probes.get? name with
      | none => rfl
      | some probe =>
        simp only [withNamed, Option.bind_some]
        cases probe.flag? <;> rfl
  | copyHandle name handle =>
    refine .of_handing handle (s.handles.get? name) ?_ rfl ?_
    · rw [Lineage.step, get?_lineage_handles]
    · simp only [step]
      cases s.handles.get? name <;> rfl
  | runTimer name cancelAfter => exact runTimer_agrees hpending name cancelAfter
  | runProbe name out cancelAfter => exact runProbe_agrees hpending name out cancelAfter
  | cancel name =>
    have hfrom := s.get?_lineage_handles name
    simp only [step]
    cases hhandle : s.handles.get? name with
    | none => exact .of_nothing rfl (by rw [Lineage.cancels, hfrom, hhandle]; rfl)
    | some flag =>
      refine ⟨rfl, ?_⟩
      rw [Lineage.cancels, hfrom, hhandle]
      rfl
  | drop name =>
    refine ⟨?_, rfl⟩
    simp only [lineage, Lineage.step, step, Table.map_erase]
  | makeLauncher name command => exact ⟨rfl, rfl⟩

end Session

end DeferredOpen
