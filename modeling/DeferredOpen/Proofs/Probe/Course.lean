import DeferredOpen.Probe
import DeferredOpen.Proofs.Process.Printing
import DeferredOpen.Proofs.Timer.Waiting

/-!
# The course of a probe

A probe takes six steps, and each can bring its end: it announces itself, passes that on, waits,
opens its file, reports the descriptor and passes that on. The course lists them as they can be
told from the beginning, and a run performs them up to the first one that fails or is cancelled.
All the rest is read off the course.
-/

namespace DeferredOpen.Probe

def fresh (settings : Settings) (flag : Flag) : Probe :=
  { file := settings.file, timer := some ⟨settings.delay, flag, settings.file⟩ }

theorem create_runIn (settings : Settings) (q : Process) :
    (create settings).runIn q =
      (.ok (fresh settings q.flags.next), { q with flags := q.flags.make }) := rfl

/-- The process in which a probe is run that has been made for its run. -/
def made (settings : Settings) (q : Process) : Process :=
  { q.after (.logged (.probing settings)) with flags := q.flags.make }

theorem runWith_runIn (settings : Settings) (q : Process) :
    (runWith settings).runIn q = (fresh settings q.flags.next).run.runIn (made settings q) := rfl

def heading : Bytes := Utf8.encode announcement

section

variable (settings : Settings) (q : Process) (w : Timer.Wait)

/-- The descriptor that the file of a probe would get. -/
def next : Descriptor := q.world.numbering.pick q.held

def line : Bytes := Utf8.encode (report (next q))

/-- The steps of a probe from the opening on. -/
def reading : List (Step (Option Descriptor)) :=
  [.opening q.world settings.file (next q) w.ended,
    .writing q.out heading (line q) w.ended,
    .passing q.out 2 w.ended]

/-- The six steps of a probe whose timer waits like `w`. -/
def course : List (Step (Option Descriptor)) :=
  [.writing q.out [] heading q.now, .passing q.out 1 q.now, .waiting w] ++ reading settings q w

/-- A probe takes its steps one after the other. -/
theorem run_follows (flag : Flag) {deadline : Nat} (hgives : q.out.GivesUp)
    (hdeadline : Instant.after? (q.world.clock.reading q.now) settings.delay = some deadline) :
    Follows (fresh settings flag).run q
      (course settings q (Timer.waitIn flag q deadline)) (.ok (some (next q))) := by
  refine Follows.write (Sink.Past.begin hgives) ?_
  intro hpast
  refine Follows.flush hpast ?_
  intro hpast
  refine Follows.log _ ?_
  refine Follows.timer hdeadline rfl ?_
  intro hfired
  refine Follows.openFile ?_
  intro hopens
  refine Follows.write hpast ?_
  intro hpast
  refine Follows.flush hpast ?_
  intro hpast
  exact Follows.pure _

/-- A probe whose delay leads past the end of time breaks instead of waiting. -/
theorem run_follows_of_never (flag : Flag) (last : Except Stop (Option Descriptor))
    (hgives : q.out.GivesUp)
    (hnever : Instant.after? (q.world.clock.reading q.now) settings.delay = none) :
    Follows (fresh settings flag).run q
      [.writing q.out [] heading q.now, .passing q.out 1 q.now,
        .breaking (q.world.clock.reading q.now)] last := by
  refine Follows.write (Sink.Past.begin hgives) ?_
  intro hpast
  refine Follows.flush hpast ?_
  intro hpast
  refine Follows.log _ ?_
  exact Follows.endlessTimer hnever

/-- There is room for the announcement, and it is passed on. -/
def Announced : Prop := q.out.takes heading.length = true ∧ q.out.flushFaultAt? 1 = none

def Opened : Prop := q.world.opens w.ended settings.file = .ok ()

/-- There is room for the report, too, and it is passed on. -/
def Reported : Prop :=
  q.out.takes (heading.length + (line q).length) = true ∧ q.out.flushFaultAt? 2 = none

instance : Decidable (Announced q) := inferInstanceAs (Decidable (_ ∧ _))

variable {q} in
theorem announced_of_takesAll (h : q.out.TakesAll) : Announced q := ⟨h.takes _, h.flushFaultAt? 1⟩

variable {q} in
theorem reported_of_takesAll (h : q.out.TakesAll) : Reported q := ⟨h.takes _, h.flushFaultAt? 2⟩

/-- What a probe tries to print: the report stands behind the announcement when the file has been
opened. -/
def printed : Bytes :=
  match q.out.flushFaultAt? 1, w.fired, q.world.opens w.ended settings.file with
  | none, true, .ok () => heading ++ line q
  | _, _, _ => heading

/-- The openings that a probe tries. -/
def tried : List (Path × Except SystemFault Descriptor) :=
  if Announced q ∧ w.fired = true then
    [(settings.file, (q.world.opens w.ended settings.file).map fun _ => next q)]
  else []

theorem announced_iff : q.out.printFault? heading.length 1 = none ↔ Announced q :=
  q.out.printFault?_eq_none_iff _ _

theorem reported_iff :
    q.out.printFault? (heading.length + (line q).length) 2 = none ↔ Reported q :=
  q.out.printFault?_eq_none_iff _ _

theorem reading_eq :
    reading settings q w =
      .opening q.world settings.file (next q) w.ended ::
        Step.printing q.out heading (line q) 2 w.ended := rfl

theorem course_eq :
    course settings q w =
      Step.printing q.out [] heading 1 q.now ++ .waiting w :: reading settings q w := rfl

/-- The only opening of a course is that of its fourth step. -/
theorem openings_course :
    (Step.trace (course settings q w)).filterMap Event.opening? = tried settings q w := by
  have hsleeps : (w.sleeps.map Event.slept).filterMap Event.opening? = [] := by
    simp [Event.opening?]
  have hreading : (Step.trace (reading settings q w)).filterMap Event.opening? =
      [(settings.file, (q.world.opens w.ended settings.file).map fun _ => next q)] := by
    rw [reading_eq, Step.trace_opening]
    cases q.world.opens w.ended settings.file with
    | error e => rfl
    | ok _ =>
      exact congrArg _ (Step.filterMap_trace_printing_last _ _ _ _ _ (fun _ => rfl) rfl)
  rw [course_eq, Step.filterMap_trace_printing _ _ _ _ _ _ (fun _ => rfl) rfl, Step.trace_waiting,
    List.filterMap_append, hsleeps, List.nil_append, tried, List.length_nil, Nat.zero_add]
  simp only [announced_iff]
  by_cases h : Announced q
  · cases w.fired with
    | false => simp [h]
    | true => simpa [h] using hreading
  · simp [h]

/-- What is written on a course is as much of what is to be printed as fits. -/
theorem written_course :
    (Step.trace (course settings q w)).flatMap Event.written =
      q.out.fitting (printed settings q w) := by
  rw [course_eq, Step.written_printing, Step.trace_waiting, List.flatMap_append,
    Event.written_slept, List.nil_append, List.length_nil, Nat.zero_add, List.drop_zero,
    List.nil_append]
  simp only [announced_iff]
  by_cases h : Announced q
  · rw [if_pos h, printed, h.2]
    cases w.fired with
    | false => exact List.append_nil _
    | true =>
      rw [if_pos rfl, reading_eq, Step.trace_opening, List.flatMap_cons]
      cases q.world.opens w.ended settings.file with
      | error e => exact List.append_nil _
      | ok _ =>
        -- The report takes what is left behind the announcement.
        simp only [Step.written_printing_last, Sink.fitting_eq_self h.1]
        exact Sink.append_drop_fitting h.1 _
  · rw [if_neg h, List.append_nil]
    unfold printed
    split
    · rename_i hflush _ _
      have hfull : q.out.takes heading.length = false := by
        rw [← Bool.not_eq_true]
        intro htakes
        exact h ⟨htakes, hflush⟩
      exact (Sink.fitting_append_of_not_takes hfull _).symm
    · rfl

/-- The steps from the opening on give a descriptor when all of them pass, and else a fault. -/
theorem outcome_reading (x : Option Descriptor) :
    Step.outcome (reading settings q w) (.ok (some (next q))) = .ok x ↔
      x = some (next q) ∧ Opened settings q w ∧ Reported q := by
  rw [reading_eq, Opened, ← reported_iff]
  cases hopens : q.world.opens w.ended settings.file with
  | error e => simp [Step.outcome, Step.opening, hopens]
  | ok _ =>
    have hpasses : (Step.opening q.world settings.file (next q) w.ended :
        Step (Option Descriptor)).ending = none := by
      simp only [Step.opening, hopens]
    rw [Step.outcome_pass hpasses, Step.outcome_printing_last]
    cases q.out.printFault? (heading.length + (line q).length) 2 <;> simp [eq_comm]

theorem outcome_course_of_announced (h : Announced q) (last : Except Stop (Option Descriptor)) :
    Step.outcome (course settings q w) last =
      if w.fired then Step.outcome (reading settings q w) last else .ok none := by
  rw [course_eq, Step.outcome_printing, List.length_nil, Nat.zero_add, (announced_iff q).mpr h]
  cases hfired : w.fired <;> simp [Step.outcome, Step.waiting, hfired]

theorem printed_eq_heading (h : w.fired = false ∨ ¬ Opened settings q w) :
    printed settings q w = heading := by
  unfold printed
  split
  · rename_i _ hfired hopens
    rcases h with h | h
    · rw [h] at hfired
      cases hfired
    · exact absurd hopens h
  · rfl

/-- What the run of a probe comes to that begins in the process `q` and waits like `w` for as long
as its `flag` is down. The run `free` is the same one with nothing to limit what is written. -/
structure KeepsCourse (flag : Flag) (ran free : Except Stop (Option Descriptor) × Process) :
    Prop where
  /-- The deeds are those of the steps up to the first one that brings an end. -/
  deeds : ran.2.deeds = q.deeds ++ Step.trace (course settings q w)
  /-- The first step that brings an end decides the result. -/
  result : ran.1 = Step.outcome (course settings q w) (.ok (some (next q)))
  some_iff : ∀ d, ran.1 = .ok (some d) ↔
    d = next q ∧ Announced q ∧ w.fired = true ∧ Opened settings q w ∧ Reported q
  none_iff : ran.1 = .ok none ↔ Announced q ∧ w.fired = false
  /-- The file is tried once, at the end of a wait that fired, and else not at all. -/
  openings : ran.2.openings = q.openings ++ tried settings q w
  now : Announced q → ran.2.now = w.ended
  delayed : w.fired = true → q.now + settings.delay.nanos ≤ w.ended
  /-- The wait is over at a look, and the timer fires just if nobody has raised the flag by then. -/
  looked : ∃ seen, q.now ≤ seen ∧ q.world.clock.reading seen = w.ended ∧
    (w.fired = true ↔ ∀ t ≤ seen, q.raisedAt flag t = false)
  cancelled : w.fired = false → ∃ t ≤ w.ended, q.raisedAt flag t = true
  uncancelled : (∀ t ≤ w.ended, q.raisedAt flag t = false) → w.fired = true
  /-- What is to be printed is printed as far as there is room. -/
  output : ran.2.out.accepted = q.out.accepted ++ q.out.fitting (printed settings q w)
  freeOutput : free.2.out.accepted = q.out.accepted ++ printed settings q w
  /-- There is no part of a report about a file that was not opened. -/
  unreported : Announced q → w.fired = false ∨ ¬ Opened settings q w →
    ran.2.out.accepted = q.out.accepted ++ heading

end

end DeferredOpen.Probe
