import DeferredOpen.Proofs.Probe.Announcing
import DeferredOpen.Proofs.Session.Cancelling
import DeferredOpen.Proofs.Session.OneRun

/-!
# What a probe has behind it when it is done

A probe is done with its first run, but that run need not have got as far as the file. It has tried
the file or was cancelled just if it could announce itself and its deadline could be told. If not it
is done with nothing behind it, and no later run makes up for that.
-/

namespace DeferredOpen.Session

variable {name : String} {s : Session} {ops : List Operation}

theorem openingsFor_append (s : Session) (ops more : List Operation) :
    openingsFor name s (ops ++ more) =
      openingsFor name s ops ++ openingsFor name (s.after ops) more := by
  induction ops generalizing s with
  | nil => rfl
  | cons op ops ih =>
    rw [List.cons_append, openingsFor_cons, ih, openingsFor_cons s op ops, after_cons,
      List.append_assoc]

/-- Nothing is opened for a probe that is not run. -/
theorem openingsFor_of_unrun (hpending : s.process.pending = [])
    (hunrun : ops.any (·.runs name) = false) : openingsFor name s ops = [] := by
  induction ops generalizing s with
  | nil => rfl
  | cons op ops ih =>
    rw [List.any_cons, Bool.or_eq_false_iff] at hunrun
    have hone : (openingsFor name s [op]).length ≤ (if op.runs name then 1 else 0) :=
      (openingsFor_singleton_length hpending op).1
    rw [hunrun.1, if_neg Bool.false_ne_true, Nat.le_zero] at hone
    rw [openingsFor_cons, List.eq_nil_of_length_eq_zero hone, List.nil_append]
    exact ih (pending_step hpending op) hunrun.2

/-- What a run of a probe opens is opened for the probe. -/
theorem openingsFor_run {probe : Probe} (hprobe : s.probes.get? name = some probe) {out : Sink}
    {cancelAfter : Option Duration} {more : List (Path × Except SystemFault Descriptor)}
    (h : (probe.run.runIn
      ((s.writingTo out).cancelling probe.flag? cancelAfter).process).2.openings =
        s.process.openings ++ more) :
    openingsFor name s [.runProbe name out cancelAfter] = more := by
  have hown : Operation.opensElse name (.runProbe name out cancelAfter) = false :=
    decide_eq_false fun hne => hne rfl
  have hran : (s.step (.runProbe name out cancelAfter)).2.process.openings =
      s.process.openings ++ more := (runProbe_openings hprobe out cancelAfter).trans h
  simp only [openingsFor, hown, hran, Bool.false_eq_true, if_false, List.append_nil,
    List.drop_left]

/-- What the first run of a probe comes to, which is done from then on. It begins in the process `q`
and is over at an instant `ended`. -/
structure FirstRun (settings : Settings) (flag : Flag) (q : Process) (ended : Nat) (answer : Answer)
    (openings : List (Path × Except SystemFault Descriptor)) : Prop where
  /-- If it got to wait the file has been tried, or it was cancelled by the time it ended. -/
  waited : Probe.Waits settings.delay q →
    (∃ result printed given, openings = [(settings.file, result)] ∧
      answer = .probeRan given printed .done ∧ given ≠ .ok none) ∨
    ∃ printed, openings = [] ∧ answer = .probeRan (.ok none) printed .done ∧
      ∃ t ≤ ended, q.raisedAt flag t = true
  /-- If it did not neither is so, and it has ended as its announcement did, or broken behind it. -/
  stopped : ¬ Probe.Waits settings.delay q → openings = [] ∧ ∃ stop printed,
    answer = .probeRan (.error stop) printed .done ∧
      (Probe.announcementIn q.out = .error stop ∨ Probe.Announced q ∧ stop = .panicked)

theorem firstRun {flag : Flag} {settings : Settings}
    (hprobe : s.probes.get? name = some (.fresh settings flag)) (out : Sink)
    (cancelAfter : Option Duration) :
    let q := ((s.writingTo out).cancelling (some flag) cancelAfter).process
    FirstRun settings flag q ((Probe.fresh settings flag).run.runIn q).2.now
      (s.step (.runProbe name out cancelAfter)).1
      (openingsFor name s [.runProbe name out cancelAfter]) := by
  intro q
  let probe : Probe := .fresh settings flag
  have htimer : probe.timer = some ⟨settings.delay, flag, settings.file⟩ := rfl
  have hanswer : (s.step (.runProbe name out cancelAfter)).1 =
      .probeRan (probe.run.runIn q).1 (probe.run.runIn q).2.out .done :=
    congrArg Prod.fst (runProbe_eq hprobe out cancelAfter)
  have hbefore : q.openings = s.process.openings := by
    obtain ⟨pending, hpending⟩ := (s.writingTo out).cancelling_eq (some flag) cancelAfter
    simp only [q, hpending]
    rfl
  have hopenings {more} (h : (probe.run.runIn q).2.openings = q.openings ++ more) :
      openingsFor name s [.runProbe name out cancelAfter] = more := by
    rw [hbefore] at h
    exact openingsFor_run hprobe h
  have hnothing (h : (probe.run.runIn q).2.openings = q.openings) :
      openingsFor name s [.runProbe name out cancelAfter] = [] :=
    hopenings (h.trans (List.append_nil _).symm)
  rw [hanswer]
  constructor
  · intro hwaits
    obtain ⟨result, htried, hgiven⟩ | ⟨hgiven, hleft, hraised⟩ := Probe.run_of_waits htimer hwaits
    · exact .inl ⟨result, _, _, hopenings htried, rfl, hgiven⟩
    · exact .inr ⟨_, hnothing hleft, congrArg (Answer.probeRan · _ .done) hgiven, hraised⟩
  · intro hwaits
    obtain ⟨stop, hstop, hleft, hwhy⟩ := Probe.run_of_not_waits htimer hwaits
    exact ⟨hnothing hleft, stop, _, congrArg (Answer.probeRan · _ .done) hstop, hwhy⟩

/-- A first run has tried the file or given nothing just if it got to wait, and not both. If it has
given nothing its flag was raised. -/
theorem FirstRun.tried_or_cancelled_iff {settings : Settings} {flag : Flag} {q : Process}
    {ended : Nat} {answer : Answer} {openings : List (Path × Except SystemFault Descriptor)}
    (h : FirstRun settings flag q ended answer openings) :
    let tried := ∃ result, openings = [(settings.file, result)]
    let cancelled := ∃ printed, answer = .probeRan (.ok none) printed .done
    (tried ∨ cancelled ↔ Probe.Waits settings.delay q) ∧ ¬ (tried ∧ cancelled) ∧
      (cancelled → ∃ t ≤ ended, q.raisedAt flag t = true) := by
  intro tried cancelled
  by_cases hwaits : Probe.Waits settings.delay q
  · obtain ⟨result, _, given, htried, hanswer, hgiven⟩ | ⟨printed, hnone, hanswer, hraised⟩ :=
      h.waited hwaits
    · have huncancelled : ¬ cancelled := by
        rintro ⟨printed, hcancelled⟩
        rw [hanswer] at hcancelled
        injection hcancelled with hgave
        exact hgiven hgave
      exact ⟨iff_of_true (.inl ⟨result, htried⟩) hwaits, fun h => huncancelled h.2,
        fun h => absurd h huncancelled⟩
    · refine ⟨iff_of_true (.inr ⟨printed, hanswer⟩) hwaits, ?_, fun _ => hraised⟩
      rintro ⟨⟨result, htried⟩, -⟩
      rw [hnone] at htried
      cases htried
  · obtain ⟨hnone, stop, printed, hanswer, -⟩ := h.stopped hwaits
    have huntried : ¬ tried := fun ⟨result, htried⟩ => by
      rw [hnone] at htried
      cases htried
    have huncancelled : ¬ cancelled := fun ⟨printed', hgiven⟩ => by
      rw [hanswer] at hgiven
      cases hgiven
    exact ⟨iff_of_false (not_or.mpr ⟨huntried, huncancelled⟩) hwaits, fun h => huntried h.1,
      fun h => absurd h huncancelled⟩

/-- During a run the flag is up if it was raised before, or when others have come to raise it. -/
theorem raisedAt_cancelling_iff (hpending : s.process.pending = []) (flag : Flag)
    (cancelAfter : Option Duration) (t : Nat) :
    (s.cancelling (some flag) cancelAfter).process.raisedAt flag t = true ↔
      s.process.flags.isRaised flag = true ∨
        ∃ delay, cancelAfter = some delay ∧ s.process.now + delay.nanos ≤ t := by
  cases cancelAfter with
  | none => simp [cancelling, Process.raisedAt, hpending]
  | some delay => simp [cancelling, Process.raisedAt, hpending]

/-- The flag of a probe that is made in a session is numbered by the timers made before. -/
theorem next_inWorld (w : World) (earlier : List Operation) :
    ((inWorld w).after earlier).process.flags.next = ⟨(({} : Lineage).after earlier).makings⟩ := by
  rw [← lineage_inWorld w earlier]
  rfl

section

variable {probe : Probe} {later : List Operation}

/-- A probe that has been run stays spent. -/
theorem get?_after_run (hprobe : s.probes.get? name = some probe)
    (hlater : ∀ op ∈ later, op.keeps name = true) (out : Sink) (cancelAfter : Option Duration) :
    ((s.step (.runProbe name out cancelAfter)).2.after later).probes.get? name =
      some probe.spent := by
  have hkeeps : ∀ op ∈ .runProbe name out cancelAfter :: later, op.keeps name = true :=
    List.forall_mem_cons.mpr ⟨rfl, hlater⟩
  have hruns : (Operation.runProbe name out cancelAfter).runs name = true := decide_eq_true rfl
  have hget := get?_after hkeeps s
  rwa [List.any_cons, hruns, Bool.true_or, if_pos rfl, hprobe] at hget

/-- Nothing is opened for a probe behind its first run. -/
theorem openingsFor_run_cons (hpending : s.process.pending = [])
    (hprobe : s.probes.get? name = some probe) (hlater : ∀ op ∈ later, op.keeps name = true)
    (out : Sink) (cancelAfter : Option Duration) :
    openingsFor name s (.runProbe name out cancelAfter :: later) =
      openingsFor name s [.runProbe name out cancelAfter] := by
  have hspent : (s.step (.runProbe name out cancelAfter)).2.probes.get? name =
      some probe.spent := get?_after_run hprobe (List.forall_mem_nil _) out cancelAfter
  have hrest : openingsFor name (s.step (.runProbe name out cancelAfter)).2 later = [] :=
    openingsFor_of_spent hlater (pending_step hpending _) ⟨_, hspent, rfl⟩
  rw [openingsFor_cons, hrest, List.append_nil]

end

/-- A probe is done when it has been run. It has its file tried or was cancelled then just if its
first run got to wait, and not both. It was cancelled by one of the operations before, through a
handle that goes back to it, or by what others did before that run was over. Otherwise the run ended
when the announcement could not be printed or broke behind it, and the file is never tried. -/
theorem done_has_tried_iff_waits (w : World) (earlier : List Operation) {name : String}
    {source : Settings.Source} {settings : Settings} {made : Session}
    (hmade : ((inWorld w).after earlier).step (.makeProbe name source) = (.settings settings, made))
    {before later : List Operation} (hkeeps : ∀ op ∈ before ++ later, op.keeps name = true)
    (hfirst : before.any (·.runs name) = false) (out : Sink) (cancelAfter : Option Duration) :
    let begun : Lineage := {}
    let making := (begun.after earlier).makings
    let s := made.after before
    let q := ((s.writingTo out).cancelling (some ⟨making⟩) cancelAfter).process
    let ended := ((Probe.fresh settings ⟨making⟩).run.runIn q).2.now
    let ran := s.step (.runProbe name out cancelAfter)
    let ops := before ++ .runProbe name out cancelAfter :: later
    let tried := ∃ result, openingsFor name made ops = [(settings.file, result)]
    let cancelled := ∃ printed, ran.1 = .probeRan (.ok none) printed .done
    ((made.after ops).step (.probeState name)).1 = .state .done ∧
    (tried ∨ cancelled ↔ Probe.Waits settings.delay q) ∧ ¬ (tried ∧ cancelled) ∧
    (cancelled → begun.HasCancelled (earlier ++ .makeProbe name source :: before) making ∨
      ∃ delay, cancelAfter = some delay ∧ s.process.now + delay.nanos ≤ ended) ∧
    FirstRun settings ⟨making⟩ q ended ran.1 (openingsFor name made ops) := by
  intro begun making s q ended ran ops tried cancelled
  have hpending : made.process.pending = [] := pending_of_step hmade
  have hbefore : ∀ op ∈ before, op.keeps name = true := fun op h =>
    hkeeps op (List.mem_append_left _ h)
  have hlater : ∀ op ∈ later, op.keeps name = true := fun op h =>
    hkeeps op (List.mem_append_right _ h)
  have hprobe := get?_makeProbe_eq_fresh hmade
  rw [next_inWorld] at hprobe
  have hfresh : s.probes.get? name = some (.fresh settings ⟨making⟩) := by
    rw [get?_after hbefore, hfirst]
    exact hprobe
  have hopenings : openingsFor name made ops =
      openingsFor name s [.runProbe name out cancelAfter] := by
    rw [openingsFor_append, openingsFor_of_unrun hpending hfirst, List.nil_append]
    exact openingsFor_run_cons (pending_after hpending before) hfresh hlater out cancelAfter
  have hrun := firstRun hfresh out cancelAfter
  rw [← hopenings] at hrun
  obtain ⟨hiff, hnot, hraised⟩ := hrun.tried_or_cancelled_iff
  refine ⟨?_, hiff, hnot, ?_, hrun⟩
  · have hspent : (made.after ops).probes.get? name =
        some (Probe.fresh settings ⟨making⟩).spent := by
      rw [after_append, after_cons]
      exact get?_after_run hfresh hlater out cancelAfter
    simp only [step, hspent, withNamed]
    rfl
  · intro hcancelled
    obtain ⟨t, ht, hup⟩ := hraised hcancelled
    have hsession : s = (inWorld w).after (earlier ++ .makeProbe name source :: before) := by
      rw [after_append, after_cons, hmade]
    have hquiet : (s.writingTo out).process.pending = [] := pending_after hpending before
    rw [raisedAt_cancelling_iff hquiet] at hup
    obtain hearlier | ⟨delay, hdelay, hdue⟩ := hup
    · left
      rw [← isRaised_inWorld_iff w, ← hsession]
      exact hearlier
    · exact .inr ⟨delay, hdelay, Nat.le_trans hdue ht⟩

/-- A second run in a sink that takes everything does not make up for a flush that has failed. -/
theorem done_has_tried_iff_waits_of_failed_flush :
    let w : World := .installed {} []
    let made := ((inWorld w).step (.makeProbe "p" (.given {}))).2
    let gone : Sink := { flushFault := some (1, .ofKind .brokenPipe "pipe gone") }
    let before : List Operation := [.probeHandle "p" "h", .probeState "p"]
    let later : List Operation := [.cancel "h", .runProbe "p" {} none]
    let ops := before ++ .runProbe "p" gone none :: later
    ((inWorld w).after []).step (.makeProbe "p" (.given {})) = (.settings {}, made) ∧
    (∀ op ∈ before ++ later, op.keeps "p" = true) ∧
    before.any (·.runs "p") = false ∧
    ((made.after ops).step (.probeState "p")).1 = .state .done ∧ openingsFor "p" made ops = [] ∧
    ∃ printed, ((made.after before).step (.runProbe "p" gone none)).1 =
      .probeRan (.error (.failed (.ofKind .brokenPipe "pipe gone"))) printed .done := by
  intro w made gone before later ops
  have hmade : ((inWorld w).after []).step (.makeProbe "p" (.given {})) =
      (.settings {}, made) := rfl
  have hkeeps : ∀ op ∈ before ++ later, op.keeps "p" = true := by decide
  have hfirst : before.any (·.runs "p") = false := rfl
  obtain ⟨hdone, -, -, -, hran⟩ := done_has_tried_iff_waits w [] hmade hkeeps hfirst gone none
  have hsilent : ¬ Probe.Announced ((made.after before).writingTo gone).process := nofun
  obtain ⟨hnothing, stop, printed, hanswer, hwhy⟩ := hran.stopped fun hwaits => hsilent hwaits.1
  obtain hstop | ⟨hannounced, -⟩ := hwhy
  · obtain rfl := Except.error.inj hstop
    exact ⟨hmade, hkeeps, hfirst, hdone, hnothing, printed, hanswer⟩
  · exact absurd hannounced hsilent

/-- A probe in a sink that takes nothing is done at once, though nobody has cancelled it and nobody
has tried its file. -/
theorem done_of_closed_sink :
    let made := ((inWorld (.installed {} [])).step (.makeProbe "p" (.given {}))).2
    let out : Sink := { room := some 0, refusal := some (.ofKind .brokenPipe "pipe gone") }
    let ran := made.step (.runProbe "p" out none)
    (ran.2.step (.probeState "p")).1 = .state .done ∧ ran.2.process.openings = [] ∧
    ran.2.process.flags.raised = [] ∧
    ∃ printed, ran.1 =
      .probeRan (.error (.failed (.ofKind .brokenPipe "pipe gone"))) printed .done := by
  intro made out ran
  exact ⟨rfl, rfl, rfl, _, rfl⟩

end DeferredOpen.Session
