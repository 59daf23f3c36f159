import DeferredOpen.Proofs.Probe.Announcing

/-!
# What a probe obtains and what it reports

A run of a probe obtains one descriptor at most. The number that it prints and the descriptor that
it gives are the one obtained. If the report cannot be printed the caller gets a fault, and the
descriptor is there all the same.
-/

namespace DeferredOpen

namespace Action

/-- A text is printed to its end, or the printing fails and has written a beginning of it. -/
theorem print_cases (text : String) (x : α) (p : Process) :
    let ran := (do write text; flush; pure x : Action α).runIn p
    (ran.1 = .ok x ∧ ran.2.out.accepted = p.out.accepted ++ Utf8.encode text) ∨
      ∃ stop shown, ran.1 = .error stop ∧ shown <+: Utf8.encode text ∧
        ran.2.out.accepted = p.out.accepted ++ shown := by
  intro ran
  let written := p.wrote (Utf8.encode text)
  have hwrite : (write text).runIn p = ((p.out.write (Utf8.encode text)).1, written) := rfl
  rw [Sink.write_fst] at hwrite
  cases htakes : p.out.takes (Utf8.encode text).length with
  | false =>
    rw [htakes, if_neg Bool.false_ne_true] at hwrite
    have hran : ran = (.error p.out.refuse, written) := runIn_bind_error hwrite
    exact .inr ⟨_, _, by rw [hran], p.out.fitting_prefix _, by rw [hran]; rfl⟩
  | true =>
    rw [htakes, if_pos rfl] at hwrite
    have hran : ran = (do flush; pure x : Action α).runIn written := runIn_bind_ok hwrite
    have haccepted : written.passedOn.out.accepted = p.out.accepted ++ Utf8.encode text := by
      rw [← Sink.fitting_eq_self htakes]
      exact Sink.accepted_flush _
    cases hflush : written.out.flush.1 with
    | error stop =>
      have hrun : flush.runIn written = (.error stop, written.passedOn) :=
        Prod.ext hflush rfl
      rw [runIn_bind_error hrun] at hran
      exact .inr ⟨stop, _, by rw [hran], List.prefix_rfl, by rw [hran, haccepted]⟩
    | ok _ =>
      have hrun : flush.runIn written = (.ok (), written.passedOn) := Prod.ext hflush rfl
      rw [runIn_bind_ok hrun] at hran
      exact .inl ⟨by rw [hran]; rfl, by rw [hran]; exact haccepted⟩

end Action

namespace Probe

/-- A report tells one descriptor and no other. -/
theorem report_injective {d d' : Descriptor} (h : report d = report d') : d = d' := by
  have htext : "fd: " ++ toString d.number = "fd: " ++ toString d'.number :=
    (String.append_left_inj "\n").mp h
  have hdigits : Nat.toDigits 10 d.number = Nat.toDigits 10 d'.number :=
    String.ofList_injective ((String.append_right_inj "fd: ").mp htext)
  have hnumber := congrArg (fun ds => Nat.ofDigitChars 10 ds 0) hdigits
  simp only [Nat.ofDigitChars_toDigits (b := 10) (by decide) (by decide)] at hnumber
  cases d
  cases d'
  exact congrArg Descriptor.mk hnumber

/-- How the openings that a run of a probe has tried, what comes of the run, and what has been
written before and after it belong together. -/
inductive Reports (before : Bytes) :
    List (Path × Except SystemFault Descriptor) → Except Stop (Option Descriptor) → Bytes → Prop
  /-- The descriptor is obtained, its number is printed, and the caller gets it. -/
  | given (file : Path) (d : Descriptor) :
    Reports before [(file, .ok d)] (.ok (some d)) (before ++ heading ++ Utf8.encode (report d))
  /-- The descriptor is obtained, and the printing of its number fails. -/
  | unprinted (file : Path) (d : Descriptor) (stop : Stop) (shown : Bytes) :
    shown <+: Utf8.encode (report d) →
    Reports before [(file, .ok d)] (.error stop) (before ++ heading ++ shown)
  /-- The file cannot be opened. -/
  | refused (file : Path) (e : SystemFault) :
    Reports before [(file, .error e)]
      (.error (.failed ((Fault.ofSystem e).context ("Unable to open '" ++ file.shown ++ "'"))))
      (before ++ heading)
  /-- The probe has been cancelled. -/
  | cancelled : Reports before [] (.ok none) (before ++ heading)
  /-- The probe does not get to wait for its time. -/
  | unopened (stop : Stop) (shown : Bytes) :
    shown <+: heading → Reports before [] (.error stop) (before ++ shown)

variable {probe : Probe} {timer : Timer Path} {q : Process}

/-- The task obtains a descriptor and reports it, unless the file cannot be opened. -/
theorem openAndReport_reports (file : Path) {before : Bytes}
    (hbefore : q.out.accepted = before ++ heading) :
    let ran := (openAndReport file).runIn q
    ∃ tried, q.Obtains tried ran.2 ∧ Reports before tried (ran.1.map some) ran.2.out.accepted := by
  intro ran
  refine ⟨_, obtains_openAndReport file q, ?_⟩
  cases hopens : q.world.opens q.now file with
  | error e =>
    have hran : ran = _ := Action.runIn_bind_error (Action.openFile_of_refused hopens)
    rw [hran]
    change Reports before _ _ q.out.accepted
    rw [hbefore]
    exact .refused file e
  | ok _ =>
    let d := next q
    let printed := (do Action.write (report d); Action.flush; pure d : Action Descriptor).runIn
      (q.opened file)
    have hran : ran = printed := Action.runIn_bind_ok (Action.openFile_of_opens hopens)
    have hout : (q.opened file).out.accepted = before ++ heading := hbefore
    rw [hran]
    obtain ⟨hresult, haccepted⟩ | ⟨stop, shown, hresult, hshown, haccepted⟩ :=
      Action.print_cases (report d) d (q.opened file)
    · rw [hresult, haccepted, hout]
      exact .given file d
    · rw [hresult, haccepted, hout]
      exact .unprinted file d stop shown hshown

/-- A probe that has announced itself waits, and opens its file unless it is cancelled. -/
theorem run_reports_of_announced (htimer : probe.timer = some timer) (h : Announced q) :
    let ran := probe.run.runIn q
    ∃ tried, q.Obtains tried ran.2 ∧ Reports q.out.accepted tried ran.1 ran.2.out.accepted := by
  intro ran
  let start := announced q probe.file timer.delay
  have hran : ran = (timer.runTask openAndReport).runIn start := run_of_announced htimer h
  have hstart : start.out.accepted = q.out.accepted ++ heading := by
    rw [← Sink.fitting_eq_self h.1]
    exact Sink.accepted_flush _
  have hholdings : start.holdings = q.holdings := holdings_announced q _ _
  cases hdeadline : Instant.after? (start.world.clock.reading start.now) timer.delay with
  | none =>
    rw [hran, Timer.runTask, Action.runIn_bind_error (Timer.run_of_never hdeadline)]
    refine ⟨[], .of_holdings hholdings, ?_⟩
    change Reports _ _ _ start.out.accepted
    rw [hstart]
    exact .unopened .panicked heading List.prefix_rfl
  | some deadline =>
    let w := Timer.waitIn timer.flag start deadline
    cases hfired : w.fired with
    | false =>
      rw [hran, Timer.runTask_of_not_fired hdeadline hfired]
      refine ⟨[], .of_holdings ((holdings_cancelled start w).trans hholdings), ?_⟩
      change Reports _ _ _ start.out.accepted
      rw [hstart]
      exact .cancelled
    | true =>
      rw [hran, Timer.runTask_of_fired hdeadline hfired]
      obtain ⟨tried, hobtains, hreports⟩ :=
        openAndReport_reports (q := timer.fired start w) timer.task hstart
      refine ⟨tried, hobtains.congr ?_ rfl, hreports⟩
      exact (holdings_fired timer start w).trans hholdings

/-- Whatever stands in the way of a probe: what it has obtained is what it reports, if it reports,
and what it gives, if it gives something. -/
theorem run_reports (probe : Probe) (q : Process) :
    let ran := probe.run.runIn q
    ∃ tried, q.Obtains tried ran.2 ∧ Reports q.out.accepted tried ran.1 ran.2.out.accepted := by
  intro ran
  cases htimer : probe.timer with
  | none =>
    have hran : ran = (.error (.failed alreadyRun), q) := by
      simp only [ran, run, htimer]
      rfl
    have hreports : Reports q.out.accepted [] ran.1 (q.out.accepted ++ []) := by
      rw [hran]
      exact .unopened _ [] List.nil_prefix
    rw [List.append_nil] at hreports
    rw [hran] at hreports ⊢
    exact ⟨[], .refl q, hreports⟩
  | some timer =>
    by_cases h : Announced q
    · exact run_reports_of_announced htimer h
    · obtain ⟨stop, -, hrun⟩ := run_of_unannounced htimer h
      have hran : ran = (.error stop, (announcing.runIn q).2) := hrun
      have hflush (_ : Unit) : Action.flush.Keeps fun p => p.out.accepted :=
        fun p => Sink.accepted_flush p.out
      have haccepted : (announcing.runIn q).2.out.accepted =
          q.out.accepted ++ q.out.fitting heading :=
        Action.Keeps.bind_right (Action.write announcement) hflush q
      rw [hran]
      refine ⟨[], .of_holdings (announcing_keeps_holdings q), ?_⟩
      dsimp only
      rw [haccepted]
      exact .unopened stop _ (q.out.fitting_prefix heading)

/-- A probe that is made for its run does nothing else before that has to do with descriptors or
with the output. -/
theorem runWith_reports (settings : Settings) (q : Process) :
    let ran := (runWith settings).runIn q
    ∃ tried, q.Obtains tried ran.2 ∧ Reports q.out.accepted tried ran.1 ran.2.out.accepted := by
  obtain ⟨tried, hobtains, hreports⟩ := (fresh settings q.flags.next).run_reports (made settings q)
  rw [runWith_runIn]
  exact ⟨tried, hobtains.congr (holdings_made settings q) rfl, hreports⟩

end Probe

end DeferredOpen
