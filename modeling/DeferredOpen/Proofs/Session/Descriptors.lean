import DeferredOpen.Proofs.Probe.Reporting
import DeferredOpen.Proofs.Session.Launching

/-!
# Descriptors in a session

Whatever is done in a session, the descriptors that are held stay held, and each successful opening
brings one more. That is so on every way an operation can end, also when a descriptor has been
obtained and its number cannot be printed. So no two of the descriptors obtained are the same, and
what an operation answers and prints is the descriptor that it has obtained.
-/

namespace DeferredOpen

theorem Process.holdings_settle (p : Process) : p.settle.holdings = p.holdings := by
  obtain ⟨now, flags, hsettle⟩ := p.settle_eq
  rw [hsettle]
  rfl

namespace Session

/-- How an operation, the openings that it has tried and its answer belong together. -/
inductive Operation.Accounts :
    Operation → List (Path × Except SystemFault Descriptor) → Answer → Prop
  | opened (path : Path) (d : Descriptor) : Accounts (.openFile path) [(path, .ok d)] (.opened d)
  | refused (path : Path) (e : SystemFault) :
    Accounts (.openFile path) [(path, .error e)]
      (.stopped (.failed ((Fault.ofSystem e).context ("Unable to open '" ++ path.shown ++ "'"))))
  | probeRan (name : String) (out after : Sink) (cancelAfter : Option Duration)
    (tried : List (Path × Except SystemFault Descriptor))
    (result : Except Stop (Option Descriptor)) :
    Probe.Reports out.accepted tried result after.accepted →
    Accounts (.runProbe name out cancelAfter) tried (.probeRan result after .done)
  | noProbe (name : String) (out : Sink) (cancelAfter : Option Duration) :
    Accounts (.runProbe name out cancelAfter) [] .unknownName
  | probedOnce (source : Settings.Source) (out after : Sink)
    (tried : List (Path × Except SystemFault Descriptor))
    (result : Except Stop (Option Descriptor)) :
    Probe.Reports out.accepted tried result after.accepted →
    Accounts (.probeOnce source out) tried (.probedOnce result after)
  /-- All other operations leave files unopened. -/
  | other (op : Operation) (answer : Answer) : op.openings = 0 → Accounts op [] answer

def tried (s : Session) (op : Operation) : List (Path × Except SystemFault Descriptor) :=
  (s.step op).2.process.openings.drop s.process.openings.length

def triedBy : Session → List Operation → List (Path × Except SystemFault Descriptor)
  | _, [] => []
  | s, op :: ops => s.tried op ++ (s.step op).2.triedBy ops

theorem triedBy_append (s : Session) (ops more : List Operation) :
    s.triedBy (ops ++ more) = s.triedBy ops ++ (s.after ops).triedBy more := by
  induction ops generalizing s with
  | nil => rfl
  | cons op ops ih => rw [List.cons_append, triedBy, ih, triedBy, after_cons, List.append_assoc]

theorem tried_of_obtains {s : Session} {op : Operation}
    {tried : List (Path × Except SystemFault Descriptor)}
    (h : s.process.Obtains tried (s.step op).2.process) : s.tried op = tried := by
  rw [Session.tried, h.openings, List.drop_left]

/-- The cancellation that a run leaves for later is no matter of descriptors. -/
theorem holdings_cancelling (s : Session) (flag : Option Flag) (after : Option Duration) :
    (s.cancelling flag after).process.holdings = s.process.holdings ∧
      (s.cancelling flag after).process.out = s.process.out := by
  obtain ⟨pending, hpending⟩ := s.cancelling_eq flag after
  rw [hpending]
  exact ⟨rfl, rfl⟩

theorem timerAction_keeps_holdings (timer : Timer Task) :
    (timerAction timer).Keeps Process.holdings := by
  refine .bind timer.run_keeps_holdings fun fired => ?_
  cases fired with
  | none => exact .pure _
  | some task =>
    cases task with
    | give text => exact .map _ (.pure _)
    | panic => exact .map _ .panic

theorem start_keeps_holdings (s : Session) (c : Command) :
    (s.start c).2.process.holdings = s.process.holdings := by
  have hstart : (s.runIn (Action.start c)).2.process.holdings = s.process.holdings :=
    Action.start_keeps_holdings c s.process
  unfold start
  cases hrun : s.runIn (Action.start c) with
  | mk result started =>
    rw [hrun] at hstart
    cases result with
    | error stop => exact hstart
    | ok child =>
      obtain ⟨files, hfiles⟩ := started.reap_snd s.process.children.length
      simp only
      rw [hfiles]
      exact hstart

/-- An operation that opens no file leaves all that has to do with descriptors as it is. -/
theorem step_keeps_holdings {op : Operation} (h : op.openings = 0) (s : Session) :
    (s.step op).2.process.holdings = s.process.holdings := by
  cases op with
  | openFile path => cases h
  | runProbe name out cancelAfter => cases h
  | probeOnce source out => cases h
  | makeProbe name source =>
    simp only [step, makeProbe]
    cases source.settings <;> rfl
  | runTimer name cancelAfter =>
    simp only [step]
    cases htimer : s.timers.get? name with
    | none => rw [runTimer, htimer]
    | some timer =>
      rw [runTimer_eq htimer]
      exact (Process.holdings_settle _).trans
        ((timerAction_keeps_holdings timer _).trans (s.holdings_cancelling _ cancelAfter).1)
  | start command => exact s.start_keeps_holdings command
  | runLauncher name out =>
    simp only [step]
    cases hl : s.launchers.get? name with
    | none => rw [runLauncher, hl]
    | some l =>
      obtain ⟨code, recorded, change, hrun⟩ := runLauncher_eq hl out
      rw [hrun]
      exact l.run_keeps_holdings _
  | probeHandle name handle =>
    refine withNamed_keeps (fun s => s.process.holdings) fun probe => ?_
    cases probe.flag? <;> rfl
  | probeState | timerDelay | timerHandle | copyHandle | cancel | isCancelled =>
    exact withNamed_keeps (fun s => s.process.holdings) fun _ => rfl
  | add | erase | rename | enter | makeTimer | drop | makeLauncher => rfl

/-- One operation obtains a descriptor for each opening that succeeds, and accounts for it in its
answer. -/
theorem step_obtains (s : Session) (op : Operation) :
    ∃ tried, s.process.Obtains tried (s.step op).2.process ∧ op.Accounts tried (s.step op).1 := by
  by_cases hnone : op.openings = 0
  · exact ⟨[], .of_holdings (step_keeps_holdings hnone s), .other op _ hnone⟩
  cases op with
  | openFile path =>
    cases hopens : s.process.world.opens s.process.now path with
    | error e =>
      have hrun := Action.openFile_of_refused hopens
      simp only [step, runIn, hrun]
      exact ⟨_, Action.obtains_refused s.process path e, .refused path e⟩
    | ok _ =>
      have hrun := Action.openFile_of_opens hopens
      simp only [step, runIn, hrun]
      exact ⟨_, Action.obtains_opened s.process path, .opened path _⟩
  | runProbe name out cancelAfter =>
    simp only [step]
    cases hprobe : s.probes.get? name with
    | none =>
      rw [runProbe, hprobe]
      exact ⟨[], .refl _, .noProbe name out cancelAfter⟩
    | some probe =>
      let started := (s.writingTo out).cancelling probe.flag? cancelAfter
      obtain ⟨hholdings, hout⟩ := (s.writingTo out).holdings_cancelling probe.flag? cancelAfter
      obtain ⟨tried, hobtains, hreports⟩ := probe.run_reports started.process
      rw [hout] at hreports
      rw [runProbe_eq hprobe]
      exact ⟨tried, hobtains.congr hholdings (Process.holdings_settle _), .probeRan _ _ _ _ _ _ hreports⟩
  | probeOnce source out =>
    simp only [step, probeOnce]
    cases source.settings with
    | error stop =>
      have hreports : Probe.Reports out.accepted [] (.error stop) (out.accepted ++ []) :=
        .unopened stop [] List.nil_prefix
      rw [List.append_nil] at hreports
      exact ⟨[], .refl _, .probedOnce _ _ _ _ _ hreports⟩
    | ok settings =>
      obtain ⟨tried, hobtains, hreports⟩ := Probe.runWith_reports settings (s.writingTo out).process
      exact ⟨tried, hobtains.congr rfl rfl, .probedOnce _ _ _ _ _ hreports⟩
  | _ => exact absurd rfl hnone

theorem step_accounts (s : Session) (op : Operation) :
    s.process.Obtains (s.tried op) (s.step op).2.process ∧
      op.Accounts (s.tried op) (s.step op).1 := by
  obtain ⟨tried, hobtains, haccounts⟩ := s.step_obtains op
  rw [tried_of_obtains hobtains]
  exact ⟨hobtains, haccounts⟩

theorem after_obtains (s : Session) (ops : List Operation) :
    s.process.Obtains (s.triedBy ops) (s.after ops).process := by
  induction ops generalizing s with
  | nil => exact .refl s.process
  | cons op ops ih => exact (s.step_accounts op).1.trans (ih _)

/-- Whatever is done in a session: the descriptors that its openings give are different from each
other and from those held before, and all of them are held in the end. Wherever an operation stands
among others, the openings that it tries are its share of all. It accounts for them: what it gives
is the descriptor that it has obtained, and the report tells that one and no other. -/
theorem descriptors_stay_held (s : Session) :
    (∀ ops, s.process.Obtains (s.triedBy ops) (s.after ops).process) ∧
    (∀ before op rest,
      let t := s.after before
      s.triedBy (before ++ op :: rest) =
        s.triedBy before ++ (t.tried op ++ (t.step op).2.triedBy rest) ∧
      t.process.Obtains (t.tried op) (t.step op).2.process ∧
      op.Accounts (t.tried op) (t.step op).1) ∧
    ∀ d d', Probe.report d = Probe.report d' ↔ d = d' := by
  refine ⟨s.after_obtains, ?_, ?_⟩
  · intro before op rest t
    obtain ⟨hobtains, haccounts⟩ := t.step_accounts op
    exact ⟨s.triedBy_append before (op :: rest), hobtains, haccounts⟩
  · intro d d'
    exact ⟨Probe.report_injective, congrArg Probe.report⟩

end Session

end DeferredOpen
