import DeferredOpen.Proofs.Probe.Firing

/-!
# How far a probe gets

A probe that cannot announce itself stops there, and one whose deadline cannot be told breaks behind
its announcement. Every other one waits, and then it has either been cancelled or tries its file.
-/

namespace DeferredOpen

namespace Action

variable {α β : Type}

/-- An action that may fail or go on for ever, but does not break the process. -/
def Unbroken (a : Action α) : Prop := ∀ p stop, (a.runIn p).1 = .error stop → stop ≠ .panicked

namespace Unbroken

theorem pure (x : α) : Action.Unbroken (Pure.pure x : Action α) := fun _ _ => nofun

theorem bind {a : Action β} {k : β → Action α} (ha : a.Unbroken) (hk : ∀ x, (k x).Unbroken) :
    (a >>= k).Unbroken := by
  intro p stop h
  cases hrun : a.runIn p with
  | mk result q =>
    cases result with
    | ok x =>
      rw [runIn_bind_ok hrun] at h
      exact hk x q stop h
    | error first =>
      rw [runIn_bind_error hrun] at h
      obtain rfl := Except.error.inj h
      exact ha p first (by rw [hrun])

theorem map (f : β → α) {a : Action β} (ha : a.Unbroken) : (f <$> a).Unbroken := by
  rw [map_eq_pure_bind]
  exact ha.bind fun x => .pure (f x)

theorem write (text : String) : (Action.write text).Unbroken := by
  intro p stop h
  have hresult : ((Action.write text).runIn p).1 = (p.out.write (Utf8.encode text)).1 := rfl
  rw [hresult, Sink.write_fst] at h
  split at h
  · cases h
  · obtain rfl := Except.error.inj h
    rw [Sink.refuse]
    split
    · exact nofun
    · split <;> exact nofun

theorem flush : Action.flush.Unbroken := by
  intro p stop h
  have hresult : (Action.flush.runIn p).1 = p.out.flush.1 := rfl
  rw [hresult, Sink.flush_fst] at h
  split at h
  · obtain rfl := Except.error.inj h
    exact nofun
  · cases h

theorem openFile (path : Path) : (Action.openFile path).Unbroken := by
  intro p stop h
  cases hopens : p.world.opens p.now path with
  | error e =>
    rw [openFile_of_refused hopens] at h
    obtain rfl := Except.error.inj h
    exact nofun
  | ok _ =>
    rw [openFile_of_opens hopens] at h
    cases h

end Unbroken

end Action

namespace Probe

variable {probe : Probe} {timer : Timer Path} {q : Process}

theorem announcing_unbroken : announcing.Unbroken := .bind (.write _) fun _ => .flush

theorem openAndReport_unbroken (file : Path) : (openAndReport file).Unbroken :=
  .bind (.openFile file) fun _ => .bind (.write _) fun _ => .bind .flush fun _ => .pure _

/-- What printing the announcement into a sink comes to. -/
def announcementIn (out : Sink) : Except Stop Unit :=
  if out.takes heading.length then out.flush.1 else .error out.refuse

theorem announcing_fst (q : Process) : (announcing.runIn q).1 = announcementIn q.out := by
  have hwritten : (Action.write announcement).runIn q =
      ((q.out.write heading).1, q.wrote heading) := rfl
  rw [Sink.write_fst] at hwritten
  unfold announcing announcementIn
  cases htakes : q.out.takes heading.length with
  | false =>
    rw [htakes, if_neg Bool.false_ne_true] at hwritten
    rw [Action.runIn_bind_error hwritten]
    rfl
  | true =>
    rw [htakes, if_pos rfl] at hwritten
    rw [Action.runIn_bind_ok hwritten, if_pos rfl, Sink.flush_fst]
    -- What is written does not count for the flush.
    exact (q.wrote heading).out.flush_fst

theorem announced_iff_announcementIn (q : Process) :
    Announced q ↔ announcementIn q.out = .ok () := by
  unfold Announced announcementIn
  rw [Sink.flush_fst]
  cases q.out.takes heading.length with
  | false => simp
  | true => cases q.out.flushFaultAt? 1 <;> simp

/-- A probe that cannot announce itself does nothing else, and ends as that has ended. -/
theorem run_of_unannounced (htimer : probe.timer = some timer) (h : ¬ Announced q) :
    ∃ stop, announcementIn q.out = .error stop ∧
      probe.run.runIn q = (.error stop, (announcing.runIn q).2) := by
  rw [announced_iff_announcementIn] at h
  have hprinted := announcing_fst q
  cases hresult : announcementIn q.out with
  | ok _ => exact absurd hresult h
  | error stop =>
    rw [hresult] at hprinted
    refine ⟨stop, rfl, ?_⟩
    rw [run_eq_announcing htimer]
    exact Action.runIn_bind_error (Prod.ext hprinted rfl)

/-- A probe breaks behind its announcement where its deadline cannot be told. -/
theorem run_of_never (htimer : probe.timer = some timer) (h : Announced q)
    (hnever : Instant.after? (q.world.clock.reading q.now) timer.delay = none) :
    (probe.run.runIn q).1 = .error .panicked ∧ (probe.run.runIn q).2.openings = q.openings := by
  have hrun := Timer.run_of_never (p := announced q probe.file timer.delay) hnever
  rw [run_of_announced htimer h, Timer.runTask, Action.runIn_bind_error hrun]
  exact ⟨rfl, Process.openings_of_holdings (holdings_announced q probe.file timer.delay)⟩

/-- A probe that is cancelled while it waits gives nothing and leaves its file alone. Its flag has
been raised by the time it ends. -/
theorem run_of_not_fired {deadline : Nat} (htimer : probe.timer = some timer) (h : Announced q)
    (hdeadline : Instant.after? (q.world.clock.reading q.now) timer.delay = some deadline)
    (hfired : (Timer.waitIn timer.flag q deadline).fired = false) :
    (probe.run.runIn q).1 = .ok none ∧ (probe.run.runIn q).2.openings = q.openings ∧
      ∃ t ≤ (probe.run.runIn q).2.now, q.raisedAt timer.flag t = true := by
  rw [run_of_announced htimer h,
    Timer.runTask_of_not_fired (p := announced q probe.file timer.delay) hdeadline hfired]
  refine ⟨rfl, Process.openings_of_holdings ?_, Timer.exists_raised_of_not_fired hfired⟩
  exact (holdings_cancelled _ _).trans (holdings_announced q probe.file timer.delay)

/-- A probe breaks for no other reason than that its deadline cannot be told. -/
theorem run_unbroken {deadline : Nat} (htimer : probe.timer = some timer)
    (hdeadline : Instant.after? (q.world.clock.reading q.now) timer.delay = some deadline) :
    (probe.run.runIn q).1 ≠ .error .panicked := by
  intro hbroken
  by_cases h : Announced q
  · cases hfired : (Timer.waitIn timer.flag q deadline).fired with
    | false =>
      rw [(run_of_not_fired htimer h hdeadline hfired).1] at hbroken
      cases hbroken
    | true =>
      have hrun := Timer.runTask_of_fired (p := announced q probe.file timer.delay) hdeadline hfired
        openAndReport
      rw [run_of_announced htimer h, hrun, ← Action.runIn_map] at hbroken
      exact (openAndReport_unbroken timer.task).map some _ _ hbroken rfl
  · obtain ⟨stop, hstop, hrun⟩ := run_of_unannounced htimer h
    rw [hrun] at hbroken
    obtain rfl := Except.error.inj hbroken
    exact announcing_unbroken q _ ((announcing_fst q).trans hstop) rfl

/-- A probe gets to wait: it has announced itself, and its deadline can be told. -/
def Waits (delay : Duration) (q : Process) : Prop :=
  Announced q ∧ q.world.clock.reading q.now + delay.nanos < Instant.limit

theorem Waits.exists_deadline {delay : Duration} (h : Waits delay q) :
    ∃ deadline, Instant.after? (q.world.clock.reading q.now) delay = some deadline := by
  rw [Instant.after?, if_pos h.2]
  exact ⟨_, rfl⟩

/-- A probe that gets to wait tries its file, or it has been cancelled. -/
theorem run_of_waits (htimer : probe.timer = some timer) (h : Waits timer.delay q) :
    (∃ result, (probe.run.runIn q).2.openings = q.openings ++ [(timer.task, result)] ∧
        (probe.run.runIn q).1 ≠ .ok none) ∨
      ((probe.run.runIn q).1 = .ok none ∧ (probe.run.runIn q).2.openings = q.openings ∧
        ∃ t ≤ (probe.run.runIn q).2.now, q.raisedAt timer.flag t = true) := by
  obtain ⟨deadline, hdeadline⟩ := h.exists_deadline
  cases hfired : (Timer.waitIn timer.flag q deadline).fired with
  | false => exact .inr (run_of_not_fired htimer h.1 hdeadline hfired)
  | true =>
    obtain ⟨hopenings, hresult, -⟩ := run_of_fired htimer h.1 hdeadline hfired
    exact .inl ⟨_, hopenings, hresult⟩

/-- A probe that does not get to wait leaves its file alone. It ends as its announcement has ended,
or breaks behind it. -/
theorem run_of_not_waits (htimer : probe.timer = some timer) (h : ¬ Waits timer.delay q) :
    ∃ stop, (probe.run.runIn q).1 = .error stop ∧
      (probe.run.runIn q).2.openings = q.openings ∧
      (announcementIn q.out = .error stop ∨ Announced q ∧ stop = .panicked) := by
  by_cases hannounced : Announced q
  · have hnever : Instant.after? (q.world.clock.reading q.now) timer.delay = none := by
      rw [Instant.after?, if_neg fun hlt => h ⟨hannounced, hlt⟩]
    obtain ⟨hresult, hopenings⟩ := run_of_never htimer hannounced hnever
    exact ⟨_, hresult, hopenings, .inr ⟨hannounced, rfl⟩⟩
  · obtain ⟨stop, hstop, hrun⟩ := run_of_unannounced htimer hannounced
    have hopenings : (announcing.runIn q).2.openings = q.openings :=
      Process.openings_of_holdings (announcing_keeps_holdings q)
    exact ⟨stop, by rw [hrun], by rw [hrun, hopenings], .inl hstop⟩

end Probe

end DeferredOpen
