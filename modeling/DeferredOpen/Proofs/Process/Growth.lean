import DeferredOpen.Launcher
import DeferredOpen.Probe
import DeferredOpen.Proofs.Process.Steps

/-!
# How a history grows

An action adds events to the history of its process and takes none away, and it leaves alone what
others are going to cancel. How many events of a kind it adds at most is a bound that adds up over
the parts of the action, whatever comes of each part.
-/

namespace DeferredOpen

def Event.isOpening (e : Event) : Bool := e.opening?.isSome

namespace Process

/-- A process has gone on to another one, and at most `n` of the events since then count. -/
structure Grows (counted : Event → Bool) (n : Nat) (p q : Process) : Prop where
  pending : q.pending = p.pending
  history : ∃ events, q.history = p.history ++ events ∧ events.countP counted ≤ n

namespace Grows

variable {counted : Event → Bool} {m n : Nat} {p q r : Process}

/-- Nothing has been noted since. -/
theorem of_same (hpending : q.pending = p.pending) (hhistory : q.history = p.history) :
    p.Grows counted 0 q :=
  ⟨hpending, [], by rw [hhistory, List.append_nil], Nat.le_refl _⟩

theorem refl (counted : Event → Bool) (p : Process) : p.Grows counted 0 p := .of_same rfl rfl

theorem trans (h : p.Grows counted m q) (h' : q.Grows counted n r) :
    p.Grows counted (m + n) r := by
  obtain ⟨hpending, ds, hds, hm⟩ := h
  obtain ⟨hpending', es, hes, hn⟩ := h'
  refine ⟨hpending'.trans hpending, ds ++ es, ?_, ?_⟩
  · rw [hes, hds, List.append_assoc]
  · rw [List.countP_append]
    exact Nat.add_le_add hm hn

theorem mono (h : p.Grows counted m q) (hle : m ≤ n) : p.Grows counted n q := by
  obtain ⟨hpending, events, hevents, hm⟩ := h
  exact ⟨hpending, events, hevents, Nat.le_trans hm hle⟩

/-- One more event counts once at most. -/
theorem after_one (h : p.Grows counted n q) (e : Event) : p.Grows counted (n + 1) (q.after e) := by
  obtain ⟨hpending, events, hevents, hn⟩ := h
  refine ⟨hpending, events ++ [e], ?_, ?_⟩
  · rw [history_after, hevents, List.append_assoc]
  · have hone : [e].countP counted ≤ 1 := List.countP_le_length
    rw [List.countP_append]
    exact Nat.add_le_add hn hone

theorem after (h : p.Grows counted n q) {e : Event} (he : counted e = false) :
    p.Grows counted n (q.after e) := by
  obtain ⟨hpending, events, hevents, hn⟩ := h
  refine ⟨hpending, events ++ [e], ?_, ?_⟩
  · rw [history_after, hevents, List.append_assoc]
  · rw [List.countP_append, List.countP_singleton, he]
    exact hn

end Grows

/-- Of one kind of deeds a process that has gone on has done those before and some more. -/
theorem Grows.filterMap_deeds {f : Event → Option β} (hlogged : ∀ r, f (.logged r) = none) {n : Nat}
    {p q : Process} (h : p.Grows (fun e => (f e).isSome) n q) :
    ∃ more, q.deeds.filterMap f = p.deeds.filterMap f ++ more ∧ more.length ≤ n := by
  obtain ⟨-, events, hevents, hn⟩ := h
  refine ⟨events.filterMap f, ?_, ?_⟩
  · rw [Process.filterMap_deeds hlogged, Process.filterMap_deeds hlogged, hevents,
      List.filterMap_append]
  · rw [List.length_filterMap_eq_countP]
    exact hn

/-- The openings of a process that has gone on are those before and some more. -/
theorem Grows.openings {n : Nat} {p q : Process} (h : p.Grows Event.isOpening n q) :
    ∃ more, q.openings = p.openings ++ more ∧ more.length ≤ n :=
  h.filterMap_deeds fun _ => rfl

end Process

namespace Action

variable {α β : Type} {counted : Event → Bool} {n : Nat}

/-- At most `n` events count that an action adds to a history. -/
def Grows (counted : Event → Bool) (n : Nat) (a : Action α) : Prop :=
  ∀ p : Process, p.Grows counted n (a.runIn p).2

namespace Grows

theorem mono {m : Nat} {a : Action α} (h : a.Grows counted m) (hle : m ≤ n) : a.Grows counted n :=
  fun p => (h p).mono hle

theorem pure (x : α) : Action.Grows counted 0 (Pure.pure x : Action α) := fun p => .refl counted p

theorem fail (fault : Fault) : Action.Grows counted 0 (Action.fail fault : Action α) :=
  fun p => .refl counted p

theorem panic : Action.Grows counted 0 (throw .panicked : Action α) := fun p => .refl counted p

/-- What the parts add, adds up; a part that stops the run keeps the rest from adding more. -/
theorem bind {m : Nat} {a : Action β} {k : β → Action α} (ha : a.Grows counted m)
    (hk : ∀ x, (k x).Grows counted n) : (a >>= k).Grows counted (m + n) := by
  intro p
  have hp := ha p
  cases hrun : a.runIn p with
  | mk result q =>
    rw [hrun] at hp
    cases result with
    | ok x =>
      rw [runIn_bind_ok hrun]
      exact hp.trans (hk x q)
    | error stop =>
      rw [runIn_bind_error hrun]
      exact hp.mono (Nat.le_add_right _ _)

/-- A part that adds nothing that counts may come before the rest. -/
theorem quiet {a : Action β} {k : β → Action α} (ha : a.Grows counted 0)
    (hk : ∀ x, (k x).Grows counted n) : (a >>= k).Grows counted n :=
  (bind ha hk).mono (Nat.le_of_eq (Nat.zero_add n))

theorem map (f : β → α) {a : Action β} (ha : a.Grows counted n) : (f <$> a).Grows counted n := by
  intro p
  rw [runIn_map]
  exact ha p

theorem log (r : Log.Record) (hr : counted (.logged r) = false) :
    Action.Grows counted 0 (Action.log r) := fun p => (Process.Grows.refl counted p).after hr

theorem write (text : String) (hw : ∀ bytes, counted (.wrote bytes) = false) :
    Action.Grows counted 0 (Action.write text) := by
  intro p
  have hout : p.Grows counted 0 { p with out := (p.out.write (Utf8.encode text)).2 } :=
    .of_same rfl rfl
  exact hout.after (hw _)

theorem flush (hf : counted .flushed = false) : Action.Grows counted 0 Action.flush := by
  intro p
  have hout : p.Grows counted 0 { p with out := p.out.flush.2 } := .of_same rfl rfl
  exact hout.after hf

theorem makeFlag : Action.Grows counted 0 Action.makeFlag := fun _ => .of_same rfl rfl

/-- Asking for the settings is no more than asking. -/
theorem settings (hasked : ∀ name, counted (.asked name) = false) :
    Action.Grows counted 0 Action.settings := by
  intro p
  refine ⟨rfl, _, rfl, Nat.le_of_eq ?_⟩
  rw [List.countP_map, List.countP_eq_zero]
  intro name _
  simp [hasked]

/-- Where openings do not count, neither does opening a file. -/
theorem openFile_of_uncounted (path : Path)
    (hopened : ∀ path result, counted (.opened path result) = false)
    (hlog : ∀ r, counted (.logged r) = false) : Action.Grows counted 0 (Action.openFile path) := by
  intro p
  simp only [Action.openFile, Action.runIn]
  cases p.world.opens p.now path with
  | error e => exact (Process.Grows.refl counted p).after (hopened _ _)
  | ok _ =>
    have hheld : p.Grows counted 0 { p with held := p.world.numbering.pick p.held :: p.held } :=
      .of_same rfl rfl
    exact (hheld.after (hopened _ _)).after (hlog _)

/-- Opening a file is one event that may count. -/
theorem openFile (path : Path) (hlog : ∀ r, counted (.logged r) = false) :
    Action.Grows counted 1 (Action.openFile path) := by
  intro p
  simp only [Action.openFile, Action.runIn]
  cases p.world.opens p.now path with
  | error e => exact (Process.Grows.refl counted p).after_one _
  | ok _ =>
    have hheld : p.Grows counted 0 { p with held := p.world.numbering.pick p.held :: p.held } :=
      .of_same rfl rfl
    exact (hheld.after_one _).after (hlog _)

theorem start (c : Command) (hstart : ∀ result, counted (.started c result) = false)
    (hlog : ∀ r, counted (.logged r) = false) : Action.Grows counted 0 (Action.start c) := by
  intro p
  simp only [Action.start, Action.runIn]
  cases Action.startable p c with
  | error fault => exact (Process.Grows.refl counted p).after (hstart _)
  | ok child =>
    have hchildren : p.Grows counted 0 { p with children := p.children ++ [child] } :=
      .of_same rfl rfl
    exact (hchildren.after (hstart _)).after (hlog _)

end Grows

end Action

namespace Timer

variable {α : Type} {counted : Event → Bool}

theorem create_grows (delay : Duration) (task : α) :
    (create delay task).Grows counted 0 := .quiet .makeFlag fun _ => .pure _

/-- Waiting adds sleeps to a history. -/
theorem await_grows (t : Timer α) (hslept : ∀ sleep, counted (.slept sleep) = false) :
    t.await.Grows counted 0 := by
  intro p
  simp only [await, Action.runIn]
  cases Instant.after? (p.world.clock.reading p.now) t.delay with
  | none => exact .of_same rfl rfl
  | some deadline =>
    refine ⟨rfl, _, rfl, Nat.le_of_eq ?_⟩
    rw [List.countP_map, List.countP_eq_zero]
    intro sleep _
    simp [hslept]

theorem run_grows (t : Timer α) (hslept : ∀ sleep, counted (.slept sleep) = false)
    (hlog : ∀ r, counted (.logged r) = false) : t.run.Grows counted 0 := by
  refine .quiet (t.await_grows hslept) fun fired => ?_
  cases fired with
  | true => exact .quiet (.log _ (hlog _)) fun _ => .pure _
  | false => exact .quiet (.log _ (hlog _)) fun _ => .pure _

end Timer

section

variable {counted : Event → Bool} {n : Nat}

/-- A probe prints, logs, waits and opens its file, and only the opening may count. -/
theorem Probe.run_grows_of (hwrote : ∀ bytes, counted (.wrote bytes) = false)
    (hflushed : counted .flushed = false) (hslept : ∀ sleep, counted (.slept sleep) = false)
    (hlogged : ∀ r, counted (.logged r) = false)
    (hopen : ∀ path, (Action.openFile path).Grows counted n) (probe : Probe) :
    probe.run.Grows counted n := by
  unfold run
  cases probe.timer with
  | none => exact (Action.Grows.fail _).mono (Nat.zero_le n)
  | some timer =>
    refine .quiet (.write _ hwrote) fun _ => ?_
    refine .quiet (.flush hflushed) fun _ => ?_
    refine .quiet (.log _ (hlogged _)) fun _ => ?_
    refine .quiet (timer.run_grows hslept hlogged) fun fired => ?_
    cases fired with
    | none => exact (Action.Grows.pure _).mono (Nat.zero_le n)
    | some file =>
      refine Action.Grows.bind (n := 0) (hopen file) fun d => ?_
      refine .quiet (.write _ hwrote) fun _ => ?_
      exact .quiet (.flush hflushed) fun _ => .pure _

/-- Before its run a probe that is made logs its settings. -/
theorem Probe.runWith_grows_of (hlogged : ∀ r, counted (.logged r) = false)
    (hrun : ∀ probe : Probe, probe.run.Grows counted n) (settings : Settings) :
    (runWith settings).Grows counted n := by
  refine .quiet (.log _ (hlogged _)) fun _ => ?_
  refine .quiet ?_ hrun
  exact .quiet (Timer.create_grows _ _) fun _ => .pure _

end

/-- A probe tries one opening at most in a run, whatever comes of the run. -/
theorem Probe.run_grows (probe : Probe) : probe.run.Grows Event.isOpening 1 :=
  run_grows_of (fun _ => rfl) rfl (fun _ => rfl) (fun _ => rfl)
    (fun path => .openFile path fun _ => rfl) probe

theorem Probe.runWith_grows (settings : Settings) :
    (runWith settings).Grows Event.isOpening 1 :=
  runWith_grows_of (fun _ => rfl) run_grows settings

/-- A launcher prints, starts its command and logs that, and does nothing else. -/
theorem Launcher.run_grows (l : Launcher) {counted : Event → Bool}
    (hwrote : ∀ bytes, counted (.wrote bytes) = false) (hflushed : counted .flushed = false)
    (hstarted : ∀ c result, counted (.started c result) = false)
    (hlogged : ∀ r, counted (.logged r) = false) : l.run.Grows counted 0 := by
  refine .quiet (.write _ hwrote) fun _ => ?_
  refine .quiet (.flush hflushed) fun _ => ?_
  refine .quiet (.start _ (hstarted _) hlogged) fun child => ?_
  refine .quiet (.log _ (hlogged _)) fun _ => ?_
  refine .quiet (.write _ hwrote) fun _ => ?_
  exact .quiet (.flush hflushed) fun _ => .pure _

end DeferredOpen
