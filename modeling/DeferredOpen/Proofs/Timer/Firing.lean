import DeferredOpen.Proofs.Timer.Schedule

/-!
# Which runs of a timer reach the task

A running timer goes round and round. In each round it loads its flag; unless that is up it reads
the clock, and then it runs the task or sleeps. Whatever sequence of looks it gets to see, it runs
the task if and only if the flag is down in all rounds up to the first one that is due. The task is
the last thing that it does. In a round that is due a raised flag still comes first.

The looks that a run in a process gets are one such sequence, and what becomes of that run is what
the sequence says.
-/

namespace DeferredOpen.Timer

inductive Deed where
  | loaded (cancelled : Bool)
  | read (now : Nat)
  | slept (sleep : Sleep)
  | ranTask
  deriving DecidableEq, Repr

def Deed.sleep? : Deed → Option Sleep
  | .slept sleep => some sleep
  | _ => none

/-- What is done in a round with a look. -/
def Look.deeds (deadline : Nat) (look : Look) : List Deed :=
  .loaded look.cancelled ::
    match look.verdict deadline with
    | .cancelled => []
    | .due => [.read look.now, .ranTask]
    | .sleep length => [.read look.now, .slept ⟨look.now, length⟩]

def deeds (deadline : Nat) (looks : Nat → Look) : Nat → List Deed
  | 0 => []
  | n + 1 =>
    deeds deadline looks n ++
      if (poll deadline looks n).isSome then [] else (looks n).deeds deadline

/-- The deadline is still to come in all rounds before the `i`-th one. -/
def Early (deadline : Nat) (looks : Nat → Look) (i : Nat) : Prop :=
  ∀ j < i, (looks j).now < deadline

/-- The flag is down in the `i`-th round and in all rounds before. -/
def Unraised (looks : Nat → Look) (i : Nat) : Prop := ∀ j ≤ i, (looks j).cancelled = false

theorem Look.ending?_eq_none_iff {deadline : Nat} {look : Look} :
    (look.verdict deadline).ending? = none ↔ look.cancelled = false ∧ look.now < deadline := by
  unfold verdict
  cases look.cancelled with
  | true => simp [Verdict.ending?]
  | false =>
    by_cases hdue : deadline ≤ look.now
    · simp [Verdict.ending?, hdue]
    · simp [Verdict.ending?, hdue, Nat.lt_of_not_le hdue]

theorem Look.verdict_of_due {deadline : Nat} {look : Look} (h : look.cancelled = false)
    (hdue : deadline ≤ look.now) : look.verdict deadline = .due := by
  simp [verdict, h, hdue]

/-- The task is run in a round that is due, and in no other one. -/
theorem Look.ranTask_mem_deeds_iff {deadline : Nat} {look : Look} :
    .ranTask ∈ look.deeds deadline ↔ (look.verdict deadline).ending? = some true := by
  unfold deeds
  cases look.verdict deadline <;> simp [Verdict.ending?]

section

variable {deadline m n i : Nat} {looks : Nat → Look} {fired : Bool}

/-- A run goes on as long as the flag is down and the deadline is to come. -/
theorem poll_eq_none_iff :
    poll deadline looks n = none ↔
      ∀ j < n, (looks j).cancelled = false ∧ (looks j).now < deadline := by
  induction n with
  | zero => simp [poll]
  | succ n ih =>
    cases hbefore : poll deadline looks n with
    | some fired =>
      rw [poll_succ_of_some hbefore]
      rw [hbefore] at ih
      have hended := mt ih.mpr (Option.some_ne_none fired)
      exact iff_of_false (Option.some_ne_none fired) fun hall =>
        hended fun j hj => hall j (Nat.lt_succ_of_lt hj)
    | none =>
      rw [poll_succ_of_none hbefore, Look.ending?_eq_none_iff]
      have hearlier := ih.mp hbefore
      constructor
      · intro hlast j hj
        rcases Nat.lt_succ_iff_lt_or_eq.mp hj with hj | rfl
        · exact hearlier j hj
        · exact hlast
      · intro hall
        exact hall n (Nat.lt_succ_self n)

theorem deeds_succ_of_none (h : poll deadline looks n = none) :
    deeds deadline looks (n + 1) = deeds deadline looks n ++ (looks n).deeds deadline := by
  rw [deeds, h]
  rfl

theorem deeds_succ_of_some (h : poll deadline looks n = some fired) :
    deeds deadline looks (n + 1) = deeds deadline looks n := by
  rw [deeds, h]
  exact List.append_nil _

/-- A run that has ended does nothing more. -/
theorem deeds_of_le (h : poll deadline looks m = some fired) (hle : m ≤ n) :
    deeds deadline looks n = deeds deadline looks m := by
  induction hle with
  | refl => rfl
  | step hle ih => rw [deeds_succ_of_some (poll_of_le h hle), ih]

/-- The task has been run exactly if the run has ended by firing. -/
theorem ranTask_mem_deeds_iff :
    .ranTask ∈ deeds deadline looks n ↔ poll deadline looks n = some true := by
  induction n with
  | zero => simp [deeds, poll]
  | succ n ih =>
    cases hbefore : poll deadline looks n with
    | some fired => rw [deeds_succ_of_some hbefore, poll_succ_of_some hbefore, ih, hbefore]
    | none =>
      rw [deeds_succ_of_none hbefore, poll_succ_of_none hbefore, List.mem_append, ih, hbefore,
        Look.ranTask_mem_deeds_iff]
      simp

/-- What comes of a run is up to the looks that it has had. -/
theorem poll_deeds_congr (deadline : Nat) {looks' : Nat → Look} (h : ∀ j < n, looks' j = looks j) :
    poll deadline looks' n = poll deadline looks n ∧
      deeds deadline looks' n = deeds deadline looks n := by
  induction n with
  | zero => exact ⟨rfl, rfl⟩
  | succ n ih =>
    obtain ⟨hpoll, hdeeds⟩ := ih fun j hj => h j (Nat.lt_succ_of_lt hj)
    have hlast := h n (Nat.lt_succ_self n)
    constructor
    · simp only [poll, hpoll, hlast]
    · simp only [deeds, hpoll, hdeeds, hlast]

/-- Up to its first round that is due a run with its flag down goes on. -/
theorem poll_of_unraised (hearly : Early deadline looks i) (hdown : Unraised looks i) :
    poll deadline looks i = none :=
  poll_eq_none_iff.mpr fun j hj => ⟨hdown j (Nat.le_of_lt hj), hearly j hj⟩

/-- The first round that is due is the last one, if the flag is down until then. -/
theorem poll_of_first_due (hearly : Early deadline looks i) (hdue : deadline ≤ (looks i).now)
    (hdown : Unraised looks i) : poll deadline looks (i + 1) = some true := by
  rw [poll_succ_of_none (poll_of_unraised hearly hdown),
    Look.verdict_of_due (hdown i (Nat.le_refl i)) hdue]
  rfl

/-- A run that fires has had its flag down up to its first round that is due. -/
theorem exists_first_due (h : poll deadline looks n = some true) :
    ∃ i, Early deadline looks i ∧ deadline ≤ (looks i).now ∧ Unraised looks i := by
  obtain ⟨last, hbefore, hlast⟩ := exists_last_look h
  have hgoing := poll_eq_none_iff.mp hbefore
  rw [poll_succ_of_none hbefore] at hlast
  have hdue : (looks last).verdict deadline = .due := by
    cases hverdict : (looks last).verdict deadline with
    | due => rfl
    | cancelled | sleep length =>
      rw [hverdict] at hlast
      cases hlast
  refine ⟨last, fun j hj => (hgoing j hj).2, Look.le_of_verdict_due hdue, ?_⟩
  intro j hj
  rcases Nat.lt_or_eq_of_le hj with hj | rfl
  · exact (hgoing j hj).1
  · exact Look.unraised_of_verdict_due hdue

/-- A run with its flag up in a round ends there or before, and does not fire if no earlier round
was due. -/
theorem poll_of_cancelled (hearly : Early deadline looks i) (hup : (looks i).cancelled = true) :
    poll deadline looks (i + 1) = some false := by
  cases hended : poll deadline looks (i + 1) with
  | none =>
    have hdown := (poll_eq_none_iff.mp hended i (Nat.lt_succ_self i)).1
    rw [hup] at hdown
    cases hdown
  | some fired =>
    cases fired with
    | false => rfl
    | true =>
      -- The round in which it fires cannot come before this one, nor be this one or come after it.
      obtain ⟨k, -, hdue, hdown⟩ := exists_first_due hended
      rcases Nat.lt_or_ge k i with hki | hik
      · exact absurd hdue (Nat.not_le.mpr (hearly k hki))
      · rw [hdown i hik] at hup
        cases hup

/-- After a first round with a sleep a run does what it does with the looks that are left. -/
theorem deeds_of_sleep {length : Nat} (h : (looks 0).verdict deadline = .sleep length) (n : Nat) :
    deeds deadline looks (n + 1) =
      (looks 0).deeds deadline ++ deeds deadline (fun i => looks (i + 1)) n := by
  induction n with
  | zero => rw [deeds_succ_of_none rfl, deeds, deeds, List.nil_append, List.append_nil]
  | succ n ih => rw [deeds, ih, poll_of_sleep h, deeds, List.append_assoc]

end

/-- A wait ends in its last round, with the sleeps of all rounds before. -/
theorem wait_of_last_round {clock : Clock} {raised : Nat → Bool} {deadline now last : Nat}
    {looks : Nat → Look} {fired : Bool}
    (hlooks : ∀ i, looks i = lookAt clock raised (instant clock deadline now i))
    (hbefore : poll deadline looks last = none)
    (hlast : poll deadline looks (last + 1) = some fired) :
    wait clock raised deadline now =
      ⟨fired, (looks last).now, (deeds deadline looks last).filterMap Deed.sleep?⟩ := by
  induction last generalizing now looks with
  | zero =>
    have hlook : looks 0 = lookAt clock raised now := hlooks 0
    rw [poll_succ_of_none hbefore, hlook] at hlast
    rw [wait_of_ending hlast, hlook]
    rfl
  | succ last ih =>
    have hgoing := poll_eq_none_iff.mp hbefore 0 (Nat.succ_pos last)
    obtain ⟨length, hsleep⟩ :=
      Verdict.exists_sleep_of_ending? (Look.ending?_eq_none_iff.mpr hgoing)
    have hlook : looks 0 = lookAt clock raised now := hlooks 0
    have hlater : ∀ i, looks (i + 1) =
        lookAt clock raised (instant clock deadline (instant clock deadline now 1) i) := by
      intro i
      rw [hlooks, instant_succ]
    rw [poll_of_sleep hsleep] at hbefore hlast
    have hrest := ih hlater hbefore hlast
    rw [wait_of_sleep (hlook ▸ hsleep), hrest, deeds_of_sleep hsleep, List.filterMap_append,
      Look.deeds, hsleep, hlook]
    rfl

variable {α : Type}

/-- What a run in a process sees in its `i`-th round. -/
def lookIn (t : Timer α) (p : Process) (i : Nat) : Look :=
  lookAt p.world.clock (p.raisedAt t.flag) (t.seeing p i)

/-- The wait of a run in a process ends in its last round. -/
theorem waitIn_of_last_round {t : Timer α} {p : Process} {deadline last : Nat} {fired : Bool}
    (hdeadline : Instant.after? (p.world.clock.reading p.now) t.delay = some deadline)
    (hbefore : poll deadline (t.lookIn p) last = none)
    (hlast : poll deadline (t.lookIn p) (last + 1) = some fired) :
    waitIn t.flag p deadline =
      ⟨fired, (t.lookIn p last).now, (deeds deadline (t.lookIn p) last).filterMap Deed.sleep?⟩ := by
  have hdue := Instant.eq_of_after? hdeadline
  exact wait_of_last_round (fun i => by rw [lookIn, seeing, ← hdue]) hbefore hlast

/-- Whatever a run gets to see, it runs its task if and only if its flag is down up to the first
round that is due. It does so once, when it has read the clock in that round; it does nothing after
that, so no later look matters, and gives what comes of the task. A flag that is up in a round with
none before that was due ends the run without the task, also if that round is due itself. -/
theorem runs_task_iff_unraised_until_due (t : Timer α) {start deadline : Nat}
    (hdeadline : Instant.after? start t.delay = some deadline) (looks : Nat → Look) :
    let Fires (i : Nat) := Early deadline looks i ∧ deadline ≤ (looks i).now ∧ Unraised looks i
    let Cancelled (i : Nat) := Early deadline looks i ∧ (looks i).cancelled = true
    ((∃ n, .ranTask ∈ deeds deadline looks n) ↔ ∃ i, Fires i) ∧
    (∀ i, Fires i →
      .ranTask ∉ deeds deadline looks i ∧
      (∀ n, i < n → poll deadline looks n = some true ∧ deeds deadline looks n =
        deeds deadline looks i ++ [.loaded false, .read (looks i).now, .ranTask]) ∧
      ∀ looks', (∀ j ≤ i, looks' j = looks j) → ∀ n, i < n →
        poll deadline looks' n = some true ∧ deeds deadline looks' n = deeds deadline looks n) ∧
    (∀ i, Cancelled i → ∀ n, i < n →
      poll deadline looks n = some false ∧ .ranTask ∉ deeds deadline looks n) ∧
    ∀ p : Process, p.world.clock.reading p.now = start → t.lookIn p = looks →
      (∀ i, Fires i → ∃ q : Process, q.now = (looks i).now ∧ q.flags = p.flags ∧
        ∀ (β : Type) (execute : α → Action β),
          (t.runTask execute).runIn p =
            (((execute t.task).runIn q).1.map some, ((execute t.task).runIn q).2)) ∧
      ∀ i, Cancelled i → ∃ q : Process, q.flags = p.flags ∧
        ∀ (β : Type) (execute : α → Action β), (t.runTask execute).runIn p = (.ok none, q) := by
  intro Fires Cancelled
  have hfires {i : Nat} (h : Fires i) :
      poll deadline looks i = none ∧ poll deadline looks (i + 1) = some true :=
    ⟨poll_of_unraised h.1 h.2.2, poll_of_first_due h.1 h.2.1 h.2.2⟩
  refine ⟨?_, ?_, ?_, ?_⟩
  · simp only [ranTask_mem_deeds_iff]
    exact ⟨fun ⟨n, hn⟩ => exists_first_due hn, fun ⟨i, hi⟩ => ⟨i + 1, (hfires hi).2⟩⟩
  · intro i hi
    obtain ⟨hbefore, hlast⟩ := hfires hi
    have hround : deeds deadline looks (i + 1) =
        deeds deadline looks i ++ [.loaded false, .read (looks i).now, .ranTask] := by
      have hdown : (looks i).cancelled = false := hi.2.2 i (Nat.le_refl i)
      rw [deeds_succ_of_none hbefore, Look.deeds, Look.verdict_of_due hdown hi.2.1, hdown]
    refine ⟨?_, fun n hn => ⟨poll_of_le hlast hn, (deeds_of_le hlast hn).trans hround⟩, ?_⟩
    · rw [ranTask_mem_deeds_iff, hbefore]
      exact nofun
    · intro looks' hsame n hn
      have hsame : ∀ j < i + 1, looks' j = looks j := fun j hj => hsame j (Nat.le_of_lt_succ hj)
      obtain ⟨hpoll, hdeeds⟩ := poll_deeds_congr deadline hsame
      have hlast' := hpoll.trans hlast
      exact ⟨poll_of_le hlast' hn, by rw [deeds_of_le hlast' hn, hdeeds, deeds_of_le hlast hn]⟩
  · intro i hi n hn
    have hended : poll deadline looks n = some false := poll_of_le (poll_of_cancelled hi.1 hi.2) hn
    refine ⟨hended, ?_⟩
    rw [ranTask_mem_deeds_iff, hended]
    exact nofun
  · rintro p rfl rfl
    constructor
    · intro i hi
      obtain ⟨hbefore, hlast⟩ := hfires hi
      have hwait := waitIn_of_last_round hdeadline hbefore hlast
      refine ⟨t.fired p (waitIn t.flag p deadline), congrArg Wait.ended hwait, rfl, ?_⟩
      exact fun β execute => runTask_of_fired hdeadline (congrArg Wait.fired hwait) execute
    · intro i hi
      obtain ⟨last, hbefore, hlast⟩ := exists_last_look (poll_of_cancelled hi.1 hi.2)
      have hwait := waitIn_of_last_round hdeadline hbefore hlast
      refine ⟨(p.waited (waitIn t.flag p deadline)).after (.logged .timerCancelled), rfl, ?_⟩
      exact fun β execute => runTask_of_not_fired hdeadline (congrArg Wait.fired hwait) execute

/-- A timer fires in its third round, and a cancel that comes a nanosecond later changes nothing. -/
theorem runs_task_of_late_cancel :
    let t : Timer String := ⟨⟨1500000⟩, ⟨0⟩, "task"⟩
    let p : Process := { world := .installed {} [], pending := [(1500001, ⟨0⟩)] }
    let looks := t.lookIn p
    Instant.after? (p.world.clock.reading p.now) t.delay = some 1500000 ∧
      (looks 3).cancelled = true ∧
      (∃ n, .ranTask ∈ deeds 1500000 looks n) ∧ poll 1500000 looks 9 = some true ∧
      ∃ q : Process, q.now = 1500000 ∧
        (t.runTask fun text => (pure text : Action String)).runIn p = (.ok (some "task"), q) := by
  intro t p looks
  have hdeadline : Instant.after? (p.world.clock.reading p.now) t.delay = some 1500000 := by decide
  have hfires : Early 1500000 looks 2 ∧ 1500000 ≤ (looks 2).now ∧ Unraised looks 2 := by
    refine ⟨?_, by decide, ?_⟩
    · unfold Early
      decide
    · unfold Unraised
      decide
  obtain ⟨hiff, hended, -, hrun⟩ := runs_task_iff_unraised_until_due t hdeadline looks
  obtain ⟨q, hnow, -, hgives⟩ := (hrun p rfl rfl).1 2 hfires
  exact ⟨hdeadline, by decide, hiff.mpr ⟨2, hfires⟩, ((hended 2 hfires).2.1 9 (by decide)).1,
    q, hnow.trans (by decide), hgives String pure⟩

end DeferredOpen.Timer
