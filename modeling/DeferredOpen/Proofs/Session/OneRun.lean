import DeferredOpen.Proofs.Probe.Unhindered
import DeferredOpen.Proofs.Session.Steps

/-!
# A probe runs once

A probe waits until it is run for the first time and is done from then on, however that run ends.
It can be cancelled while it waits. It opens its file once at most, and every later run is refused
at once and changes nothing.
-/

namespace DeferredOpen.Session

variable {name : String} {ops : List Operation}

/-- After some operations a probe is spent if one of them was a run of it, and as it was if none
was. -/
theorem get?_after (hkeeps : ∀ op ∈ ops, op.keeps name = true) (s : Session) :
    (s.after ops).probes.get? name =
      if ops.any (·.runs name) then (s.probes.get? name).map Probe.spent
      else s.probes.get? name := by
  induction ops generalizing s with
  | nil => rfl
  | cons op ops ih =>
    obtain ⟨hop, hops⟩ := List.forall_mem_cons.mp hkeeps
    rw [after_cons, ih hops, get?_step hop, List.any_cons]
    cases op.runs name with
    | false => rfl
    | true => cases ops.any (·.runs name) <;> cases s.probes.get? name <;> rfl

/-- Whether an operation opens a file for something else than the probe under a name. -/
def Operation.opensElse (name : String) : Operation → Bool
  | .openFile _ | .probeOnce _ _ => true
  | .runProbe other _ _ => other ≠ name
  | _ => false

/-- What is opened in a session while operations are done, not counting those that open a file for
something else than the probe under a name. -/
def openingsFor (name : String) :
    Session → List Operation → List (Path × Except SystemFault Descriptor)
  | _, [] => []
  | s, op :: ops =>
    let next := (s.step op).2
    let tried := next.process.openings.drop s.process.openings.length
    (if op.opensElse name then [] else tried) ++ openingsFor name next ops

/-- An operation that neither runs the probe nor opens a file for something else opens none. -/
theorem Operation.openings_eq_zero {op : Operation} (helse : op.opensElse name = false)
    (hruns : op.runs name = false) : op.openings = 0 := by
  cases op with
  | openFile path => cases helse
  | probeOnce source out => cases helse
  | runProbe other out cancelAfter =>
    have hsame : other = name := Decidable.of_not_not (of_decide_eq_false helse)
    exact absurd hsame (of_decide_eq_false hruns)
  | _ => rfl

/-- A run that nobody cancels answers with what comes of it. -/
theorem runProbe_fst {s : Session} {probe : Probe} (hprobe : s.probes.get? name = some probe)
    (out : Sink) :
    (s.runProbe name out none).1 =
      .probeRan (probe.run.runIn (s.writingTo out).process).1
        (probe.run.runIn (s.writingTo out).process).2.out .done := by
  have hnobody : (s.writingTo out).cancelling probe.flag? none = s.writingTo out := by
    cases probe.flag? <;> rfl
  rw [runProbe_eq hprobe, hnobody]

/-- A probe whose timer is gone refuses to run, and nothing else comes of it. -/
theorem runProbe_of_spent {s : Session} {probe : Probe} (hpending : s.process.pending = [])
    (hprobe : s.probes.get? name = some probe) (hspent : probe.timer = none) (out : Sink)
    (cancelAfter : Option Duration) :
    s.runProbe name out cancelAfter =
      (.probeRan (.error (.failed Probe.alreadyRun)) out .done,
        { s with
          process := { s.process with out }
          probes := s.probes.insert name probe.spent }) := by
  have hflag : probe.flag? = none := by rw [Probe.flag?, hspent, Option.map_none]
  have hrun (p : Process) :
      probe.run.runIn p = (.error (.failed Probe.alreadyRun), p) := by
    rw [Probe.run, hspent]
    rfl
  have hsettle : ({ s.process with out } : Process).settle = { s.process with out } :=
    Process.settle_of_pending_nil hpending
  rw [runProbe_eq hprobe, hflag]
  simp only [cancelling, writingTo, hrun, hsettle]

/-- One operation tries one opening for the probe if it runs it, and none if it does not or if the
probe is spent. -/
theorem openingsFor_singleton_length {s : Session} (hpending : s.process.pending = [])
    (op : Operation) :
    (openingsFor name s [op]).length ≤ (if op.runs name then 1 else 0) ∧
      ((∃ probe, s.probes.get? name = some probe ∧ probe.timer = none) →
        openingsFor name s [op] = []) := by
  simp only [openingsFor, List.append_nil]
  cases helse : op.opensElse name with
  | true => exact ⟨Nat.zero_le _, fun _ => rfl⟩
  | false =>
    obtain ⟨more, hmore, hlength⟩ := (step_grows hpending op).openings
    rw [hmore, List.drop_left]
    simp only [Bool.false_eq_true, if_false]
    cases hruns : op.runs name with
    | false =>
      rw [Operation.openings_eq_zero helse hruns] at hlength
      have hnil : more = [] := List.eq_nil_of_length_eq_zero (Nat.le_zero.mp hlength)
      exact ⟨hlength, fun _ => hnil⟩
    | true =>
      cases op with
      | runProbe other out cancelAfter =>
        refine ⟨hlength, ?_⟩
        rintro ⟨probe, hprobe, hspent⟩
        obtain rfl : other = name := of_decide_eq_true hruns
        have hran : (s.step (.runProbe other out cancelAfter)).2.process =
            { s.process with out } :=
          congrArg (·.2.process) (runProbe_of_spent hpending hprobe hspent out cancelAfter)
        rw [hran] at hmore
        exact List.self_eq_append_right.mp hmore
      | _ => cases hruns

theorem openingsFor_cons (s : Session) (op : Operation) (ops : List Operation) :
    openingsFor name s (op :: ops) =
      openingsFor name s [op] ++ openingsFor name (s.step op).2 ops := by
  simp only [openingsFor, List.append_nil]

/-- A spent probe opens nothing any more. -/
theorem openingsFor_of_spent {s : Session} (hkeeps : ∀ op ∈ ops, op.keeps name = true)
    (hpending : s.process.pending = [])
    (hspent : ∃ probe, s.probes.get? name = some probe ∧ probe.timer = none) :
    openingsFor name s ops = [] := by
  induction ops generalizing s with
  | nil => rfl
  | cons op ops ih =>
    obtain ⟨hop, hops⟩ := List.forall_mem_cons.mp hkeeps
    rw [openingsFor_cons, (openingsFor_singleton_length hpending op).2 hspent, List.nil_append]
    refine ih hops (pending_step hpending op) ?_
    obtain ⟨probe, hprobe, htimer⟩ := hspent
    rw [get?_step hop, hprobe]
    cases op.runs name with
    | false => exact ⟨probe, rfl, htimer⟩
    | true => exact ⟨probe.spent, rfl, rfl⟩

/-- A probe opens its file once at most. -/
theorem openingsFor_length_le {s : Session} (hkeeps : ∀ op ∈ ops, op.keeps name = true)
    (hpending : s.process.pending = []) {probe : Probe}
    (hprobe : s.probes.get? name = some probe) : (openingsFor name s ops).length ≤ 1 := by
  induction ops generalizing s with
  | nil => exact Nat.zero_le 1
  | cons op ops ih =>
    obtain ⟨hop, hops⟩ := List.forall_mem_cons.mp hkeeps
    have hlater : (s.step op).2.process.pending = [] := pending_step hpending op
    have hone : (openingsFor name s [op]).length ≤ (if op.runs name then 1 else 0) :=
      (openingsFor_singleton_length hpending op).1
    have hget := get?_step hop s
    rw [hprobe] at hget
    rw [openingsFor_cons, List.length_append]
    cases hruns : op.runs name with
    | false =>
      rw [hruns, if_neg Bool.false_ne_true] at hone hget
      have hrest := ih hops hlater hget
      omega
    | true =>
      rw [hruns, if_pos rfl] at hone hget
      rw [openingsFor_of_spent hops hlater ⟨probe.spent, hget, rfl⟩]
      exact hone

/-- What making a probe leaves under its name is made for the settings that are answered. -/
theorem get?_makeProbe_eq_fresh {s made : Session} {source : Settings.Source} {settings : Settings}
    (h : s.step (.makeProbe name source) = (.settings settings, made)) :
    made.probes.get? name = some (.fresh settings s.process.flags.next) := by
  simp only [step, makeProbe] at h
  cases hsource : source.settings with
  | error stop =>
    rw [hsource] at h
    cases h
  | ok settings' =>
    rw [hsource] at h
    obtain ⟨hsettings, rfl⟩ := Prod.mk.inj h
    obtain rfl := Answer.settings.inj hsettings
    exact Table.get?_insert_self _ _ _

theorem get?_makeProbe {s made : Session} {source : Settings.Source} {settings : Settings}
    (h : s.step (.makeProbe name source) = (.settings settings, made)) :
    ∃ probe, made.probes.get? name = some probe ∧ probe.timer.isSome = true :=
  ⟨_, get?_makeProbe_eq_fresh h, rfl⟩

/-- A probe that a session makes waits until it is run and is done ever after. It can be cancelled
exactly while it waits, all its runs together try one opening at most, and a run of a probe that is
done is refused: nothing is written, passed on, logged, waited for or opened, and the session keeps
what it has. -/
theorem made_probe_runs_once (w : World) (earlier : List Operation) {name : String}
    {source : Settings.Source} {settings : Settings} {made : Session}
    (hmade : ((inWorld w).after earlier).step (.makeProbe name source) = (.settings settings, made))
    (ops : List Operation) (hkeeps : ∀ op ∈ ops, op.keeps name = true) :
    let t := made.after ops
    let ran := ops.any (·.runs name)
    (t.step (.probeState name)).1 = .state (if ran then .done else .waiting) ∧
    (∀ handle, (t.step (.probeHandle name handle)).1 = .handleTaken (!ran)) ∧
    (openingsFor name made ops).length ≤ 1 ∧
    (ran = true → ∃ fault : Fault, fault.text = "Probe has already run" ∧ fault.kind? = none ∧
      ∀ out cancelAfter, ∃ after,
        t.step (.runProbe name out cancelAfter) =
          (.probeRan (.error (.failed fault)) out .done, after) ∧
        after.process = { t.process with out } ∧
        (∀ other, after.probes.get? other = t.probes.get? other) ∧
        after.timers = t.timers ∧ after.handles = t.handles ∧ after.launchers = t.launchers) := by
  intro t ran
  have hpending : made.process.pending = [] := pending_of_step hmade
  obtain ⟨probe, hprobe, htimer⟩ := get?_makeProbe hmade
  have hget : t.probes.get? name = some (if ran then probe.spent else probe) := by
    rw [get?_after hkeeps, hprobe]
    exact (apply_ite some (ran = true) probe.spent probe).symm
  refine ⟨?_, fun handle => ?_, openingsFor_length_le hkeeps hpending hprobe, fun hran => ?_⟩
  · simp only [step, hget, withNamed]
    cases ran with
    | false => simp [Probe.state, htimer]
    | true => rfl
  · simp only [step, hget, withNamed]
    cases ran with
    | false =>
      obtain ⟨timer, htaken⟩ := Option.isSome_iff_exists.mp htimer
      simp [Probe.flag?, htaken]
    | true => rfl
  · rw [hran, if_pos rfl] at hget
    refine ⟨Probe.alreadyRun, rfl, rfl, fun out cancelAfter => ?_⟩
    refine ⟨_, runProbe_of_spent (pending_after hpending ops) hget rfl out cancelAfter, rfl, ?_,
      rfl, rfl, rfl⟩
    intro other
    by_cases hother : other = name
    · rw [hother, Table.get?_insert_self, hget]
      rfl
    · exact Table.get?_insert_ne _ _ hother

/-- A probe whose first run breaks, for its timer would have to wait past the end of time. -/
theorem made_probe_runs_once_of_endless_delay :
    let w : World := .installed {} []
    let settings : Settings := { delay := ⟨Instant.limit⟩ }
    let made := ((inWorld w).step (.makeProbe "p" (.given settings))).2
    let out : Sink := {}
    let ops : List Operation :=
      [.probeState "p", .probeHandle "p" "h", .runProbe "p" out none, .cancel "h"]
    (∃ written, (made.step (.runProbe "p" out none)).1 =
      .probeRan (.error .panicked) written .done) ∧
    ((inWorld w).after []).step (.makeProbe "p" (.given settings)) = (.settings settings, made) ∧
    (∀ op ∈ ops, op.keeps "p" = true) ∧
    ((made.after ops).step (.probeState "p")).1 = .state .done ∧
    ((made.after ops).step (.probeHandle "p" "g")).1 = .handleTaken false ∧
    (openingsFor "p" made ops).length ≤ 1 ∧
    ∃ fault after, (made.after ops).step (.runProbe "p" out none) =
        (.probeRan (.error (.failed fault)) out .done, after) ∧
      after.process = { (made.after ops).process with out } := by
  intro w settings made out ops
  have hmade : ((inWorld w).after []).step (.makeProbe "p" (.given settings)) =
      (.settings settings, made) := rfl
  have hkeeps : ∀ op ∈ ops, op.keeps "p" = true := by decide
  obtain ⟨hstate, hhandle, hopened, hrefused⟩ := made_probe_runs_once w [] hmade ops hkeeps
  obtain ⟨fault, -, -, hrun⟩ := hrefused rfl
  obtain ⟨after, hagain, hprocess, -⟩ := hrun out none
  have hbroken : ∃ written, (made.step (.runProbe "p" out none)).1 =
      .probeRan (.error .panicked) written .done := by
    have hstart : made.process.world.clock.reading made.process.now = 0 := rfl
    have hnever : Instant.after? 0 settings.delay = none := rfl
    have hending : Probe.ending settings (made.writingTo out).process = .error .panicked := by
      rw [Probe.ending, writingTo, hstart, hnever]
    have hprobe : made.probes.get? "p" = some (.fresh settings ⟨0⟩) := rfl
    have hanswer := runProbe_fst hprobe out
    rw [(Probe.run_endsUnhindered settings rfl rfl rfl).result, hending] at hanswer
    exact ⟨_, hanswer⟩
  exact ⟨hbroken, hmade, hkeeps, hstate, hhandle "g", hopened, fault, after, hagain, hprocess⟩

end DeferredOpen.Session
