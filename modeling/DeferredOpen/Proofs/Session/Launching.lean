import DeferredOpen.Proofs.Launcher.Outcome
import DeferredOpen.Proofs.Session.Agreement

/-!
# Launchers in a session

A launcher is not used up. Whatever is done in a session, and however often the launcher has been
run, it stays under its name with the command it was made for, and the next run of it keeps to its
course again, in a sink of its own.
-/

namespace DeferredOpen.Session

/-- Whether an operation leaves a launcher under its name, and does not put another one there. -/
def Operation.keepsLauncher (name : String) : Operation → Bool
  | .makeLauncher other _ | .drop other => other ≠ name
  | _ => true

/-- No operation touches a launcher that it neither makes nor drops. -/
theorem get?_launchers_step {name : String} {op : Operation}
    (hkeeps : op.keepsLauncher name = true) (s : Session) :
    (s.step op).2.launchers.get? name = s.launchers.get? name := by
  have hsame (h : (s.step op).2.launchers = s.launchers) :
      (s.step op).2.launchers.get? name = s.launchers.get? name := by rw [h]
  cases op with
  | add | erase | rename | enter | openFile | probeState | timerDelay | isCancelled | start
  | runLauncher => exact hsame (s.step_beside rfl).launchers
  | makeProbe other source =>
    apply hsame
    simp only [step, makeProbe]
    cases source.settings <;> rfl
  | probeOnce source out =>
    apply hsame
    simp only [step, probeOnce]
    cases source.settings <;> rfl
  | probeHandle other handle =>
    refine hsame (withNamed_keeps Session.launchers fun probe => ?_)
    cases probe.flag? <;> rfl
  | runProbe other out cancelAfter =>
    apply hsame
    simp only [step]
    cases hprobe : s.probes.get? other with
    | none => rw [runProbe, hprobe]
    | some probe => rw [runProbe_eq hprobe]
  | runTimer other cancelAfter =>
    apply hsame
    simp only [step]
    cases htimer : s.timers.get? other with
    | none => rw [runTimer, htimer]
    | some timer => rw [runTimer_eq htimer]
  | makeTimer other delay task => rfl
  | timerHandle other handle => exact hsame (withNamed_keeps Session.launchers fun _ => rfl)
  | copyHandle other handle => exact hsame (withNamed_keeps Session.launchers fun _ => rfl)
  | cancel other => exact hsame (withNamed_keeps Session.launchers fun _ => rfl)
  | makeLauncher other command =>
    have hne : other ≠ name := of_decide_eq_true hkeeps
    exact Table.get?_insert_ne _ _ hne.symm
  | drop other =>
    have hne : other ≠ name := of_decide_eq_true hkeeps
    exact Table.get?_erase_ne _ hne.symm

theorem get?_launchers_after {name : String} {ops : List Operation}
    (hkeeps : ∀ op ∈ ops, op.keepsLauncher name = true) (s : Session) :
    (s.after ops).launchers.get? name = s.launchers.get? name := by
  induction ops generalizing s with
  | nil => rfl
  | cons op ops ih =>
    obtain ⟨hop, hops⟩ := List.forall_mem_cons.mp hkeeps
    rw [after_cons, ih hops, get?_launchers_step hop]

/-- What a run of the launcher under a name answers, and what it has done when its child has come to
an end, too: the child has changed files at most. -/
theorem runLauncher_eq {s : Session} {name : String} {l : Launcher}
    (hl : s.launchers.get? name = some l) (out : Sink) :
    let ran := l.run.runIn (s.writingTo out).process
    ∃ code recorded change,
      s.runLauncher name out =
        (.launcherRan (ran.1.map fun _ => code) ran.2.out recorded,
          { s with process := ran.2 }.changeFiles change) := by
  intro ran
  let started : Session := { s with process := ran.2 }
  have hran : (s.writingTo out).runIn l.run = (ran.1, started) := rfl
  obtain ⟨files, hfiles⟩ := started.reap_snd s.process.children.length
  rw [runLauncher, hl]
  simp only [hran]
  cases hreap : started.reap s.process.children.length with
  | mk code reaped =>
    rw [hreap] at hfiles
    simp only at hfiles ⊢
    rw [hfiles]
    exact ⟨code, _, fun _ => files.attempt (·.unlink Recorder.path), rfl⟩

/-- Whatever has been done since a launcher was made, and however often it has been run: it has kept
its command, and the next run of it keeps to its course. What the session answers is what comes of
that run, and nothing else has changed but the files. -/
theorem made_launcher_keeps_course (s : Session) (name : String) (command : Command)
    (ops : List Operation) (hkeeps : ∀ op ∈ ops, op.keepsLauncher name = true) (out : Sink)
    (hgives : out.GivesUp) :
    let t := (s.step (.makeLauncher name command)).2.after ops
    let l := Launcher.ofCommand command
    let ran := l.run.runIn (t.writingTo out).process
    t.launchers.get? name = some l ∧
    l.KeepsCourse (t.writingTo out).process ran ∧
    ∃ code recorded change,
      t.step (.runLauncher name out) =
        (.launcherRan (ran.1.map fun _ => code) ran.2.out recorded,
          { t with process := ran.2 }.changeFiles change) := by
  intro t l ran
  have hl : t.launchers.get? name = some l := by
    rw [get?_launchers_after hkeeps]
    exact Table.get?_insert_self _ _ _
  exact ⟨hl, l.run_keepsCourse _ hgives, runLauncher_eq hl out⟩

/-- A launcher that has failed once starts its child the next time, and has no room for the whole
farewell. -/
theorem made_launcher_keeps_course_of_narrow_sink :
    let w : World := { World.installed {} [] with find := fun _ _ => .ok { program := .itself } }
    let command : Command := ⟨.ofString "/program", ["-v"]⟩
    let out : Sink := { room := some 23 }
    let t := ((inWorld w).step (.makeLauncher "l" command)).2.after
      [.runLauncher "l" { room := some 5 }]
    ∃ child written recorded after,
      child.command = ⟨.ofString "/program", ["-v", "child"]⟩ ∧
      t.step (.runLauncher "l" out) =
        (.launcherRan (.error (.failed Sink.writeZero)) written recorded, after) ∧
      written.accepted = Utf8.encode "I'm parent. spawning\nex" ∧
      after.process.children = t.process.children ++ [child] := by
  intro w command out t
  have hgives : out.GivesUp := fun _ h => nomatch h
  obtain ⟨-, hcourse, code, recorded, change, hstep⟩ :=
    made_launcher_keeps_course (inWorld w) "l" command [.runLauncher "l" { room := some 5 }]
      (by decide) out hgives
  let q := (t.writingTo out).process
  let l := Launcher.ofCommand command
  let child : Child := ⟨t.process.children.length + 1, { program := .itself }, l.command⟩
  have hannounced : Launcher.Announced q := ⟨by decide, rfl⟩
  have hmade : Action.startable q l.command = .ok child := rfl
  have hchild : l.child? q = some child := (l.child?_eq_some_iff q child).mpr ⟨hannounced, hmade⟩
  have hending : l.ending q = .error (.failed Sink.writeZero) := by
    rw [Launcher.ending, (Launcher.announced_iff q).mpr hannounced, hmade]
    rfl
  have hprinted : l.printed q = Launcher.heading ++ Launcher.footing := by
    rw [Launcher.printed, hchild]
  let ran := l.run.runIn q
  let ended : Session := { t with process := ran.2 }
  refine ⟨child, ran.2.out, recorded, ended.changeFiles change, rfl, ?_, ?_, ?_⟩
  · rw [hstep, hcourse.result, hending]
    rfl
  · rw [hcourse.output, hprinted]
    decide
  · have hchildren := hcourse.children
    rw [hchild] at hchildren
    exact hchildren

end DeferredOpen.Session
