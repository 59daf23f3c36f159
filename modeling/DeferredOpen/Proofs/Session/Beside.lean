import DeferredOpen.Proofs.Process.Keeping
import DeferredOpen.Session.Basic

/-!
# Operations beside the named things

Many operations work on the files, start commands or run launchers. They leave everything that has a
name as it is, and the flags, too.
-/

namespace DeferredOpen.Session

/-- Another session with the same things under the same names, and with the same flags. -/
structure Beside (s t : Session) : Prop where
  probes : t.probes = s.probes
  timers : t.timers = s.timers
  handles : t.handles = s.handles
  launchers : t.launchers = s.launchers
  flags : t.process.flags = s.process.flags

/-- What is not there changes nothing, and what is there what the answer to it changes. -/
theorem withNamed_keeps {s : Session} {thing : Option α} {answer : α → Answer × Session}
    (kept : Session → γ) (h : ∀ a, kept (answer a).2 = kept s) :
    kept (s.withNamed thing answer).2 = kept s := by
  cases thing with
  | none => rfl
  | some a => exact h a

/-- Letting children run changes files only. -/
theorem reap_snd (s : Session) (count : Nat) :
    ∃ files, (s.reap count).2 = s.changeFiles fun _ => files := by
  unfold reap
  generalize (none : Option Nat) = code
  induction s.process.children.drop count generalizing s code with
  | nil => exact ⟨s.process.world.files, rfl⟩
  | cons child rest ih =>
    obtain ⟨files, hfiles⟩ :=
      ih (s.changeFiles fun _ => (child.run s.process).process.world.files) _
    exact ⟨files, hfiles⟩

namespace Beside

variable {s t u : Session}

theorem refl (s : Session) : s.Beside s := ⟨rfl, rfl, rfl, rfl, rfl⟩

theorem trans (h : s.Beside t) (h' : t.Beside u) : s.Beside u where
  probes := h'.probes.trans h.probes
  timers := h'.timers.trans h.timers
  handles := h'.handles.trans h.handles
  launchers := h'.launchers.trans h.launchers
  flags := h'.flags.trans h.flags

theorem changeFiles (s : Session) (change : Files → Files) : s.Beside (s.changeFiles change) :=
  ⟨rfl, rfl, rfl, rfl, rfl⟩

theorem runIn (s : Session) {a : Action α} (h : a.Keeps Process.flags) :
    s.Beside (s.runIn a).2 :=
  ⟨rfl, rfl, rfl, rfl, h s.process⟩

theorem reap (s : Session) (count : Nat) : s.Beside (s.reap count).2 := by
  obtain ⟨files, hfiles⟩ := s.reap_snd count
  rw [hfiles]
  exact .changeFiles s _

/-- Waiting for children and reading what they have recorded changes files only. -/
theorem takeRecorded (h : s.Beside t) (count : Nat) :
    s.Beside (t.reap count).2.takeRecorded.2 := by
  have htaken (u : Session) : u.Beside u.takeRecorded.2 := ⟨rfl, rfl, rfl, rfl, rfl⟩
  exact (h.trans (.reap t count)).trans (htaken _)

theorem openFile (s : Session) (path : Path) : s.Beside (s.step (.openFile path)).2 := by
  have hran := runIn s (Action.openFile_keeps_flags path)
  simp only [step]
  cases hrun : s.runIn (Action.openFile path) with
  | mk result opened =>
    rw [hrun] at hran
    cases result <;> exact hran

theorem start (s : Session) (c : Command) : s.Beside (s.start c).2 := by
  have hran := runIn s (Action.start_keeps_flags c)
  unfold Session.start
  cases hrun : s.runIn (Action.start c) with
  | mk result started =>
    rw [hrun] at hran
    cases result with
    | error stop => exact hran
    | ok child => exact hran.takeRecorded _

theorem runLauncher (s : Session) (name : String) (out : Sink) :
    s.Beside (s.runLauncher name out).2 := by
  unfold Session.runLauncher
  cases s.launchers.get? name with
  | none => exact .refl s
  | some launcher =>
    have hout : s.Beside (s.writingTo out) := ⟨rfl, rfl, rfl, rfl, rfl⟩
    exact (hout.trans (runIn _ launcher.run_keeps_flags)).takeRecorded _

/-- Looking at something changes nothing. -/
theorem withNamed (s : Session) (thing : Option α) (answer : α → Answer) :
    s.Beside (s.withNamed thing fun a => (answer a, s)).2 := by
  cases thing <;> exact .refl s

end Beside

/-- Whether an operation works beside the named things. -/
def Operation.isBeside : Operation → Bool
  | .add _ _ | .erase _ | .rename _ _ | .enter _ | .openFile _ | .probeState _ | .timerDelay _
  | .isCancelled _ | .start _ | .runLauncher _ _ => true
  | _ => false

theorem step_beside (s : Session) {op : Operation} (h : op.isBeside = true) :
    s.Beside (s.step op).2 := by
  cases op with
  | add | erase | rename | enter => exact ⟨rfl, rfl, rfl, rfl, rfl⟩
  | openFile path => exact .openFile s path
  | probeState name => exact .withNamed s _ _
  | timerDelay name => exact .withNamed s _ _
  | isCancelled name => exact .withNamed s _ _
  | start command => exact .start s command
  | runLauncher name out => exact .runLauncher s name out
  | _ => cases h

end DeferredOpen.Session
