import DeferredOpen.Program
import DeferredOpen.Proofs.Shell.Commands

/-!
# The limit of the interpreter

The interpreter with more left to go prolongs itself, by induction on what the shorter one has left.
So an end that a script comes to within one limit is its end within any greater one, and nothing but
the breaking off is up to the limit.
-/

namespace DeferredOpen

namespace Shell

open Running

namespace Running

/-- Whatever becomes of the trap for the end, a process ends or comes to the limit. -/
theorem toEnd_contained (inner : Inner) (body : Running Unit) : Contained (toEnd inner body) := by
  unfold toEnd
  refine .bind (.caught body) fun j => ?_
  split
  · exact .pure _
  · exact .exhausted
  · refine .bind .get fun s => ?_
    split
    · exact .pure _
    · exact .pure _
    · refine .bind (.set _) fun _ => .bind (.caught _) fun j => ?_
      split
      · exact .pure _
      · exact .exhausted
      · exact .bind .get fun t => .pure _
      · exact .bind .get fun t => .pure _
      · exact .pure _

theorem runVector_contained (inner : Inner) (program : Program) (vector : List Text) :
    Contained (runVector inner program vector) := by
  cases program with
  | itself => exact .pure _
  | recorder => exact .bind nofun fun _ => .pure _
  | shell => exact (toEnd_contained inner _).apart _

end Running

/-- A program is broken off by nothing but the limit. -/
theorem programWithin_contained (n : Nat) (program : Program) (vector : List Text) :
    Contained (programWithin n program vector) := by
  cases n with
  | zero => exact .exhausted
  | succ n => exact runVector_contained _ program vector

/-- What has so much left to go. -/
def Inner.within (n : Nat) : Inner := ⟨n, runWithin n, scriptWithin n, programWithin n⟩

/-- More left to go prolongs whatever is run, at each depth. -/
theorem Inner.within_prolonged {m n : Nat} (hle : m ≤ n) : (within m).ProlongedBy (within n) := by
  induction m generalizing n with
  | zero =>
    constructor
    · exact hle
    · intro c command
      exact .exhausted _
    · intro c t
      exact .exhausted _
    · intro program vector
      exact .exhausted _
  | succ m ih =>
    obtain ⟨n, rfl⟩ : ∃ k, n = k + 1 := ⟨n - 1, by omega⟩
    have hinner : (within m).ProlongedBy (within n) := ih (by omega)
    constructor
    · exact hle
    · exact runCommand_prolonged hinner
    · intro c t
      exact runScript_prolonged hinner (t.length + 1) c t
    · exact runVector_prolonged hinner

section

variable {m n : Nat} {files : Files} {searchPath : List Path} {vector : List Bytes}

/-- The interpreter comes to an end, unless it comes to its limit. -/
theorem runUpTo_eq_none_iff :
    (runUpTo n files searchPath vector).1 = none ↔
      (programWithin n .shell (vector.map Text.ofBytes) (begin files searchPath)).1 =
        .error .exhausted := by
  unfold runUpTo
  split
  · rename_i hrun
    simp [hrun]
  · rename_i j s hrun
    have hlimit := programWithin_contained n .shell (vector.map Text.ofBytes)
      (begin files searchPath) j (congrArg Prod.fst hrun)
    simp [hrun, hlimit]

/-- An end that the interpreter comes to within a limit, and what it leaves, are the same within any
greater limit. -/
theorem runUpTo_of_le (hle : m ≤ n) (hended : (runUpTo m files searchPath vector).1 ≠ none) :
    runUpTo n files searchPath vector = runUpTo m files searchPath vector := by
  rw [Ne, runUpTo_eq_none_iff] at hended
  have hprolonged := (Inner.within_prolonged hle).program .shell (vector.map Text.ofBytes)
  have hsame : programWithin n .shell (vector.map Text.ofBytes) (begin files searchPath) =
      programWithin m .shell (vector.map Text.ofBytes) (begin files searchPath) :=
    hprolonged.eq_of_ne hended
  rw [runUpTo, runUpTo, hsame]

/-- Whatever the limit is, the interpreter comes to one end at most, so that an end within any limit
is the one that it comes to as a program. -/
theorem runUpTo_unique (hm : (runUpTo m files searchPath vector).1 ≠ none)
    (hn : (runUpTo n files searchPath vector).1 ≠ none) :
    runUpTo m files searchPath vector = runUpTo n files searchPath vector := by
  rcases Nat.le_total m n with hle | hle
  · exact (runUpTo_of_le hle hm).symm
  · exact runUpTo_of_le hle hn

end

end Shell

/-- A child that is the interpreter ends as it does within any limit in which it comes to an end,
and leaves the same files. -/
theorem Child.run_of_runUpTo {c : Child} {parent : Process} {m : Nat} {ending : Shell.Ending}
    {files : Files} (hshell : c.image.program = .shell) (hle : m ≤ Shell.limit)
    (hended : Shell.runUpTo m parent.world.files parent.world.searchPath c.arguments =
      (some ending, files)) :
    (c.run parent).code = ending.code? ∧ (c.run parent).process.world.files = files := by
  have hsome : (Shell.runUpTo m parent.world.files parent.world.searchPath c.arguments).1 ≠
      none := by
    rw [hended]
    exact Option.some_ne_none ending
  have hrun : Shell.run parent.world.files parent.world.searchPath c.arguments =
      (some ending, files) := (Shell.runUpTo_of_le hle hsome).trans hended
  have hfresh : Shell.run parent.fresh.world.files parent.fresh.world.searchPath c.arguments =
      (some ending, files) := hrun
  unfold Child.run
  rw [hshell]
  dsimp only
  rw [hfresh]
  exact ⟨rfl, rfl⟩

end DeferredOpen
