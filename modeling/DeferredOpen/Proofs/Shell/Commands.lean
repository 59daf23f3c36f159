import DeferredOpen.Proofs.Shell.Prolonging
import DeferredOpen.Shell.Interpreter

/-!
# Commands with more left to go

How much the interpreter has left to go is known to whatever runs commands inside of others. Each
of its functions is prolonged by itself when what is inside is prolonged: the expansion of words,
piece by piece, the commands, one case for each kind, and the lines of a script.
-/

namespace DeferredOpen.Shell

open Running

/-- What has more left to go. -/
structure Inner.ProlongedBy (inner more : Inner) : Prop where
  fuel : inner.fuel ≤ more.fuel
  run : ∀ c command, Prolonged (inner.run c command) (more.run c command)
  script : ∀ c t, Prolonged (inner.script c t) (more.script c t)
  program : ∀ program vector, Prolonged (inner.program program vector) (more.program program vector)

namespace Running

section

variable {capture more : Capture} {m n : Nat}

/-- A word is expanded piece by piece. -/
theorem marks_prolonged (h : ∀ body, Prolonged (capture body) (more body)) (hle : m ≤ n)
    (word : Word) : Prolonged (marks capture m word) (marks more n word) := by
  induction m generalizing n word with
  | zero =>
    unfold marks
    exact .exhausted _
  | succ m ih =>
    obtain ⟨n, rfl⟩ : ∃ k, n = k + 1 := ⟨n - 1, by omega⟩
    have hinner (word : Word) : Prolonged (marks capture m word) (marks more n word) :=
      ih (by omega) word
    cases word with
    | nil => exact .refl _
    | cons piece rest =>
      have hfinish (first : List Mark) :
          Prolonged (do return first ++ (← marks capture m rest))
            (do return first ++ (← marks more n rest)) :=
        (hinner rest).bind fun _ => .refl _
      unfold marks
      cases piece with
      | text cs quoted => exact .next hfinish
      | command body quoted => exact (h body).bind fun t => .next hfinish
      | arithmetic word quoted =>
        exact (hinner word).bind fun ms => .next fun t => .next hfinish
      | parameter name use quoted =>
        refine .next fun s => ?_
        cases use with
        | bad => exact .next hfinish
        | value => exact .next fun _ => .next hfinish
        | length => exact .next fun _ => .next hfinish
        | trim atEnd longest pattern =>
          refine .next fun _ => ?_
          cases s.wholeValue? name with
          | none => exact .next hfinish
          | some t => exact (hinner pattern).bind fun ms => .next hfinish
        | substitute how orEmpty word =>
          dsimp only
          generalize (s.wholeValue? name).any (fun t => !orEmpty || !t.isEmpty) = isThere
          cases isThere with
          | true =>
            cases how with
            | ifSet => exact ((hinner word).map _).bind hfinish
            | instead | assigned | refused => exact .next hfinish
          | false =>
            cases how with
            | ifSet | refused => exact .next hfinish
            | instead => exact ((hinner word).map _).bind hfinish
            | assigned =>
              refine (hinner word).bind fun ms => ?_
              split
              · exact .next fun _ => .next hfinish
              · exact .next hfinish

theorem fields_prolonged (h : ∀ body, Prolonged (capture body) (more body)) (hle : m ≤ n)
    (word : Word) : Prolonged (fields capture m word) (fields more n word) :=
  (marks_prolonged h hle word).bind fun _ => .refl _

theorem textOf_prolonged (h : ∀ body, Prolonged (capture body) (more body)) (hle : m ≤ n)
    (word : Word) : Prolonged (textOf capture m word) (textOf more n word) :=
  (marks_prolonged h hle word).map _

theorem patternOf_prolonged (h : ∀ body, Prolonged (capture body) (more body)) (hle : m ≤ n)
    (word : Word) : Prolonged (patternOf capture m word) (patternOf more n word) :=
  (marks_prolonged h hle word).bind fun _ => .refl _

end

theorem withVariables_prolonged (values : List (Text × Text)) {body longer : Running Unit}
    (hbody : Prolonged body longer) :
    Prolonged (withVariables values body) (withVariables values longer) := by
  unfold withVariables
  exact .next fun s => .next fun _ => hbody.restoring _

theorem inLoop_prolonged {body longer : Running Unit} (hbody : Prolonged body longer) :
    Prolonged (inLoop body) (inLoop longer) := by
  unfold inLoop
  exact .next fun s => .next fun _ => hbody.restoring _

section

variable {inner more : Inner} {m n : Nat} (h : inner.ProlongedBy more)

include h

theorem settle_prolonged : Prolonged (settle inner) (settle more) := by
  unfold settle
  refine .next fun s => ?_
  split
  · exact .refl _
  · split
    split
    · exact .refl _
    · refine .next fun _ => .bind (.forIn ?_ _ _) fun _ => .refl _
      rintro ⟨process, signal⟩ _
      refine .next fun t => ?_
      dsimp only
      split
      · exact .jumped _ _ _
      · cases t.traps.lookup signal with
        | none => exact .refl _
        | some action =>
          cases action with
          | nil => exact .refl _
          | cons c rest => exact .next fun _ => (h.script _ _).bind fun _ => .refl _

/-- Whatever ends a process, the limit included, ends it with more left to go, too. -/
theorem toEnd_prolonged {body longer : Running Unit} (hbody : Prolonged body longer) :
    Prolonged (toEnd inner body) (toEnd more longer) := by
  unfold toEnd
  refine hbody.caught (fun j => ?_) fun _ => rfl
  split
  · exact .refl _
  · exact .refl _
  · refine .next fun s => ?_
    cases s.traps.lookup 0 with
    | none => exact .refl _
    | some action =>
      cases action with
      | nil => exact .refl _
      | cons c rest => exact .next fun _ => (h.script _ _).caught (fun _ => .refl _) fun _ => rfl

theorem inCopy_prolonged (start : State → State) {body longer : Running Unit}
    (hbody : Prolonged body longer) :
    Prolonged (inCopy inner start body) (inCopy more start longer) :=
  (toEnd_prolonged h hbody).apart _

theorem capture_prolonged (body : Option Command) :
    Prolonged (capture inner body) (capture more body) := by
  cases body with
  | none => exact .refl _
  | some body =>
    refine .next fun s => .next fun _ => ?_
    exact (inCopy_prolonged h _ (h.run _ body)).bind fun _ => .refl _

theorem wordFields_prolonged (word : Word) :
    Prolonged (wordFields inner word) (wordFields more word) :=
  fields_prolonged (capture_prolonged h) h.fuel word

theorem wordText_prolonged (word : Word) :
    Prolonged (Running.wordText inner word) (Running.wordText more word) :=
  textOf_prolonged (capture_prolonged h) h.fuel word

theorem redirect_prolonged (r : Redirection) :
    Prolonged (redirect inner r) (redirect more r) := by
  cases r with
  | output stream append target => exact (wordText_prolonged h target).bind fun _ => .refl _
  | input stream target => exact (wordText_prolonged h target).bind fun _ => .refl _
  | both stream target => exact (wordText_prolonged h target).bind fun _ => .refl _
  | copy stream source => exact (wordText_prolonged h source).bind fun _ => .refl _
  | document stream number =>
    exact .next fun s => (wordText_prolonged h _).bind fun _ => .refl _

theorem redirectAll_prolonged (rs : List Redirection) :
    Prolonged (redirectAll inner rs) (redirectAll more rs) := by
  induction rs with
  | nil =>
    rw [redirectAll, redirectAll]
    exact .refl _
  | cons r rest ih =>
    rw [redirectAll, redirectAll]
    refine (redirect_prolonged h r).bind fun done => ?_
    split
    · exact ih
    · exact .refl _

theorem runProgram_prolonged (words : List Text) :
    Prolonged (runProgram inner words) (runProgram more words) := by
  unfold runProgram
  refine .next fun s => ?_
  cases words with
  | nil => exact .refl _
  | cons name arguments =>
    dsimp only
    cases found? s name with
    | none => exact .refl _
    | some path =>
      dsimp only
      cases Image.load s.files ⟨path.toBytes⟩ with
      | ok image => exact (h.program _ _).map _
      | error e =>
        dsimp only
        split
        · exact (h.program _ _).map _
        · exact .refl _

theorem finishProgram_prolonged (words : List Text) :
    Prolonged (finishProgram inner words) (finishProgram more words) :=
  (runProgram_prolonged h words).bind fun _ => .refl _

theorem replace_prolonged (words : List Text) :
    Prolonged (replace inner words) (replace more words) :=
  (runProgram_prolonged h words).bind fun _ => .refl _

theorem source_prolonged (words : List Text) :
    Prolonged (source inner words) (source more words) := by
  cases words with
  | nil => exact .refl _
  | cons name rest =>
    refine .next fun s => ?_
    dsimp only
    split
    · exact .refl _
    · exact .refl _
    · exact .refl _
    · exact .next fun _ => (h.script _ _).caught (fun _ => .refl _) fun _ => rfl
    · exact (h.program _ _).bind fun _ => .refl _
    · exact .refl _

theorem call_prolonged (c : Circumstances) (body : Command) (arguments : List Text) :
    Prolonged (call inner c body arguments) (call more c body arguments) := by
  refine .next fun s => .next fun _ => .restoring ?_ _
  exact (h.run c body).caught (fun _ => .refl _) fun _ => rfl

theorem runSpecial_prolonged (c : Circumstances) (name : Text) (arguments : List Text) :
    Prolonged (runSpecial inner c name arguments) (runSpecial more c name arguments) := by
  unfold runSpecial
  split
  · exact .next fun _ => (h.script _ _).bind fun _ => .refl _
  · split
    · exact .refl _
    · exact replace_prolonged h arguments
  · exact source_prolonged h arguments
  · exact .refl _

theorem runWords_prolonged (hle : m ≤ n) (c : Circumstances) (words : List Text) :
    Prolonged (runWords inner m c words) (runWords more n c words) := by
  induction m generalizing n c words with
  | zero =>
    cases words with
    | nil =>
      rw [runWords, runWords]
      exact .refl _
    | cons name arguments =>
      unfold runWords
      exact .exhausted _
  | succ m ih =>
    obtain ⟨n, rfl⟩ : ∃ k, n = k + 1 := ⟨n - 1, by omega⟩
    cases words with
    | nil =>
      rw [runWords, runWords]
      exact .refl _
    | cons name arguments =>
      unfold runWords
      refine .next fun s => ?_
      cases named s name with
      | special => exact (runSpecial_prolonged h c name arguments).bind fun _ => .refl _
      | function body => exact call_prolonged h c body arguments
      | program => exact finishProgram_prolonged h (name :: arguments)
      | ordinary =>
        dsimp only
        split
        · exact .refl _
        · exact .refl _
        · exact .refl _
        · split
          · exact .refl _
          · refine .next fun t => ?_
            split
            · exact (runSpecial_prolonged h c _ _).tolerant
            · exact finishProgram_prolonged h _
            · exact ih (by omega) c _
        · exact .refl _

theorem runSimple_prolonged (c : Circumstances) (assignments : List (Text × Word))
    (words : List Word) (redirections : List Redirection) :
    Prolonged (runSimple inner c assignments words redirections)
      (runSimple more c assignments words redirections) := by
  have hassignAll : Prolonged
      (assignments.forM fun e => do assign e.1 (← Running.wordText inner e.2))
      (assignments.forM fun e => do assign e.1 (← Running.wordText more e.2)) :=
    .forM (fun e => (wordText_prolonged h e.2).bind fun _ => .refl _) assignments
  have hvalues : Prolonged
      (assignments.mapM fun e => do return (e.1, ← Running.wordText inner e.2))
      (assignments.mapM fun e => do return (e.1, ← Running.wordText more e.2)) :=
    .mapM (fun e => (wordText_prolonged h e.2).bind fun _ => .refl _) assignments
  unfold runSimple
  refine .next fun _ => .bind (.mapM ?_ words) fun expanded => .next fun s => .restoring ?_ _
  · intro word
    split
    · exact (wordText_prolonged h word).map _
    · exact wordFields_prolonged h word
  · refine (redirectAll_prolonged h redirections).bind fun done => ?_
    split
    · split
      · exact hassignAll.bind fun _ => .refl _
      · split
        · exact hassignAll.bind fun _ => runWords_prolonged h h.fuel c _
        · refine hvalues.bind fun values => ?_
          exact withVariables_prolonged values (runWords_prolonged h h.fuel c _)
    · exact .refl _

theorem runPipeline_prolonged (input : Port) (commands : List Command) :
    Prolonged (runPipeline inner input commands) (runPipeline more input commands) := by
  induction commands generalizing input with
  | nil =>
    rw [runPipeline, runPipeline]
    exact .refl _
  | cons command rest ih =>
    cases rest with
    | nil =>
      rw [runPipeline, runPipeline]
      exact (inCopy_prolonged h _ (h.run _ command)).bind fun _ => .refl _
    | cons second rest =>
      rw [runPipeline, runPipeline]
      · refine .next fun s => .next fun _ => ?_
        exact (inCopy_prolonged h _ (h.run _ command)).bind fun _ => ih _
      all_goals simp

theorem runSome_prolonged (c : Circumstances) (command : Option Command) :
    Prolonged (runSome inner c command) (runSome more c command) := by
  cases command with
  | none => exact .refl _
  | some command => exact h.run c command

/-- A loop can be run through more often. -/
theorem runLoop_prolonged (hle : m ≤ n) (c : Circumstances) (whileFails : Bool)
    (condition body : Option Command) (status : Nat) :
    Prolonged (runLoop inner c whileFails condition body m status)
      (runLoop more c whileFails condition body n status) := by
  induction m generalizing n status with
  | zero =>
    rw [runLoop]
    exact .exhausted _
  | succ m ih =>
    obtain ⟨n, rfl⟩ : ∃ k, n = k + 1 := ⟨n - 1, by omega⟩
    have hagain (status : Nat) := ih (show m ≤ n by omega) status
    rw [runLoop, runLoop]
    refine (runSome_prolonged h _ condition).caught (fun stop => ?_) fun _ => rfl
    cases stop with
    | some j =>
      refine .next fun goesOn => ?_
      split
      · exact hagain status
      · exact .refl _
    | none =>
      refine .next fun s => ?_
      split
      · exact .refl _
      · refine (runSome_prolonged h c body).caught (fun stop => ?_) fun _ => rfl
        refine .next fun goesOn => .next fun t => ?_
        split
        · exact hagain t.status
        · exact .refl _

theorem runEach_prolonged (c : Circumstances) (name : Text) (body : Option Command)
    (values : List Text) :
    Prolonged (runEach inner c name body values) (runEach more c name body values) := by
  induction values with
  | nil =>
    rw [runEach, runEach]
    exact .refl _
  | cons value rest ih =>
    rw [runEach, runEach]
    refine .next fun _ => (runSome_prolonged h c body).caught (fun stop => ?_) fun _ => rfl
    refine .next fun goesOn => ?_
    split
    · exact ih
    · exact .refl _

theorem runChoice_prolonged (c : Circumstances) (t : Text)
    (clauses : List (List Word × Option Command)) :
    Prolonged (runChoice inner c t clauses) (runChoice more c t clauses) := by
  induction clauses with
  | nil =>
    rw [runChoice, runChoice]
    exact .refl _
  | cons clause rest ih =>
    obtain ⟨patterns, body⟩ := clause
    rw [runChoice, runChoice]
    refine .bind (.anyM ?_ patterns) fun fits => ?_
    · intro word
      exact (patternOf_prolonged (capture_prolonged h) h.fuel word).bind fun _ => .refl _
    · split
      · exact .next fun _ => runSome_prolonged h c body
      · exact ih

/-- Each kind of command is prolonged by itself. -/
theorem runForm_prolonged (c : Circumstances) (command : Command) :
    Prolonged (runForm inner c command) (runForm more c command) := by
  cases command with
  | simple assignments words redirections =>
    exact (runSimple_prolonged h c assignments words redirections).bind fun _ => .refl _
  | pipeline commands =>
    exact .next fun s => (runPipeline_prolonged h _ commands).bind fun _ => .refl _
  | negation command => exact (h.run _ command).bind fun _ => .refl _
  | conjunction first second | disjunction first second =>
    refine (h.run _ first).bind fun _ => .next fun s => ?_
    split
    · exact h.run c second
    · exact .refl _
  | sequence first second => exact (h.run c first).bind fun _ => h.run c second
  | background command => exact (inCopy_prolonged h _ (h.run _ command)).bind fun _ => .refl _
  | subshell body =>
    exact (inCopy_prolonged h _ (runSome_prolonged h c body)).bind fun _ => .refl _
  | branch condition body other =>
    refine (runSome_prolonged h _ condition).bind fun _ => .next fun s => ?_
    split
    · exact runSome_prolonged h c body
    · cases other with
      | none => exact .refl _
      | some other => exact h.run c other
  | loop whileFails condition body =>
    exact inLoop_prolonged (runLoop_prolonged h h.fuel c whileFails condition body 0)
  | each name words body =>
    refine .bind (.mapM (wordFields_prolonged h) words) fun values => .next fun _ => ?_
    exact inLoop_prolonged (runEach_prolonged h c name body values.flatten)
  | choice word clauses =>
    exact (wordText_prolonged h word).bind fun t => runChoice_prolonged h c t clauses
  | definition name body => exact .refl _
  | redirected command redirections =>
    refine .next fun s => .restoring ?_ _
    refine (redirectAll_prolonged h redirections).bind fun done => ?_
    split
    · exact h.run c command
    · exact .refl _

theorem runCommand_prolonged (c : Circumstances) (command : Command) :
    Prolonged (runCommand inner c command) (runCommand more c command) := by
  unfold runCommand
  refine .next fun s => ?_
  split
  · exact .refl _
  · exact (runForm_prolonged h c command).bind fun _ => settle_prolonged h

theorem runScript_prolonged (lines : Nat) (c : Circumstances) (t : Text) :
    Prolonged (runScript inner lines c t) (runScript more lines c t) := by
  induction lines generalizing t with
  | zero =>
    rw [runScript]
    exact .exhausted _
  | succ lines ih =>
    rw [runScript, runScript]
    refine .next fun s => ?_
    split
    · exact .refl _
    · exact .refl _
    · refine .next fun _ => ?_
      dsimp only
      split
      · exact (h.run c _).bind fun _ => ih _
      · exact ih _

theorem runFile_prolonged (path : Text) :
    Prolonged (runFile inner path) (runFile more path) := by
  unfold runFile
  refine .next fun s => ?_
  split
  · exact .refl _
  · exact .refl _
  · exact h.script _ _
  · exact (h.program _ _).bind fun _ => .refl _
  · exact .refl _
  · exact .refl _

theorem runArguments_prolonged (arguments : List Text) :
    Prolonged (runArguments inner arguments) (runArguments more arguments) := by
  unfold runArguments
  refine .next ?_
  rintro ⟨given, left⟩
  cases given with
  | false =>
    refine .next fun s => ?_
    split
    · exact .next fun _ => .next fun input => h.script _ _
    · exact .next fun _ => runFile_prolonged h _
  | true =>
    cases left with
    | nil => exact .refl _
    | cons script left =>
      refine .next fun _ => .next fun s => ?_
      split
      · exact (h.script _ _).bind fun _ => .next fun input => h.script _ _
      · exact h.script _ _

theorem runVector_prolonged (program : Program) (vector : List Text) :
    Prolonged (runVector inner program vector) (runVector more program vector) := by
  cases program with
  | itself => exact .refl _
  | recorder => exact .refl _
  | shell => exact (toEnd_prolonged h (runArguments_prolonged h _)).apart _

end

end Running

end DeferredOpen.Shell
