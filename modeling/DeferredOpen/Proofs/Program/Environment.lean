import DeferredOpen.Proofs.Process.Growth
import DeferredOpen.Proofs.Program.Dispatch

/-!
# What the program does not look at

The settings belong to the probe. A launcher is over without anyone having asked for a variable, so
two runs of a launcher that differ in the environment differ in nothing else: they come to the same
result, print and log the same, start the same child and end with the same exit code. In either
role the argument vector counts up to its second entry only.
-/

namespace DeferredOpen

def Process.inEnvironment (p : Process) (environment : List (String × Bytes)) : Process :=
  { p with world := { p.world with environment } }

def Ended.inEnvironment (e : Ended) (environment : List (String × Bytes)) : Ended :=
  { e with process := e.process.inEnvironment environment }

def Event.isAsked : Event → Bool
  | .asked _ => true
  | _ => false

namespace Action

variable {α β : Type}

/-- An action does the same in every environment, and leaves the environment as it is. -/
def IgnoresEnvironment (a : Action α) : Prop :=
  ∀ environment p, a.runIn (p.inEnvironment environment) =
    ((a.runIn p).1, (a.runIn p).2.inEnvironment environment)

namespace IgnoresEnvironment

theorem pure (x : α) : IgnoresEnvironment (Pure.pure x) := fun _ _ => rfl

theorem log (r : Log.Record) : IgnoresEnvironment (Action.log r) := fun _ _ => rfl

theorem write (text : String) : IgnoresEnvironment (Action.write text) := fun _ _ => rfl

theorem flush : IgnoresEnvironment Action.flush := fun _ _ => rfl

/-- What each part ignores is ignored; a part that stops the run stops it in every environment. -/
theorem bind {a : Action β} {k : β → Action α} (ha : a.IgnoresEnvironment)
    (hk : ∀ x, (k x).IgnoresEnvironment) : (a >>= k).IgnoresEnvironment := by
  intro environment p
  have hfirst := ha environment p
  cases hrun : a.runIn p with
  | mk result q =>
    rw [hrun] at hfirst
    cases result with
    | ok x =>
      rw [runIn_bind_ok hrun, runIn_bind_ok hfirst]
      exact hk x environment q
    | error stop => rw [runIn_bind_error hrun, runIn_bind_error hfirst]

theorem map (f : β → α) {a : Action β} (ha : a.IgnoresEnvironment) :
    (f <$> a).IgnoresEnvironment := by
  intro environment p
  rw [runIn_map, runIn_map, ha environment p]

/-- The system starts a command without regard to the environment. -/
theorem start (c : Command) : IgnoresEnvironment (Action.start c) := by
  intro environment p
  have hmade : startable (p.inEnvironment environment) c = startable p c := rfl
  simp only [Action.start, runIn, hmade]
  cases startable p c <;> rfl

theorem thisProgram : IgnoresEnvironment Action.thisProgram := by
  intro environment p
  have happ : (p.inEnvironment environment).world.executable = p.world.executable := rfl
  simp only [Action.thisProgram, runIn, happ]
  cases p.world.executable <;> rfl

end IgnoresEnvironment

end Action

theorem Launcher.run_ignoresEnvironment (l : Launcher) : l.run.IgnoresEnvironment := by
  refine .bind (.write _) fun _ => ?_
  refine .bind .flush fun _ => ?_
  refine .bind (.start _) fun child => ?_
  refine .bind (.log _) fun _ => ?_
  refine .bind (.write _) fun _ => ?_
  exact .bind .flush fun _ => .pure _

namespace Program

theorem finish_inEnvironment (result : Except Stop α) (p : Process)
    (environment : List (String × Bytes)) :
    finish (result, p.inEnvironment environment) =
      (finish (result, p)).inEnvironment environment := by
  cases result with
  | ok x => rfl
  | error stop => cases stop <;> rfl

section

variable {texts : List String}

theorem run_of_launcher (hrole : Role.ofArguments texts = .launcher) :
    run texts = Action.log (.playing .launcher) >>= fun _ => Outcome.launched <$> launch := by
  simp only [run, hrole]

theorem run_ignoresEnvironment (hrole : Role.ofArguments texts = .launcher) :
    (run texts).IgnoresEnvironment := by
  rw [run_of_launcher hrole]
  refine .bind (.log _) fun _ => .map _ ?_
  exact .bind .thisProgram fun command => Launcher.run_ignoresEnvironment _

/-- A launcher asks for no variable. -/
theorem run_asks_nothing (hrole : Role.ofArguments texts = .launcher) :
    (run texts).Grows Event.isAsked 0 := by
  have hthis : Action.thisProgram.Grows Event.isAsked 0 := by
    intro p
    simp only [Action.thisProgram, Action.runIn]
    cases p.world.executable <;> exact .of_same rfl rfl
  rw [run_of_launcher hrole]
  refine .quiet (.log _ rfl) fun _ => .map _ ?_
  refine .quiet hthis fun command => ?_
  exact Launcher.run_grows _ (fun _ => rfl) rfl (fun _ _ => rfl) fun _ => rfl

end

/-- No variable has been asked for in a process that has come to its end. -/
theorem asked_not_mem_finish {result : Except Stop α} {p q : Process} (hbefore : p.history = [])
    (hgrows : p.Grows Event.isAsked 0 q) (v : Variable) :
    .asked v ∉ (finish (result, q)).process.history := by
  obtain ⟨-, events, hevents, hnone⟩ := hgrows
  rw [hbefore, List.nil_append] at hevents
  have hquiet : .asked v ∉ q.history := by
    intro hmem
    rw [hevents] at hmem
    exact List.countP_eq_zero.mp (Nat.le_zero.mp hnone) _ hmem rfl
  cases result with
  | ok x => exact hquiet
  | error stop =>
    cases stop with
    | failed fault => simpa [finish] using hquiet
    | panicked => exact hquiet
    | endless => exact hquiet

/-- What a launcher does is the same in every environment, and it asks for none of the variables.
What the program does in either role is the same whatever stands behind the second entry of its
argument vector. -/
theorem launcher_ignores_environment_and_rest (w : World) (now : Nat) (held : List Descriptor)
    (argv : List Bytes) :
    let start (environment : List (String × Bytes)) : Process :=
      { world := { w with environment }, now, held }
    (∀ texts, decisive? argv = some texts → Role.ofArguments texts = .launcher →
      ∀ environment other,
        ((run texts).runIn (start other)).1 = ((run texts).runIn (start environment)).1 ∧
        main argv (start other) = (main argv (start environment)).inEnvironment other ∧
        ∀ v, .asked v ∉ (main argv (start environment)).process.history) ∧
    ∀ argv' : List Bytes, (∀ i < 2, argv'[i]? = argv[i]?) →
      decisive? argv' = decisive? argv ∧ ∀ p, main argv' p = main argv p := by
  intro start
  constructor
  · intro texts hargv hrole environment other
    have hsame := run_ignoresEnvironment hrole other (start environment)
    have hstart : (start environment).inEnvironment other = start other := rfl
    rw [hstart] at hsame
    refine ⟨by rw [hsame], ?_, ?_⟩
    · simp only [main, hargv]
      rw [hsame, finish_inEnvironment]
    · intro v
      simp only [main, hargv]
      exact asked_not_mem_finish rfl (run_asks_nothing hrole _) v
  · intro argv' hfirst
    have htake : argv'.take 2 = argv.take 2 := by
      apply List.ext_getElem?
      intro i
      by_cases hi : i < 2
      · rw [List.getElem?_take_of_lt hi, List.getElem?_take_of_lt hi, hfirst i hi]
      · rw [List.getElem?_take_eq_none (by omega), List.getElem?_take_eq_none (by omega)]
    have hdecisive : decisive? argv' = decisive? argv := by rw [decisive?, decisive?, htake]
    refine ⟨hdecisive, fun p => ?_⟩
    rw [main, main, hdecisive]

/-- Neither variables nor later entries that spell no text make a difference to a launcher. -/
theorem launcher_ignores_environment_and_rest_of_broken :
    let w : World := .installed {} []
    let broken : List (String × Bytes) := [("FORK_PROBE_DELAY", [0xFF]), ("FORK_PROBE_FILE", [])]
    let argv := [Utf8.encode "fp", Utf8.encode "Child"]
    let plain := main argv { world := w }
    main (argv ++ [[0xC3], [0xFF]]) { world := { w with environment := broken } } =
        plain.inEnvironment broken ∧
      ∀ v, .asked v ∉ plain.process.history := by
  intro w broken argv plain
  have hargv : decisive? argv = some ["fp", "Child"] := by decide +kernel
  obtain ⟨hlauncher, hrest⟩ :=
    launcher_ignores_environment_and_rest w 0 [⟨2⟩, ⟨1⟩, ⟨0⟩] argv
  obtain ⟨-, hsame, hasked⟩ := hlauncher _ hargv (by decide) [] broken
  have hlater := (hrest (argv ++ [[0xC3], [0xFF]]) (by decide)).2
  exact ⟨(hlater _).trans hsame, hasked⟩

end Program

end DeferredOpen
