import DeferredOpen.Proofs.Launcher.Outcome
import DeferredOpen.Proofs.Process.Growth
import DeferredOpen.Proofs.Process.Keeping
import DeferredOpen.Proofs.Program.Dispatch

/-!
# The family of a process

The program can start itself, and what it starts is a process with children of its own. A launcher
starts one child at most, and gives it the sentinel for its only argument. So the child is a probe,
and a probe starts nothing: the family ends there, whatever comes of any of its members.
-/

namespace DeferredOpen

namespace Ended

/-- The processes that come of one after so many generations. A child is run in the world of its
parent, as it `meets` that world. -/
def generation (meets : Ended → Child → Process) (root : Ended) : Nat → List Ended
  | 0 => [root]
  | n + 1 =>
    (generation meets root n).flatMap fun parent =>
      parent.process.children.map fun child => child.run (meets parent child)

/-- A process with all that has come of it down to a generation. -/
def family (meets : Ended → Child → Process) (root : Ended) (last : Nat) : List Ended :=
  (List.range (last + 1)).flatMap (root.generation meets)

variable {meets : Ended → Child → Process} {root : Ended}

theorem generation_one :
    root.generation meets 1 = root.process.children.map fun child => child.run (meets root child) := by
  rw [generation, generation, List.flatMap_singleton]

theorem family_succ (last : Nat) :
    root.family meets (last + 1) = root.family meets last ++ root.generation meets (last + 1) := by
  rw [family, List.range_succ, List.flatMap_append, List.flatMap_singleton]
  rfl

/-- If no child has a child of its own there is no third generation. -/
theorem generation_eq_nil
    (h : ∀ child ∈ root.process.children, ∀ q, (child.run q).process.children = []) (n : Nat) :
    root.generation meets (n + 2) = [] := by
  induction n with
  | zero =>
    rw [generation, generation_one, List.flatMap_eq_nil_iff]
    intro ended hended
    obtain ⟨child, hchild, rfl⟩ := List.mem_map.mp hended
    rw [h child hchild, List.map_nil]
  | succ n ih => rw [generation, ih, List.flatMap_nil]

theorem length_family_le
    (h : ∀ child ∈ root.process.children, ∀ q, (child.run q).process.children = []) (last : Nat) :
    (root.family meets last).length ≤ 1 + root.process.children.length := by
  induction last with
  | zero => exact Nat.le_add_right 1 _
  | succ last ih =>
    rw [family_succ, List.length_append]
    cases last with
    | zero =>
      rw [generation_one, List.length_map]
      exact Nat.le_refl _
    | succ last =>
      rw [generation_eq_nil h last]
      exact ih

end Ended

def Event.isStart (e : Event) : Bool := e.start?.isSome

theorem Process.Grows.starts {p q : Process} (h : p.Grows Event.isStart 0 q) :
    q.starts = p.starts := by
  obtain ⟨more, hmore, hnone⟩ := h.filterMap_deeds fun _ => rfl
  rw [Process.starts, hmore, List.eq_nil_of_length_eq_zero (Nat.le_zero.mp hnone), List.append_nil]
  rfl

namespace Probe

theorem run_tries_no_start (probe : Probe) : probe.run.Grows Event.isStart 0 :=
  run_grows_of (fun _ => rfl) rfl (fun _ => rfl) (fun _ => rfl)
    (fun path => .openFile_of_uncounted path (fun _ _ => rfl) fun _ => rfl) probe

theorem runWith_tries_no_start (settings : Settings) :
    (runWith settings).Grows Event.isStart 0 :=
  runWith_grows_of (fun _ => rfl) run_tries_no_start settings

theorem run_keeps_children (probe : Probe) : probe.run.Keeps Process.children :=
  probe.run_keeps fun _ _ _ _ _ => rfl

theorem runWith_keeps_children (settings : Settings) : (runWith settings).Keeps Process.children :=
  .bind (fun _ => rfl) fun _ => .bind (fun _ => rfl) run_keeps_children

end Probe

/-- A launcher starts its own command and no other, and that once at most. -/
theorem Launcher.children_run (l : Launcher) (q : Process) :
    (l.run.runIn q).2.children = q.children ∨
      ∃ child, Action.startable q l.command = .ok child ∧
        (l.run.runIn q).2.children = q.children ++ [child] := by
  -- Up to the start the children stay, and the world as well, which says what is started.
  let kept : Process → World × List Child := fun p => (p.world, p.children)
  have hwrite (text : String) : (Action.write text).Keeps kept := fun _ => rfl
  have hflush : Action.flush.Keeps kept := fun _ => rfl
  have hleave (child : Child) : (takeLeave child).Keeps Process.children :=
    .bind (fun _ => rfl) fun _ => .bind (fun _ => rfl) fun _ => .bind (fun _ => rfl) fun _ => .pure _
  rw [run_eq]
  obtain hsame | ⟨_, written, hwritten, hrun⟩ := (hwrite announcement).bind_cases q
  · exact .inl (congrArg Prod.snd hsame)
  rw [hrun]
  obtain hsame | ⟨_, passed, hpassed, hrun⟩ := hflush.bind_cases written
  · exact .inl (congrArg Prod.snd (hsame.trans hwritten))
  rw [hrun, Action.Keeps.bind_right (Action.start l.command) hleave]
  have hkept : kept passed = kept q := hpassed.trans hwritten
  have hworld : passed.world = q.world := congrArg Prod.fst hkept
  have hchildren : passed.children = q.children := congrArg Prod.snd hkept
  have hmade : Action.startable passed l.command = Action.startable q l.command :=
    Action.startable_congr l.command hworld hchildren
  cases hstart : Action.startable q l.command with
  | error fault =>
    rw [Action.start_of_refused (hmade.trans hstart)]
    exact .inl hchildren
  | ok child =>
    rw [Action.start_of_startable (hmade.trans hstart)]
    exact .inr ⟨child, rfl, congrArg (· ++ [child]) hchildren⟩

namespace Program

variable {argv : List Bytes} {texts : List String}

theorem finish_children (ran : Except Stop α × Process) :
    (finish ran).process.children = ran.2.children := by
  obtain ⟨result, q⟩ := ran
  cases result with
  | ok x => rfl
  | error stop => cases stop <;> rfl

/-- As a probe the program starts nothing and tries nothing of the kind, with or without settings,
and whatever comes of the probe. -/
theorem run_of_probe_starts_nothing (hrole : Role.ofArguments texts = .probe) (q : Process) :
    ((run texts).runIn q).2.children = q.children ∧ ((run texts).runIn q).2.starts = q.starts := by
  have hchildren : (run texts).Keeps Process.children := by
    simp only [run, hrole]
    refine .bind (fun _ => rfl) fun _ => .bind (fun _ => rfl) fun settings => ?_
    exact .map _ (Probe.runWith_keeps_children settings)
  have hstarts : (run texts).Grows Event.isStart 0 := by
    simp only [run, hrole]
    refine .quiet (.log _ rfl) fun _ => .quiet (.settings fun _ => rfl) fun settings => ?_
    exact .map _ (Probe.runWith_tries_no_start settings)
  exact ⟨hchildren q, (hstarts q).starts⟩

/-- The sentinel keeps a process from having children, even where its name spells no text. -/
theorem main_of_sentinel_keeps_children (h : argv[1]? = some (Utf8.encode Role.sentinel))
    (p : Process) : (main argv p).process.children = p.children := by
  unfold main
  cases hargv : decisive? argv with
  | none => rfl
  | some texts =>
    have hrole : Role.ofArguments texts = .probe :=
      (Role.ofArguments_eq_probe_iff texts).mpr ((sentinel_iff hargv).mpr h)
    exact (finish_children _).trans (run_of_probe_starts_nothing hrole p).1

/-- The program starts itself and nothing else, and that once at most. -/
theorem children_main (argv : List Bytes) (p : Process) :
    (main argv p).process.children = p.children ∨
      ∃ app child, p.world.executable = .ok app ∧
        Action.startable p ⟨app, [Role.sentinel]⟩ = .ok child ∧
        (main argv p).process.children = p.children ++ [child] := by
  cases hargv : decisive? argv with
  | none =>
    rw [main, hargv]
    exact .inl rfl
  | some texts =>
    by_cases hsentinel : texts[1]? = some Role.sentinel
    · exact .inl (main_of_sentinel_keeps_children ((sentinel_iff hargv).mp hsentinel) p)
    · let q := p.after (.logged (.playing .launcher))
      rw [main_eq_of_launcher hargv hsentinel, finish_children, Action.runIn_map]
      cases happ : p.world.executable with
      | error e =>
        rw [launch, Action.runIn_bind_error (Action.thisProgram_of_lost (p := q) happ)]
        exact .inl rfl
      | ok app =>
        rw [launch, Action.runIn_bind_ok (Action.thisProgram_of_found (p := q) happ)]
        obtain hsame | ⟨child, hmade, hchildren⟩ :=
          Launcher.children_run (Launcher.ofCommand ⟨app, []⟩) q
        · exact .inl hsame
        · exact .inr ⟨app, child, rfl, hmade, hchildren⟩

/-- A child that is this program again, with the sentinel for its only argument. -/
structure IsProbe (app : Path) (child : Child) : Prop where
  command : child.command = ⟨app, [Role.sentinel]⟩
  image : child.image = { program := .itself }

namespace IsProbe

variable {app : Path} {child : Child}

theorem arguments (h : IsProbe app child) :
    child.arguments = [app.bytes, Utf8.encode Role.sentinel] := by
  rw [Child.arguments, h.command, h.image]
  rfl

theorem run (h : IsProbe app child) (parent : Process) :
    child.run parent = main [app.bytes, Utf8.encode Role.sentinel] parent.fresh := by
  rw [← h.arguments, Child.run, h.image]

theorem children_run (h : IsProbe app child) (parent : Process) :
    (child.run parent).process.children = [] := by
  rw [h.run]
  exact main_of_sentinel_keeps_children rfl parent.fresh

/-- Where the path of the program spells a text, the child finds the role of a probe. -/
theorem plays_probe (h : IsProbe app child) {name : String} (hname : Utf8.encode name = app.bytes) :
    decisive? child.arguments = some [name, Role.sentinel] ∧
      Role.ofArguments [name, Role.sentinel] = .probe ∧
      ∀ parent, child.run parent =
        finish ((Program.run [name, Role.sentinel]).runIn parent.fresh) := by
  have hargv : decisive? [app.bytes, Utf8.encode Role.sentinel] = some [name, Role.sentinel] := by
    rw [decisive?_eq_some_iff, ← hname]
    rfl
  refine ⟨by rw [h.arguments, hargv], rfl, fun parent => ?_⟩
  rw [h.run, main, hargv]

end IsProbe

section

variable {p : Process}

/-- Where the system finds this program under the path that it gives for it, a process without
children gets one probe for its child at most. -/
theorem only_child_is_probe (hchildren : p.children = [])
    (hself : ∀ app image, p.world.executable = .ok app →
      p.world.find p.world.files ⟨app, [Role.sentinel]⟩ = .ok image → image = { program := .itself })
    (argv : List Bytes) :
    (main argv p).process.children = [] ∨
      ∃ app child, p.world.executable = .ok app ∧ IsProbe app child ∧
        (main argv p).process.children = [child] := by
  obtain hnone | ⟨app, child, happ, hmade, hone⟩ := children_main argv p
  · exact .inl (hnone.trans hchildren)
  · obtain ⟨-, image, hfound, rfl⟩ := Action.startable_eq_ok_iff.mp hmade
    rw [hchildren] at hone
    exact .inr ⟨app, _, happ, ⟨rfl, hself app image happ hfound⟩, hone⟩

/-- The family of a process without children has two members at most, where the system finds this
program under the path that it gives for it. That is so for every argument vector, and whatever comes
of the members: the only child has the sentinel for its only argument, which makes it a probe, and a
probe starts nothing. -/
theorem family_has_at_most_two (hchildren : p.children = [])
    (hself : ∀ app image, p.world.executable = .ok app →
      p.world.find p.world.files ⟨app, [Role.sentinel]⟩ = .ok image → image = { program := .itself })
    (argv : List Bytes) (meets : Ended → Child → Process) :
    let root := main argv p
    (∀ last, (root.family meets last).length ≤ 2) ∧
    (∀ n, root.generation meets (n + 2) = []) ∧
    (∀ child ∈ root.process.children,
      root.process.children = [child] ∧
      ∃ app, p.world.executable = .ok app ∧ child.command = ⟨app, ["child"]⟩ ∧
        child.arguments = [app.bytes, Utf8.encode "child"] ∧
        ∀ name, Utf8.encode name = app.bytes →
          decisive? child.arguments = some [name, "child"] ∧
          Role.ofArguments [name, "child"] = .probe ∧
          ∀ parent, child.run parent = finish ((run [name, "child"]).runIn parent.fresh)) ∧
    (∀ texts, Role.ofArguments texts = .probe → ∀ q,
      ((run texts).runIn q).2.children = q.children ∧
        ((run texts).runIn q).2.starts = q.starts) ∧
    ∀ (probe : Probe) (q : Process),
      (probe.run.runIn q).2.children = q.children ∧ (probe.run.runIn q).2.starts = q.starts := by
  intro root
  have hcases := only_child_is_probe hchildren hself argv
  have hlast : ∀ child ∈ root.process.children, ∀ q, (child.run q).process.children = [] := by
    intro child hchild q
    obtain hnone | ⟨app, only, -, hprobe, hone⟩ := hcases
    · rw [hnone] at hchild
      cases hchild
    · rw [hone, List.mem_singleton] at hchild
      obtain rfl := hchild
      exact hprobe.children_run q
  have hfew : root.process.children.length ≤ 1 := by
    obtain hnone | ⟨app, only, -, -, hone⟩ := hcases
    · exact hnone ▸ Nat.zero_le 1
    · exact hone ▸ Nat.le_refl 1
  refine ⟨fun last => ?_, Ended.generation_eq_nil hlast, ?_, ?_, ?_⟩
  · exact (Ended.length_family_le hlast last).trans (Nat.add_le_add_left hfew 1)
  · intro child hchild
    obtain hnone | ⟨app, only, happ, hprobe, hone⟩ := hcases
    · rw [hnone] at hchild
      cases hchild
    · rw [hone, List.mem_singleton] at hchild
      obtain rfl := hchild
      exact ⟨hone, app, happ, hprobe.command, hprobe.arguments, fun name => hprobe.plays_probe⟩
  · intro texts hrole q
    exact run_of_probe_starts_nothing hrole q
  · intro probe q
    exact ⟨probe.run_keeps_children q, (probe.run_tries_no_start q).starts⟩

/-- With a word that is not the sentinel, an installed program has a child, and with the child the
family is complete. -/
theorem family_has_at_most_two_installed :
    let p : Process := { world := .installed {} [] }
    let argv := [Utf8.encode "fp", Utf8.encode "again"]
    let root := main argv p
    let meets : Ended → Child → Process := fun parent _ => parent.process
    root.process.children = [itsChild (.ofString "/program")] ∧
      (∀ last, (root.family meets last).length ≤ 2) ∧
      decisive? (itsChild (.ofString "/program")).arguments = some ["/program", "child"] := by
  intro p argv root meets
  have hfound := World.find_installed {} []
  have hself : ∀ app image, p.world.executable = .ok app →
      p.world.find p.world.files ⟨app, [Role.sentinel]⟩ = .ok image →
      image = { program := .itself } := by
    intro app image happ himage
    obtain rfl : Path.ofString "/program" = app := Except.ok.inj happ
    exact (Except.ok.inj (hfound.symm.trans himage)).symm
  obtain ⟨hfew, -, hchild, -⟩ := family_has_at_most_two (p := p) rfl hself argv meets
  have hargv : decisive? argv = some ["fp", "again"] := decisive?_eq_some_iff.mpr rfl
  have hmade : Action.startable p ⟨.ofString "/program", [Role.sentinel]⟩ =
      .ok (itsChild (.ofString "/program")) := startable_itself (by decide) hfound rfl rfl
  have hone : root.process.children = [itsChild (.ofString "/program")] :=
    (main_of_startable hargv (by decide) rfl rfl hmade).2.2.children
  obtain ⟨-, app, happ, -, -, hplays⟩ := hchild _ (hone ▸ List.mem_singleton_self _)
  obtain rfl : Path.ofString "/program" = app := Except.ok.inj happ
  exact ⟨hone, hfew, (hplays "/program" rfl).1⟩

end

end Program

end DeferredOpen
