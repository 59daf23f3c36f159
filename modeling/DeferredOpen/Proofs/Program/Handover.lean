import DeferredOpen.Proofs.Launcher.Outcome
import DeferredOpen.Proofs.Program.Dispatch

/-!
# What a launcher hands over

Arguments are added to a command list by list, and a launcher adds the sentinel behind all of them.
The child gets each of them as it is and in this order. So the sentinel is the last argument, while
a role is decided by the first one: a child that is this program is a probe if nothing stands before
the sentinel, or another sentinel stands first, and it is a launcher otherwise.
-/

namespace DeferredOpen

namespace Command

/-- The command of an application to which arguments are added list by list. -/
def built (app : Path) (lists : List (List String)) : Command := lists.foldl append ⟨app, []⟩

theorem foldl_append (lists : List (List String)) (c : Command) :
    lists.foldl append c = c.append lists.flatten := by
  induction lists generalizing c with
  | nil => rw [List.foldl_nil, append, List.flatten_nil, List.append_nil]
  | cons list lists ih => simp [ih, append, List.append_assoc]

theorem built_eq (app : Path) (lists : List (List String)) : built app lists = ⟨app, lists.flatten⟩ :=
  foldl_append lists ⟨app, []⟩

theorem holdsNul_iff (c : Command) :
    c.holdsNul = true ↔ 0 ∈ c.app.bytes ∨ ∃ text ∈ c.arguments, 0 ∈ Utf8.encode text := by
  simp [holdsNul, Path.holdsNul]

end Command

namespace Launcher

variable {l : Launcher} {q : Process}

/-- Where the farewell can be printed, nothing else comes of it. -/
theorem takeLeave_of_takes (child : Child) (htakes : q.out.takes footing.length = true)
    (hpasses : q.out.flushFaultAt? 1 = none) :
    ∃ left, (takeLeave child).runIn q = (.ok child, left) ∧ left.children = q.children := by
  let logged := q.after (.logged (.launched child.pid))
  have hlog : (Action.log (.launched child.pid)).runIn q = (.ok (), logged) := rfl
  have hroom : logged.out.takes footing.length = true := htakes
  refine ⟨(logged.wrote footing).passedOn, ?_, rfl⟩
  rw [takeLeave, Action.runIn_bind_ok hlog]
  exact Action.print_of_takes hroom hpasses _

/-- A launcher that can print both of its lines comes to what starting its command comes to. -/
theorem run_of_printed (hannounced : Announced q) (hleave : TakesLeave q) :
    (l.run.runIn q).1 = ((Action.start l.command).runIn q).1 ∧
      (l.run.runIn q).2.children = ((Action.start l.command).runIn q).2.children := by
  let passed := (q.wrote heading).passedOn
  have hrun : l.run.runIn q = (Action.start l.command >>= takeLeave).runIn passed :=
    Action.print_of_takes hannounced.1 hannounced.2 _
  rw [hrun]
  -- Neither printing has a say in what the system makes of the command.
  have hmade : Action.startable passed l.command = Action.startable q l.command :=
    Action.startable_congr l.command rfl rfl
  cases hstart : Action.startable q l.command with
  | error fault =>
    rw [hstart] at hmade
    rw [Action.runIn_bind_error (Action.start_of_refused hmade), Action.start_of_refused hstart]
    exact ⟨rfl, rfl⟩
  | ok child =>
    rw [hstart] at hmade
    have htakes : passed.out.takes footing.length = true :=
      (Sink.takes_printed hannounced.1 _).trans hleave.1
    have hpasses : passed.out.flushFaultAt? 1 = none :=
      (q.out.flushFaultAt?_printed heading 1).trans hleave.2
    obtain ⟨left, hleft, hchildren⟩ :=
      takeLeave_of_takes (q := passed.started l.command child) child htakes hpasses
    rw [Action.runIn_bind_ok (Action.start_of_startable hmade), hleft,
      Action.start_of_startable hstart]
    exact ⟨rfl, hchildren⟩

end Launcher

namespace Program

/-- The argument that follows the name where some arguments are followed by the sentinel. -/
theorem take_two_handed (name : Bytes) (arguments : List String) :
    (name :: (arguments ++ [Role.sentinel]).map Utf8.encode).take 2 =
      [name, Utf8.encode (arguments.head?.getD Role.sentinel)] := by
  cases arguments <;> rfl

/-- The role is up to the first argument, and the sentinel is the first one where there is no
other. -/
theorem role_handed (name : String) (arguments : List String) :
    Role.ofArguments [name, arguments.head?.getD Role.sentinel] =
      if arguments = [] ∨ arguments.head? = some Role.sentinel then .probe else .launcher := by
  cases arguments with
  | nil => rfl
  | cons first rest => simp [Role.ofArguments]

/-- A child that is this program and has been handed some arguments, followed by the sentinel. -/
theorem run_handed {child : Child} {app : Path} {name : String} {arguments : List String}
    (hname : Utf8.encode name = app.bytes)
    (hchild : child.command = ⟨app, arguments ++ [Role.sentinel]⟩)
    (himage : child.image = { program := .itself }) (parent : Process) :
    child.run parent =
      finish ((run [name, arguments.head?.getD Role.sentinel]).runIn parent.fresh) := by
  have harguments : child.arguments =
      app.bytes :: (arguments ++ [Role.sentinel]).map Utf8.encode := by
    rw [Child.arguments, hchild, himage]
    rfl
  have hargv : decisive? child.arguments = some [name, arguments.head?.getD Role.sentinel] := by
    rw [decisive?_eq_some_iff, harguments, take_two_handed, ← hname]
    rfl
  simp only [Child.run, himage, main, hargv]

section

variable {app : Path} {lists : List (List String)} {q : Process}

/-- A NUL in the path or in one of the lists is a NUL in what is to be started, and the sentinel
brings none. -/
theorem holdsNul_built_iff :
    (Launcher.ofCommand (Command.built app lists)).command.holdsNul = true ↔
      0 ∈ app.bytes ∨ ∃ list ∈ lists, ∃ text ∈ list, 0 ∈ Utf8.encode text := by
  have hsentinel : 0 ∉ Utf8.encode Role.sentinel := by decide
  rw [Command.holdsNul_iff, Command.built_eq]
  simp only [Launcher.ofCommand, Command.append, List.mem_append, List.mem_flatten,
    List.mem_singleton]
  grind

/-- Whatever the path of an application and the lists of arguments are that a launcher is made of,
and as long as it can print its two lines. With a NUL anywhere it starts nothing and fails for
invalid input. Else it starts what the system finds for the path and the arguments, and that is run
with all of them, in order and each as it was, and with one sentinel at the end. If this program
itself is found, under a path that spells a text, it plays the probe where there are no arguments or
the first one is the sentinel, and else it is another launcher. -/
theorem launcher_hands_over_arguments (app : Path) (lists : List (List String))
    (hannounced : Launcher.Announced q) (hleave : Launcher.TakesLeave q) :
    let l := Launcher.ofCommand (Command.built app lists)
    let ran := l.run.runIn q
    let arguments := lists.flatten ++ ["child"]
    let HoldsNul := 0 ∈ app.bytes ∨ ∃ list ∈ lists, ∃ text ∈ list, 0 ∈ Utf8.encode text
    (HoldsNul → ran.2.children = q.children ∧
      ∃ fault, ran.1 = .error (.failed fault) ∧ fault.kind? = some .invalidInput) ∧
    (¬ HoldsNul → ∀ e, q.world.find q.world.files ⟨app, arguments⟩ = .error e →
      ran.2.children = q.children ∧
      ∃ fault, ran.1 = .error (.failed fault) ∧ fault.kind? = some e.kind) ∧
    (¬ HoldsNul → ∀ image, q.world.find q.world.files ⟨app, arguments⟩ = .ok image →
      ∃ child, ran.1 = .ok child ∧ ran.2.children = q.children ++ [child] ∧ child.image = image ∧
        (∃ given, given.mapM Utf8.decode? = some arguments ∧
          child.arguments = (if image.script = [] then [app.bytes] else image.script) ++ given) ∧
        ∀ name, image = { program := .itself } → Utf8.encode name = app.bytes →
          ∃ texts, (∀ parent, child.run parent = finish ((run texts).runIn parent.fresh)) ∧
            Role.ofArguments texts =
              if lists.flatten = [] ∨ lists.flatten.head? = some "child" then .probe
              else .launcher) := by
  intro l ran arguments HoldsNul
  have hcommand : l.command = ⟨app, arguments⟩ := by
    simp only [l, Launcher.ofCommand, Command.built_eq]
    rfl
  obtain ⟨hresult, hchildren⟩ := Launcher.run_of_printed (l := l) hannounced hleave
  have hrefused {fault : Fault} (h : Action.startable q l.command = .error fault) :
      ran.2.children = q.children ∧
        ∃ told, ran.1 = .error (.failed told) ∧ told.kind? = fault.kind? := by
    rw [Action.start_of_refused h] at hresult hchildren
    exact ⟨hchildren, _, hresult, Fault.kind?_context _ _⟩
  refine ⟨fun hnul => ?_, fun hclean e hfound => ?_, fun hclean image hfound => ?_⟩
  · have hholds : l.command.holdsNul = true := holdsNul_built_iff.mpr hnul
    exact hrefused (by rw [Action.startable, hholds, if_pos rfl])
  · have hholds : l.command.holdsNul = false := by
      rw [← Bool.not_eq_true]
      exact mt holdsNul_built_iff.mp hclean
    have hmade : Action.startable q l.command = .error (.ofSystem e) := by
      rw [Action.startable, hholds, if_neg Bool.false_ne_true, hcommand, hfound]
    exact hrefused hmade
  · have hholds : l.command.holdsNul = false := by
      rw [← Bool.not_eq_true]
      exact mt holdsNul_built_iff.mp hclean
    let child : Child := ⟨q.children.length + 1, image, l.command⟩
    have hmade : Action.startable q l.command = .ok child :=
      Action.startable_eq_ok_iff.mpr ⟨hholds, image, by rw [hcommand, hfound], rfl⟩
    rw [Action.start_of_startable hmade] at hresult hchildren
    refine ⟨child, hresult, hchildren, rfl, ⟨arguments.map Utf8.encode, ?_, ?_⟩, ?_⟩
    · exact (Utf8.mapM_decode?_eq_some_iff _ _).mpr rfl
    · simp only [Child.arguments, child, hcommand, Image.arguments]
      split <;> rfl
    · intro name himage hname
      exact ⟨_, run_handed hname hcommand himage, role_handed name lists.flatten⟩

/-- An empty argument, blanks and a line feed are handed over as they are, and the child is another
launcher: its first argument is empty, and the sentinel is the last one. -/
theorem launcher_hands_over_arguments_of_blanks :
    let w : World := { World.installed {} [] with find := fun _ _ => .ok { program := .itself } }
    let q : Process := { world := w }
    let lists := [["", "a b"], [], ["c\nd"]]
    let ran := (Launcher.ofCommand (Command.built (.ofString "/program") lists)).run.runIn q
    ∃ child, ran.1 = .ok child ∧ ran.2.children = [child] ∧
      (∃ given, given.mapM Utf8.decode? = some ["", "a b", "c\nd", "child"] ∧
        child.arguments = Utf8.encode "/program" :: given) ∧
      ∃ texts, (∀ parent, child.run parent = finish ((run texts).runIn parent.fresh)) ∧
        Role.ofArguments texts = .launcher := by
  intro w q lists ran
  have hannounced : Launcher.Announced q := ⟨by decide, rfl⟩
  have hclean : ¬ (0 ∈ (Path.ofString "/program").bytes ∨
      ∃ list ∈ lists, ∃ text ∈ list, 0 ∈ Utf8.encode text) := by decide
  obtain ⟨child, hresult, hchildren, -, hgiven, hplays⟩ :=
    (launcher_hands_over_arguments (.ofString "/program") lists hannounced
      ⟨by decide, rfl⟩).2.2 hclean { program := .itself } rfl
  exact ⟨child, hresult, hchildren, hgiven, hplays "/program" rfl rfl⟩

end

end Program

end DeferredOpen
