import DeferredOpen.Proofs.Program.ProbeRole

/-!
# A launched probe and one that is run directly

What a probe shows depends on the world and the time only, and not on how descriptors are
numbered, which are in use, or what the program is called. A launcher passes on the world and the
sentinel, so the probe that it starts shows what a probe shows that is run directly.
-/

namespace DeferredOpen

namespace Probe

def headingLines : List Line := [.text (Utf8.encode "child, reading files"), .text []]

def reportLines : List Line :=
  [.text (Utf8.encode "child, reading files"), .descriptor 0, .text []]

theorem heading_eq : heading = Utf8.encode "child, reading files" ++ [Line.feed] := rfl

theorem lines_heading (opened : List Nat) : Line.all opened heading = headingLines := by
  have hsplit : heading.splitOn Line.feed = [Utf8.encode "child, reading files", []] := by
    rw [heading_eq, List.splitOn_append_cons_self_of_not_mem (by decide), List.splitOn_nil]
  rw [Line.all, hsplit, List.map_cons, List.map_singleton,
    Line.ofBytes_of_head_ne (by decide), Line.ofBytes_of_head_ne (by decide)]
  rfl

theorem lines_report (d : Descriptor) :
    Line.all [d.number] (heading ++ Utf8.encode (report d)) = reportLines := by
  have hreport : Utf8.encode (report d) =
      Utf8.encode ("fd: " ++ toString d.number) ++ [Line.feed] := by
    rw [report, Line.encode_append]
    rfl
  have hfeed : Line.feed ∉ Utf8.encode ("fd: " ++ toString d.number) := by
    intro h
    rw [Line.encode_descriptor] at h
    have hnumber := Line.feed_not_mem_number d.number
    simp [Line.feed] at h hnumber
    exact hnumber h
  have hsplit : (heading ++ Utf8.encode (report d)).splitOn Line.feed =
      [Utf8.encode "child, reading files", Utf8.encode ("fd: " ++ toString d.number), []] := by
    rw [heading_eq, hreport, List.append_assoc, List.singleton_append,
      List.splitOn_append_cons_self_of_not_mem (by decide),
      List.splitOn_append_cons_self_of_not_mem hfeed, List.splitOn_nil]
  rw [Line.all, hsplit, List.map_cons, List.map_cons, List.map_singleton,
    Line.ofBytes_of_head_ne (by decide), Line.ofBytes_descriptor,
    Line.ofBytes_of_head_ne (by decide)]
  rfl

/-- What a probe for these settings shows that nobody cancels. -/
def shown (settings : Settings) (w : World) (now : Nat) : Behaviour :=
  match Instant.after? (w.clock.reading now) settings.delay with
  | none => ⟨some 101, .panic, headingLines⟩
  | some deadline =>
    let fired := Timer.wait w.clock (fun _ => false) deadline (w.clock.reading now)
    match w.opens fired.ended settings.file with
    | .ok () => ⟨some 0, .none, reportLines⟩
    | .error e =>
      let fault := (Fault.ofSystem e).context ("Unable to open '" ++ settings.file.shown ++ "'")
      ⟨some 1, .fault (Program.complaintLine fault), headingLines⟩

variable {settings : Settings} {flag : Flag} {q : Process}

/-- What a probe shows is up to the world and the time. -/
theorem behaviour_run (hout : q.out = {}) (hopenings : q.openings = [])
    (hraised : q.raisedAt flag = fun _ => false) :
    (Program.finish ((fresh settings flag).run.runIn q)).behaviour =
      shown settings q.world q.now := by
  have hrun := run_endsUnhindered settings hout hopenings hraised
  have hnumbers : ((fresh settings flag).run.runIn q).2.openedInOrder =
      (found (ending settings q)).toList.map Descriptor.number := by
    rw [Process.openedInOrder_eq, ← hrun.openings, List.map_filterMap]
  rw [Program.behaviour_finish, hrun.result, hrun.accepted, hnumbers, shown, ending]
  cases Instant.after? (q.world.clock.reading q.now) settings.delay with
  | none =>
    change Behaviour.mk _ _ (Line.all _ (heading ++ [])) = _
    rw [List.append_nil, lines_heading]
    rfl
  | some deadline =>
    simp only
    generalize (Timer.wait q.world.clock (fun _ => false) deadline _).ended = ended
    cases q.world.opens ended settings.file with
    | ok _ => exact congrArg (Behaviour.mk (some 0) .none) (lines_report (next q))
    | error e =>
      change Behaviour.mk _ _ (Line.all _ (heading ++ [])) = _
      rw [List.append_nil, lines_heading]
      rfl

end Probe

namespace Program

/-- What the program shows in the role of a probe. -/
def shown (w : World) (now : Nat) : Behaviour :=
  match (Settings.read w.answer).result with
  | .error stop =>
    let ended : Except Stop Outcome := .error stop
    ⟨codeOf ended, complaintOf ended, [.text []]⟩
  | .ok settings => Probe.shown settings w now

/-- With the sentinel for its argument the program is a probe, whatever it is called and whatever
descriptors are in use. -/
theorem behaviour_main_of_probe {argv : List Bytes} {texts : List String}
    (hargv : decisive? argv = some texts) (hsentinel : texts[1]? = some Role.sentinel)
    (w : World) (now : Nat) (held : List Descriptor) :
    (main argv { world := w, now, held }).behaviour = shown w now := by
  simp only [main, hargv]
  cases hread : (Settings.read w.answer).result with
  | error stop =>
    obtain ⟨q, hidle, hrun⟩ := run_of_unread now held hsentinel hread
    have hlines : Line.all q.openedInOrder q.out.accepted = [.text []] := by
      rw [hidle.out]
      exact Line.all_nil _
    rw [hrun, behaviour_finish, hlines, shown, hread]
  | ok settings =>
    obtain ⟨q, flag, hidle, hrun⟩ := run_of_read now held hsentinel hread
    rw [hrun, Action.runIn_map, behaviour_finish_map, shown, hread]
    rw [Probe.behaviour_run hidle.out hidle.openings (hidle.raisedAt flag), hidle.world, hidle.now]

section

variable {argv : List Bytes} {texts : List String} {w : World} {app : Path}

/-- With any other argument than the sentinel the program starts itself and takes its leave. -/
theorem main_of_launcher (now : Nat) (hargv : decisive? argv = some texts)
    (hother : texts[1]? ≠ some Role.sentinel) (happ : w.executable = .ok app)
    (hnul : app.holdsNul = false)
    (hfound : w.find w.files ⟨app, [Role.sentinel]⟩ = .ok { program := .itself }) :
    let ended := main argv { world := w, now }
    ended.code = some 0 ∧ ended.complaint = .none ∧
      ended.process.out.accepted = Launcher.heading ++ Launcher.footing ∧
      ended.process.children = [itsChild app] ∧ ended.process.world = w ∧
      ended.process.now = now := by
  have hchild := startable_itself hnul hfound (q := { world := w, now }) rfl rfl
  obtain ⟨hcode, hcomplaint, hleads⟩ := main_of_startable hargv hother rfl happ hchild
  exact ⟨hcode, hcomplaint, hleads.accepted, hleads.children, hleads.world, hleads.now⟩

end

theorem run_itsChild (app : Path) (parent : Process) :
    (itsChild app).run parent = main (itsChild app).arguments parent.fresh := rfl

/-- The argument vector of the child makes it a probe. -/
theorem decisive?_itsChild {app : Path} {name : String} (hname : Utf8.decode? app.bytes = some name) :
    decisive? (itsChild app).arguments = some [name, Role.sentinel] := by
  have hsentinel : Utf8.decode? (Utf8.encode Role.sentinel) = some Role.sentinel := by
    decide +kernel
  have harguments : (itsChild app).arguments = [app.bytes, Utf8.encode Role.sentinel] := rfl
  rw [harguments, decisive?]
  simp [hname, hsentinel]

/-- A launched probe shows what a probe shows that is run directly in the same world, and the
launcher comes to its own end whatever becomes of it. -/
theorem launched_shows_as_direct {argv direct : List Bytes} {texts names : List String} {w : World}
    {app : Path} {name : String} {now : Nat} (numbering : Numbering) (held : List Descriptor)
    (hargv : decisive? argv = some texts) (hother : texts[1]? ≠ some Role.sentinel)
    (happ : w.executable = .ok app) (hname : Utf8.decode? app.bytes = some name)
    (hnul : app.holdsNul = false)
    (hfound : w.find w.files ⟨app, [Role.sentinel]⟩ = .ok { program := .itself })
    (hdirect : decisive? direct = some names) (hsentinel : names[1]? = some Role.sentinel) :
    let parent := main argv { world := w, now }
    parent.code = some 0 ∧ parent.complaint = .none ∧
      parent.process.out.accepted = Utf8.encode "I'm parent. spawning\nexit\n" ∧
      ∃ child, parent.process.children = [child] ∧
        (child.run parent.process).behaviour =
          (main direct { world := { w with numbering }, now, held }).behaviour := by
  obtain ⟨hcode, hcomplaint, haccepted, hchildren, hworld, hnow⟩ :=
    main_of_launcher now hargv hother happ hnul hfound
  refine ⟨hcode, hcomplaint, haccepted, itsChild app, hchildren, ?_⟩
  have hfresh : (main argv { world := w, now }).process.fresh = { world := w, now } := by
    rw [Process.fresh, hworld, hnow]
  rw [run_itsChild, hfresh, behaviour_main_of_probe (decisive?_itsChild hname) rfl,
    behaviour_main_of_probe hdirect hsentinel]
  rfl

theorem launched_shows_as_direct_installed :
    let w : World := .installed {} []
    let parent := main [] { world := w }
    parent.code = some 0 ∧ parent.complaint = .none ∧
      parent.process.out.accepted = Utf8.encode "I'm parent. spawning\nexit\n" ∧
      ∃ child, parent.process.children = [child] ∧
        (child.run parent.process).behaviour =
          (main [Utf8.encode "probe", Utf8.encode "child"] { world := w, held := [] }).behaviour :=
  launched_shows_as_direct .inOrder [] (show decisive? [] = some [] from rfl) (by decide) rfl
    (show Utf8.decode? (Utf8.encode "/program") = some "/program" by decide +kernel) (by decide)
    (World.find_installed {} []) (show decisive? _ = some ["probe", "child"] by decide +kernel) rfl

end Program

end DeferredOpen
