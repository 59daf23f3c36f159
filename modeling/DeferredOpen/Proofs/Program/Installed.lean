import DeferredOpen.Program

/-!
# A world in which the program is installed

In an installed world the system finds this program under its own name. The command that starts it
as a probe is then one that can be started.
-/

namespace DeferredOpen

namespace World

variable (files : Files) (environment : List (String × Bytes))

/-- An installed world holds this program. -/
theorem entry_installed :
    (World.installed files environment).files.entry (.ofString "/program") =
      .ok (.executable .itself) := by
  have hfiles : (World.installed files environment).files =
      files.put [Utf8.encode "program"] (.executable .itself) := by
    have hnames : (Path.ofString "/program").names = [Utf8.encode "program"] := by decide +kernel
    rw [← hnames]
    rfl
  have hsteps : Files.steps (.ofString "/program") = [Utf8.encode "program"] := by decide +kernel
  have hdot : Utf8.encode "program" ≠ Path.dot := by decide
  have hdotDot : Utf8.encode "program" ≠ Path.dotDot := by decide
  have hshort : ¬ Files.maxName < (Utf8.encode "program").length := by decide
  have happ := Files.get?_put_self files (.executable .itself)
    (show [Utf8.encode "program"] ≠ [] by decide)
  rw [Files.entry, Files.resolve, Files.follow, hsteps, if_neg (by decide),
    if_neg (by decide +kernel), Files.origin, if_pos (by decide +kernel), hfiles, Files.walk]
  simp only [Entry.executable] at happ ⊢
  simp [happ, hdot, hdotDot, hshort, Files.entryAt, Files.walk]

/-- An installed world starts this program for its own name. -/
theorem find_installed :
    (World.installed files environment).find (World.installed files environment).files
      ⟨.ofString "/program", [Role.sentinel]⟩ = .ok { program := .itself } := by
  have hfind : (World.installed files environment).find =
      fun files c => c.image files [.ofString "/bin"] := rfl
  have hslash : (Path.ofString "/program").bytes.contains Path.slash = true := by decide
  have hload : Image.load (World.installed files environment).files (.ofString "/program") =
      .ok { program := .itself } := by
    rw [Image.load, Image.maxScripts, Image.loadWithin, entry_installed]
    rfl
  have hshort : Command.isTooLong ⟨.ofString "/program", [Role.sentinel]⟩ = false := by
    decide +kernel
  simp only [hfind, Command.image, hslash, hload, hshort]
  rfl

end World

namespace Program

def itsChild (app : Path) : Child := ⟨1, { program := .itself }, ⟨app, [Role.sentinel]⟩⟩

theorem startable_itself {w : World} {app : Path} (hnul : app.holdsNul = false)
    (hfound : w.find w.files ⟨app, [Role.sentinel]⟩ = .ok { program := .itself })
    {q : Process} (hworld : q.world = w) (hchildren : q.children = []) :
    Action.startable q ⟨app, [Role.sentinel]⟩ = .ok (itsChild app) := by
  have hsentinel : (Utf8.encode Role.sentinel).contains 0 = false := by decide
  have hclean : Command.holdsNul ⟨app, [Role.sentinel]⟩ = false := by
    simp only [Command.holdsNul, hnul, List.any_cons, List.any_nil, hsentinel, Bool.or_false]
  rw [Action.startable, hclean, hworld, hchildren, hfound]
  rfl

end Program

end DeferredOpen
