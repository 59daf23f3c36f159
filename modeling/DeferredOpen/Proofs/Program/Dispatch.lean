import DeferredOpen.Proofs.Launcher.Course
import DeferredOpen.Proofs.Program.Installed
import DeferredOpen.Proofs.Text.Encoding
import Mathlib.Data.Set.List

/-!
# Which role an argument vector leads to

The first two entries of an argument vector are read as texts before the role is known. Where both
spell texts the second one decides, and whatever stands behind it is never looked at. Where one of
them spells no text the program breaks off before it has done anything.
-/

namespace DeferredOpen

theorem Utf8.mapM_decode?_eq_some_iff (entries : List Bytes) (texts : List String) :
    entries.mapM decode? = some texts ↔ texts.map encode = entries := by
  induction entries generalizing texts with
  | nil => simp [eq_comm]
  | cons entry entries ih =>
    rw [List.mapM_cons]
    constructor
    · intro h
      obtain ⟨text, htext, h⟩ := Option.bind_eq_some_iff.mp h
      obtain ⟨more, hmore, h⟩ := Option.bind_eq_some_iff.mp h
      obtain rfl := Option.some.inj h
      rw [List.map_cons, (decode?_eq_some_iff _ _).mp htext, (ih more).mp hmore]
    · intro h
      obtain ⟨text, more, rfl, rfl, hmore⟩ := List.map_eq_cons_iff.mp h
      rw [decode?_encode, (ih more).mpr hmore]
      rfl

namespace Program

variable {argv : List Bytes} {texts : List String}

/-- The entries that decide the role spell texts, as far as they are there. -/
def Readable (argv : List Bytes) : Prop := ∀ entry ∈ argv.take 2, ∃ text, Utf8.encode text = entry

theorem decisive?_eq_some_iff :
    decisive? argv = some texts ↔ texts.map Utf8.encode = argv.take 2 :=
  Utf8.mapM_decode?_eq_some_iff _ _

/-- The texts are there exactly when each of the entries spells one. -/
theorem exists_decisive?_iff : (∃ texts, decisive? argv = some texts) ↔ Readable argv := by
  have hrange := Set.ext_iff.mp (Set.range_list_map Utf8.encode) (argv.take 2)
  simp only [decisive?_eq_some_iff]
  exact hrange

theorem decisive?_eq_none_iff : decisive? argv = none ↔ ¬ Readable argv := by
  rw [← exists_decisive?_iff]
  cases decisive? argv <;> simp

/-- The second entry decides the role by its bytes. -/
theorem sentinel_iff (h : decisive? argv = some texts) :
    texts[1]? = some Role.sentinel ↔ argv[1]? = some (Utf8.encode Role.sentinel) := by
  have hsecond : texts[1]?.map Utf8.encode = argv[1]? := by
    rw [← List.getElem?_map, decisive?_eq_some_iff.mp h, List.getElem?_take_of_lt (by decide)]
  rw [← hsecond]
  constructor
  · intro htext
    rw [htext]
    rfl
  · intro hbytes
    obtain ⟨text, htext, hencode⟩ := Option.map_eq_some_iff.mp hbytes
    have hsame := congrArg Utf8.decode? hencode
    rw [Utf8.decode?_encode, Utf8.decode?_encode] at hsame
    rw [htext, hsame]

theorem main_of_unreadable (h : ¬ Readable argv) (p : Process) :
    main argv p = ⟨some 101, .panic, p⟩ := by
  simp only [main, decisive?_eq_none_iff.mpr h]

theorem main_eq_of_launcher (hargv : decisive? argv = some texts)
    (hother : texts[1]? ≠ some Role.sentinel) (p : Process) :
    main argv p =
      finish ((Outcome.launched <$> launch).runIn (p.after (.logged (.playing .launcher)))) := by
  have hrole : Role.ofArguments texts = .launcher := by
    rw [Role.ofArguments, if_neg hother]
  have hlog : (Action.log (.playing .launcher)).runIn p =
      (.ok (), p.after (.logged (.playing .launcher))) := rfl
  simp only [main, hargv, run, hrole]
  rw [Action.runIn_bind_ok hlog]

/-- A launcher that can be started prints its two lines, starts one child and succeeds. -/
theorem main_of_startable {p : Process} {app : Path} {child : Child}
    (hargv : decisive? argv = some texts) (hother : texts[1]? ≠ some Role.sentinel)
    (hout : p.out = {}) (happ : p.world.executable = .ok app)
    (hchild : Action.startable p ⟨app, [Role.sentinel]⟩ = .ok child) :
    (main argv p).code = some 0 ∧ (main argv p).complaint = .none ∧
      p.Leads (main argv p).process
        [.wrote Launcher.heading, .flushed, .started ⟨app, [Role.sentinel]⟩ (.ok child),
          .wrote Launcher.footing, .flushed] p.now := by
  let q := p.after (.logged (.playing .launcher))
  have hthis : Action.thisProgram.runIn q = (.ok ⟨app, []⟩, q) := Action.thisProgram_of_found happ
  have hlaunch : launch.runIn q = (Launcher.ofCommand ⟨app, []⟩).run.runIn q :=
    Action.runIn_bind_ok hthis
  obtain ⟨hresult, hleads⟩ := Launcher.run_of_startable
    (l := Launcher.ofCommand ⟨app, []⟩) (q := q) hout hchild
  rw [main_eq_of_launcher hargv hother, Action.runIn_map, hlaunch, hresult]
  exact ⟨rfl, rfl, (Process.Leads.logged p _).trans hleads⟩

/-- Without the sentinel for its second entry an argument vector makes the program a launcher, if
the entries that decide the role spell texts, and whatever the later ones hold. If they do not, the
program breaks off without having done anything. -/
theorem main_without_sentinel (hother : argv[1]? ≠ some (Utf8.encode Role.sentinel)) (w : World)
    (now : Nat) (held : List Descriptor) :
    let p : Process := { world := w, now, held }
    let ended := main argv p
    (Readable argv →
      ended =
        finish ((Outcome.launched <$> launch).runIn (p.after (.logged (.playing .launcher)))) ∧
      ∀ app child, w.executable = .ok app →
        Action.startable p ⟨app, [Role.sentinel]⟩ = .ok child →
        ended.code = some 0 ∧ ended.complaint = .none ∧
          ended.process.out.accepted = Utf8.encode "I'm parent. spawning\nexit\n" ∧
          ended.process.children = [child]) ∧
    (¬ Readable argv → ended = ⟨some 101, .panic, p⟩) := by
  intro p ended
  refine ⟨?_, fun h => main_of_unreadable h p⟩
  intro hreadable
  obtain ⟨texts, htexts⟩ := exists_decisive?_iff.mpr hreadable
  have hrole : texts[1]? ≠ some Role.sentinel := mt (sentinel_iff htexts).mp hother
  refine ⟨main_eq_of_launcher htexts hrole p, ?_⟩
  intro app child happ hchild
  obtain ⟨hcode, hcomplaint, hleads⟩ := main_of_startable (p := p) htexts hrole rfl happ hchild
  exact ⟨hcode, hcomplaint, hleads.accepted, hleads.children⟩

/-- An entry behind the second one may spell no text. -/
theorem main_without_sentinel_of_broken_last :
    let p : Process := { world := .installed {} [] }
    let argv := [Utf8.encode "fp", Utf8.encode "Child", [0xFF]]
    argv[1]? ≠ some (Utf8.encode Role.sentinel) ∧ Readable argv ∧
      (main argv p).code = some 0 ∧ (main argv p).complaint = .none ∧
      (main argv p).process.out.accepted = Utf8.encode "I'm parent. spawning\nexit\n" ∧
      (main argv p).process.children = [itsChild (.ofString "/program")] := by
  intro p argv
  have hother : argv[1]? ≠ some (Utf8.encode Role.sentinel) := by decide
  have hreadable : Readable argv :=
    exists_decisive?_iff.mp ⟨["fp", "Child"], by decide +kernel⟩
  refine ⟨hother, hreadable, ?_⟩
  exact ((main_without_sentinel hother (.installed {} []) 0 [⟨2⟩, ⟨1⟩, ⟨0⟩]).1 hreadable).2 _ _ rfl
    (startable_itself (by decide) (World.find_installed {} []) rfl rfl)

/-- A second entry that spells no text breaks the program off, although it is not the sentinel and
the program could be started. -/
theorem main_of_broken_second :
    let p : Process := { world := .installed {} [] }
    let argv := [Utf8.encode "fp", [0xFF]]
    argv[1]? ≠ some (Utf8.encode Role.sentinel) ∧
      p.world.executable = .ok (.ofString "/program") ∧
      Action.startable p ⟨.ofString "/program", [Role.sentinel]⟩ =
        .ok (itsChild (.ofString "/program")) ∧
      (main argv p).code = some 101 ∧ (main argv p).complaint = .panic ∧
      (main argv p).process.out.accepted = [] ∧ (main argv p).process.children = [] := by
  intro p argv
  have hunreadable : ¬ Readable argv := decisive?_eq_none_iff.mp (by decide +kernel)
  rw [main_of_unreadable hunreadable]
  exact ⟨by decide, rfl, startable_itself (by decide) (World.find_installed {} []) rfl rfl,
    rfl, rfl, rfl, rfl⟩

end Program

end DeferredOpen
