import DeferredOpen.Proofs.Probe.Firing
import DeferredOpen.Proofs.Probe.Unhindered
import DeferredOpen.Proofs.Program.Behaviour
import DeferredOpen.Proofs.Program.Dispatch
import DeferredOpen.Proofs.Settings.Reading

/-!
# The program in the role of a probe

Up to the probe itself the program writes nothing and opens nothing: it reads its settings, and
goes no further without them. What it prints then is what the probe prints, and the exit code and
the error stream follow from what comes of the probe.
-/

namespace DeferredOpen

namespace Probe

theorem ending_cases (settings : Settings) (q : Process) :
    (∃ d, ending settings q = .ok (some d)) ∨
      (∃ fault, ending settings q = .error (.failed fault)) ∨
      ending settings q = .error .panicked := by
  unfold ending
  split
  · exact .inr (.inr rfl)
  · dsimp only
    split
    · exact .inl ⟨_, rfl⟩
    · exact .inr (.inl ⟨_, rfl⟩)

end Probe

/-- A process that has written, opened and raised nothing so far, at a time in a world. -/
structure Process.Idle (w : World) (now : Nat) (q : Process) : Prop where
  world : q.world = w
  now : q.now = now
  out : q.out = {}
  openings : q.openings = []
  raisedAt : ∀ flag, q.raisedAt flag = fun _ => false

namespace Program

variable {texts : List String} {w : World}

/-- The process in which the program goes on as a probe and has asked for its settings. -/
def playing (p : Process) : Process :=
  let played := p.after (.logged (.playing .probe))
  { played with history := played.history ++ (Settings.read p.world.answer).asked.map .asked }

theorem settings_playing (p : Process) :
    Action.settings.runIn (p.after (.logged (.playing .probe))) =
      ((Settings.read p.world.answer).result, playing p) := rfl

theorem holdings_playing (p : Process) : (playing p).holdings = p.holdings :=
  (Action.settings_keeps_holdings _).trans (Action.log_keeps_holdings rfl p)

/-- A program that goes on as a probe first asks for its settings. -/
theorem run_of_sentinel (hsentinel : texts[1]? = some Role.sentinel) (p : Process) :
    (run texts).runIn p =
      (do
        let settings ← Action.settings
        Outcome.probed <$> Probe.runWith settings).runIn (p.after (.logged (.playing .probe))) := by
  have hrole : Role.ofArguments texts = .probe :=
    (Role.ofArguments_eq_probe_iff texts).mpr hsentinel
  have hlog : (Action.log (.playing .probe)).runIn p =
      (.ok (), p.after (.logged (.playing .probe))) := rfl
  simp only [run, hrole]
  rw [Action.runIn_bind_ok hlog]

/-- Without settings the program stops. -/
theorem run_of_no_settings {stop : Stop} (hsentinel : texts[1]? = some Role.sentinel) (p : Process)
    (hread : (Settings.read p.world.answer).result = .error stop) :
    (run texts).runIn p = (.error stop, playing p) := by
  have hsettings := settings_playing p
  rw [hread] at hsettings
  rw [run_of_sentinel hsentinel]
  exact Action.runIn_bind_error hsettings

/-- With settings the program runs a probe for them. -/
theorem run_of_settings {settings : Settings} (hsentinel : texts[1]? = some Role.sentinel)
    (p : Process) (hread : (Settings.read p.world.answer).result = .ok settings) :
    (run texts).runIn p = (Outcome.probed <$> Probe.runWith settings).runIn (playing p) := by
  have hsettings := settings_playing p
  rw [hread] at hsettings
  rw [run_of_sentinel hsentinel, Action.runIn_bind_ok hsettings]

/-- Without settings the program has done nothing but ask for them. -/
theorem run_of_unread (now : Nat) (held : List Descriptor) {stop : Stop}
    (hsentinel : texts[1]? = some Role.sentinel)
    (hread : (Settings.read w.answer).result = .error stop) :
    ∃ q, Process.Idle w now q ∧
      (run texts).runIn { world := w, now, held } = (.error stop, q) := by
  let p : Process := { world := w, now, held }
  have hopenings : (playing p).openings = [] := Process.openings_of_holdings (holdings_playing p)
  exact ⟨playing p, ⟨rfl, rfl, rfl, hopenings, fun _ => rfl⟩, run_of_no_settings hsentinel p hread⟩

/-- With settings the program runs a probe for them, and has done nothing else. -/
theorem run_of_read (now : Nat) (held : List Descriptor) {settings : Settings}
    (hsentinel : texts[1]? = some Role.sentinel)
    (hread : (Settings.read w.answer).result = .ok settings) :
    ∃ q flag, Process.Idle w now q ∧ (run texts).runIn { world := w, now, held } =
      (Outcome.probed <$> (Probe.fresh settings flag).run).runIn q := by
  let p : Process := { world := w, now, held }
  let q : Process := Probe.made settings (playing p)
  have hopenings : q.openings = [] :=
    Process.openings_of_holdings ((Probe.holdings_made settings _).trans (holdings_playing p))
  refine ⟨q, (playing p).flags.next, ⟨rfl, rfl, rfl, hopenings, fun _ => rfl⟩, ?_⟩
  rw [run_of_settings hsentinel p hread, Action.runIn_map, Action.runIn_map, Probe.runWith_runIn]

/-- The end of a process tells what came of the run. -/
theorem finish_eq (result : Except Stop α) (p : Process) :
    (finish (result, p)).code = codeOf result ∧
      (finish (result, p)).complaint = complaintOf result ∧
      (finish (result, p)).process.out = p.out := by
  cases result with
  | ok x => exact ⟨rfl, rfl, rfl⟩
  | error stop => cases stop <;> exact ⟨rfl, rfl, rfl⟩

/-- A run that has stopped, with a fault or a panic. -/
def Stopped (result : Except Stop α) : Prop :=
  (∃ fault, result = .error (.failed fault)) ∨ result = .error .panicked

/-- A process that has failed, and has said so. -/
def HasFailed (ended : Ended) : Prop :=
  (∃ code, code ≠ 0 ∧ ended.code = some code) ∧ ended.complaint ≠ .none

theorem HasFailed.code_ne {ended : Ended} (h : HasFailed ended) : ended.code ≠ some 0 := by
  obtain ⟨⟨code, hne, hcode⟩, -⟩ := h
  rw [hcode]
  exact fun hzero => hne (Option.some.inj hzero)

theorem hasFailed_finish {result : Except Stop α} (h : Stopped result) (p : Process) :
    HasFailed (finish (result, p)) := by
  rcases h with ⟨fault, rfl⟩ | rfl
  · exact ⟨⟨1, by decide, rfl⟩, nofun⟩
  · exact ⟨⟨101, by decide, rfl⟩, nofun⟩

/-- As a probe the program stops without settings and prints nothing, stops with its announcement
printed, or succeeds and has printed its report, too. -/
theorem run_as_probe_cases (hsentinel : texts[1]? = some Role.sentinel) (w : World) (now : Nat)
    (held : List Descriptor) :
    let ran := (run texts).runIn { world := w, now, held }
    let built := ∃ settings, (Settings.read w.answer).result = .ok settings
    (¬ built ∧ ran.2.out.accepted = [] ∧ Stopped ran.1) ∨
      (built ∧ ran.2.out.accepted = Probe.heading ∧ Stopped ran.1) ∨
      (built ∧ (∃ d, ran.2.out.accepted = Probe.heading ++ Utf8.encode (Probe.report d)) ∧
        ∃ outcome, ran.1 = .ok outcome) := by
  intro ran built
  have hunread {stop : Stop} (hread : (Settings.read w.answer).result = .error stop) :
      ¬ built ∧ ran.2.out.accepted = [] ∧ ran.1 = .error stop := by
    obtain ⟨q, hidle, hrun⟩ := run_of_unread now held hsentinel hread
    have hran : ran = (.error stop, q) := hrun
    refine ⟨?_, by rw [hran, hidle.out], by rw [hran]⟩
    rintro ⟨settings, hsettings⟩
    rw [hread] at hsettings
    cases hsettings
  obtain ⟨settings, hread⟩ | ⟨fault, hread⟩ | ⟨hread, -⟩ := Settings.result_read_cases w.answer
  · right
    obtain ⟨q, flag, hidle, hrun⟩ := run_of_read now held hsentinel hread
    have hprobe := Probe.run_endsUnhindered settings hidle.out hidle.openings (hidle.raisedAt flag)
    rw [Action.runIn_map] at hrun
    have haccepted : ran.2.out.accepted =
        Probe.heading ++ Probe.reportOn (Probe.found (Probe.ending settings q)) := by
      rw [← hprobe.accepted]
      exact congrArg (fun r => r.2.out.accepted) hrun
    have hresult : ran.1 = (Probe.ending settings q).map Outcome.probed := by
      rw [← hprobe.result]
      exact congrArg Prod.fst hrun
    obtain ⟨d, hd⟩ | ⟨fault, hd⟩ | hd := Probe.ending_cases settings q
    · rw [hd] at haccepted hresult
      exact .inr ⟨⟨settings, hread⟩, ⟨d, haccepted⟩, _, hresult⟩
    · rw [hd] at haccepted hresult
      exact .inl ⟨⟨settings, hread⟩, haccepted.trans (List.append_nil _), .inl ⟨fault, hresult⟩⟩
    · rw [hd] at haccepted hresult
      exact .inl ⟨⟨settings, hread⟩, haccepted.trans (List.append_nil _), .inr hresult⟩
  · obtain ⟨hbuilt, haccepted, hresult⟩ := hunread hread
    exact .inl ⟨hbuilt, haccepted, .inl ⟨fault, hresult⟩⟩
  · obtain ⟨hbuilt, haccepted, hresult⟩ := hunread hread
    exact .inl ⟨hbuilt, haccepted, .inr hresult⟩

theorem main_of_sentinel (name : String) (rest : List Bytes) (p : Process) :
    main (Utf8.encode name :: Utf8.encode "child" :: rest) p =
      finish ((run [name, "child"]).runIn p) := by
  have hargv : decisive? (Utf8.encode name :: Utf8.encode "child" :: rest) =
      some [name, "child"] := decisive?_eq_some_iff.mpr rfl
  simp only [main, hargv]

/-- Without settings the process fails and prints nothing. With settings it fails with its
announcement printed, or it succeeds and has printed its report, too. -/
theorem main_as_probe_cases (name : String) (rest : List Bytes) (w : World) (now : Nat)
    (held : List Descriptor) :
    let ended := main (Utf8.encode name :: Utf8.encode "child" :: rest) { world := w, now, held }
    let output := ended.process.out.accepted
    let built := ∃ settings, (Settings.read w.answer).result = .ok settings
    (¬ built ∧ output = [] ∧ HasFailed ended) ∨
      (built ∧ output = Probe.heading ∧ HasFailed ended) ∨
      (built ∧ (∃ d, output = Probe.heading ++ Utf8.encode (Probe.report d)) ∧
        ended.code = some 0 ∧ ended.complaint = .none) := by
  intro ended output built
  have hsentinel : [name, "child"][1]? = some Role.sentinel := rfl
  let ran := (run [name, "child"]).runIn { world := w, now, held }
  have hended : ended = finish ran := main_of_sentinel name rest _
  obtain ⟨hcode, hcomplaint, hout⟩ := finish_eq ran.1 ran.2
  have houtput : output = ran.2.out.accepted := by
    simp only [output, hended]
    exact congrArg Sink.accepted hout
  obtain ⟨hbuilt, haccepted, hstop⟩ | ⟨hbuilt, haccepted, hstop⟩ |
    ⟨hbuilt, ⟨d, haccepted⟩, outcome, hresult⟩ := run_as_probe_cases hsentinel w now held
  · exact .inl ⟨hbuilt, houtput.trans haccepted, hended ▸ hasFailed_finish hstop ran.2⟩
  · exact .inr (.inl ⟨hbuilt, houtput.trans haccepted, hended ▸ hasFailed_finish hstop ran.2⟩)
  · have hzero : ended.code = some 0 := by
      rw [hended]
      exact hcode.trans (congrArg codeOf hresult)
    have hquiet : ended.complaint = .none := by
      rw [hended]
      exact hcomplaint.trans (congrArg complaintOf hresult)
    exact .inr (.inr ⟨hbuilt, ⟨d, houtput.trans haccepted⟩, hzero, hquiet⟩)

/-- The bytes of an announcement with a report behind it. -/
theorem heading_report (n : Nat) :
    Probe.heading ++ Utf8.encode (Probe.report ⟨n⟩) =
      Utf8.encode ("child, reading files\n" ++ "fd: " ++ toString n ++ "\n") := by
  rw [Probe.heading, ← Line.encode_append, Probe.report, Probe.announcement, String.append_assoc,
    String.append_assoc, String.append_assoc]

theorem encode_report_ne_nil (d : Descriptor) : Utf8.encode (Probe.report d) ≠ [] := by
  rw [Probe.report, Line.encode_append, Line.encode_descriptor]
  nofun

/-- A report makes the output longer than the announcement alone. -/
theorem not_reported {output : Bytes} (h : output = [] ∨ output = Probe.heading) (n : Nat) :
    output ≠ Utf8.encode ("child, reading files\n" ++ "fd: " ++ toString n ++ "\n") := by
  rw [← heading_report n]
  intro hreport
  rcases h with h | h
  · rw [h] at hreport
    cases hreport
  · rw [h, List.self_eq_append_right] at hreport
    exact encode_report_ne_nil _ hreport

/-- With the sentinel for its second entry and a text for its first one, an argument vector makes
the program print nothing, its announcement, or its announcement and a report. It prints nothing
just where there are no settings. It succeeds just where it has printed the report, and then its
error stream stays empty; else it fails, and says why if the run has ended in a fault. -/
theorem main_as_probe_prints (name : String) (rest : List Bytes) (w : World) (now : Nat)
    (held : List Descriptor) :
    let p : Process := { world := w, now, held }
    let ended := main (Utf8.encode name :: Utf8.encode "child" :: rest) p
    let output := ended.process.out.accepted
    let Reported :=
      ∃ n : Nat, output = Utf8.encode ("child, reading files\n" ++ "fd: " ++ toString n ++ "\n")
    (output = [] ∨ output = Utf8.encode "child, reading files\n" ∨ Reported) ∧
    (output = [] ↔ ∀ settings, (Settings.read w.answer).result ≠ .ok settings) ∧
    (ended.code = some 0 ↔ Reported) ∧
    (ended.code = some 0 → ended.complaint = .none) ∧
    (ended.code ≠ some 0 →
      (∃ code, code ≠ 0 ∧ ended.code = some code) ∧ ended.complaint ≠ .none) ∧
    ∀ fault, ((run [name, "child"]).runIn p).1 = .error (.failed fault) →
      ended.complaint = .fault ("error: " ++ fault.text ++ "\n") := by
  intro p ended output Reported
  have hfault (fault : Fault) (h : ((run [name, "child"]).runIn p).1 = .error (.failed fault)) :
      ended.complaint = .fault ("error: " ++ fault.text ++ "\n") := by
    have hcomplaint := (finish_eq ((run [name, "child"]).runIn p).1
      ((run [name, "child"]).runIn p).2).2.1
    rw [← main_of_sentinel name rest p, h] at hcomplaint
    exact hcomplaint
  obtain ⟨hbuilt, hempty, hfailed⟩ | ⟨⟨settings, hread⟩, hheading, hfailed⟩ |
    ⟨⟨settings, hread⟩, ⟨d, hfull⟩, hcode, hquiet⟩ := main_as_probe_cases name rest w now held
  · have hunreported : ¬ Reported := not_exists.mpr (not_reported (.inl hempty))
    refine ⟨.inl hempty, iff_of_true hempty ?_, iff_of_false hfailed.code_ne hunreported,
      fun h => absurd h hfailed.code_ne, fun _ => hfailed, hfault⟩
    exact fun settings h => hbuilt ⟨settings, h⟩
  · have hunreported : ¬ Reported := not_exists.mpr (not_reported (.inr hheading))
    have hprinted : output ≠ [] := ne_of_eq_of_ne hheading nofun
    exact ⟨.inr (.inl hheading), iff_of_false hprinted (fun h => h settings hread),
      iff_of_false hfailed.code_ne hunreported, fun h => absurd h hfailed.code_ne,
      fun _ => hfailed, hfault⟩
  · have hreported : Reported := ⟨d.number, hfull.trans (heading_report d.number)⟩
    have hprinted : output ≠ [] := ne_of_eq_of_ne hfull nofun
    exact ⟨.inr (.inr hreported), iff_of_false hprinted (fun h => h settings hread),
      iff_of_true hcode hreported, fun _ => hquiet, fun h => absurd hcode h, hfault⟩

end Program

end DeferredOpen
