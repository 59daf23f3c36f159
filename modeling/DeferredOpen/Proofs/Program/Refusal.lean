import DeferredOpen.Proofs.Probe.Moment
import DeferredOpen.Proofs.Probe.Reporting
import DeferredOpen.Proofs.Program.ProbeRole

/-!
# A refused opening

The system refuses to open a file and gives a number. The fault that comes of it says which file it
was, with the system's text and the number behind, and has the kind of the number. It is the same
fault whether the file was opened by itself, by a probe or by the program, and no descriptor is
obtained on the way. A number that the system gives no meaning is lost: the fault tells of the
number 0.
-/

namespace DeferredOpen

namespace SystemFault

/-- Only numbers with a meaning have a kind of their own. -/
theorem kind_of_unknown {e : SystemFault} (h : e.isKnown = false) : e.kind = .uncategorized := by
  obtain ⟨number⟩ := e
  cases number with
  | negSucc n => rfl
  | ofNat n =>
    have hsmall : ∀ n < texts.length, isKnown ⟨.ofNat n⟩ = false →
        kind ⟨.ofNat n⟩ = .uncategorized := by decide +kernel
    by_cases hn : n < texts.length
    · exact hsmall n hn h
    · have hlarge : 134 ≤ n := Nat.not_lt.mp hn
      unfold kind
      split <;> first | rfl | (rename_i heq; simp only [Int.ofNat_eq_natCast] at heq; omega)

/-- A number that is replaced by 0 keeps its kind. -/
theorem kind_normalize (e : SystemFault) : e.normalize.kind = e.kind := by
  unfold normalize
  cases h : e.isKnown with
  | true => rfl
  | false => exact (kind_of_unknown h).symm

end SystemFault

/-- The opening of a path fails at an instant with a number: a path with a NUL is invalid, and all
others are up to the system. -/
def World.Refuses (w : World) (now : Nat) (path : Path) (e : SystemFault) : Prop :=
  (path.holdsNul = true ∧ e = .invalidArgument) ∨
    (path.holdsNul = false ∧ w.access now w.files path = .error e)

theorem World.Refuses.opens {w : World} {now : Nat} {path : Path} {e : SystemFault}
    (h : w.Refuses now path e) : w.opens now path = .error e.normalize := by
  rcases h with ⟨hnul, rfl⟩ | ⟨hnul, haccess⟩
  · rw [World.opens, if_pos hnul]
    rfl
  · rw [World.opens, if_neg (by simp [hnul]), haccess]
    rfl

/-- What is told of a path that cannot be opened, and of a number. -/
def refusalText (path : Path) (e : SystemFault) : String :=
  "Unable to open '" ++ path.shown ++ "': " ++ e.description ++ " (os error " ++
    toString e.number ++ ")"

theorem text_refused (path : Path) (e : SystemFault) :
    ((Fault.ofSystem e).context ("Unable to open '" ++ path.shown ++ "'")).text =
      refusalText path e := by
  have hquote : "'" ++ ": " = "': " := by decide
  have htext : (Fault.ofSystem e).text =
      e.description ++ " (os error " ++ toString e.number ++ ")" := rfl
  rw [Fault.text_context, htext]
  calc "Unable to open '" ++ path.shown ++ "'" ++ ": " ++
        (e.description ++ " (os error " ++ toString e.number ++ ")")
    _ = "Unable to open '" ++ path.shown ++ ("'" ++ ": ") ++ e.description ++ " (os error " ++
        toString e.number ++ ")" := by simp only [String.append_assoc]
    _ = refusalText path e :=
      congrArg (fun quote => "Unable to open '" ++ path.shown ++ quote ++ e.description ++
        " (os error " ++ toString e.number ++ ")") hquote

/-- A run has failed because a path cannot be opened, and has obtained nothing. -/
structure RefusedFor (path : Path) (e : SystemFault) (p : Process)
    (ran : Except Stop α × Process) : Prop where
  fault : ∃ fault, ran.1 = .error (.failed fault) ∧ fault.kind? = some e.kind ∧
    fault.text = refusalText path (if e.isKnown then e else ⟨0⟩)
  held : ran.2.held = p.held
  told : ran.2.told = p.told

namespace RefusedFor

variable {path : Path} {e : SystemFault} {p q : Process} {ran : Except Stop α × Process}

theorem of_obtains
    (hresult : ran.1 = .error (.failed ((Fault.ofSystem e.normalize).context
      ("Unable to open '" ++ path.shown ++ "'"))))
    (hobtains : p.Obtains [(path, .error e.normalize)] ran.2) : RefusedFor path e p ran where
  fault := by
    refine ⟨_, hresult, ?_, text_refused path e.normalize⟩
    rw [Fault.kind?_context]
    exact congrArg some e.kind_normalize
  held := hobtains.held
  told := by rw [hobtains.told]; exact List.append_nil _

/-- What came before is no matter, if it was no matter of descriptors. -/
theorem of_holdings (h : RefusedFor path e q ran) (hholdings : q.holdings = p.holdings) :
    RefusedFor path e p ran where
  fault := h.fault
  held := h.held.trans (Process.held_of_holdings hholdings)
  told := h.told.trans (Process.told_of_holdings hholdings)

theorem map (h : RefusedFor path e p ran) (f : α → β) :
    RefusedFor path e p (ran.1.map f, ran.2) where
  fault := by
    obtain ⟨fault, hresult, hsaid⟩ := h.fault
    exact ⟨fault, by rw [hresult]; rfl, hsaid⟩
  held := h.held
  told := h.told

end RefusedFor

variable {path : Path} {e : SystemFault}

theorem Action.openFile_refusedFor {p : Process} (h : p.world.Refuses p.now path e) :
    RefusedFor path e p ((openFile path).runIn p) := by
  rw [openFile_of_refused h.opens]
  exact .of_obtains rfl (obtains_refused p path e.normalize)

namespace Probe

variable {q : Process} {t : Nat}

/-- A probe whose file cannot be opened when its timer fires has the fault of the opening. The
output has to take the announcement only. -/
theorem run_refusedFor {probe : Probe} {timer : Timer Path} (htimer : probe.timer = some timer)
    (hannounced : Announced q) (hfires : Timer.FiresAt timer.flag timer.delay q t)
    (h : q.world.Refuses t timer.task e) : RefusedFor timer.task e q (probe.run.runIn q) := by
  obtain ⟨deadline, hdeadline, hfired, rfl⟩ := hfires
  obtain ⟨hopenings, -, -⟩ := run_of_fired htimer hannounced hdeadline hfired
  rw [h.opens] at hopenings
  obtain ⟨tried, hobtains, hreports⟩ := probe.run_reports q
  obtain rfl := hobtains.tried_eq hopenings
  -- Of all that a run comes to only the refusal goes with this opening.
  generalize hresult : (probe.run.runIn q).1 = result at hreports
  generalize (probe.run.runIn q).2.out.accepted = after at hreports
  cases hreports with
  | refused => exact .of_obtains hresult hobtains

theorem runWith_refusedFor {delay : Duration} (hannounced : Announced q)
    (hfires : Timer.FiresAt q.flags.next delay q t) (h : q.world.Refuses t path e) :
    RefusedFor path e q ((runWith ⟨delay, path⟩).runIn q) := by
  let settings : Settings := ⟨delay, path⟩
  have htimer : (fresh settings q.flags.next).timer = some ⟨delay, q.flags.next, path⟩ := rfl
  have hrun : RefusedFor path e (made settings q) ((runWith settings).runIn q) :=
    run_refusedFor htimer hannounced hfires h
  exact hrun.of_holdings (holdings_made settings q)

end Probe

namespace Program

/-- A process that ends with a refused opening tells of it on its error stream. -/
theorem finish_refusedFor {p : Process} {ran : Except Stop α × Process}
    (h : RefusedFor path e p ran) :
    (finish ran).code = some 1 ∧
      (finish ran).complaint =
        .fault ("error: " ++ refusalText path (if e.isKnown then e else ⟨0⟩) ++ "\n") ∧
      (finish ran).process.held = p.held ∧ (finish ran).process.told = p.told := by
  obtain ⟨fault, hresult, -, htext⟩ := h.fault
  obtain ⟨result, q⟩ := ran
  obtain rfl : result = .error (.failed fault) := hresult
  refine ⟨rfl, ?_, h.held, ?_⟩
  · rw [← htext]
    rfl
  · have hlogged : (q.after (.logged (.failed fault.stack))).holdings = q.holdings :=
      Action.log_keeps_holdings rfl q
    exact (Process.told_of_holdings hlogged).trans h.told

theorem main_of_refused {p : Process} {delay : Duration} {t : Nat} (name : String)
    (rest : List Bytes) (hread : (Settings.read p.world.answer).result = .ok ⟨delay, path⟩)
    (hannounced : Probe.Announced p) (hfires : Timer.FiresAt p.flags.next delay p t)
    (h : p.world.Refuses t path e) :
    let ended := main (Utf8.encode name :: Utf8.encode "child" :: rest) p
    ended.code = some 1 ∧
      ended.complaint =
        .fault ("error: " ++ refusalText path (if e.isKnown then e else ⟨0⟩) ++ "\n") ∧
      ended.process.held = p.held ∧ ended.process.told = p.told := by
  have hrun : RefusedFor path e (playing p) ((Probe.runWith ⟨delay, path⟩).runIn (playing p)) :=
    Probe.runWith_refusedFor hannounced hfires h
  rw [main_of_sentinel, run_of_settings rfl p hread, Action.runIn_map]
  exact finish_refusedFor ((hrun.of_holdings (holdings_playing p)).map Outcome.probed)

end Program

/-- Whatever the path is and whatever number its opening fails with: an opening by itself, a probe
and the program all fail with one and the same fault, where the announcement can be printed and the
timer fires at an instant at which the opening fails. The fault has the kind of the number, and it
says the path, the system's text and the number once; a number without a meaning is told as 0. The
descriptors that are held stay the same, and the log tells of no opening. The program tells the
fault on its error stream and exits with 1. -/
theorem refusal_is_told_alike (path : Path) (e : SystemFault) :
    (∀ p : Process, p.world.Refuses p.now path e →
      RefusedFor path e p ((Action.openFile path).runIn p)) ∧
    (∀ (delay : Duration) (flag : Flag) (file : Path) (q : Process) (t : Nat), Probe.Announced q →
      Timer.FiresAt flag delay q t → q.world.Refuses t path e →
      RefusedFor path e q ((Probe.run ⟨file, some ⟨delay, flag, path⟩⟩).runIn q)) ∧
    (∀ (delay : Duration) (q : Process) (t : Nat), Probe.Announced q →
      Timer.FiresAt q.flags.next delay q t → q.world.Refuses t path e →
      RefusedFor path e q ((Probe.runWith ⟨delay, path⟩).runIn q)) ∧
    ∀ (name : String) (rest : List Bytes) (delay : Duration) (p : Process) (t : Nat),
      (Settings.read p.world.answer).result = .ok ⟨delay, path⟩ → Probe.Announced p →
      Timer.FiresAt p.flags.next delay p t → p.world.Refuses t path e →
      let ended := Program.main (Utf8.encode name :: Utf8.encode "child" :: rest) p
      ended.code = some 1 ∧
        ended.complaint =
          .fault ("error: " ++ refusalText path (if e.isKnown then e else ⟨0⟩) ++ "\n") ∧
        ended.process.held = p.held ∧ ended.process.told = p.told := by
  refine ⟨fun p h => Action.openFile_refusedFor h, ?_, ?_, ?_⟩
  · intro delay flag file q t hannounced hfires h
    let probe : Probe := ⟨file, some ⟨delay, flag, path⟩⟩
    have htimer : probe.timer = some ⟨delay, flag, path⟩ := rfl
    exact Probe.run_refusedFor htimer hannounced hfires h
  · intro delay q t hannounced hfires h
    exact Probe.runWith_refusedFor hannounced hfires h
  · intro name rest delay p t hread hannounced hfires h
    exact Program.main_of_refused name rest hread hannounced hfires h

/-- A file that may not be read is refused alike, and the clock is exact. -/
theorem refusal_is_told_alike_of_denied :
    let w : World := { World.installed {} [] with access := fun _ _ _ => .error .denied }
    let p : Process := { world := w }
    let ended := Program.main [Utf8.encode "fp", Utf8.encode "child"] p
    RefusedFor (.ofString "x") .denied p ((Action.openFile (.ofString "x")).runIn p) ∧
      ended.code = some 1 ∧
      ended.complaint =
        .fault "error: Unable to open 'x': Permission denied (os error 13)\n" := by
  intro w p ended
  have hrefuses (t : Nat) : p.world.Refuses t (.ofString "x") .denied := .inr ⟨by decide, rfl⟩
  have hdeadline : Instant.after? (p.world.clock.reading p.now) (.ofMilliseconds 200) =
      some 200000000 := by decide +kernel
  have hfires : Timer.FiresAt p.flags.next (.ofMilliseconds 200) p _ :=
    ⟨200000000, hdeadline, Timer.fired_of_not_raised rfl rfl, rfl⟩
  obtain ⟨hopen, -, -, hmain⟩ := refusal_is_told_alike (.ofString "x") .denied
  obtain ⟨hcode, hcomplaint, -, -⟩ :=
    hmain "fp" [] (.ofMilliseconds 200) p _ rfl ⟨by decide, rfl⟩ hfires (hrefuses _)
  refine ⟨hopen p (hrefuses _), hcode, hcomplaint.trans ?_⟩
  decide +kernel

/-- A number without a meaning is not passed on: the fault tells of the number 0 instead. -/
theorem unknown_number_is_lost :
    let w : World := { World.installed {} [] with access := fun _ _ _ => .error ⟨41⟩ }
    let p : Process := { world := w }
    p.world.Refuses p.now (.ofString "x") ⟨41⟩ ∧
    ∃ fault, ((Action.openFile (.ofString "x")).runIn p).1 = .error (.failed fault) ∧
      fault.text = "Unable to open 'x': Success (os error 0)" ∧
      refusalText (.ofString "x") ⟨41⟩ = "Unable to open 'x': Unknown error 41 (os error 41)" ∧
      fault.text ≠ refusalText (.ofString "x") ⟨41⟩ := by
  intro w p
  have hrefuses : p.world.Refuses p.now (.ofString "x") ⟨41⟩ := .inr ⟨by decide, rfl⟩
  obtain ⟨fault, hresult, -, htext⟩ := (Action.openFile_refusedFor hrefuses).fault
  have hlost : refusalText (.ofString "x") (if SystemFault.isKnown ⟨41⟩ then ⟨41⟩ else ⟨0⟩) =
      "Unable to open 'x': Success (os error 0)" := by decide +kernel
  have hclaimed : refusalText (.ofString "x") ⟨41⟩ =
      "Unable to open 'x': Unknown error 41 (os error 41)" := by decide +kernel
  refine ⟨hrefuses, fault, hresult, htext.trans hlost, hclaimed, ?_⟩
  rw [htext, hlost, hclaimed]
  decide

end DeferredOpen
