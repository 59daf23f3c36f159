import DeferredOpen.Proofs.Process.Room
import DeferredOpen.Proofs.Process.Steps

/-!
# The steps of the single effects

A step is told from the beginning of a run: a write and a flush by the sink as it was then and by
what has been written and passed on since. Each effect has one rule, for the step that passes and
the step that fails alike.
-/

namespace DeferredOpen

namespace Process

/-- A process that has written bytes, as far as there was room. -/
def wrote (p : Process) (bytes : Bytes) : Process :=
  { p with out := (p.out.write bytes).2 }.after (.wrote (p.out.fitting bytes))

/-- A process that has asked for its output to be passed on. -/
def passedOn (p : Process) : Process := { p with out := p.out.flush.2 }.after .flushed

def opened (p : Process) (path : Path) : Process :=
  let d := p.world.numbering.pick p.held
  ({ p with held := d :: p.held }.after (.opened path (.ok d))).after (.logged (.opened path d.number))

def started (p : Process) (c : Command) (child : Child) : Process :=
  ({ p with children := p.children ++ [child] }.after (.started c (.ok child))).after
    (.logged (.spawned c child.pid))

end Process

namespace Action

theorem write_of_takes {text : String} {p : Process}
    (h : p.out.takes (Utf8.encode text).length = true) :
    (write text).runIn p = (.ok (), p.wrote (Utf8.encode text)) := by
  have hrun : (write text).runIn p =
      ((p.out.write (Utf8.encode text)).1, p.wrote (Utf8.encode text)) := rfl
  rw [hrun, Sink.write_fst, h]
  rfl

theorem flush_of_fault_none {p : Process} (h : p.out.flushFaultAt? 1 = none) :
    flush.runIn p = (.ok (), p.passedOn) := by
  have hrun : flush.runIn p = (p.out.flush.1, p.passedOn) := rfl
  rw [hrun, Sink.flush_fst, h]

/-- A text that there is room for is printed, and the rest comes behind it. -/
theorem print_of_takes {text : String} {p : Process}
    (htakes : p.out.takes (Utf8.encode text).length = true) (hpasses : p.out.flushFaultAt? 1 = none)
    (rest : Action α) :
    (do write text; flush; rest : Action α).runIn p =
      rest.runIn (p.wrote (Utf8.encode text)).passedOn := by
  have hflush : flush.runIn (p.wrote (Utf8.encode text)) =
      (.ok (), (p.wrote (Utf8.encode text)).passedOn) := flush_of_fault_none hpasses
  rw [runIn_bind_ok (write_of_takes htakes), runIn_bind_ok hflush]

theorem openFile_of_opens {path : Path} {p : Process}
    (h : p.world.opens p.now path = .ok ()) :
    (openFile path).runIn p = (.ok (p.world.numbering.pick p.held), p.opened path) := by
  simp only [openFile, runIn, h]
  rfl

theorem openFile_of_refused {path : Path} {p : Process} {e : SystemFault}
    (h : p.world.opens p.now path = .error e) :
    (openFile path).runIn p =
      (.error (.failed ((Fault.ofSystem e).context ("Unable to open '" ++ path.shown ++ "'"))),
        p.after (.opened path (.error e))) := by
  simp only [openFile, runIn, h]

theorem thisProgram_of_found {p : Process} {app : Path} (h : p.world.executable = .ok app) :
    thisProgram.runIn p = (.ok ⟨app, []⟩, p) := by
  simp only [thisProgram, runIn, h]

theorem thisProgram_of_lost {p : Process} {e : SystemFault}
    (h : p.world.executable = .error e) :
    thisProgram.runIn p =
      (.error (.failed ((Fault.ofSystem e).context "Unable to locate current executable")), p) := by
  simp only [thisProgram, runIn, h]

/-- What the system makes of a command is up to the world and the children there are. -/
theorem startable_congr {p q : Process} (c : Command) (hworld : q.world = p.world)
    (hchildren : q.children = p.children) : startable q c = startable p c := by
  rw [startable, startable, hworld, hchildren]

/-- A command without a NUL is started as what the system finds for it. -/
theorem startable_eq_ok_iff {p : Process} {c : Command} {child : Child} :
    startable p c = .ok child ↔
      c.holdsNul = false ∧ ∃ image, p.world.find p.world.files c = .ok image ∧
        child = ⟨p.children.length + 1, image, c⟩ := by
  unfold startable
  cases c.holdsNul with
  | true => simp
  | false => cases p.world.find p.world.files c <;> simp [eq_comm]

theorem start_of_startable {p : Process} {c : Command} {child : Child}
    (h : startable p c = .ok child) : (start c).runIn p = (.ok child, p.started c child) := by
  simp only [start, runIn, h]
  rfl

theorem start_of_refused {p : Process} {c : Command} {fault : Fault}
    (h : startable p c = .error fault) :
    (start c).runIn p =
      (.error (.failed (fault.context ("Unable to spawn '" ++ c.app.shown ++ "'"))),
        p.after (.started c (.error fault))) := by
  simp only [start, runIn, h]

end Action

namespace Step

variable {α : Type}

def writing (base : Sink) (before bytes : Bytes) (now : Nat) : Step α where
  deeds := [.wrote ((base.fitting (before ++ bytes)).drop before.length)]
  ended := now
  ending :=
    if base.takes (before.length + bytes.length) then none
    else some (.error (.failed base.refusalFault))

/-- Passing on for the `k`-th time. -/
def passing (base : Sink) (k now : Nat) : Step α where
  deeds := [.flushed]
  ended := now
  ending := (base.flushFaultAt? k).map fun fault => .error (.failed fault)

/-- Opening a file that would have the descriptor `d`. -/
def opening (w : World) (path : Path) (d : Descriptor) (now : Nat) : Step α where
  deeds := [.opened path ((w.opens now path).map fun _ => d)]
  ended := now
  ending :=
    match w.opens now path with
    | .ok () => none
    | .error e =>
      some (.error (.failed ((Fault.ofSystem e).context ("Unable to open '" ++ path.shown ++ "'"))))

/-- An opening hands over to the rest when the file is opened. -/
theorem trace_opening (w : World) (path : Path) (d : Descriptor) (now : Nat)
    (rest : List (Step α)) :
    trace (opening w path d now :: rest) =
      .opened path ((w.opens now path).map fun _ => d) ::
        match w.opens now path with
        | .ok () => trace rest
        | .error _ => [] := by
  rw [trace_cons]
  cases hopens : w.opens now path <;> simp [opening, hopens]

def starting (c : Command) (made : Except Fault Child) (now : Nat) : Step α where
  deeds := [.started c made]
  ended := now
  ending :=
    match made with
    | .ok _ => none
    | .error fault =>
      some (.error (.failed (fault.context ("Unable to spawn '" ++ c.app.shown ++ "'"))))

end Step

namespace Follows

variable {α : Type} {q : Process} {steps : List (Step α)} {last : Except Stop α}
  {base : Sink} {done : Bytes} {flushed : Nat}

theorem write {text : String} {k : Unit → Action α} (hpast : base.Past done flushed q.out)
    (hrest : base.Past (done ++ Utf8.encode text) flushed (q.wrote (Utf8.encode text)).out →
      Follows (k ()) (q.wrote (Utf8.encode text)) steps last) :
    Follows (Action.write text >>= k) q
      (Step.writing base done (Utf8.encode text) q.now :: steps) last := by
  have hrun : (Action.write text).runIn q =
      ((q.out.write (Utf8.encode text)).1, q.wrote (Utf8.encode text)) := rfl
  rw [Sink.write_fst] at hrun
  -- The rest of what fits into the whole sink is what fits into what is left of it.
  have hleft : (base.fitting (done ++ Utf8.encode text)).drop done.length =
      q.out.fitting (Utf8.encode text) := by
    rw [hpast.fitting, List.drop_left]
  have hleads : q.Leads (q.wrote (Utf8.encode text)) [.wrote (q.out.fitting (Utf8.encode text))]
      q.now :=
    .after rfl rfl rfl rfl (List.append_nil _).symm
  rw [← hleft] at hleads
  cases htakes : q.out.takes (Utf8.encode text).length with
  | true =>
    rw [htakes, if_pos rfl] at hrun
    refine pass hrun ?_ hleads (hrest (hpast.write htakes))
    rw [hpast.takes] at htakes
    simp [Step.writing, htakes]
  | false =>
    rw [htakes, if_neg Bool.false_ne_true, Sink.refuse_eq hpast.givesUp,
      hpast.refusalFault] at hrun
    refine stop (Action.runIn_bind_error hrun) ?_ hleads
    rw [hpast.takes] at htakes
    simp [Step.writing, htakes]

theorem flush {k : Unit → Action α} (hpast : base.Past done flushed q.out)
    (hrest : base.Past done (flushed + 1) q.passedOn.out →
      Follows (k ()) q.passedOn steps last) :
    Follows (Action.flush >>= k) q (Step.passing base (flushed + 1) q.now :: steps) last := by
  have hrun : Action.flush.runIn q = (q.out.flush.1, q.passedOn) := rfl
  rw [Sink.flush_fst, hpast.flushFaultAt?] at hrun
  have hleads : q.Leads q.passedOn [.flushed] q.now :=
    .after rfl rfl rfl (by simp [Event.written]) (List.append_nil _).symm
  cases hfault : base.flushFaultAt? (flushed + 1) with
  | none =>
    rw [hfault] at hrun
    refine pass hrun ?_ hleads (hrest hpast.flush)
    simp [Step.passing, hfault]
  | some fault =>
    rw [hfault] at hrun
    refine stop (Action.runIn_bind_error hrun) ?_ hleads
    simp [Step.passing, hfault]

theorem openFile {path : Path} {k : Descriptor → Action α}
    (hrest : q.world.opens q.now path = .ok () →
      Follows (k (q.world.numbering.pick q.held)) (q.opened path) steps last) :
    Follows (Action.openFile path >>= k) q
      (Step.opening q.world path (q.world.numbering.pick q.held) q.now :: steps) last := by
  cases hopens : q.world.opens q.now path with
  | ok _ =>
    let d := q.world.numbering.pick q.held
    have hrun := Action.openFile_of_opens hopens
    have hopened : q.Leads ({ q with held := d :: q.held }.after (.opened path (.ok d)))
        [.opened path (.ok d)] q.now :=
      .after rfl rfl rfl (List.append_nil _).symm (List.append_nil _).symm
    have hleads := hopened.trans (.logged _ (.opened path d.number))
    refine pass hrun ?_ ?_ (hrest hopens)
    · simp [Step.opening, hopens]
    · simp only [Step.opening, hopens]
      exact hleads
  | error e =>
    have hrun := Action.openFile_of_refused hopens
    have hleads : q.Leads (q.after (.opened path (.error e))) [.opened path (.error e)] q.now :=
      .after rfl rfl rfl (List.append_nil _).symm (List.append_nil _).symm
    refine stop (Action.runIn_bind_error hrun) ?_ ?_
    · simp [Step.opening, hopens]
    · simp only [Step.opening, hopens]
      exact hleads

theorem start {c : Command} {made : Except Fault Child} {k : Child → Action α}
    (hmade : Action.startable q c = made)
    (hrest : ∀ child, made = .ok child → Follows (k child) (q.started c child) steps last) :
    Follows (Action.start c >>= k) q (Step.starting c made q.now :: steps) last := by
  cases made with
  | ok child =>
    have hrun := Action.start_of_startable hmade
    have hstarted : q.Leads ({ q with children := q.children ++ [child] }.after
        (.started c (.ok child))) [.started c (.ok child)] q.now :=
      .after rfl rfl rfl (List.append_nil _).symm rfl
    have hleads := hstarted.trans (.logged _ (.spawned c child.pid))
    exact pass hrun rfl hleads (hrest child rfl)
  | error fault =>
    have hrun := Action.start_of_refused hmade
    have hleads : q.Leads (q.after (.started c (.error fault))) [.started c (.error fault)] q.now :=
      .after rfl rfl rfl (List.append_nil _).symm (List.append_nil _).symm
    exact stop (Action.runIn_bind_error hrun) rfl hleads

end Follows

end DeferredOpen
