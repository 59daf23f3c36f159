import DeferredOpen.Proofs.Process.Effects
import DeferredOpen.Proofs.Process.Keeping
import DeferredOpen.Proofs.Timer.Waiting

/-!
# Which descriptors a process obtains

A descriptor is obtained by an opening that succeeds, and by nothing else. From then on it is held:
nothing gives a descriptor back, so the descriptors of a process are those that it has held at first
and those that its openings have given since, and no two of them are the same. The log tells of each
one as it is obtained.
-/

namespace DeferredOpen

/-- The descriptors that some openings have given, in order. -/
def descriptorsOf (tried : List (Path × Except SystemFault Descriptor)) : List Descriptor :=
  tried.filterMap fun o => o.2.toOption

/-- What is to be told of some openings: those that have given a descriptor, with its number. -/
def numbersOf (tried : List (Path × Except SystemFault Descriptor)) : List (Path × Nat) :=
  tried.filterMap fun o => o.2.toOption.map fun d => (o.1, d.number)

@[simp] theorem descriptorsOf_append (tried more : List (Path × Except SystemFault Descriptor)) :
    descriptorsOf (tried ++ more) = descriptorsOf tried ++ descriptorsOf more :=
  List.filterMap_append

@[simp] theorem numbersOf_append (tried more : List (Path × Except SystemFault Descriptor)) :
    numbersOf (tried ++ more) = numbersOf tried ++ numbersOf more := List.filterMap_append

/-- The opening that a record tells of. -/
def Log.Record.opening? : Log.Record → Option (Path × Nat)
  | .opened path number => some (path, number)
  | _ => none

/-- The opening that an event tells of in the log. -/
def Event.told? : Event → Option (Path × Nat)
  | .logged r => r.opening?
  | _ => none

namespace Process

def told (p : Process) : List (Path × Nat) := p.records.filterMap Log.Record.opening?

theorem told_eq (p : Process) : p.told = p.history.filterMap Event.told? := by
  rw [told, records, List.filterMap_filterMap]
  congr 1
  funext e
  cases e <;> rfl

theorem openings_eq (p : Process) : p.openings = p.history.filterMap Event.opening? :=
  p.filterMap_deeds fun _ => rfl

/-- What a process has to do with descriptors. -/
def holdings (p : Process) :
    List (Path × Except SystemFault Descriptor) × List Descriptor × List (Path × Nat) :=
  (p.openings, p.held, p.told)

/-- Events that neither open anything nor tell of an opening are no matter of descriptors. -/
theorem holdings_of_quiet {p q : Process} {events : List Event} (hheld : q.held = p.held)
    (hhistory : q.history = p.history ++ events)
    (hquiet : ∀ e ∈ events, e.opening? = none ∧ e.told? = none) : q.holdings = p.holdings := by
  have hopenings : events.filterMap Event.opening? = [] :=
    List.filterMap_eq_nil_iff.mpr fun e he => (hquiet e he).1
  have htold : events.filterMap Event.told? = [] :=
    List.filterMap_eq_nil_iff.mpr fun e he => (hquiet e he).2
  rw [holdings, holdings, openings_eq, openings_eq, told_eq, told_eq, hheld, hhistory,
    List.filterMap_append, List.filterMap_append, hopenings, htold, List.append_nil,
    List.append_nil]

theorem holdings_of_same {p q : Process} (hheld : q.held = p.held)
    (hhistory : q.history = p.history) : q.holdings = p.holdings :=
  holdings_of_quiet hheld (by rw [hhistory, List.append_nil]) (by simp)

/-- Waiting is no matter of descriptors. -/
theorem holdings_waited (p : Process) (w : Timer.Wait) : (p.waited w).holdings = p.holdings := by
  refine holdings_of_quiet rfl rfl fun e he => ?_
  obtain ⟨sleep, -, rfl⟩ := List.mem_map.mp he
  exact ⟨rfl, rfl⟩

section

variable {p q : Process}

theorem openings_of_holdings (h : q.holdings = p.holdings) : q.openings = p.openings :=
  congrArg Prod.fst h

theorem held_of_holdings (h : q.holdings = p.holdings) : q.held = p.held := congrArg (·.2.1) h

theorem told_of_holdings (h : q.holdings = p.holdings) : q.told = p.told := congrArg (·.2.2) h

end

/-- A process has tried some openings and has become another one. It holds the descriptors that
these have given besides those held before, the newest first, and each is a new one. -/
structure Obtains (p : Process) (tried : List (Path × Except SystemFault Descriptor))
    (q : Process) : Prop where
  openings : q.openings = p.openings ++ tried
  held : q.held = (descriptorsOf tried).reverse ++ p.held
  distinct : (descriptorsOf tried).Nodup
  unused : ∀ d ∈ descriptorsOf tried, d ∉ p.held
  told : q.told = p.told ++ numbersOf tried

namespace Obtains

variable {p q r : Process} {tried more : List (Path × Except SystemFault Descriptor)}

theorem of_holdings (h : q.holdings = p.holdings) : p.Obtains [] q where
  openings := by rw [List.append_nil]; exact openings_of_holdings h
  held := held_of_holdings h
  distinct := List.nodup_nil
  unused := nofun
  told := by rw [numbersOf, List.filterMap_nil, List.append_nil]; exact told_of_holdings h

theorem refl (p : Process) : p.Obtains [] p := of_holdings rfl

/-- What is obtained later is not held yet, so it is none of what was obtained before. -/
theorem trans (h : p.Obtains tried q) (h' : q.Obtains more r) : p.Obtains (tried ++ more) r where
  openings := by rw [h'.openings, h.openings, List.append_assoc]
  held := by
    rw [h'.held, h.held, descriptorsOf_append, List.reverse_append, List.append_assoc]
  distinct := by
    rw [descriptorsOf_append, List.nodup_append]
    refine ⟨h.distinct, h'.distinct, ?_⟩
    rintro d hd _ hd' rfl
    have hheld : d ∉ q.held := h'.unused d hd'
    rw [h.held] at hheld
    exact hheld (List.mem_append_left _ (List.mem_reverse.mpr hd))
  unused := by
    intro d hd hp
    rw [descriptorsOf_append, List.mem_append] at hd
    rcases hd with hd | hd
    · exact h.unused d hd hp
    · have hheld : d ∉ q.held := h'.unused d hd
      rw [h.held] at hheld
      exact hheld (List.mem_append_right _ hp)
  told := by rw [h'.told, h.told, numbersOf_append, List.append_assoc]

/-- What does not matter for descriptors may come before and after. -/
theorem congr (h : p.Obtains tried q) {p' q' : Process} (hp : p.holdings = p'.holdings)
    (hq : q'.holdings = q.holdings) : p'.Obtains tried q' := by
  have h' := ((of_holdings hp).trans h).trans (of_holdings hq)
  rwa [List.nil_append, List.append_nil] at h'

/-- The openings that have been tried can be read off the process. -/
theorem tried_eq (h : p.Obtains tried q) (hmore : q.openings = p.openings ++ more) :
    tried = more :=
  List.append_cancel_left (h.openings.symm.trans hmore)

end Obtains

end Process

namespace Action

/-- A refused opening gives nothing, and there is nothing to tell. -/
theorem obtains_refused (p : Process) (path : Path) (e : SystemFault) :
    p.Obtains [(path, .error e)] (p.after (.opened path (.error e))) where
  openings := by rw [Process.openings_eq, Process.openings_eq, Process.history_after,
    List.filterMap_append]; rfl
  held := rfl
  distinct := List.nodup_nil
  unused := nofun
  told := by rw [Process.told_eq, Process.told_eq, Process.history_after, List.filterMap_append]; rfl

/-- An opening gives a descriptor that is not in use, and the log tells its number. -/
theorem obtains_opened (p : Process) (path : Path) :
    p.Obtains [(path, .ok (p.world.numbering.pick p.held))] (p.opened path) where
  openings := by
    rw [Process.openings_eq, Process.openings_eq, Process.opened, Process.history_after,
      Process.history_after, List.append_assoc, List.filterMap_append]
    rfl
  held := rfl
  distinct := List.nodup_cons.mpr ⟨List.not_mem_nil, List.nodup_nil⟩
  unused := by
    intro d hd
    obtain rfl : d = p.world.numbering.pick p.held := List.mem_singleton.mp hd
    exact p.world.numbering.pick_not_mem p.held
  told := by
    rw [Process.told_eq, Process.told_eq, Process.opened, Process.history_after,
      Process.history_after, List.append_assoc, List.filterMap_append]
    rfl

/-- An opening is tried, and either of the two comes of it. -/
theorem obtains_openFile (path : Path) (p : Process) :
    p.Obtains [(path, (p.world.opens p.now path).map fun _ => p.world.numbering.pick p.held)]
      ((openFile path).runIn p).2 := by
  cases hopens : p.world.opens p.now path with
  | error e =>
    rw [openFile_of_refused hopens]
    exact obtains_refused p path e
  | ok _ =>
    rw [openFile_of_opens hopens]
    exact obtains_opened p path

theorem write_keeps_holdings (text : String) : (write text).Keeps Process.holdings := fun _ =>
  Process.holdings_of_quiet rfl rfl (List.forall_mem_singleton.mpr ⟨rfl, rfl⟩)

theorem flush_keeps_holdings : flush.Keeps Process.holdings := fun _ =>
  Process.holdings_of_quiet rfl rfl (List.forall_mem_singleton.mpr ⟨rfl, rfl⟩)

/-- Printing is no matter of descriptors. -/
theorem print_keeps_holdings (text : String) (x : α) :
    Action.Keeps Process.holdings (do write text; flush; pure x : Action α) :=
  .bind (write_keeps_holdings text) fun _ => .bind flush_keeps_holdings fun _ => .pure x

theorem log_keeps_holdings {r : Log.Record} (hr : r.opening? = none) :
    (log r).Keeps Process.holdings := fun _ =>
  Process.holdings_of_quiet rfl rfl (List.forall_mem_singleton.mpr ⟨rfl, hr⟩)

theorem makeFlag_keeps_holdings : makeFlag.Keeps Process.holdings := fun _ =>
  Process.holdings_of_same rfl rfl

theorem settings_keeps_holdings : settings.Keeps Process.holdings := by
  refine fun _ => Process.holdings_of_quiet rfl rfl fun e he => ?_
  obtain ⟨name, -, rfl⟩ := List.mem_map.mp he
  exact ⟨rfl, rfl⟩

theorem start_keeps_holdings (c : Command) : (start c).Keeps Process.holdings := by
  intro p
  cases hmade : startable p c with
  | error fault =>
    rw [start_of_refused hmade]
    exact Process.holdings_of_quiet rfl rfl (List.forall_mem_singleton.mpr ⟨rfl, rfl⟩)
  | ok child =>
    rw [start_of_startable hmade]
    refine Process.holdings_of_quiet rfl (List.append_assoc _ _ _) ?_
    simp [Event.opening?, Event.told?, Log.Record.opening?]

end Action

theorem Timer.run_keeps_holdings (t : Timer α) : t.run.Keeps Process.holdings := by
  refine .bind (fun p => ?_) fun fired => ?_
  · simp only [await, Action.runIn]
    cases Instant.after? (p.world.clock.reading p.now) t.delay with
    | none => exact Process.holdings_of_same rfl rfl
    | some deadline => exact p.holdings_waited (waitIn t.flag p deadline)
  · cases fired with
    | true => exact .bind (Action.log_keeps_holdings rfl) fun _ => .pure _
    | false => exact .bind (Action.log_keeps_holdings rfl) fun _ => .pure _

theorem Launcher.run_keeps_holdings (l : Launcher) : l.run.Keeps Process.holdings := by
  refine .bind (Action.write_keeps_holdings _) fun _ => ?_
  refine .bind Action.flush_keeps_holdings fun _ => ?_
  refine .bind (Action.start_keeps_holdings _) fun child => ?_
  refine .bind (Action.log_keeps_holdings rfl) fun _ => ?_
  refine .bind (Action.write_keeps_holdings _) fun _ => ?_
  exact .bind Action.flush_keeps_holdings fun _ => .pure _

end DeferredOpen
