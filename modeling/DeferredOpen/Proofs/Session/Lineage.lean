import DeferredOpen.Session.Basic

/-!
# Where handles come from

Every timer is made once, on its own or inside of a probe, with a delay and a task, and the makings
of a session are counted. The lineage of a session says which making each of its names goes back to.
It follows from the operations alone, without any flag: a handle goes back to the making of the
timer, the probe or the handle that it was taken from, whatever has become of those since.
-/

namespace DeferredOpen

namespace Table

variable {α : Type}

/-- Something holds of everything in a table. -/
def Holds (t : Table α) (p : α → Prop) : Prop := ∀ name thing, t.get? name = some thing → p thing

namespace Holds

variable {t : Table α} {p q : α → Prop}

theorem empty : ({} : Table α).Holds p := by
  intro name thing h
  cases h

theorem erase (h : t.Holds p) (name : String) : (t.erase name).Holds p := by
  intro other thing hother
  by_cases hsame : other = name
  · rw [hsame, get?_erase_self] at hother
    cases hother
  · rw [get?_erase_ne t hsame] at hother
    exact h other thing hother

theorem insert (h : t.Holds p) (name : String) {thing : α} (hthing : p thing) :
    (t.insert name thing).Holds p := by
  intro other found hother
  by_cases hsame : other = name
  · rw [hsame, get?_insert_self] at hother
    rwa [← Option.some.inj hother]
  · rw [get?_insert_ne t thing hsame] at hother
    exact h other found hother

theorem mono (h : t.Holds p) (himp : ∀ thing, p thing → q thing) : t.Holds q :=
  fun name thing hthing => himp thing (h name thing hthing)

end Holds

end Table

namespace Session

/-- How a timer was made: how many had been made before, and what it was made for. -/
structure Making (α : Type) where
  number : Nat
  delay : Duration
  task : α

/-- How many timers have been made, and which of the makings each name goes back to. -/
structure Lineage where
  makings : Nat := 0
  timers : Table (Making Task) := {}
  /-- A probe goes back to the making of its timer until it is run. -/
  probes : Table (Option (Making Path)) := {}
  /-- Of what a handle goes back to only the number is of interest. -/
  handles : Table Nat := {}

namespace Lineage

/-- The lineage with one more handle, if there is something to take it from. -/
def handing (g : Lineage) (handle : String) : Option Nat → Lineage
  | some making => { g with handles := g.handles.insert handle making }
  | none => g

def step (g : Lineage) : Operation → Lineage
  | .makeTimer name delay task =>
    let making : Making Task := ⟨g.makings, delay, task⟩
    { g with makings := g.makings + 1, timers := g.timers.insert name making }
  | .makeProbe name source =>
    match source.settings with
    | .ok settings =>
      let making : Making Path := ⟨g.makings, settings.delay, settings.file⟩
      { g with makings := g.makings + 1, probes := g.probes.insert name (some making) }
    | .error _ => g
  | .probeOnce source _ =>
    match source.settings with
    | .ok _ => { g with makings := g.makings + 1 }
    | .error _ => g
  | .timerHandle name handle => g.handing handle ((g.timers.get? name).map Making.number)
  | .probeHandle name handle => g.handing handle ((g.probes.get? name).join.map Making.number)
  | .copyHandle name handle => g.handing handle (g.handles.get? name)
  | .runTimer name _ =>
    match g.timers.get? name with
    | some _ => { g with timers := g.timers.erase name }
    | none => g
  | .runProbe name _ _ =>
    match g.probes.get? name with
    | some _ => { g with probes := g.probes.insert name none }
    | none => g
  | .drop name =>
    { g with
      probes := g.probes.erase name
      timers := g.timers.erase name
      handles := g.handles.erase name }
  | _ => g

def after (g : Lineage) (ops : List Operation) : Lineage := ops.foldl step g

/-- The making whose timer an operation cancels: through a handle, or by what others do while the
operation runs the timer. -/
def cancels (g : Lineage) : Operation → Option Nat
  | .cancel name => g.handles.get? name
  | .runTimer name (some _) => (g.timers.get? name).map Making.number
  | .runProbe name _ (some _) => (g.probes.get? name).join.map Making.number
  | _ => none

/-- One of the operations has cancelled the timer of a making. -/
def HasCancelled (g : Lineage) (ops : List Operation) (making : Nat) : Prop :=
  ∃ before op later, ops = before ++ op :: later ∧ (g.after before).cancels op = some making

theorem after_append (g : Lineage) (ops more : List Operation) :
    g.after (ops ++ more) = (g.after ops).after more := List.foldl_append

variable {g : Lineage} {making : Nat}

theorem not_hasCancelled_nil : ¬ g.HasCancelled [] making := by
  rintro ⟨before, op, later, hops, -⟩
  exact absurd hops (by simp)

theorem hasCancelled_cons_iff {op : Operation} {ops : List Operation} :
    g.HasCancelled (op :: ops) making ↔
      g.cancels op = some making ∨ (g.step op).HasCancelled ops making := by
  constructor
  · rintro ⟨before, op', later, hops, hcancels⟩
    cases before with
    | nil =>
      obtain ⟨rfl, -⟩ := List.cons.inj hops
      exact .inl hcancels
    | cons first before =>
      obtain ⟨rfl, hrest⟩ := List.cons.inj hops
      exact .inr ⟨before, op', later, hrest, hcancels⟩
  · rintro (hcancels | ⟨before, op', later, rfl, hcancels⟩)
    · exact ⟨[], op, ops, rfl, hcancels⟩
    · exact ⟨op :: before, op', later, rfl, hcancels⟩

instance decidableHasCancelled :
    (g : Lineage) → (ops : List Operation) → Decidable (g.HasCancelled ops making)
  | _, [] => .isFalse not_hasCancelled_nil
  | g, op :: ops =>
    have := decidableHasCancelled (g.step op) ops
    decidable_of_iff _ hasCancelled_cons_iff.symm

/-- Everything in a lineage goes back to a making that has been counted. -/
structure Counted (g : Lineage) : Prop where
  timers : g.timers.Holds fun making => making.number < g.makings
  probes : g.probes.Holds fun making? => ∀ making ∈ making?, making.number < g.makings
  handles : g.handles.Holds (· < g.makings)

namespace Counted

theorem begin : Counted {} := ⟨.empty, .empty, .empty⟩

/-- One more making is counted. -/
theorem succ (h : g.Counted) : ({ g with makings := g.makings + 1 } : Lineage).Counted where
  timers := h.timers.mono fun _ hlt => Nat.lt_succ_of_lt hlt
  probes := h.probes.mono fun _ hall making hmaking => Nat.lt_succ_of_lt (hall making hmaking)
  handles := h.handles.mono fun _ hlt => Nat.lt_succ_of_lt hlt

theorem handing (h : g.Counted) (handle : String) {making? : Option Nat}
    (hmaking : ∀ making ∈ making?, making < g.makings) : (g.handing handle making?).Counted := by
  cases making? with
  | none => exact h
  | some making => exact { h with handles := h.handles.insert handle (hmaking making rfl) }

theorem step (h : g.Counted) (op : Operation) : (g.step op).Counted := by
  cases op with
  | makeTimer name delay task =>
    exact { h.succ with timers := h.succ.timers.insert name (Nat.lt_succ_self _) }
  | makeProbe name source =>
    simp only [Lineage.step]
    cases source.settings with
    | error stop => exact h
    | ok settings =>
      refine { h.succ with probes := h.succ.probes.insert name ?_ }
      intro making hmaking
      rw [← Option.mem_some.mp hmaking]
      exact Nat.lt_succ_self _
  | probeOnce source out =>
    simp only [Lineage.step]
    cases source.settings with
    | error stop => exact h
    | ok settings => exact h.succ
  | timerHandle name handle =>
    refine h.handing handle fun making hmaking => ?_
    obtain ⟨made, hmade, rfl⟩ := Option.map_eq_some_iff.mp hmaking
    exact h.timers name made hmade
  | copyHandle name handle => exact h.handing handle (h.handles name)
  | probeHandle name handle =>
    refine h.handing handle fun making hmaking => ?_
    obtain ⟨made, hmade, rfl⟩ := Option.map_eq_some_iff.mp hmaking
    exact h.probes name _ (Option.join_eq_some_iff.mp hmade) made rfl
  | runTimer name cancelAfter =>
    simp only [Lineage.step]
    cases g.timers.get? name with
    | none => exact h
    | some making => exact { h with timers := h.timers.erase name }
  | runProbe name out cancelAfter =>
    simp only [Lineage.step]
    cases g.probes.get? name with
    | none => exact h
    | some making? => exact { h with probes := h.probes.insert name nofun }
  | drop name => exact ⟨h.timers.erase name, h.probes.erase name, h.handles.erase name⟩
  | _ => exact h

theorem after (h : g.Counted) (ops : List Operation) : (g.after ops).Counted := by
  induction ops generalizing g with
  | nil => exact h
  | cons op ops ih => exact ih (h.step op)

theorem lt_of_cancels (h : g.Counted) {op : Operation} (hcancels : g.cancels op = some making) :
    making < g.makings := by
  cases op with
  | cancel name => exact h.handles name making hcancels
  | runTimer name cancelAfter =>
    cases cancelAfter with
    | none => cases hcancels
    | some delay =>
      obtain ⟨made, hmade, rfl⟩ := Option.map_eq_some_iff.mp hcancels
      exact h.timers name made hmade
  | runProbe name out cancelAfter =>
    cases cancelAfter with
    | none => cases hcancels
    | some delay =>
      obtain ⟨made, hmade, rfl⟩ := Option.map_eq_some_iff.mp hcancels
      exact h.probes name _ (Option.join_eq_some_iff.mp hmade) made rfl
  | _ => cases hcancels

end Counted

theorem makings_le_step (g : Lineage) (op : Operation) : g.makings ≤ (g.step op).makings := by
  have hhanding (handle : String) (making? : Option Nat) :
      g.makings ≤ (g.handing handle making?).makings := by
    cases making? <;> exact Nat.le_refl _
  cases op with
  | makeTimer name delay task => exact Nat.le_succ _
  | makeProbe name source => simp only [step]; split <;> simp
  | probeOnce source out => simp only [step]; split <;> simp
  | timerHandle name handle => exact hhanding _ _
  | probeHandle name handle => exact hhanding _ _
  | copyHandle name handle => exact hhanding _ _
  | runTimer name cancelAfter => simp only [step]; split <;> simp
  | runProbe name out cancelAfter => simp only [step]; split <;> simp
  | _ => exact Nat.le_refl _

theorem makings_le_after (g : Lineage) (ops : List Operation) :
    g.makings ≤ (g.after ops).makings := by
  induction ops generalizing g with
  | nil => exact Nat.le_refl _
  | cons op ops ih => exact Nat.le_trans (g.makings_le_step op) (ih (g.step op))

/-- The timer that is made next has not been cancelled, whatever has been cancelled before. -/
theorem not_hasCancelled_next (h : g.Counted) (ops : List Operation) :
    ¬ g.HasCancelled ops (g.after ops).makings := by
  rintro ⟨before, op, later, hops, hcancels⟩
  have hlt : (g.after ops).makings < (g.after before).makings :=
    (h.after before).lt_of_cancels hcancels
  have hle : (g.after before).makings ≤ (g.after ops).makings := by
    rw [hops, after_append]
    exact makings_le_after _ _
  omega

end Lineage

end Session

end DeferredOpen
