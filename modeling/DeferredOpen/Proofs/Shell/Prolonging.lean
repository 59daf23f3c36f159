import DeferredOpen.Shell.Run

/-!
# Runs with more left to go

The interpreter is given a limit, and a run that reaches it is broken off. What is run with more
left to go prolongs this: it does the same, unless the other run was broken off by its limit. One
rule for each way to put runs together hands this on from the parts to the whole. Whoever catches a
jump has to pass on the one at the limit, which is what the rule for this asks for. That one is also
the only jump that gets out of a run which catches all others.
-/

namespace DeferredOpen.Shell.Running

variable {α β γ : Type} {s t : State}

theorem bind_of_ok {a : Running β} {x : β} (h : a s = (.ok x, t)) (k : β → Running α) :
    (a >>= k) s = k x t := by
  change ExceptT.bindCont k (a s).1 (a s).2 = _
  rw [h]
  rfl

theorem bind_of_error {a : Running β} {j : Jump} (h : a s = (.error j, t)) (k : β → Running α) :
    (a >>= k) s = (.error j, t) := by
  change ExceptT.bindCont k (a s).1 (a s).2 = _
  rw [h]
  rfl

/-- What `a` comes to is what `b` comes to, unless `a` has come to its limit. -/
def Prolonged (a b : Running α) : Prop := ∀ s, (a s).1 = .error .exhausted ∨ b s = a s

namespace Prolonged

theorem refl (a : Running α) : Prolonged a a := fun _ => .inr rfl

/-- A run that has come to its limit is prolonged by any other one. -/
theorem exhausted (b : Running α) : Prolonged (jump .exhausted) b := fun _ => .inl rfl

/-- Behind a jump nothing is run. -/
theorem jumped (j : Jump) (k l : β → Running α) : Prolonged (jump j >>= k) (jump j >>= l) :=
  fun _ => .inr rfl

/-- An end that is reached within the limit is reached with more left to go. -/
theorem eq_of_ne {a b : Running α} (h : Prolonged a b) (hne : (a s).1 ≠ .error .exhausted) :
    b s = a s := (h s).resolve_left hne

theorem bind {a b : Running β} {k l : β → Running α} (h : Prolonged a b)
    (hk : ∀ x, Prolonged (k x) (l x)) : Prolonged (a >>= k) (b >>= l) := by
  intro s
  cases hrun : a s with
  | mk result t =>
    obtain hlimit | hsame := h s
    · rw [hrun] at hlimit
      rw [bind_of_error (hrun.trans (congrArg (·, t) hlimit))]
      exact .inl rfl
    · rw [hrun] at hsame
      cases result with
      | ok x =>
        rw [bind_of_ok hrun, bind_of_ok hsame]
        exact hk x t
      | error j =>
        rw [bind_of_error hrun, bind_of_error hsame]
        exact .inr rfl

/-- What comes first is the same in both. -/
theorem next {a : Running β} {k l : β → Running α} (hk : ∀ x, Prolonged (k x) (l x)) :
    Prolonged (a >>= k) (a >>= l) := (refl a).bind hk

theorem map {a b : Running β} (h : Prolonged a b) (f : β → α) :
    Prolonged (f <$> a) (f <$> b) := by
  rw [map_eq_pure_bind, map_eq_pure_bind]
  exact h.bind fun x => refl _

theorem restoring {a b : Running α} (h : Prolonged a b) (restore : State → State) :
    Prolonged (a.restoring restore) (b.restoring restore) := by
  intro s
  obtain hlimit | hsame := h s
  · exact .inl hlimit
  · right
    rw [Running.restoring, Running.restoring, hsame]

theorem apart {a b : Running Ending} (h : Prolonged a b) (start : State → State) :
    Prolonged (Running.apart start a) (Running.apart start b) := by
  intro s
  obtain hlimit | hsame := h { start s with pending := [] }
  · exact .inl hlimit
  · right
    rw [Running.apart, Running.apart, hsame]

theorem tolerant {a b : Running Nat} (h : Prolonged a b) :
    Prolonged (Running.tolerant a) (Running.tolerant b) := by
  intro s
  obtain hlimit | hsame := h s
  · cases hrun : a s with
    | mk result t =>
      rw [hrun] at hlimit
      obtain rfl : result = .error .exhausted := hlimit
      left
      rw [Running.tolerant, hrun]
  · right
    rw [Running.tolerant, Running.tolerant, hsame]

/-- What catches a jump prolongs the catching of a shorter run, if that passes on the jump at the
limit. -/
theorem caught {a b : Running Unit} {k l : Option Jump → Running α} (h : Prolonged a b)
    (hk : ∀ j, Prolonged (k j) (l j))
    (hlimit : ∀ s, (k (some .exhausted) s).1 = .error .exhausted) :
    Prolonged (a.caught >>= k) (b.caught >>= l) := by
  intro s
  cases hrun : a s with
  | mk result t =>
    have hcaught (j : Option Jump) (hj : a.caught s = (.ok j, t)) (hsame : b s = a s) :
        ((a.caught >>= k) s).1 = .error .exhausted ∨
          (b.caught >>= l) s = (a.caught >>= k) s := by
      have hj' : b.caught s = (.ok j, t) := by
        rw [← hj, Running.caught, Running.caught, hsame]
      rw [bind_of_ok hj, bind_of_ok hj']
      exact hk j t
    obtain hbroken | hsame := h s
    · left
      rw [hrun] at hbroken
      have hj : a.caught s = (.ok (some .exhausted), t) := by
        rw [Running.caught, hrun.trans (congrArg (·, t) hbroken)]
      rw [bind_of_ok hj]
      exact hlimit t
    · cases result with
      | ok _ => exact hcaught none (by rw [Running.caught, hrun]) hsame
      | error j => exact hcaught (some j) (by rw [Running.caught, hrun]) hsame

theorem forIn {f g : γ → β → Running (ForInStep β)} (h : ∀ x b, Prolonged (f x b) (g x b))
    (xs : List γ) (b : β) : Prolonged (ForIn.forIn xs b f) (ForIn.forIn xs b g) := by
  induction xs generalizing b with
  | nil => exact refl _
  | cons x xs ih =>
    rw [List.forIn_cons, List.forIn_cons]
    refine (h x b).bind fun r => ?_
    cases r with
    | done b => exact refl _
    | yield b => exact ih b

theorem mapM {f g : γ → Running β} (h : ∀ x, Prolonged (f x) (g x)) (xs : List γ) :
    Prolonged (xs.mapM f) (xs.mapM g) := by
  induction xs with
  | nil => exact refl _
  | cons x xs ih =>
    rw [List.mapM_cons, List.mapM_cons]
    exact (h x).bind fun y => ih.bind fun ys => refl _

theorem forM {f g : γ → Running PUnit} (h : ∀ x, Prolonged (f x) (g x)) (xs : List γ) :
    Prolonged (xs.forM f) (xs.forM g) := by
  induction xs with
  | nil => exact refl _
  | cons x xs ih => exact (h x).bind fun _ => ih

theorem anyM {f g : γ → Running Bool} (h : ∀ x, Prolonged (f x) (g x)) (xs : List γ) :
    Prolonged (xs.anyM f) (xs.anyM g) := by
  induction xs with
  | nil => exact refl _
  | cons x xs ih =>
    refine (h x).bind fun found => ?_
    cases found with
    | false => exact ih
    | true => exact refl _

end Prolonged

/-- No jump gets out of `a` but the one at the limit. -/
def Contained (a : Running α) : Prop := ∀ s j, (a s).1 = .error j → j = .exhausted

namespace Contained

theorem pure (x : α) : Contained (Pure.pure x) := nofun

theorem get : Contained MonadState.get := nofun

theorem set (s : State) : Contained (MonadStateOf.set s) := nofun

theorem exhausted : Contained (jump .exhausted : Running α) := by
  intro s j hj
  exact (Except.error.inj hj).symm

/-- A jump that is caught does not get out. -/
theorem caught (a : Running Unit) : Contained a.caught := by
  intro s j hj
  unfold Running.caught at hj
  split at hj <;> cases hj

theorem bind {a : Running β} {k : β → Running α} (ha : Contained a) (hk : ∀ x, Contained (k x)) :
    Contained (a >>= k) := by
  intro s j hj
  cases hrun : a s with
  | mk result t =>
    cases result with
    | ok x =>
      rw [bind_of_ok hrun] at hj
      exact hk x t j hj
    | error first =>
      rw [bind_of_error hrun] at hj
      obtain rfl := Except.error.inj hj
      exact ha s first (by rw [hrun])

theorem apart {a : Running Ending} (h : Contained a) (start : State → State) :
    Contained (Running.apart start a) := fun s => h { start s with pending := [] }

end Contained

end DeferredOpen.Shell.Running
