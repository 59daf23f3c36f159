import DeferredOpen.Proofs.Delay.Accuracy
import DeferredOpen.Proofs.Probe.Unhindered

/-!
# Texts that ask for whole microseconds

The fraction of a microsecond is cut off, not rounded, so a text that asks for whole microseconds
loses one of them where its product has come out a little too small. It never loses more while it
asks for 2^50 microseconds at most, which are some 35 years, and it loses nothing where its literal
is a binary fraction and its suffix has no degree. A probe opens its file by as much too early.
-/

namespace DeferredOpen.Delay

open Binary64 (one Held IsNearest Near nearest roundoff)

variable {cs number : List Char} {l : Literal} {s : Suffix} {d : Duration} {k m : Nat}

/-- What whole microseconds have come to: not much more or less of them, and up to 2^50 either all
of them or one less. -/
structure NearlyWhole (k n : Nat) : Prop where
  le_add : n ≤ k + 5
  add_le : k ≤ n + 5
  less_one : k ≤ 2 ^ 50 → n = k ∨ n + 1 = k

theorem nearlyWhole_of_near (h : Near 5 (1 / 2 ^ 100) (k : ℚ) (m / one : ℚ)) (hk : k < 2 ^ 53) :
    NearlyWhole k (m / one) := by
  obtain ⟨hfloor, hceil⟩ := div_one_bounds m
  have hlower := h.lower
  have hupper := h.upper
  rw [roundoff] at hlower hupper
  generalize m / one = n at *
  have hmost : (k : ℚ) + 1 ≤ 2 ^ 53 := by exact_mod_cast hk
  refine ⟨?_, ?_, ?_⟩
  · have hlt : (n : ℚ) < k + 6 := by linarith
    have hnat : n < k + 6 := by exact_mod_cast hlt
    omega
  · have hlt : (k : ℚ) < n + 6 := by linarith
    have hnat : k < n + 6 := by exact_mod_cast hlt
    omega
  · intro hsmall
    have hfew : (k : ℚ) ≤ 2 ^ 50 := by exact_mod_cast hsmall
    have hbelow : (n : ℚ) < k + 1 := by linarith
    have habove : (k : ℚ) < n + 2 := by linarith
    have hbelow' : n < k + 1 := by exact_mod_cast hbelow
    have habove' : k < n + 2 := by exact_mod_cast habove
    omega

theorem exists_nearlyWhole (h : read cs = .accepted d) (hk : Asks cs k) (hlt : k < 2 ^ 53) :
    ∃ n, d = .ofMicroseconds n ∧ NearlyWhole k n := by
  obtain ⟨m, hnear, hd⟩ := exists_near_of_accepted h hk (Nat.cast_nonneg k)
  have hwhole := nearlyWhole_of_near hnear hlt
  have hroom : m / one ≤ 2 ^ 64 - 1 := hwhole.le_add.trans (by omega)
  rw [Nat.min_eq_left hroom] at hd
  exact ⟨m / one, hd, hwhole⟩

/-! Where nothing is lost. -/

/-- A suffix without a degree: nothing, or a unit by itself. -/
def Suffix.IsPlain (s : Suffix) : Prop := s = .bare ∨ ∃ u h, s = .unit u h

theorem Suffix.IsPlain.exists_seconds (h : s.IsPlain) :
    ∃ t : Nat, s.seconds = t ∧ s.Counts (t * one) := by
  obtain rfl | ⟨u, hu, rfl⟩ := h
  · exact ⟨1, Nat.cast_one.symm, counts_bare⟩
  · exact ⟨u.seconds, rfl, counts_unit u hu⟩

/-- Both products are exact where the factors are whole: each of them divides the whole number in
the end, which 53 bits hold. -/
theorem millionfold_of_whole {v t : Nat} (h : v * t * 1000000 = k * one) (hk : k < 2 ^ 53)
    (ht : t ≠ 0) : millionfold v (t * one) = k * one ∧ Held v := by
  have hheld : Held (k * one) := Binary64.held_mul_one hk
  obtain rfl | hpos := Nat.eq_zero_or_pos k
  · have hzero : v = 0 := by
      rw [Nat.zero_mul] at h
      simpa [ht] using h
    rw [hzero, millionfold_zero, Nat.zero_mul]
    exact ⟨rfl, 0, 0, by decide, rfl⟩
  have hne : k * one ≠ 0 := (Nat.mul_pos hpos Binary64.one_pos).ne'
  have hproduct : Held (v * t) := hheld.of_dvd hne ⟨1000000, h.symm⟩
  have hfirst : nearest (v * (t * one)) one = v * t := by
    rw [← Nat.mul_assoc]
    exact Binary64.nearest_mul_of_held hproduct Binary64.one_pos
  have hsecond : nearest (v * t * (1000000 * one)) one = k * one := by
    rw [← Nat.mul_assoc, h]
    exact Binary64.nearest_mul_of_held hheld Binary64.one_pos
  constructor
  · rw [millionfold, hfirst, hsecond]
  · refine hheld.of_dvd hne ⟨t * 1000000, ?_⟩
    rw [← Nat.mul_assoc, h]

/-- A binary fraction with a plain suffix loses nothing. -/
theorem Parts.eq_of_whole {v : Nat} (h : Parts cs number l s) (hread : read cs = .accepted d)
    (hk : Asks cs k) (hlt : k < 2 ^ 53) (hplain : s.IsPlain) (hv : l.magnitude * one = v) :
    d = .ofMicroseconds k := by
  obtain ⟨t, hseconds, hcounts⟩ := hplain.exists_seconds
  obtain ⟨u, hu, -, -, rfl⟩ := h.exists_units hcounts hread
  have hasked : (k : ℚ) = l.number * s.seconds * 10 ^ 6 := hk.unique ⟨number, l, s, h, rfl⟩
  have hnonneg : 0 ≤ l.number := number_nonneg_of_asked (hasked ▸ Nat.cast_nonneg k)
  rw [Literal.number_eq_magnitude hnonneg, hseconds] at hasked
  have hunits : v * t * 1000000 = k * one := by
    have hcast : (v : ℚ) * t * 1000000 = k * one := by
      rw [hasked, ← hv]
      ring
    exact_mod_cast hcast
  have hroom : k ≤ 2 ^ 64 - 1 := by omega
  have hcount : millionfold u (t * one) = k * one := by
    have ht : t ≠ 0 := by
      rintro rfl
      exact absurd (hseconds ▸ s.seconds_pos) (by simp)
    obtain ⟨hwhole, hheld⟩ := millionfold_of_whole hunits hlt ht
    rw [hv] at hu
    rw [hu.unique hheld.isNearest, hwhole]
  rw [hcount, Nat.mul_div_cancel k Binary64.one_pos, Nat.min_eq_left hroom]

/-- What is asked for with digits alone before a suffix. -/
theorem asks_of_digits (ds : List Char) (s : Suffix) {n : Nat} {x : ℚ}
    (htext : cs = ds ++ s.letters) (h : Literal.IsDigits ds) (hne : ds ≠ [])
    (hn : Literal.digitsValue ds = n) (hx : x = n * s.seconds * 10 ^ 6) : Asks cs x := by
  have hspells : (Literal.mk false ds [] 0).Spells ds := by
    have hparts := Literal.Spells.parts (l := ⟨false, ds, [], 0⟩) .bare (.plain h hne rfl) .bare
    rwa [List.nil_append, List.append_nil] at hparts
  have hlast : ds.getLast? = some (ds.getLast hne) := List.getLast?_eq_some_getLast hne
  refine ⟨ds, ⟨false, ds, [], 0⟩, s, ⟨htext, hspells, _, hlast, h _ (List.getLast_mem hne)⟩, ?_⟩
  rw [hx, Literal.number_of_not_negative rfl, Literal.magnitude, Literal.coefficient,
    List.append_nil, hn]
  simp [Literal.scale]

/-- A text that asks for whole microseconds may lose one of them, and so may differ by one from
another text that asks for the same; a probe with this delay opens its file by as much too early. Up
to 2^50 microseconds no more than one is lost, beyond them five at most, and none where the literal
is a binary fraction and the suffix has no degree. -/
theorem whole_microseconds_lose_at_most_one {cs : List Char} {d : Duration} {k : Nat}
    (h : read cs = .accepted d) (hk : Asks cs k) (hlt : k < 2 ^ 53) :
    ∃ n, d = .ofMicroseconds n ∧ NearlyWhole k n ∧
      (∀ number l s (v : Nat), Parts cs number l s → s.IsPlain → l.magnitude * one = v → n = k) ∧
      (∀ cs' d', read cs' = .accepted d' → Asks cs' k → k ≤ 2 ^ 50 →
        d'.nanos ≤ d.nanos + Duration.perMicrosecond ∧
          d.nanos ≤ d'.nanos + Duration.perMicrosecond) ∧
      ∀ file flag q deadline, q.out.GivesUp →
        Instant.after? (q.world.clock.reading q.now) d = some deadline →
        let w := Timer.waitIn flag q deadline
        ((Probe.fresh ⟨d, file⟩ flag).run.runIn q).2.openings =
            q.openings ++ Probe.tried ⟨d, file⟩ q w ∧
          (w.fired = true → q.now + k * Duration.perMicrosecond ≤
            w.ended + (if k ≤ 2 ^ 50 then 1 else 5) * Duration.perMicrosecond) := by
  obtain ⟨n, rfl, hwhole⟩ := exists_nearlyWhole h hk hlt
  have hlost : k ≤ n + if k ≤ 2 ^ 50 then 1 else 5 := by
    split
    · next hfew => have hless := hwhole.less_one hfew; omega
    · exact hwhole.add_le
  refine ⟨n, rfl, hwhole, ?_, ?_, ?_⟩
  · intro number l s v hparts hplain hv
    have hsame := hparts.eq_of_whole h hk hlt hplain hv
    simpa [Duration.ofMicroseconds, Duration.perMicrosecond] using hsame
  · intro cs' d' h' hk' hfew
    obtain ⟨n', rfl, hwhole'⟩ := exists_nearlyWhole h' hk' hlt
    have hless := hwhole.less_one hfew
    have hless' := hwhole'.less_one hfew
    simp only [Duration.ofMicroseconds, Duration.perMicrosecond]
    omega
  · intro file flag q deadline hgives hdeadline
    dsimp only
    have hrun := Probe.run_follows ⟨.ofMicroseconds n, file⟩ q flag hgives hdeadline
    refine ⟨?_, ?_⟩
    · rw [hrun.leads.openings, Probe.openings_course]
    · intro hfired
      have hdelay := Timer.add_delay_le_ended hdeadline hfired
      have hmicros := Nat.mul_le_mul_right Duration.perMicrosecond hlost
      rw [Nat.add_mul] at hmicros
      simp only [Duration.ofMicroseconds] at hdelay
      omega

/-- A text that loses one: a probe with its delay is too early by as much. -/
theorem whole_microseconds_lose_at_most_one_of_fifteen :
    let w := Timer.waitIn ⟨0⟩ { world := .installed {} [] } 14000
    read "15us".toList = .accepted (.ofMicroseconds 14) ∧ Asks "15us".toList (15 : Nat) ∧
      (∃ n, Duration.ofMicroseconds 14 = .ofMicroseconds n ∧ NearlyWhole 15 n) ∧
      w.fired = true ∧ 15 * Duration.perMicrosecond ≤ w.ended + 1 * Duration.perMicrosecond := by
  intro w
  have hread : read "15us".toList = .accepted (.ofMicroseconds 14) := by decide +kernel
  have hasks : Asks "15us".toList (15 : Nat) := by
    have hvalue : Literal.digitsValue "15".toList = 15 := by decide
    refine asks_of_digits "15".toList (.scaled .micro .second) (by decide)
      (List.all_eq_true.mp (by decide)) (by decide) hvalue ?_
    norm_num [Suffix.seconds, Degree.power, TimeUnit.seconds]
  have hfired : w.fired = true := Timer.fired_of_never_raised .exact 14000 0
  obtain ⟨n, hn, hwhole, -, -, hprobe⟩ :=
    whole_microseconds_lose_at_most_one hread hasks (by decide)
  have hearly := (hprobe (.ofString "x") ⟨0⟩ { world := .installed {} [] } 14000
    Sink.givesUp_default (by decide)).2 hfired
  rw [if_pos (by decide), Nat.zero_add] at hearly
  exact ⟨hread, hasks, ⟨n, hn, hwhole⟩, hfired, hearly⟩

/-- A world whose files can be opened from an instant on. -/
def openFrom (t : Nat) : World :=
  { World.installed {} [] with
    access := fun now _ _ => if now < t then .error .notFound else .ok () }

/-- A fifth of a second is read in full from milliseconds, and a microsecond short from
microseconds; a probe with the second delay tries its file too early. -/
theorem microsecond_lost_of_two_hundred_thousand :
    Asks "200ms".toList 200000 ∧ read "200ms".toList = .accepted (.ofMicroseconds 200000) ∧
      Asks "200000us".toList 200000 ∧
      read "200000us".toList = .accepted (.ofMicroseconds 199999) ∧
      ((Probe.fresh ⟨.ofMicroseconds 199999, .ofString "x"⟩ ⟨0⟩).run.runIn
        { world := openFrom 200000000 }).2.openings = [(.ofString "x", .error .notFound)] := by
  have hmilli : Literal.digitsValue "200".toList = 200 := by decide
  have hmicro : Literal.digitsValue "200000".toList = 200000 := by decide
  have hdeadline : Instant.after? 0 (.ofMicroseconds 199999) = some 199999000 := by decide
  refine ⟨?_, by decide +kernel, ?_, by decide +kernel, ?_⟩
  · refine asks_of_digits "200".toList (.scaled .milli .second) (by decide)
      (List.all_eq_true.mp (by decide)) (by decide) hmilli ?_
    norm_num [Suffix.seconds, Degree.power, TimeUnit.seconds]
  · refine asks_of_digits "200000".toList (.scaled .micro .second) (by decide)
      (List.all_eq_true.mp (by decide)) (by decide) hmicro ?_
    norm_num [Suffix.seconds, Degree.power, TimeUnit.seconds]
  · exact Probe.openings_of_exact ⟨.ofMicroseconds 199999, .ofString "x"⟩ ⟨0⟩
      { world := openFrom 200000000 } rfl rfl rfl hdeadline

end DeferredOpen.Delay
