import Mathlib.Algebra.Group.Nat.Defs
import ResumableUpload.Retry.Policy

/-!
# How waits grow

Without jitter the wait before a retry is the least of two (`nanos_steadyWait`): of the base wait
times a power of two that is cut off at the largest number of 32 bits (`factor_eq`), and of the
longest wait. So it never falls from one retry to a later one, and no cut shows in it as long as the
longest wait is within the largest product (`min_mul_factor`).

Jitter moves a wait of `m` milliseconds to one of at least `m - m / 4` and less than `m + m / 4`
(`millis_jittered`), and some random word moves it to each of these (`exists_jittered`).
-/

namespace ResumableUpload

namespace Duration

theorem eq_of_nanos {a b : Duration} (h : a.nanos = b.nanos) : a = b := congrArg mk h

@[simp] theorem millis_ofMillis (n : Nat) : (ofMillis n).millis = n :=
  Nat.mul_div_cancel n (by decide)

/-- A number of milliseconds that is a word is no longer than the longest length of time. -/
theorem ofMillis_le_longest {n : Nat} (h : n < UInt64.size) :
    (ofMillis n).nanos ≤ longest.nanos := by
  have hsize : (UInt64.size - 1) * 1000000 ≤ longest.nanos := by decide
  exact Nat.le_trans (Nat.mul_le_mul_right 1000000 (Nat.le_sub_one_of_lt h)) hsize

end Duration

namespace Retry

/-! ## The factor -/

/-- The factor is a power of two, cut off at the largest number of 32 bits. -/
theorem factor_eq (retry : Nat) : factor retry = min (2 ^ retry) (UInt32.size - 1) := by
  unfold factor
  split
  · next hlt =>
    have hpow : 2 ^ retry ≤ 2 ^ 31 := Nat.pow_le_pow_right (by decide) (by omega)
    rw [Nat.one_shiftLeft, Nat.min_eq_left]
    exact Nat.le_trans hpow (by decide)
  · next hge =>
    have hpow : 2 ^ 32 ≤ 2 ^ retry := Nat.pow_le_pow_right (by decide) (by omega)
    rw [Nat.min_eq_right]
    exact Nat.le_trans (by decide) hpow

theorem factor_lt (retry : Nat) : factor retry < UInt32.size := by
  rw [factor_eq]
  exact Nat.lt_of_le_of_lt (Nat.min_le_right _ _) (by decide)

theorem factor_mono {m n : Nat} (h : m ≤ n) : factor m ≤ factor n := by
  have hpow : 2 ^ m ≤ 2 ^ n := Nat.pow_le_pow_right (by decide) h
  rw [factor_eq, factor_eq]
  omega

/-- The cut does not show in a wait before one of the first 32 retries, nor in any wait if the
longest one is within the largest product. -/
theorem min_mul_factor {base bound retry : Nat}
    (h : retry < 32 ∨ bound ≤ base * (UInt32.size - 1)) :
    min (base * factor retry) bound = min (base * 2 ^ retry) bound := by
  rcases Nat.lt_or_ge retry 32 with hlt | hge
  · rw [factor, if_pos hlt, Nat.one_shiftLeft]
  · have hbound : bound ≤ base * (UInt32.size - 1) := h.resolve_left (by omega)
    have hpow : UInt32.size - 1 ≤ 2 ^ retry :=
      Nat.le_trans (by decide) (Nat.pow_le_pow_right (by decide : 0 < 2) hge)
    have hexact : bound ≤ base * 2 ^ retry :=
      Nat.le_trans hbound (Nat.mul_le_mul_left base hpow)
    rw [factor, if_neg (by omega), Nat.min_eq_right hbound, Nat.min_eq_right hexact]

namespace Policy

variable {p : Policy} {retry later : Nat} {kind : FaultKind}

/-! ## Waits without jitter -/

theorem steadyWait_rateLimited : p.steadyWait retry .rateLimited = p.maxWait := rfl

theorem steadyWait_of_ne (h : kind ≠ .rateLimited) :
    p.steadyWait retry kind = (p.baseWait.times (factor retry)).shorter p.maxWait := if_neg h

/-- The cut of a product that is too long does not show: the longest wait is no longer than it. -/
theorem nanos_steadyWait (hmax : p.maxWait.nanos ≤ Duration.longest.nanos)
    (h : kind ≠ .rateLimited) :
    (p.steadyWait retry kind).nanos = min (p.baseWait.nanos * factor retry) p.maxWait.nanos := by
  rw [steadyWait_of_ne h, Duration.nanos_shorter, Duration.nanos_times, Nat.min_assoc,
    Nat.min_eq_right hmax]

theorem steadyWait_le (p : Policy) (retry : Nat) (kind : FaultKind) :
    (p.steadyWait retry kind).nanos ≤ p.maxWait.nanos := by
  by_cases h : kind = .rateLimited
  · subst h
    exact Nat.le_refl _
  · rw [steadyWait_of_ne h, Duration.nanos_shorter]
    exact Nat.min_le_right _ _

theorem steadyWait_mono (p : Policy) (kind : FaultKind) (h : retry ≤ later) :
    (p.steadyWait retry kind).nanos ≤ (p.steadyWait later kind).nanos := by
  by_cases hkind : kind = .rateLimited
  · subst hkind
    exact Nat.le_refl _
  · have hfactor : p.baseWait.nanos * factor retry ≤ p.baseWait.nanos * factor later :=
      Nat.mul_le_mul_left _ (factor_mono h)
    rw [steadyWait_of_ne hkind, steadyWait_of_ne hkind, Duration.nanos_shorter,
      Duration.nanos_shorter, Duration.nanos_times, Duration.nanos_times]
    omega

example :
    (List.range 5).map (fun retry => (({} : Policy).steadyWait retry .network).seconds)
      = [1, 2, 4, 5, 5] := by
  decide

/-! ## Waits in milliseconds -/

/-- The waits of a policy are whole milliseconds, and their numbers are words. -/
structure InMillis (p : Policy) (base bound : Nat) : Prop where
  baseWait_eq : p.baseWait = .ofMillis base
  maxWait_eq : p.maxWait = .ofMillis bound
  base_lt : base < UInt64.size
  bound_lt : bound < UInt64.size

namespace InMillis

variable {base bound : Nat}

theorem steadyWait_eq (hp : p.InMillis base bound) (h : kind ≠ .rateLimited) :
    p.steadyWait retry kind = .ofMillis (min (base * factor retry) bound) := by
  have hmax : p.maxWait.nanos ≤ Duration.longest.nanos := by
    rw [hp.maxWait_eq]
    exact Duration.ofMillis_le_longest hp.bound_lt
  apply Duration.eq_of_nanos
  rw [nanos_steadyWait hmax h, hp.baseWait_eq, hp.maxWait_eq]
  show min (base * 1000000 * factor retry) (bound * 1000000) = _
  rw [Nat.mul_right_comm, Nat.mul_min_mul_right]
  rfl

/-- Every wait without jitter is a number of milliseconds that is a word. -/
theorem exists_steadyWait (hp : p.InMillis base bound) (retry : Nat) (kind : FaultKind) :
    ∃ m, m < UInt64.size ∧ p.steadyWait retry kind = .ofMillis m := by
  by_cases h : kind = .rateLimited
  · exact ⟨bound, hp.bound_lt, by rw [h, steadyWait_rateLimited, hp.maxWait_eq]⟩
  · exact ⟨_, Nat.lt_of_le_of_lt (Nat.min_le_right _ _) hp.bound_lt, hp.steadyWait_eq h⟩

end InMillis

/-! ## Waits with jitter -/

section Jitter

variable {m w : Nat}

/-- A wait of less than four milliseconds is not moved. -/
theorem jittered_of_lt (h : m < 4) (noise : Nat) : jittered (.ofMillis m) noise = .ofMillis m := by
  have hmod : m % UInt64.size = m := Nat.mod_eq_of_lt (Nat.lt_trans h (by decide))
  rw [jittered, Duration.millis_ofMillis, hmod]
  exact if_pos (Nat.div_eq_of_lt h)

theorem jittered_of_le (h : 4 ≤ m) (hm : m < UInt64.size) (noise : Nat) :
    jittered (.ofMillis m) noise
      = .ofMillis (min (m - m / 4 + noise % (m / 4 * 2)) (UInt64.size - 1)) := by
  rw [jittered, Duration.millis_ofMillis, Nat.mod_eq_of_lt hm]
  exact if_neg (by omega)

/-- A wait is moved by at most a quarter either way. -/
theorem millis_jittered (h : 4 ≤ m) (hm : m < UInt64.size) (noise : Nat) :
    ∃ w, jittered (.ofMillis m) noise = .ofMillis w ∧
      m - m / 4 ≤ w ∧ w < m + m / 4 ∧ w < UInt64.size := by
  have hmoved : noise % (m / 4 * 2) < m / 4 * 2 := Nat.mod_lt _ (by omega)
  refine ⟨_, jittered_of_le h hm noise, ?_⟩
  omega

/-- A wait can be moved to any within a quarter either way. -/
theorem exists_jittered (h : 4 ≤ m) (hm : m < UInt64.size) (hleast : m - m / 4 ≤ w)
    (hmost : w < m + m / 4) (hw : w < UInt64.size) :
    ∃ noise, noise < UInt64.size ∧ jittered (.ofMillis m) noise = .ofMillis w := by
  refine ⟨w - (m - m / 4), by omega, ?_⟩
  rw [jittered_of_le h hm, Nat.mod_eq_of_lt (by omega)]
  congr 1
  omega

end Jitter

/-! ## With and without jitter -/

/-- The policy with jitter or without it. -/
def withJitter (p : Policy) (jitter : Bool) : Policy := { p with jitter := jitter }

theorem backoff_rateLimited (p : Policy) (retry noise : Nat) :
    p.backoff retry .rateLimited noise = p.maxWait :=
  if_neg fun h => h.2 rfl

theorem backoff_withJitter_false (p : Policy) (retry : Nat) (kind : FaultKind) (noise : Nat) :
    (p.withJitter false).backoff retry kind noise = p.steadyWait retry kind := by
  have hjitter : ¬((p.withJitter false).jitter ∧ kind ≠ .rateLimited) := fun h => nomatch h.1
  simp only [backoff, if_neg hjitter]
  rfl

theorem backoff_withJitter_true (p : Policy) (h : kind ≠ .rateLimited) (retry noise : Nat) :
    (p.withJitter true).backoff retry kind noise = jittered (p.steadyWait retry kind) noise :=
  if_pos ⟨rfl, h⟩

section Moved

variable {m : Nat}

theorem backoff_withJitter_of_lt (hsteady : p.steadyWait retry kind = .ofMillis m) (h : m < 4)
    (noise : Nat) : (p.withJitter true).backoff retry kind noise = .ofMillis m := by
  by_cases hkind : kind = .rateLimited
  · subst hkind
    exact (backoff_rateLimited _ _ _).trans hsteady
  · rw [backoff_withJitter_true p hkind, hsteady]
    exact jittered_of_lt h noise

/-- Whatever the fault, jitter moves a wait by at most a quarter; after a rate limit not at all. -/
theorem millis_backoff (hsteady : p.steadyWait retry kind = .ofMillis m) (h : 4 ≤ m)
    (hm : m < UInt64.size) (noise : Nat) :
    ∃ w, (p.withJitter true).backoff retry kind noise = .ofMillis w ∧
      m - m / 4 ≤ w ∧ w < m + m / 4 ∧ w < UInt64.size := by
  by_cases hkind : kind = .rateLimited
  · subst hkind
    exact ⟨m, (backoff_rateLimited _ _ _).trans hsteady, by omega, by omega, hm⟩
  · rw [backoff_withJitter_true p hkind, hsteady]
    exact millis_jittered h hm noise

end Moved

end Policy

end Retry

end ResumableUpload
