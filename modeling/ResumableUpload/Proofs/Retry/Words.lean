import ResumableUpload.Proofs.Retry.Waits
import ResumableUpload.Proofs.Word
import ResumableUpload.Settings

/-!
# Waits in words

A length of time is held as a word of whole seconds and the nanoseconds beside them (`Held`). Here
the wait before a retry is made again from such words, by operations that have no result where
something goes wrong; only the power, the product of the base wait and a wait moved past the largest
word are cut off. For every policy whose waits are whole milliseconds each operation has a result,
and the wait is the same (`Policy.backoff?_eq`).

So the waits of a policy grow as they should, whatever the number of the retry, and no operation on
the way goes wrong (`Policy.backoff_lawful`).
-/

namespace ResumableUpload

/-! ## Lengths of time in words -/

namespace Duration

/-- A length of time as it is held: whole seconds, and the nanoseconds beside them. -/
structure Held where
  seconds : Nat
  subsecond : Nat
  deriving DecidableEq

def held (d : Duration) : Held := ⟨d.seconds, d.subsecond⟩

namespace Held

def longest : Held := ⟨UInt64.size - 1, 999999999⟩

def ofMillis (n : Nat) : Held := ⟨n / 1000, n % 1000 * 1000000⟩

/-- The whole milliseconds, if their number is a word. -/
def millis? (h : Held) : Option Nat :=
  (Word.mul? h.seconds 1000).bind (Word.add? · (h.subsecond / 1000000))

def shorter (a b : Held) : Held :=
  if a.seconds < b.seconds ∨ a.seconds = b.seconds ∧ a.subsecond ≤ b.subsecond then a else b

/-- A multiple; the longest length of time if the seconds of the multiple are no word. -/
def times? (h : Held) (n : Nat) : Option Held := do
  let nanos ← Word.mul? h.subsecond n
  match (Word.mul? h.seconds n).bind (Word.add? · (nanos / 1000000000)) with
  | some seconds => some ⟨seconds, nanos % 1000000000⟩
  | none => some longest

end Held

theorem held_longest : longest.held = Held.longest := by decide

theorem held_ofMillis (n : Nat) : (ofMillis n).held = Held.ofMillis n := by
  simp only [held, seconds, subsecond, ofMillis, Held.ofMillis, Held.mk.injEq]
  omega

theorem held_shorter (a b : Duration) : (a.shorter b).held = a.held.shorter b.held := by
  have hle : a.nanos ≤ b.nanos ↔
      a.seconds < b.seconds ∨ a.seconds = b.seconds ∧ a.subsecond ≤ b.subsecond := by
    simp only [seconds, subsecond]
    omega
  unfold shorter Held.shorter
  by_cases h : a.nanos ≤ b.nanos
  · rw [if_pos h]
    exact (if_pos (hle.mp h)).symm
  · rw [if_neg h]
    exact (if_neg fun hlex => h (hle.mpr hlex)).symm

theorem millis?_held (d : Duration) (h : d.millis < UInt64.size) :
    d.held.millis? = some d.millis := by
  have hmillis : d.seconds * 1000 + d.subsecond / 1000000 = d.millis := by
    simp only [seconds, subsecond, millis]
    omega
  rw [Held.millis?, Word.add?_mul?]
  show Word.ofNat? (d.seconds * 1000 + d.subsecond / 1000000) = some d.millis
  rw [hmillis]
  exact if_pos h

/-- The seconds of a length of time are a word when it is no longer than the longest one. -/
theorem seconds_lt_iff (d : Duration) : d.seconds < UInt64.size ↔ d.nanos ≤ longest.nanos := by
  have hbound : longest.nanos + 1 = UInt64.size * 1000000000 := by decide
  rw [seconds, Nat.div_lt_iff_lt_mul (by decide), ← hbound]
  exact Nat.lt_succ_iff

/-- An exact multiple as it is held: what the nanoseconds carry is added to the seconds. -/
theorem held_mul (d : Duration) (n : Nat) :
    (⟨d.nanos * n⟩ : Duration).held
      = ⟨d.held.seconds * n + d.held.subsecond * n / 1000000000,
        d.held.subsecond * n % 1000000000⟩ := by
  have hsplit : d.nanos * n = 1000000000 * (d.held.seconds * n) + d.held.subsecond * n := by
    rw [← Nat.mul_assoc, ← Nat.add_mul]
    exact congrArg (· * n) (Nat.div_add_mod d.nanos 1000000000).symm
  rw [held, seconds, subsecond, hsplit, Nat.mul_add_div (by decide), Nat.mul_add_mod]

/-- In words a multiple by a number of 32 bits is the same. -/
theorem times?_held (d : Duration) {n : Nat} (hn : n < UInt32.size) :
    d.held.times? n = some (d.times n).held := by
  have hsub : d.held.subsecond < 1000000000 := Nat.mod_lt _ (by decide)
  have hnanos : d.held.subsecond * n < UInt64.size :=
    Nat.lt_of_le_of_lt (Nat.mul_le_mul (Nat.le_of_lt hsub) (Nat.le_of_lt hn)) (by decide)
  have hseconds : d.held.seconds * n + d.held.subsecond * n / 1000000000
      = (⟨d.nanos * n⟩ : Duration).seconds := (congrArg Held.seconds (held_mul d n)).symm
  rw [Held.times?, Word.mul?_eq hnanos, Option.bind_eq_bind, Option.bind_some, Word.add?_mul?,
    hseconds, times, shorter]
  -- the seconds alone decide: they are no word just when the multiple is beyond the longest length
  by_cases hfits : d.nanos * n ≤ longest.nanos
  · rw [Word.ofNat?, if_pos ((seconds_lt_iff _).mpr hfits), if_pos hfits, held_mul, ← hseconds]
  · rw [Word.ofNat?, if_neg fun h => hfits ((seconds_lt_iff _).mp h), if_neg hfits, held_longest]

end Duration

namespace Settings

/-- The waits that settings ask for are whole milliseconds. -/
theorem inMillis_retryPolicy (s : Settings) (hfirst : s.retryWaitMs < UInt64.size)
    (hlongest : s.retryMaxWaitMs < UInt64.size) :
    s.retryPolicy.InMillis s.retryWaitMs s.retryMaxWaitMs :=
  ⟨rfl, rfl, hfirst, hlongest⟩

end Settings

namespace Retry

/-! ## The factor in words -/

/-- Two to some power, if each product on the way is a number of 32 bits. -/
def power? : Nat → Option Nat
  | 0 => some 1
  | n + 1 => do
    let power ← power? n
    if power * 2 < UInt32.size then some (power * 2) else none

theorem power?_eq (n : Nat) : power? n = if n < 32 then some (2 ^ n) else none := by
  induction n with
  | zero => rfl
  | succ n ih =>
    rw [power?, ih]
    by_cases hlt : n < 32
    · have hfits : 2 ^ n * 2 < UInt32.size ↔ n + 1 < 32 := by
        have hsize : UInt32.size = 2 ^ 32 := by decide
        rw [← Nat.pow_succ, hsize]
        exact Nat.pow_lt_pow_iff_right (by decide : 1 < 2)
      rw [if_pos hlt, Option.bind_eq_bind, Option.bind_some, Nat.pow_succ]
      simp only [hfits]
    · rw [if_neg hlt, if_neg (by omega)]
      rfl

theorem power?_getD (n : Nat) : (power? n).getD (UInt32.size - 1) = factor n := by
  rw [power?_eq, factor]
  split
  · rw [Option.getD_some, Nat.one_shiftLeft]
  · rfl

/-! ## Waits in words -/

namespace Policy

open Duration (Held)

/-- The wait without jitter, in words. -/
def steadyWait? (p : Policy) (retry : Nat) (kind : FaultKind) : Option Held :=
  if kind = .rateLimited then some p.maxWait.held
  else do
    let product ← p.baseWait.held.times? ((power? retry).getD (UInt32.size - 1))
    some (product.shorter p.maxWait.held)

/-- A wait moved by a quarter of itself at most, in words. -/
def jittered? (wait : Held) (noise : Nat) : Option Held := do
  let millis ← wait.millis?
  let quarter ← Word.div? millis 4
  if quarter = 0 then some wait
  else do
    let range ← Word.mul? quarter 2
    let moved ← Word.mod? noise range
    let least ← Word.sub? millis quarter
    some (.ofMillis ((Word.add? least moved).getD (UInt64.size - 1)))

/-- The wait before a retry, in words. -/
def backoff? (p : Policy) (retry : Nat) (kind : FaultKind) (noise : Nat) : Option Held := do
  let wait ← p.steadyWait? retry kind
  if p.jitter ∧ kind ≠ .rateLimited then jittered? wait noise else some wait

variable {p : Policy} {retry : Nat} {kind : FaultKind} {base bound : Nat}

theorem steadyWait?_eq (p : Policy) (retry : Nat) (kind : FaultKind) :
    p.steadyWait? retry kind = some (p.steadyWait retry kind).held := by
  unfold steadyWait? steadyWait
  split
  · rfl
  · rw [power?_getD, Duration.times?_held _ (factor_lt retry), Option.bind_eq_bind,
      Option.bind_some, Duration.held_shorter]

theorem jittered?_eq {m : Nat} (hm : m < UInt64.size) (noise : Nat) :
    jittered? (Duration.ofMillis m).held noise = some (jittered (.ofMillis m) noise).held := by
  have hmillis : (Duration.ofMillis m).held.millis? = some m := by
    rw [Duration.millis?_held _ (by rwa [Duration.millis_ofMillis]), Duration.millis_ofMillis]
  rw [jittered?, hmillis, Option.bind_eq_bind, Option.bind_some, Word.div?_eq (by decide),
    Option.bind_some]
  rcases Nat.lt_or_ge m 4 with hlt | hge
  · rw [if_pos (Nat.div_eq_of_lt hlt), jittered_of_lt hlt]
  · rw [if_neg (by omega), Word.mul?_eq (by omega), Option.bind_some, Word.mod?_eq (by omega),
      Option.bind_some, Word.sub?_eq (by omega), Option.bind_some, Word.add?_getD,
      jittered_of_le hge hm, Duration.held_ofMillis]

/-- In words the wait before a retry is the same. -/
theorem backoff?_eq (hp : p.InMillis base bound) (retry : Nat) (kind : FaultKind) (noise : Nat) :
    p.backoff? retry kind noise = some (p.backoff retry kind noise).held := by
  obtain ⟨m, hm, hsteady⟩ := hp.exists_steadyWait retry kind
  rw [backoff?, backoff, steadyWait?_eq, Option.bind_eq_bind, Option.bind_some, hsteady]
  split
  · exact jittered?_eq hm noise
  · rfl

/-- The waits of a policy grow as they should, for every number of the retry. -/
theorem backoff_lawful (p : Policy) (hp : p.InMillis base bound) :
    -- after a rate limit the wait is the longest one, with jitter too
    (∀ retry noise, p.backoff retry .rateLimited noise = p.maxWait) ∧
    -- without jitter any other wait doubles from retry to retry, up to the longest one
    (∀ retry kind noise, kind ≠ .rateLimited → retry < 32 ∨ bound ≤ base * (UInt32.size - 1) →
      (p.withJitter false).backoff retry kind noise = .ofMillis (min (base * 2 ^ retry) bound)) ∧
    -- where the longest one is too far for that, the wait stays as it is from some retry on
    (∀ retry kind noise, kind ≠ .rateLimited → 32 ≤ retry →
      (p.withJitter false).backoff retry kind noise
        = .ofMillis (min (base * (UInt32.size - 1)) bound)) ∧
    -- it is never longer than the longest one, and never shorter than before an earlier retry
    (∀ retry kind noise,
      ((p.withJitter false).backoff retry kind noise).nanos ≤ p.maxWait.nanos) ∧
    (∀ retry later kind noise noise', retry ≤ later →
      ((p.withJitter false).backoff retry kind noise).nanos
        ≤ ((p.withJitter false).backoff later kind noise').nanos) ∧
    -- jitter leaves a wait of less than four milliseconds as it is, and moves any other by at most
    -- a quarter of its milliseconds, to each number that a word holds
    (∀ retry kind, ∃ m, m < UInt64.size ∧
      (∀ noise, (p.withJitter false).backoff retry kind noise = .ofMillis m) ∧
      (m < 4 → ∀ noise, (p.withJitter true).backoff retry kind noise = .ofMillis m) ∧
      (4 ≤ m → ∀ noise, ∃ w, (p.withJitter true).backoff retry kind noise = .ofMillis w ∧
        m - m / 4 ≤ w ∧ w < m + m / 4 ∧ w < UInt64.size) ∧
      (4 ≤ m → kind ≠ .rateLimited → ∀ w, m - m / 4 ≤ w → w < m + m / 4 → w < UInt64.size →
        ∃ noise, noise < UInt64.size ∧
          (p.withJitter true).backoff retry kind noise = .ofMillis w)) ∧
    -- no operation on words goes wrong
    (∀ retry kind noise,
      p.backoff? retry kind noise = some (p.backoff retry kind noise).held) := by
  refine ⟨p.backoff_rateLimited, ?_, ?_, ?_, ?_, ?_, backoff?_eq hp⟩
  · intro retry kind noise hkind hexact
    rw [backoff_withJitter_false, hp.steadyWait_eq hkind, min_mul_factor hexact]
  · intro retry kind noise hkind hlate
    rw [backoff_withJitter_false, hp.steadyWait_eq hkind, factor, if_neg (Nat.not_lt.mpr hlate)]
  · intro retry kind noise
    rw [backoff_withJitter_false]
    exact p.steadyWait_le retry kind
  · intro retry later kind noise noise' hlater
    rw [backoff_withJitter_false, backoff_withJitter_false]
    exact p.steadyWait_mono kind hlater
  · intro retry kind
    obtain ⟨m, hm, hsteady⟩ := hp.exists_steadyWait retry kind
    refine ⟨m, hm, ?_, backoff_withJitter_of_lt hsteady,
      fun hfour => millis_backoff hsteady hfour hm, ?_⟩
    · intro noise
      rw [backoff_withJitter_false, hsteady]
    · intro hfour hkind w hleast hmost hw
      obtain ⟨noise, hnoise, hmoved⟩ := exists_jittered hfour hm hleast hmost hw
      exact ⟨noise, hnoise, by rw [backoff_withJitter_true p hkind, hsteady, hmoved]⟩

/-- The longest waits that settings can ask for. The product of such a wait is longer than any
length of time, and a quarter more than it is no word. -/
theorem backoff_lawful_longest :
    let largest := UInt64.size - 1
    let p := Settings.retryPolicy { retryWaitMs := largest, retryMaxWaitMs := largest }
    p.InMillis largest largest ∧
      p.baseWait.times (factor 31) = .longest ∧
      (p.withJitter false).backoff 31 .network 0 = .ofMillis largest ∧
      p.backoff? 31 .network 0 = some ⟨largest / 1000, 615000000⟩ ∧
      ∃ noise, noise < UInt64.size ∧
        (p.withJitter true).backoff 31 .network noise = .ofMillis largest := by
  intro largest p
  have hp : p.InMillis largest largest :=
    Settings.inMillis_retryPolicy _ (by decide) (by decide)
  obtain ⟨-, hexact, -, -, -, hjitter, hwords⟩ := backoff_lawful p hp
  have hsteady : (p.withJitter false).backoff 31 .network 0 = .ofMillis largest :=
    (hexact 31 .network 0 (by decide) (.inl (by decide))).trans (by decide)
  obtain ⟨m, hm, hunmoved, -, -, hreached⟩ := hjitter 31 .network
  have hlargest : m = largest := by
    simpa using congrArg Duration.millis ((hunmoved 0).symm.trans hsteady)
  subst hlargest
  refine ⟨hp, by decide, hsteady, (hwords 31 .network 0).trans (by decide), ?_⟩
  exact hreached (by decide) (by decide) largest (by decide) (by decide) hm

end Policy

end Retry

end ResumableUpload
