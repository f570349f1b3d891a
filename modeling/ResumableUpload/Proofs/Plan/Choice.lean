import Mathlib.Order.Bounds.Basic
import ResumableUpload.Proofs.Plan.Search

/-!
# The choice of a size

A size that is left open is the larger of two (`partSize_eq`): of what is preferred within the limits
of the account, and of what the file requires if it is not to have too many parts. What is preferred
is what is wanted, brought within the limits (`preferred_eq`). From this:

* a chosen size keeps the limits of the server, and goes beyond the account's only where it must
  (`partSize_limits`);
* with little bandwidth it is the least that the server takes (`low_bandwidth_least`);
* it does not fall with the length of the file or the membership, nor rise with the number of workers
  (`partSize_monotone`).
-/

namespace ResumableUpload.Sizing

variable {s : Sizing} {total : Nat}

/-! ## The ceiling -/

theorem ceiling_eq (s : Sizing) : s.ceiling = s.membership.maxPartSize := by
  unfold ceiling
  cases s.membership <;> decide

theorem minPartSize_le_ceiling (s : Sizing) : minPartSize ≤ s.ceiling := Nat.le_max_right _ _

theorem dvd_ceiling (s : Sizing) : partSizeStep ∣ s.ceiling := by
  rw [ceiling_eq]
  cases s.membership <;> decide

theorem ceiling_pos (s : Sizing) : 0 < s.ceiling :=
  Nat.lt_of_lt_of_le (by decide : 0 < minPartSize) s.minPartSize_le_ceiling

/-! ## What is wanted -/

theorem clampThreads_pos (n : Nat) : 0 < clampThreads n := Nat.le_max_left _ _

theorem clampThreads_mono {m n : Nat} (h : m ≤ n) : clampThreads m ≤ clampThreads n := by
  unfold clampThreads
  omega

/-- The number of parts that all workers together should get. -/
def target (s : Sizing) : Nat := clampThreads s.threads * chunksPerThread

theorem target_pos (s : Sizing) : 0 < s.target := Nat.mul_pos (clampThreads_pos _) (by decide)

/-- The size that is wanted, whatever the limits: with little bandwidth what the file requires,
otherwise each worker's share. -/
def wanted (s : Sizing) (total : Nat) : Nat :=
  if s.lowBandwidth then required total else roundUp (piecesOf total s.target) partSizeStep

theorem dvd_wanted (s : Sizing) (total : Nat) : partSizeStep ∣ s.wanted total := by
  unfold wanted
  split <;> exact dvd_roundUp _ _

theorem wanted_mono (s : Sizing) {a b : Nat} (h : a ≤ b) : s.wanted a ≤ s.wanted b := by
  unfold wanted
  split
  · exact required_mono h
  · exact roundUp_mono partSizeStep_pos (piecesOf_mono s.target_pos h)

/-- More workers want no larger parts. -/
theorem wanted_anti (s : Sizing) (total : Nat) {m n : Nat} (h : m ≤ n) :
    { s with threads := n }.wanted total ≤ { s with threads := m }.wanted total := by
  by_cases hlow : s.lowBandwidth
  · rw [wanted, if_pos hlow, wanted, if_pos hlow]
  · rw [wanted, if_neg hlow, wanted, if_neg hlow]
    apply roundUp_mono partSizeStep_pos
    apply piecesOf_anti (target_pos { s with threads := m })
    exact Nat.mul_le_mul_right _ (clampThreads_mono h)

/-! ## What is preferred -/

/-- What is preferred is what is wanted, brought within the limits. -/
theorem preferred_eq (s : Sizing) (total : Nat) :
    s.preferred total = max minPartSize (min (s.wanted total) s.ceiling) := by
  unfold preferred wanted
  split
  · exact grow_eq s.minPartSize_le_ceiling s.dvd_ceiling
  · rfl

theorem minPartSize_le_preferred (s : Sizing) (total : Nat) : minPartSize ≤ s.preferred total := by
  rw [preferred_eq]
  exact Nat.le_max_left _ _

theorem preferred_pos (s : Sizing) (total : Nat) : 0 < s.preferred total :=
  Nat.lt_of_lt_of_le (by decide : 0 < minPartSize) (s.minPartSize_le_preferred total)

theorem preferred_le_ceiling (s : Sizing) (total : Nat) : s.preferred total ≤ s.ceiling := by
  rw [preferred_eq]
  exact Nat.max_le.mpr ⟨s.minPartSize_le_ceiling, Nat.min_le_right _ _⟩

/-- Below the ceiling no less is preferred than is wanted. -/
theorem wanted_le_preferred (h : s.preferred total < s.ceiling) :
    s.wanted total ≤ s.preferred total := by
  rw [preferred_eq] at h ⊢
  omega

theorem dvd_preferred (s : Sizing) (total : Nat) : partSizeStep ∣ s.preferred total := by
  rw [preferred_eq]
  exact max_rec' _ (by decide) (min_rec' _ (s.dvd_wanted total) s.dvd_ceiling)

/-- What is preferred is too small when the file requires more. -/
theorem isTooSmall_iff : s.isTooSmall total = true ↔ s.preferred total < required total := by
  rw [isTooSmall, decide_eq_true_iff, ← Nat.not_le, ← Nat.not_le,
    required_le_iff (s.dvd_preferred total) (s.preferred_pos total)]

/-! ## What is chosen -/

theorem partSize_of_hint (h : 0 < s.hint) : s.partSize total = s.hint := if_pos h

/-- A size left open is what is preferred, or what the file requires if that is more. -/
theorem partSize_eq (hhint : s.hint = 0) :
    s.partSize total = max (s.preferred total) (required total) := by
  unfold partSize
  rw [if_neg (by omega)]
  split
  · next hsmall =>
    have hlt : s.preferred total < required total := isTooSmall_iff.mp hsmall
    exact (Nat.max_eq_right (Nat.le_of_lt hlt)).symm
  · next hlarge =>
    have hle : required total ≤ s.preferred total :=
      Nat.not_lt.mp fun hlt => hlarge (isTooSmall_iff.mpr hlt)
    exact (Nat.max_eq_left hle).symm

-- three workers get parts of their share, six get parts of the least size
example : ({ membership := .svip, threads := 3 } : Sizing).partSize (96 * mebibyte) = 8 * mebibyte :=
  by decide
example : ({ membership := .svip, threads := 6 } : Sizing).partSize (96 * mebibyte) = 4 * mebibyte :=
  by decide

/-- The size of a part is never zero, whatever was asked for. -/
theorem partSize_pos (s : Sizing) (total : Nat) : 0 < s.partSize total := by
  rcases Nat.eq_zero_or_pos s.hint with hhint | hhint
  · rw [partSize_eq hhint]
    exact Nat.lt_of_lt_of_le (required_pos total) (Nat.le_max_right _ _)
  · rw [partSize_of_hint hhint]
    exact hhint

theorem dvd_partSize (hhint : s.hint = 0) : partSizeStep ∣ s.partSize total := by
  rw [partSize_eq hhint]
  exact max_rec' _ (s.dvd_preferred total) (dvd_required total)

theorem preferred_le_partSize (hhint : s.hint = 0) : s.preferred total ≤ s.partSize total := by
  rw [partSize_eq hhint]
  exact Nat.le_max_left _ _

theorem required_le_partSize (hhint : s.hint = 0) : required total ≤ s.partSize total := by
  rw [partSize_eq hhint]
  exact Nat.le_max_right _ _

/-! ## The limits of the server -/

/-- A multiple of the step cuts the file into few enough parts when it is not below what the file
requires. -/
theorem count_cut_le_maxPartCount_iff {size : Nat} (hdvd : partSizeStep ∣ size) (hpos : 0 < size) :
    (Plan.cut total size).count ≤ maxPartCount ↔ required total ≤ size := by
  rw [Plan.count_cut_le_iff hpos (by decide), required_le_iff hdvd hpos]

/-- The multiples of the step, from a given one up, that cut the file into few enough parts. -/
def Sufficient (total first : Nat) : Set Nat :=
  {size | partSizeStep ∣ size ∧ first ≤ size ∧ (Plan.cut total size).count ≤ maxPartCount}

theorem isLeast_sufficient (total : Nat) {first : Nat} (hdvd : partSizeStep ∣ first)
    (hpos : 0 < first) : IsLeast (Sufficient total first) (max first (required total)) := by
  have hmax : partSizeStep ∣ max first (required total) := max_rec' _ hdvd (dvd_required total)
  constructor
  · refine ⟨hmax, Nat.le_max_left _ _, ?_⟩
    rw [count_cut_le_maxPartCount_iff hmax (Nat.lt_of_lt_of_le hpos (Nat.le_max_left _ _))]
    exact Nat.le_max_right _ _
  · rintro size ⟨hsize, hfirst, hfew⟩
    rw [count_cut_le_maxPartCount_iff hsize (Nat.lt_of_lt_of_le hpos hfirst)] at hfew
    exact Nat.max_le.mpr ⟨hfirst, hfew⟩

theorem step_le_required (total : Nat) : partSizeStep ≤ required total :=
  Nat.le_of_dvd (required_pos total) (dvd_required total)

/-- The ceiling is passed exactly when the file requires it. -/
theorem ceiling_lt_partSize_iff (hhint : s.hint = 0) :
    s.ceiling < s.partSize total ↔ s.ceiling < required total := by
  have hpreferred : s.preferred total ≤ s.ceiling := s.preferred_le_ceiling total
  rw [partSize_eq hhint]
  omega

/-- Below the ceiling all workers together get no more parts than they should. -/
theorem count_plan_le_target (hhint : s.hint = 0) (hlow : s.lowBandwidth = false)
    (hbelow : s.partSize total < s.ceiling) : (s.plan total).count ≤ s.target := by
  have hpreferred : s.preferred total ≤ s.partSize total := preferred_le_partSize hhint
  have hshare : piecesOf total s.target ≤ s.partSize total :=
    calc piecesOf total s.target
      _ ≤ roundUp (piecesOf total s.target) partSizeStep := le_roundUp _ partSizeStep_pos
      _ = s.wanted total := by rw [wanted, hlow]; rfl
      _ ≤ s.preferred total := wanted_le_preferred (Nat.lt_of_le_of_lt hpreferred hbelow)
      _ ≤ s.partSize total := hpreferred
  rw [plan, Plan.count_cut_le_iff (s.partSize_pos total) s.target_pos,
    piecesOf_le_iff (s.partSize_pos total), Nat.mul_comm]
  exact (piecesOf_le_iff s.target_pos).mp hshare

/-- The limits that the size of a part keeps. -/
structure KeepsLimits (s : Sizing) (total : Nat) : Prop where
  dvd : partSizeStep ∣ s.partSize total
  min_le : minPartSize ≤ s.partSize total
  count_pos : 1 ≤ (s.plan total).count
  count_le : (s.plan total).count ≤ maxPartCount
  /-- The account's limit is passed exactly when parts of that size would be too many. -/
  exceeds_iff : s.membership.maxPartSize < s.partSize total ↔
    maxPartCount < (Plan.cut total s.membership.maxPartSize).count
  /-- Then the parts are no larger than they have to be. -/
  least : s.membership.maxPartSize < s.partSize total →
    IsLeast (Sufficient total partSizeStep) (s.partSize total)
  /-- Below the account's limit there are no more parts than each worker's share. -/
  count_le_shares : s.lowBandwidth = false → s.partSize total < s.membership.maxPartSize →
    (s.plan total).count ≤ chunksPerThread * clampThreads s.threads

/-- A size that is left open keeps the limits. -/
theorem partSize_limits (s : Sizing) (hhint : s.hint = 0) (total : Nat) : s.KeepsLimits total where
  dvd := dvd_partSize hhint
  min_le := Nat.le_trans (s.minPartSize_le_preferred total) (preferred_le_partSize hhint)
  count_pos := by
    rw [plan, Plan.count_cut (s.partSize_pos total)]
    exact Nat.le_max_left _ _
  count_le := by
    rw [plan, count_cut_le_maxPartCount_iff (dvd_partSize hhint) (s.partSize_pos total)]
    exact required_le_partSize hhint
  exceeds_iff := by
    rw [← ceiling_eq, ceiling_lt_partSize_iff hhint, ← Nat.not_le, ← Nat.not_le,
      count_cut_le_maxPartCount_iff s.dvd_ceiling s.ceiling_pos]
  least := by
    intro hexceeds
    rw [← ceiling_eq] at hexceeds
    have hrequired : s.ceiling < required total := (ceiling_lt_partSize_iff hhint).mp hexceeds
    have hsize : s.partSize total = max partSizeStep (required total) := by
      have hpreferred : s.preferred total ≤ s.ceiling := s.preferred_le_ceiling total
      have hstep : partSizeStep ≤ required total := step_le_required total
      rw [partSize_eq hhint]
      omega
    rw [hsize]
    exact isLeast_sufficient total (Nat.dvd_refl _) partSizeStep_pos
  count_le_shares := by
    intro hlow hbelow
    rw [← ceiling_eq] at hbelow
    rw [Nat.mul_comm]
    exact count_plan_le_target hhint hlow hbelow

/-- The largest file makes an ordinary account pass its limit, and 96 MiB are cut for six workers
below that of the highest membership. -/
theorem partSize_limits_large_and_small :
    let ordinary : Sizing := {}
    let highest : Sizing := { membership := .svip, threads := 6 }
    let small := 96 * mebibyte
    ordinary.hint = 0 ∧ highest.hint = 0 ∧
      ordinary.partSize (2 ^ 64 - 1) = 2 ^ 33 * mebibyte ∧
      IsLeast (Sufficient (2 ^ 64 - 1) partSizeStep) (2 ^ 33 * mebibyte) ∧
      (highest.plan small).count ≤ 24 := by
  intro ordinary highest small
  have hlarge : ordinary.KeepsLimits (2 ^ 64 - 1) := partSize_limits ordinary rfl _
  have hsmall : highest.KeepsLimits small := partSize_limits highest rfl _
  have hsize : ordinary.partSize (2 ^ 64 - 1) = 2 ^ 33 * mebibyte := by decide
  have hleast := hlarge.least (by rw [hsize]; decide)
  rw [hsize] at hleast
  exact ⟨rfl, rfl, hsize, hleast, hsmall.count_le_shares rfl (by decide)⟩

/-! ## Little bandwidth -/

/-- With little bandwidth the size is the least that the server takes. -/
theorem partSize_eq_of_lowBandwidth (hhint : s.hint = 0) (hlow : s.lowBandwidth = true) :
    s.partSize total = max minPartSize (required total) := by
  have hceiling : minPartSize ≤ s.ceiling := s.minPartSize_le_ceiling
  rw [partSize_eq hhint, preferred_eq, wanted, if_pos hlow]
  omega

/-- With little bandwidth the search for a size ends, and the size is the least of all that cut the
file into few enough parts, whatever the account and the number of workers. No smaller one is chosen
with more bandwidth. -/
theorem low_bandwidth_least (s : Sizing) (hhint : s.hint = 0) (hlow : s.lowBandwidth = true)
    (total : Nat) :
    (∃ turns,
        (∀ k < turns, GoesOn total s.ceiling (minPartSize + k * partSizeStep)) ∧
        ¬ GoesOn total s.ceiling (minPartSize + turns * partSizeStep) ∧
        s.preferred total = minPartSize + turns * partSizeStep) ∧
      s.partSize total = max minPartSize (roundUp (piecesOf total maxPartCount) partSizeStep) ∧
      IsLeast (Sufficient total minPartSize) (s.partSize total) ∧
      ∀ other : Sizing, other.hint = 0 → other.lowBandwidth = false →
        s.partSize total ≤ other.partSize total := by
  have hsize : s.partSize total = max minPartSize (required total) :=
    partSize_eq_of_lowBandwidth hhint hlow
  refine ⟨?_, hsize, ?_, ?_⟩
  · rw [preferred, if_pos hlow]
    exact grow_turns total s.ceiling minPartSize
  · rw [hsize]
    exact isLeast_sufficient total (by decide) (by decide)
  · intro other hother _
    rw [hsize, partSize_eq hother]
    exact max_le_max (other.minPartSize_le_preferred total) (Nat.le_refl _)

/-- Nine gibibytes need parts of five mebibytes. -/
theorem low_bandwidth_least_nine_gibibytes :
    let s : Sizing := { membership := .svip, lowBandwidth := true }
    s.hint = 0 ∧ s.lowBandwidth = true ∧ s.partSize (9 * 1024 * mebibyte) = 5 * mebibyte :=
  ⟨rfl, rfl, (low_bandwidth_least _ rfl rfl _).2.1.trans (by decide)⟩

/-! ## Order -/

/-- What is wanted, the ceiling and the length of the file carry the size with them. -/
theorem partSize_le_partSize {t : Sizing} {a b : Nat} (hwanted : s.wanted a ≤ t.wanted b)
    (hceiling : s.ceiling ≤ t.ceiling) (hab : a ≤ b) (hhint : s.hint = t.hint) :
    s.partSize a ≤ t.partSize b := by
  rcases Nat.eq_zero_or_pos s.hint with hzero | hpos
  · rw [partSize_eq hzero, partSize_eq (hhint ▸ hzero), preferred_eq, preferred_eq]
    have hlimited : min (s.wanted a) s.ceiling ≤ min (t.wanted b) t.ceiling :=
      min_le_min hwanted hceiling
    exact max_le_max (max_le_max (Nat.le_refl _) hlimited) (required_mono hab)
  · rw [partSize_of_hint hpos, partSize_of_hint (hhint ▸ hpos)]
    exact Nat.le_of_eq hhint

/-- The size of a part does not fall with the length of the file, does not rise with the number of
workers, and does not fall from a membership to a higher one. -/
theorem partSize_monotone (s : Sizing) :
    Monotone s.partSize ∧
      (∀ total, Antitone fun threads => { s with threads := threads }.partSize total) ∧
      ∀ total, (Membership.all.map fun membership =>
        { s with membership := membership }.partSize total).Pairwise (· ≤ ·) := by
  refine ⟨?_, ?_, ?_⟩
  · intro a b hab
    exact partSize_le_partSize (s.wanted_mono hab) (Nat.le_refl _) hab rfl
  · intro total m n hmn
    exact partSize_le_partSize (s.wanted_anti total hmn) (Nat.le_refl _) (Nat.le_refl _) rfl
  · intro total
    have hrising : Membership.all.Pairwise fun m n => m.maxPartSize ≤ n.maxPartSize := by decide
    apply List.pairwise_map.mpr
    refine hrising.imp fun {m n} hmn => ?_
    have hwanted : { s with membership := m }.wanted total
        ≤ { s with membership := n }.wanted total := Nat.le_refl _
    have hceiling : { s with membership := m }.ceiling ≤ { s with membership := n }.ceiling := by
      rw [ceiling_eq, ceiling_eq]
      exact hmn
    exact partSize_le_partSize hwanted hceiling (Nat.le_refl _) rfl

end ResumableUpload.Sizing
