import ResumableUpload.Proofs.Plan.Pieces

/-!
# The search for a size

With little bandwidth a size is searched for, upwards from the least one by steps. The search goes on
(`GoesOn`) as long as the size is below the ceiling and gives too many parts. It comes to an end
after some turns (`grow_turns`). At each turn (`Searching`) the size is a multiple of the step within
the limits, and none below it would do; so where the search ends is known in advance (`grow_eq`).
-/

namespace ResumableUpload.Sizing

variable {total ceiling size : Nat}

/-- The search does not end at this size: it may be larger, and it gives too many parts. -/
def GoesOn (total ceiling size : Nat) : Prop :=
  size < ceiling ∧ maxPartCount < piecesOf total size

/-- The search ends: it goes on for some turns, a step further each time, and then no more. -/
theorem grow_turns (total ceiling size : Nat) :
    ∃ turns, (∀ k < turns, GoesOn total ceiling (size + k * partSizeStep)) ∧
      ¬ GoesOn total ceiling (size + turns * partSizeStep) ∧
      grow total ceiling size = size + turns * partSizeStep := by
  fun_induction grow total ceiling size with
  | case1 size hgo ih =>
    obtain ⟨turns, hbefore, hend, hgrow⟩ := ih
    have hshift : ∀ k, size + (k + 1) * partSizeStep = size + partSizeStep + k * partSizeStep := by
      intro k
      rw [Nat.succ_mul, Nat.add_comm (k * partSizeStep), Nat.add_assoc]
    refine ⟨turns + 1, ?_, ?_, ?_⟩
    · intro k hk
      cases k with
      | zero => rwa [Nat.zero_mul, Nat.add_zero]
      | succ k =>
        rw [hshift]
        exact hbefore k (Nat.lt_of_succ_lt_succ hk)
    · rwa [hshift]
    · rwa [hshift]
  | case2 size hstop =>
    refine ⟨0, fun k hk => absurd hk (Nat.not_lt_zero k), ?_, ?_⟩
    · rwa [Nat.zero_mul, Nat.add_zero]
    · rw [Nat.zero_mul, Nat.add_zero]

/-- What holds of a size that the search has come to. -/
structure Searching (total ceiling size : Nat) : Prop where
  dvd : partSizeStep ∣ size
  min_le : minPartSize ≤ size
  le_ceiling : size ≤ ceiling
  /-- No smaller size would do: either it is the first, or the file requires as much. -/
  le_required : size ≤ max minPartSize (required total)

namespace Searching

theorem size_pos (h : Searching total ceiling size) : 0 < size :=
  Nat.lt_of_lt_of_le (by decide : 0 < minPartSize) h.min_le

theorem first (hmin : minPartSize ≤ ceiling) : Searching total ceiling minPartSize where
  dvd := by decide
  min_le := Nat.le_refl _
  le_ceiling := hmin
  le_required := Nat.le_max_left _ _

/-- A turn of the search. -/
theorem next (h : Searching total ceiling size) (hceiling : partSizeStep ∣ ceiling)
    (hgo : GoesOn total ceiling size) : Searching total ceiling (size + partSizeStep) := by
  -- a multiple of the step that is larger is larger by a step
  have hstep : ∀ {bound}, partSizeStep ∣ bound → size < bound → size + partSizeStep ≤ bound := by
    intro bound hdvd hlt
    apply Nat.le_of_lt_add_of_dvd (Nat.add_lt_add_right hlt _) _ hdvd
    exact Nat.dvd_add h.dvd (Nat.dvd_refl _)
  have hrequired : size < required total := by
    rw [← Nat.not_le, required_le_iff h.dvd h.size_pos, Nat.not_le]
    exact hgo.2
  exact {
    dvd := Nat.dvd_add h.dvd (Nat.dvd_refl _)
    min_le := Nat.le_trans h.min_le (Nat.le_add_right _ _)
    le_ceiling := hstep hceiling hgo.1
    le_required := Nat.le_trans (hstep (dvd_required total) hrequired) (Nat.le_max_right _ _) }

/-- A whole search, turn by turn. -/
theorem grow (h : Searching total ceiling size) (hceiling : partSizeStep ∣ ceiling) :
    Searching total ceiling (grow total ceiling size) := by
  fun_induction Sizing.grow total ceiling size with
  | case1 size hgo ih => exact ih (h.next hceiling hgo)
  | case2 size _ => exact h

/-- A size at which the search ends is as large as the file requires, up to the ceiling. -/
theorem min_required_le (h : Searching total ceiling size) (hend : ¬ GoesOn total ceiling size) :
    min (required total) ceiling ≤ size := by
  by_cases hlt : size < ceiling
  · have hfew : piecesOf total size ≤ maxPartCount :=
      Nat.not_lt.mp fun hmany => hend ⟨hlt, hmany⟩
    exact Nat.le_trans (Nat.min_le_left _ _) ((required_le_iff h.dvd h.size_pos).mpr hfew)
  · exact Nat.le_trans (Nat.min_le_right _ _) (Nat.not_lt.mp hlt)

end Searching

theorem not_goesOn_grow (total ceiling size : Nat) :
    ¬ GoesOn total ceiling (grow total ceiling size) := by
  obtain ⟨turns, -, hend, hgrow⟩ := grow_turns total ceiling size
  rwa [hgrow]

/-- The search finds the size that the file requires, within the limits. -/
theorem grow_eq (hmin : minPartSize ≤ ceiling) (hceiling : partSizeStep ∣ ceiling) :
    grow total ceiling minPartSize = max minPartSize (min (required total) ceiling) := by
  have hsearch : Searching total ceiling (grow total ceiling minPartSize) :=
    (Searching.first hmin).grow hceiling
  apply Nat.le_antisymm
  · have hceil := hsearch.le_ceiling
    have hreq := hsearch.le_required
    omega
  · apply Nat.max_le.mpr
    exact ⟨hsearch.min_le, hsearch.min_required_le (not_goesOn_grow total ceiling minPartSize)⟩

end ResumableUpload.Sizing
