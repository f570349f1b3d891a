import ResumableUpload.CommandLine.Upload
import ResumableUpload.Proofs.Session.Own

/-!
# The session of the program is part of a history

Whatever happens to the session of the program comes down to few actions (`Sitting.meet_cases`): the
tasks of its one run take steps, the session is cancelled, and time passes. So the session is part
of a history (`Sitting.exists_actions`), and what holds of all histories holds of it. As no other
session is run, the run has the store to itself (`alone_of_plays`).
-/

namespace ResumableUpload.CommandLine

open Session

/-- The actions in which a session is played to which these things happen. -/
inductive Plays (xs : List Happening) : Action → Prop
  | signal (worker : Option Nat) (sig : Signal) : Plays xs (.signal ⟨0, worker⟩ sig)
  | cancel : Plays xs (.cancel 0)
  | setClock {now : Int} : .clock now ∈ xs → Plays xs (.setClock now)
  | age (nanos : Nat) : Plays xs (.age 0 nanos)

variable {xs : List Happening} {a : Action}

namespace Plays

theorem leavesFiles (ha : Plays xs a) : a.leavesFiles = true := by
  cases ha <;> rfl

theorem clockFits (hxs : ∀ now, .clock now ∈ xs → TimeFits now) (ha : Plays xs a) :
    a.ClockFits := by
  cases ha with
  | setClock hmem => exact hxs _ hmem
  | _ => exact trivial

/-- Nothing is played but the one run. -/
theorem run_eq (ha : Plays xs a) (h : History) {x : Entry} (hx : x ∈ h.entries a) : x.run = 0 := by
  cases ha with
  | signal worker sig =>
    obtain ⟨_, -, rfl⟩ := List.mem_map.mp hx
    rfl
  | _ => cases hx

end Plays

/-! ## What happens -/

namespace Sitting

/-- Something that happens is an action, or nothing comes of it. -/
theorem meet_cases (s : Sitting) {x : Happening} (hx : x ∈ xs) :
    (s.meet x).engine = s.engine ∨ ∃ a, Plays xs a ∧ (s.meet x).engine = s.engine.act a := by
  cases x with
  | go worker => exact .inr ⟨_, .signal worker .go, rfl⟩
  | outcome worker o =>
    simp only [meet, receive]
    split
    · exact .inl rfl
    · exact .inr ⟨_, .signal worker _, rfl⟩
  | lookupLate worker => exact .inr ⟨_, .signal worker _, rfl⟩
  | limit worker => exact .inr ⟨_, .signal worker .limit, rfl⟩
  | wake worker => exact .inr ⟨_, .signal worker .wake, rfl⟩
  | interrupt =>
    simp only [meet, interrupt]
    split
    · exact .inl rfl
    · exact .inr ⟨_, .cancel, rfl⟩
  | clock now => exact .inr ⟨_, .setClock hx, rfl⟩
  | pass nanos => exact .inr ⟨_, .age nanos, rfl⟩

/-- All that happens to a session is part of a history that has come as far. -/
theorem exists_actions {ys : List Happening} (hsub : ys ⊆ xs) {s : Sitting} {h : History}
    (hengine : s.engine = h.engine) :
    ∃ as, (∀ a ∈ as, Plays xs a) ∧ (ys.foldl meet s).engine = (h.after as).engine := by
  induction ys generalizing s h with
  | nil => exact ⟨[], fun _ ha => absurd ha List.not_mem_nil, hengine⟩
  | cons y rest ih =>
    obtain ⟨hy, hrest⟩ := List.cons_subset.mp hsub
    rcases s.meet_cases hy with hsame | ⟨a, ha, hact⟩
    · exact ih hrest (hsame.trans hengine)
    · obtain ⟨as, has, heq⟩ := ih hrest (h := h.next a) (by rw [hact, hengine]; rfl)
      exact ⟨a :: as, List.forall_mem_cons.mpr ⟨ha, has⟩, heq⟩

end Sitting

/-! ## One run -/

theorem journal_after_of_plays {as : List Action} (h : History) (has : ∀ a ∈ as, Plays xs a) :
    ∃ entries : List Entry, (h.after as).journal = h.journal ++ entries ∧
      ∀ x ∈ entries, x.run = 0 := by
  induction as generalizing h with
  | nil => exact ⟨[], (List.append_nil _).symm, fun _ hx => absurd hx List.not_mem_nil⟩
  | cons a rest ih =>
    obtain ⟨entries, hjournal, hrun⟩ := ih (h.next a) fun b hb => has b (List.mem_cons_of_mem a hb)
    refine ⟨h.entries a ++ entries, hjournal.trans (List.append_assoc ..), fun x hx => ?_⟩
    exact (List.mem_append.mp hx).elim ((has a List.mem_cons_self).run_eq h) (hrun x)

/-- The one run of a session has the store to itself. -/
theorem alone_of_plays {as : List Action} (h : History) (has : ∀ a ∈ as, Plays xs a) :
    h.Alone as 0 where
  reload path hmem := nomatch has _ hmem
  others x hx hne := by
    obtain ⟨entries, hjournal, hrun⟩ := journal_after_of_plays h has
    rw [hjournal, List.drop_left] at hx
    exact absurd (hrun x hx) hne

end ResumableUpload.CommandLine
