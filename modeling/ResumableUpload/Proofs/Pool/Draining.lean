import ResumableUpload.Proofs.Pool.Trouble

/-!
# A pool that runs out of work

What the workers of a pool have still to do has a weight, if the upload of a part has one and none
weighs more than when it begins (`Pool.weight`). While nothing is cancelled every step of a worker
that does not upload takes something off it (`weight_step`), and so does the notice of a worker that
stopped abnormally (`weight_collect`); and there is something to do until all workers are done
(`Fallen.idle_or_busy`).
-/

namespace ResumableUpload

variable {σ : Type} {load : σ → Nat} {full : Nat}

/-- What a worker has still to do at most until it looks for the next part or leaves. -/
def Worker.weight (load : σ → Nat) (full : Nat) : Worker σ → Nat
  | .left => 0
  | .crashed | .cleared => 1
  | .unstopped => 2
  | .ready => 3
  | .reporting .. => 4
  | .failing .. => 5
  | .uploading _ work => 6 + load work
  | .holding _ => 7 + full

/-- What several workers have still to do at most. -/
def Worker.weights (load : σ → Nat) (full : Nat) : List (Worker σ) → Nat
  | [] => 0
  | wk :: rest => wk.weight load full + weights load full rest

theorem Worker.weights_set (load : σ → Nat) (full : Nat) {wks : List (Worker σ)} {i : Nat}
    {old : Worker σ} (hi : wks[i]? = some old) (new : Worker σ) :
    weights load full (wks.set i new) + old.weight load full
      = weights load full wks + new.weight load full := by
  induction wks generalizing i with
  | nil => cases hi
  | cons wk rest ih =>
    cases i with
    | zero =>
      obtain rfl : wk = old := Option.some.inj hi
      rw [List.set_cons_zero, weights, weights]
      omega
    | succ i =>
      have hrest := ih hi
      rw [List.set_cons_succ, weights, weights]
      omega

namespace Pool

variable {begins : Chunk → σ} {p p' : Pool σ} {i : Nat} {old new : Worker σ}

/-- What the workers have still to do at most, with the parts that are left. -/
def weight (load : σ → Nat) (full : Nat) (p : Pool σ) : Nat :=
  Worker.weights load full p.workers + p.queue.length * (7 + full)

/-- A worker comes to a place with less to do. -/
theorem weight_lt (hi : p.workers[i]? = some old) (hworkers : p'.workers = p.workers.set i new)
    (hqueue : p'.queue = p.queue) (hnew : new.weight load full < old.weight load full) :
    p'.weight load full < p.weight load full := by
  have hsum := Worker.weights_set load full hi new
  rw [weight, weight, hworkers, hqueue]
  omega

/-- A worker that does not upload and is not done has something to do. -/
theorem weight_step (hbegins : ∀ c, load (begins c) ≤ full) (hi : p.workers[i]? = some old)
    (hleft : old ≠ .left) (hcrashed : old ≠ .crashed) (hidle : ∀ c work, old ≠ .uploading c work) :
    (p.step begins false i).1.weight load full < p.weight load full := by
  cases old with
  | ready =>
    simp only [step, hi]
    split
    · exact weight_lt hi rfl rfl (by decide : 0 < 3)
    · exact weight_lt hi rfl rfl (by decide : 2 < 3)
  | unstopped =>
    simp only [step, hi]
    exact weight_lt hi rfl rfl (by decide : 1 < 2)
  | cleared =>
    simp only [step, hi]
    split
    · exact weight_lt hi rfl rfl (by decide : 0 < 1)
    · next c rest hqueue =>
      -- the part that the worker takes is off the queue
      have hsum := Worker.weights_set load full hi (.holding c)
      simp only [weight, setWorker, hqueue, List.length_cons, Nat.succ_mul]
      simp only [Worker.weight] at hsum ⊢
      omega
  | holding c =>
    simp only [step, hi]
    refine weight_lt hi rfl rfl ?_
    have hc := hbegins c
    simp only [Worker.weight]
    omega
  | uploading c work => exact absurd rfl (hidle c work)
  | failing c f =>
    simp only [step, hi]
    exact weight_lt hi rfl rfl (by decide : 4 < 5)
  | reporting c f =>
    simp only [step, hi]
    exact weight_lt hi rfl rfl (by decide : 3 < 4)
  | crashed => exact absurd rfl hcrashed
  | left => exact absurd rfl hleft

/-- A worker whose upload ends is past the most of its work. -/
theorem weight_ends {c : Chunk} {work : σ} (hi : p.workers[i]? = some (.uploading c work))
    (hworkers : p'.workers = p.workers.set i new) (hqueue : p'.queue = p.queue)
    (hnew : new.weight load full < 6) : p'.weight load full < p.weight load full :=
  weight_lt hi hworkers hqueue (Nat.lt_of_lt_of_le hnew (Nat.le_add_right 6 (load work)))

theorem weight_finish {c : Chunk} {work : σ} (hi : p.workers[i]? = some (.uploading c work))
    (result : Except UploadFault String) :
    (p.finish i c result).1.weight load full < p.weight load full := by
  cases result with
  | ok md5 => exact weight_ends hi rfl rfl (by decide : 3 < 6)
  | error f =>
    by_cases hf : f = .cancelled
    · subst hf
      exact weight_ends hi rfl rfl (by decide : 3 < 6)
    · rw [finish_fault p i c hf]
      exact weight_ends hi rfl rfl (by decide : 5 < 6)

/-- A worker that stopped abnormally is noticed once. -/
theorem weight_collect (hf : p.Fallen) (hne : p.fallen ≠ []) :
    p.collect.1.weight load full < p.weight load full := by
  unfold collect
  split
  · next hnil => exact absurd hnil hne
  · next i text rest hfallen =>
    have hi : p.workers[i]? = some .crashed := by
      rw [← hf.crashed, hfallen]
      exact List.mem_cons_self
    exact weight_lt hi rfl rfl (by decide : 0 < 1)

/-- Until all workers are done, one of them has something to do, or one that stopped abnormally is
to be noticed. -/
theorem Fallen.idle_or_busy (hf : p.Fallen) (hdone : p.isDone = false) :
    p.fallen ≠ [] ∨
      ∃ (i : Nat) (wk : Worker σ), p.workers[i]? = some wk ∧ wk ≠ .left ∧ wk ≠ .crashed := by
  obtain ⟨wk, hwk, hhere⟩ := List.all_eq_false.mp hdone
  obtain ⟨i, hi⟩ := List.getElem?_of_mem hwk
  have hleft : wk ≠ .left := by
    rintro rfl
    exact hhere rfl
  by_cases hcrashed : wk = .crashed
  · subst hcrashed
    refine .inl fun hnil => ?_
    have hmem := (hf.crashed i).mpr hi
    rw [hnil] at hmem
    cases hmem
  · exact .inr ⟨i, wk, hi, hleft, hcrashed⟩

end Pool

end ResumableUpload
