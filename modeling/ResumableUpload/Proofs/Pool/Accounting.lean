import Mathlib.Data.List.Perm.Subperm
import ResumableUpload.Proofs.Pool.Course

/-!
# What becomes of the parts

However the workers of a pool come in between one another, however uploads end and whenever the
token is cancelled, no part is lost or handed out twice. The parts handed out are a beginning of the
queue, in its order (`Shares.queued`); each of them has come to exactly one end, or a worker has it
(`Shares.shared`); and a part without an end is one whose worker stopped abnormally. When all
workers are done, the report accounts for every part (`every_part_accounted`).
-/

namespace ResumableUpload

namespace Pool

variable {σ : Type} {begins : Chunk → σ} {p p' : Pool σ} {chunks handed : List Chunk}

/-- The parts that workers have taken. -/
def held (p : Pool σ) : List Chunk := p.workers.filterMap Worker.chunk?

/-- The parts handed out that workers are done with, by what became of them. -/
structure Tally where
  done : List Chunk := []
  failed : List Chunk := []
  dropped : List Chunk := []
  -- their workers stopped abnormally
  lost : List Chunk := []

namespace Tally

def all (t : Tally) : List Chunk := t.done ++ t.failed ++ t.dropped ++ t.lost

/-- A report says of the parts what became of them; for each lost part it has the report of a
worker. -/
structure Matches (t : Tally) (r : PoolReport) : Prop where
  completed : r.completed.map Prod.fst = t.done.map Chunk.index
  failures : r.failures.map Prod.fst = t.failed.map Chunk.index
  interrupted : r.interrupted = t.dropped.map Chunk.index
  lost : r.workerErrors.length = t.lost.length

end Tally

/-! ## Workers that stopped abnormally -/

/-- The workers that stopped abnormally are those that nobody has noticed yet. -/
structure Fallen (p : Pool σ) : Prop where
  once : (p.fallen.map Prod.fst).Nodup
  crashed : ∀ i, i ∈ p.fallen.map Prod.fst ↔ p.workers[i]? = some .crashed

theorem fallen_start (threads : Nat) (chunks : List Chunk) :
    (start threads chunks : Pool σ).Fallen where
  once := List.nodup_nil
  crashed i := by
    refine ⟨fun h => absurd h List.not_mem_nil, fun h => ?_⟩
    cases List.eq_of_mem_replicate (List.mem_of_getElem? h)

/-- A worker that has not stopped abnormally goes on. -/
theorem Fallen.goes (h : p.Fallen) {i : Nat} {old new : Worker σ} (hi : p.workers[i]? = some old)
    (hworkers : p'.workers = p.workers.set i new) (hfallen : p'.fallen = p.fallen)
    (hold : old ≠ .crashed) (hnew : new ≠ .crashed) : p'.Fallen where
  once := hfallen ▸ h.once
  crashed j := by
    have hlt : i < p.workers.length := (List.getElem?_eq_some_iff.mp hi).1
    rw [hfallen, h.crashed, hworkers]
    by_cases hij : i = j
    · subst hij
      rw [List.getElem?_set_self hlt, hi]
      exact ⟨fun hc => absurd (Option.some.inj hc) hold, fun hc => absurd (Option.some.inj hc) hnew⟩
    · rw [List.getElem?_set_ne hij]

theorem ne_crashed_of_chunk? {wk : Worker σ} {c : Chunk} (h : wk.chunk? = some c) :
    wk ≠ .crashed := by
  rintro rfl
  cases h

theorem Fallen.change (h : p.Fallen) {new : Option Chunk} (hc : p.Change new p') : p'.Fallen := by
  cases hc with
  | nothing => exact h
  | goes hi hworkers _ _ _ hfallen hold hnew => exact h.goes hi hworkers hfallen hold hnew
  | takes hi _ => exact h.goes hi rfl rfl nofun nofun
  | completes _ hi hchunk => exact h.goes hi rfl rfl (ne_crashed_of_chunk? hchunk) nofun
  | fails _ hi hchunk => exact h.goes hi rfl rfl (ne_crashed_of_chunk? hchunk) nofun
  | drops hi hchunk => exact h.goes hi rfl rfl (ne_crashed_of_chunk? hchunk) nofun
  | @falls i old c text hi hchunk =>
    have hlt : i < p.workers.length := (List.getElem?_eq_some_iff.mp hi).1
    have hfresh : i ∉ p.fallen.map Prod.fst := by
      rw [h.crashed, hi]
      exact fun heq => ne_crashed_of_chunk? hchunk (Option.some.inj heq)
    constructor
    · show ((p.fallen ++ [(i, text)]).map Prod.fst).Nodup
      rw [List.map_append, List.map_singleton]
      refine List.nodup_append.mpr ⟨h.once, List.nodup_cons.mpr ⟨List.not_mem_nil, .nil⟩, ?_⟩
      rintro j hj k hk rfl
      have hji : j = i := List.mem_singleton.mp hk
      exact hfresh (hji ▸ hj)
    · intro j
      show j ∈ (p.fallen ++ [(i, text)]).map Prod.fst ↔ (p.workers.set i .crashed)[j]? = _
      rw [List.map_append, List.mem_append, h.crashed, List.map_singleton, List.mem_singleton]
      by_cases hij : i = j
      · subst hij
        rw [List.getElem?_set_self hlt]
        exact ⟨fun _ => rfl, fun _ => .inr rfl⟩
      · rw [List.getElem?_set_ne hij]
        exact ⟨fun hj => hj.resolve_right fun heq => hij heq.symm, .inl⟩
  | @collects i text rest hfallen =>
    have honce := h.once
    rw [hfallen, List.map_cons, List.nodup_cons] at honce
    have hi : p.workers[i]? = some .crashed := by
      rw [← h.crashed, hfallen]
      exact List.mem_cons_self
    have hlt : i < p.workers.length := (List.getElem?_eq_some_iff.mp hi).1
    refine ⟨honce.2, fun j => ?_⟩
    show j ∈ rest.map Prod.fst ↔ (p.workers.set i .left)[j]? = _
    by_cases hij : i = j
    · subst hij
      rw [List.getElem?_set_self hlt]
      exact ⟨fun hj => absurd hj honce.1, fun hj => by cases hj⟩
    · rw [List.getElem?_set_ne hij, ← h.crashed, hfallen, List.map_cons, List.mem_cons]
      exact ⟨.inr, fun hj => hj.resolve_left fun heq => hij heq.symm⟩

theorem Fallen.eq_nil (h : p.Fallen) (hdone : p.isDone = true) : p.fallen = [] := by
  cases hf : p.fallen with
  | nil => rfl
  | cons x rest =>
    have hx : p.workers[x.1]? = some .crashed := by
      rw [← h.crashed, hf]
      exact List.mem_cons_self
    cases List.all_eq_true.mp hdone _ (List.mem_of_getElem? hx)

/-! ## Parts -/

theorem count_filterMap_set {α β : Type} [DecidableEq β] (f : α → Option β) {xs : List α} {i : Nat}
    {old : α} (hi : xs[i]? = some old) (new : α) (b : β) :
    ((xs.set i new).filterMap f).count b + (f old).toList.count b
      = (xs.filterMap f).count b + (f new).toList.count b := by
  induction xs generalizing i with
  | nil => cases hi
  | cons x rest ih =>
    have hcons : ∀ (y : α) (ys : List α),
        ((y :: ys).filterMap f).count b = (f y).toList.count b + (ys.filterMap f).count b := by
      intro y ys
      cases hy : f y with
      | none =>
        simp only [List.filterMap_cons, hy, Option.toList_none, List.count_nil, Nat.zero_add]
      | some z =>
        simp only [List.filterMap_cons, hy, Option.toList_some, List.count_cons, List.count_nil]
        omega
    cases i with
    | zero =>
      have hx : x = old := Option.some.inj hi
      subst hx
      show ((new :: rest).filterMap f).count b + _ = _
      rw [hcons, hcons]
      omega
    | succ i =>
      show ((x :: rest.set i new).filterMap f).count b + _ = _
      rw [hcons, hcons]
      have := ih hi
      omega

/-- The parts that workers have, when one of them comes to another place. -/
theorem count_held {i : Nat} {old new : Worker σ} (hi : p.workers[i]? = some old)
    (hworkers : p'.workers = p.workers.set i new) (c : Chunk) :
    p'.held.count c + old.chunk?.toList.count c = p.held.count c + new.chunk?.toList.count c := by
  rw [held, hworkers]
  exact count_filterMap_set Worker.chunk? hi new c

/-- Where the parts of a pool are. -/
structure Shares (chunks handed : List Chunk) (p : Pool σ) (t : Tally) : Prop where
  -- parts are handed out in their order, none of them twice
  queued : handed ++ p.queue = chunks
  -- each part handed out has come to one end, or one worker has it
  shared : ∀ c, handed.count c = t.all.count c + p.held.count c
  completed : p.report.completed.map Prod.fst = t.done.map Chunk.index
  failures : p.report.failures.map Prod.fst = t.failed.map Chunk.index
  interrupted : p.report.interrupted = t.dropped.map Chunk.index
  lost : p.report.workerErrors.length + p.fallen.length = t.lost.length

theorem shares_start (threads : Nat) (chunks : List Chunk) :
    (start threads chunks : Pool σ).Shares chunks [] {} where
  queued := rfl
  shared c := by
    have hheld : (start threads chunks : Pool σ).held = [] := by
      apply List.filterMap_eq_nil_iff.mpr
      intro wk hwk
      rw [List.eq_of_mem_replicate hwk]
      rfl
    rw [hheld]
    rfl
  completed := rfl
  failures := rfl
  interrupted := rfl
  lost := rfl

variable {t : Tally}

/-- A worker that goes on with the part that it has changes nothing. -/
theorem Shares.goes (h : p.Shares chunks handed t) {i : Nat} {old new : Worker σ}
    (hi : p.workers[i]? = some old) (hworkers : p'.workers = p.workers.set i new)
    (hchunk : new.chunk? = old.chunk?) (hqueue : p'.queue = p.queue)
    (hreport : p'.report = p.report) (hfallen : p'.fallen = p.fallen) :
    p'.Shares chunks handed t where
  queued := hqueue ▸ h.queued
  shared c := by
    have hcount := count_held hi hworkers c
    rw [hchunk] at hcount
    have hold := h.shared c
    omega
  completed := hreport ▸ h.completed
  failures := hreport ▸ h.failures
  interrupted := hreport ▸ h.interrupted
  lost := by rw [hreport, hfallen, h.lost]

/-- A worker is done with its part: the part is wherever the worker has put it. -/
theorem Shares.moved (h : p.Shares chunks handed t) {i : Nat} {old new : Worker σ} {c : Chunk}
    {t' : Tally} (hi : p.workers[i]? = some old) (hchunk : old.chunk? = some c)
    (hworkers : p'.workers = p.workers.set i new) (hnew : new.chunk? = none)
    (hall : ∀ d, t'.all.count d = t.all.count d + [c].count d) (d : Chunk) :
    handed.count d = t'.all.count d + p'.held.count d := by
  have hcount := count_held hi hworkers d
  rw [hchunk, hnew, Option.toList_some, Option.toList_none, List.count_nil] at hcount
  have hold := h.shared d
  have hput := hall d
  omega

/-- The first part of the queue is handed out. -/
theorem Shares.takes (h : p.Shares chunks handed t) {i : Nat} {c : Chunk} {rest : List Chunk}
    (hi : p.workers[i]? = some .cleared) (hqueue : p.queue = c :: rest) :
    ({ p with queue := rest }.setWorker i (.holding c)).Shares chunks (handed ++ [c]) t where
  queued := by
    show handed ++ [c] ++ rest = chunks
    rw [List.append_assoc, List.singleton_append, ← hqueue]
    exact h.queued
  shared d := by
    have hworkers : ({ p with queue := rest }.setWorker i (.holding c)).workers
        = p.workers.set i (.holding c) := rfl
    have hcount := count_held hi hworkers d
    have hold := h.shared d
    rw [List.count_append]
    change _ + 0 = _ + [c].count d at hcount
    omega
  completed := h.completed
  failures := h.failures
  interrupted := h.interrupted
  lost := h.lost

/-- A worker that stopped abnormally is noticed; its part was lost before. -/
theorem Shares.collects (h : p.Shares chunks handed t) (hf : p.Fallen) {i : Nat} {text : String}
    {rest : List (Nat × String)} (hfallen : p.fallen = (i, text) :: rest) :
    Shares chunks handed ({ p with
      stopped := true
      report := { p.report with workerErrors := p.report.workerErrors ++ [text] }
      fallen := rest }.setWorker i .left) t where
  queued := h.queued
  shared d := by
    have hi : p.workers[i]? = some .crashed := by
      rw [← hf.crashed, hfallen]
      exact List.mem_cons_self
    have hcount := count_filterMap_set Worker.chunk? hi .left d
    have hold : handed.count d = t.all.count d + (p.workers.filterMap _).count d := h.shared d
    show handed.count d = t.all.count d + ((p.workers.set i .left).filterMap Worker.chunk?).count d
    change _ + 0 = _ + 0 at hcount
    omega
  completed := h.completed
  failures := h.failures
  interrupted := h.interrupted
  lost := by
    show (p.report.workerErrors ++ [text]).length + rest.length = t.lost.length
    have hlost := h.lost
    rw [hfallen, List.length_cons] at hlost
    rw [List.length_append, List.length_singleton]
    omega

/-- Every change of a pool leaves each part in one place. -/
theorem Shares.change (h : p.Shares chunks handed t) (hf : p.Fallen) {new : Option Chunk}
    (hc : p.Change new p') : ∃ t', p'.Shares chunks (handed ++ new.toList) t' := by
  have hkeeps : ∀ {p' : Pool σ} (t' : Tally), p'.Shares chunks handed t' →
      ∃ t', p'.Shares chunks (handed ++ (none : Option Chunk).toList) t' := by
    intro p' t' h'
    rw [Option.toList_none, List.append_nil]
    exact ⟨t', h'⟩
  cases hc with
  | nothing => exact hkeeps t h
  | goes hi hworkers hchunk hqueue hreport hfallen =>
    exact hkeeps t (h.goes hi hworkers hchunk hqueue hreport hfallen)
  | takes hi hqueue => exact ⟨t, h.takes hi hqueue⟩
  | @completes i old c md5 hi hchunk =>
    apply hkeeps { t with done := t.done ++ [c] }
    refine ⟨h.queued, ?_, ?_, h.failures, h.interrupted, h.lost⟩
    · apply h.moved hi hchunk rfl rfl
      intro d
      simp only [Tally.all, List.count_append]
      omega
    · show (p.report.completed ++ [(c.index, md5)]).map Prod.fst = (t.done ++ [c]).map Chunk.index
      rw [List.map_append, List.map_append, h.completed]
      rfl
  | @fails i old c f hi hchunk =>
    apply hkeeps { t with failed := t.failed ++ [c] }
    refine ⟨h.queued, ?_, h.completed, ?_, h.interrupted, h.lost⟩
    · apply h.moved hi hchunk rfl rfl
      intro d
      simp only [Tally.all, List.count_append]
      omega
    · show (p.report.failures ++ [(c.index, f)]).map Prod.fst = (t.failed ++ [c]).map Chunk.index
      rw [List.map_append, List.map_append, h.failures]
      rfl
  | @drops i old c hi hchunk =>
    apply hkeeps { t with dropped := t.dropped ++ [c] }
    refine ⟨h.queued, ?_, h.completed, h.failures, ?_, h.lost⟩
    · apply h.moved hi hchunk rfl rfl
      intro d
      simp only [Tally.all, List.count_append]
      omega
    · show p.report.interrupted ++ [c.index] = (t.dropped ++ [c]).map Chunk.index
      rw [List.map_append, h.interrupted]
      rfl
  | @falls i old c text hi hchunk =>
    apply hkeeps { t with lost := t.lost ++ [c] }
    refine ⟨h.queued, ?_, h.completed, h.failures, h.interrupted, ?_⟩
    · apply h.moved hi hchunk rfl rfl
      intro d
      simp only [Tally.all, List.count_append]
      omega
    · show p.report.workerErrors.length + (p.fallen ++ [(i, text)]).length = (t.lost ++ [c]).length
      have hlost := h.lost
      simp only [List.length_append, List.length_singleton]
      omega
  | collects hfallen => exact hkeeps t (h.collects hf hfallen)

/-- A part that a worker has is nowhere else. -/
theorem Shares.alone (h : p.Shares chunks handed t) (hnodup : chunks.Nodup) {i : Nat}
    {wk : Worker σ} {c : Chunk} (hi : p.workers[i]? = some wk) (hchunk : wk.chunk? = some c) :
    c ∉ p.queue ∧ ∀ j wk', j ≠ i → p.workers[j]? = some wk' → wk'.chunk? ≠ some c := by
  have hone : handed.count c + p.queue.count c ≤ 1 := by
    rw [← List.count_append, h.queued]
    exact List.nodup_iff_count.mp hnodup c
  have hshared := h.shared c
  have hheld : 1 ≤ p.held.count c :=
    List.count_pos_iff.mpr (List.mem_filterMap.mpr ⟨wk, List.mem_of_getElem? hi, hchunk⟩)
  refine ⟨fun hmem => ?_, fun j wk' hj hwk' hchunk' => ?_⟩
  · have hqueued := List.count_pos_iff.mpr hmem
    omega
  · -- without this worker, the other one would still have the part
    have hcount : (p.setWorker i .ready).held.count c + wk.chunk?.toList.count c =
        p.held.count c + (Worker.chunk? (.ready : Worker σ)).toList.count c :=
      count_held hi rfl c
    have hother : 1 ≤ (p.setWorker i .ready).held.count c := by
      refine List.count_pos_iff.mpr (List.mem_filterMap.mpr ⟨wk', ?_, hchunk'⟩)
      exact List.mem_of_getElem? ((List.getElem?_set_ne fun heq => hj heq.symm).trans hwk')
    rw [hchunk, Option.toList_some, List.count_singleton_self] at hcount
    change _ = _ + 0 at hcount
    omega

/-- After any moves the parts handed out are shared among ends and workers. -/
theorem shares_after (begins : Chunk → σ) (h : p.Shares chunks handed t) (hf : p.Fallen)
    (ms : List (Move σ)) :
    (p.after begins ms).Fallen ∧
      ∃ t', (p.after begins ms).Shares chunks (handed ++ p.handedOut begins ms) t' := by
  induction ms generalizing p handed t with
  | nil =>
    refine ⟨hf, t, ?_⟩
    rw [handedOut, List.append_nil]
    exact h
  | cons m ms ih =>
    obtain ⟨t', h'⟩ := h.change hf (change_move begins p m)
    rw [handedOut, ← List.append_assoc]
    exact ih h' (hf.change (change_move begins p m))

theorem length_workers_change {new : Option Chunk} (hc : p.Change new p') :
    p'.workers.length = p.workers.length := by
  cases hc with
  | nothing => rfl
  | goes _ hworkers => rw [hworkers, List.length_set]
  | _ => exact List.length_set

theorem length_workers_after (p : Pool σ) (ms : List (Move σ)) :
    (p.after begins ms).workers.length = p.workers.length := by
  induction ms generalizing p with
  | nil => rfl
  | cons m ms ih =>
    exact (ih (p.move begins m)).trans (length_workers_change (change_move begins p m))

/-! ## The report -/

/-- What a report says of the parts given to a pool, when some of them were handed out. -/
structure Accounted (chunks handed : List Chunk) (r : PoolReport) : Prop where
  -- the parts handed out are the first ones, and the others are counted
  handedFirst : ∃ rest, handed ++ rest = chunks ∧ r.unassigned = rest.length
  -- each part handed out is in one place, and in one only
  told : ∃ t : Tally, handed.Perm t.all ∧ t.Matches r
  total : r.completed.length + r.failures.length + r.interrupted.length + r.workerErrors.length
    + r.unassigned = chunks.length
  success : r.isSuccess = true ↔ (r.completed.map Prod.fst).Perm (chunks.map Chunk.index)
  successOfDistinct : (chunks.map Chunk.index).Nodup →
    (r.isSuccess = true ↔ ∀ c ∈ chunks, c.index ∈ r.completed.map Prod.fst)

theorem isSuccess_iff (r : PoolReport) :
    r.isSuccess = true ↔ r.failures.length + r.interrupted.length + r.workerErrors.length
      + r.unassigned = 0 := by
  simp only [PoolReport.isSuccess, Bool.and_eq_true, List.isEmpty_iff, beq_iff_eq,
    Nat.add_eq_zero_iff, List.length_eq_zero_iff]

/-- When all workers are done, no part is left with one of them. -/
theorem held_of_isDone (hdone : p.isDone = true) : p.held = [] := by
  apply List.filterMap_eq_nil_iff.mpr
  intro wk hwk
  have hleft := List.all_eq_true.mp hdone wk hwk
  cases wk with
  | left => rfl
  | _ => cases hleft

/-- All parts were uploaded if nothing else has become of any. -/
theorem perm_of_total {t : Tally} {r : PoolReport} {rest : List Chunk}
    (hperm : handed.Perm t.all) (ht : t.Matches r)
    (hnone : r.failures.length + r.interrupted.length + r.workerErrors.length + rest.length = 0) :
    (r.completed.map Prod.fst).Perm ((handed ++ rest).map Chunk.index) := by
  have hfailed : t.failed = [] := by
    have hlength := congrArg List.length ht.failures
    rw [List.length_map, List.length_map] at hlength
    exact List.length_eq_zero_iff.mp (by omega)
  have hdropped : t.dropped = [] := by
    have hlength := congrArg List.length ht.interrupted
    rw [List.length_map] at hlength
    exact List.length_eq_zero_iff.mp (by omega)
  have hlost : t.lost = [] := by
    have hlength := ht.lost
    exact List.length_eq_zero_iff.mp (by omega)
  have hrest : rest = [] := List.length_eq_zero_iff.mp (by omega)
  rw [Tally.all, hfailed, hdropped, hlost, List.append_nil, List.append_nil, List.append_nil]
    at hperm
  rw [ht.completed, hrest, List.append_nil]
  exact (hperm.map Chunk.index).symm

/-- What the places of the parts say about the report of a pool that is done. -/
theorem Shares.accounted {t : Tally} (h : p.Shares chunks handed t) (hf : p.Fallen)
    (hdone : p.isDone = true) : Accounted chunks handed p.result := by
  have hperm : handed.Perm t.all := by
    apply List.perm_iff_count.mpr
    intro c
    rw [h.shared c, held_of_isDone hdone, List.count_nil, Nat.add_zero]
  have hmatches : t.Matches p.result := by
    have hlost := h.lost
    rw [hf.eq_nil hdone, List.length_nil, Nat.add_zero] at hlost
    exact ⟨h.completed, h.failures, h.interrupted, hlost⟩
  have htotal : p.result.completed.length + p.result.failures.length + p.result.interrupted.length
      + p.result.workerErrors.length + p.result.unassigned = chunks.length := by
    have hchunks := congrArg List.length h.queued
    have hhanded := hperm.length_eq
    have hcompleted := congrArg List.length hmatches.completed
    have hfailures := congrArg List.length hmatches.failures
    have hinterrupted := congrArg List.length hmatches.interrupted
    have hlost := hmatches.lost
    have hrest : p.result.unassigned = p.queue.length := rfl
    simp only [Tally.all, List.length_append, List.length_map] at *
    omega
  have hsuccess : p.result.isSuccess = true →
      (p.result.completed.map Prod.fst).Perm (chunks.map Chunk.index) := by
    intro hs
    rw [← h.queued]
    exact perm_of_total hperm hmatches ((isSuccess_iff p.result).mp hs)
  -- a report that names as many uploaded parts as there are parts names nothing else
  have hfull : chunks.length ≤ p.result.completed.length → p.result.isSuccess = true := by
    intro hle
    apply (isSuccess_iff p.result).mpr
    omega
  refine ⟨⟨p.queue, h.queued, rfl⟩, ⟨t, hperm, hmatches⟩, htotal, ⟨hsuccess, fun hs => ?_⟩,
    fun hdistinct => ⟨fun hs c hc => ?_, fun hall => ?_⟩⟩
  · have hlength := hs.length_eq
    rw [List.length_map, List.length_map] at hlength
    exact hfull (Nat.le_of_eq hlength.symm)
  · exact (hsuccess hs).mem_iff.mpr (List.mem_map_of_mem hc)
  · have hsub : chunks.map Chunk.index ⊆ p.result.completed.map Prod.fst := by
      intro n hn
      obtain ⟨c, hc, rfl⟩ := List.mem_map.mp hn
      exact hall c hc
    have hle := (List.subperm_of_subset hdistinct hsub).length_le
    rw [List.length_map, List.length_map] at hle
    exact hfull hle

/-- When all workers are done, the report accounts for the parts that the moves handed out. -/
theorem accounted_after (begins : Chunk → σ) (threads : Nat) (chunks : List Chunk)
    (ms : List (Move σ)) (hdone : ((start threads chunks).after begins ms).isDone = true) :
    Accounted chunks ((start threads chunks).handedOut begins ms)
      ((start threads chunks).after begins ms).result := by
  obtain ⟨hf, t, h⟩ := shares_after begins (shares_start threads chunks)
    (fallen_start threads chunks) ms
  exact h.accounted hf hdone

/-- Whatever the workers do and in whatever order, no more parts are under way than the pool has
workers, the parts handed out are the first ones in their order, and when all workers are done the
report accounts for each part given to the pool. -/
theorem every_part_accounted (begins : Chunk → σ) (threads : Nat) (chunks : List Chunk)
    (ms : List (Move σ)) :
    let p := (start threads chunks).after begins ms
    let handed := (start threads chunks).handedOut begins ms
    p.held.length ≤ min (max 1 (min threads 32)) chunks.length ∧ handed <+: chunks ∧
      (p.isDone = true → Accounted chunks handed p.result) := by
  intro p handed
  obtain ⟨_, t, h⟩ := shares_after begins (shares_start threads chunks)
    (fallen_start threads chunks) ms
  refine ⟨?_, ⟨p.queue, h.queued⟩, accounted_after begins threads chunks ms⟩
  calc p.held.length ≤ p.workers.length := List.length_filterMap_le _ _
    _ = (start threads chunks : Pool σ).workers.length := length_workers_after _ ms
    _ = min (max 1 (min threads 32)) chunks.length := List.length_replicate

namespace Sample

/-- Six parts. -/
def parts : List Chunk := (List.range 6).map fun i => ⟨i, 10 * i, 10, false⟩

/-- A worker takes a part and starts to upload it. -/
def taking (i : Nat) : List (Move Unit) := List.replicate 4 (.step i false)

/-- Four workers take a part each. The first uploads it, the second fails, the third stops
abnormally, and the fourth gives its part up. -/
def moves : List (Move Unit) :=
  [0, 1, 2, 3].flatMap taking ++ [.finish 0 (.ok "md5"), .finish 1 (.error (.internal "full")),
    .crash 2 "boom", .interrupt 3, .step 1 false, .step 1 false, .collect, .step 0 false,
    .step 1 false, .step 3 false]

end Sample

/-- One part of each kind, and two that nobody takes. -/
theorem every_part_accounted_mixed :
    let p := (start 4 Sample.parts).after (fun _ => ()) Sample.moves
    p.isDone = true ∧
      p.result = ⟨[(0, "md5")], [(1, .internal "full")], [3], 2, [crashReport "boom"]⟩ ∧
      Accounted Sample.parts (Sample.parts.take 4) p.result := by
  have hdone : ((start 4 Sample.parts).after (fun _ => ()) Sample.moves).isDone = true := by decide
  have hhanded : (start 4 Sample.parts).handedOut (fun _ => ()) Sample.moves
      = Sample.parts.take 4 := by decide
  refine ⟨hdone, rfl, ?_⟩
  have haccounted := (every_part_accounted (fun _ => ()) 4 Sample.parts Sample.moves).2.2 hdone
  rwa [hhanded] at haccounted

end Pool

end ResumableUpload
