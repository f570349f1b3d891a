import Mathlib.Data.List.Count
import ResumableUpload.Proofs.Pool.Trouble

/-!
# A pool that is to stop

When the stop sign goes up or the token is cancelled, some workers have looked already and take a
part yet. Each of them takes one at most, since it looks again before the next; so the parts that
are still handed out are no more than these workers (`length_handedOut_le`). The worker that raised
the sign is not among them.

Where a worker comes from and where it goes to is said once, for every move (`Turn`, `turn_move`).
From this follows what becomes of the parts that workers have taken: a part that is taken after the
token was cancelled is put down as interrupted, and its upload does not begin (`uploading?_after`,
`count_holding_after`); and as long as nothing is cancelled and no worker stops abnormally, each
part ends as uploaded or as failed, whether the sign is up or not (`Kept`).
-/

namespace ResumableUpload

/-- The worker has looked and takes a part yet. A worker that is to look at the token takes none
once the token is cancelled. -/
def Worker.isPast (cancelled : Bool) : Worker σ → Bool
  | .cleared => true
  | .unstopped => !cancelled
  | _ => false

/-- The part that a worker has taken and whose upload has not begun. -/
def Worker.holding? : Worker σ → Option Chunk
  | .holding c => some c
  | _ => none

namespace Pool

variable {σ : Type} {begins : Chunk → σ} {p : Pool σ} {i : Nat} {m : Move σ} {old new : Worker σ}
  {stopped : Bool}

/-! ## Turns of a worker -/

/-- A move takes worker `i` from one place to another; the stop sign may be up. -/
inductive Turn (begins : Chunk → σ) (stopped : Bool) (i : Nat) :
    Move σ → Worker σ → Worker σ → Prop
  | passes (cancelled : Bool) : stopped = false →
      Turn begins stopped i (.step i cancelled) .ready .unstopped
  | heeds (cancelled : Bool) : stopped = true →
      Turn begins stopped i (.step i cancelled) .ready .left
  | clears : Turn begins stopped i (.step i false) .unstopped .cleared
  | yields : Turn begins stopped i (.step i true) .unstopped .left
  | runsOut (cancelled : Bool) : Turn begins stopped i (.step i cancelled) .cleared .left
  | takes (cancelled : Bool) (c : Chunk) :
      Turn begins stopped i (.step i cancelled) .cleared (.holding c)
  | begins (c : Chunk) :
      Turn begins stopped i (.step i false) (.holding c) (.uploading c (begins c))
  | spares (c : Chunk) : Turn begins stopped i (.step i true) (.holding c) .ready
  | raises (cancelled : Bool) (c : Chunk) (f : UploadFault) :
      Turn begins stopped i (.step i cancelled) (.failing c f) (.reporting c f)
  | reports (cancelled : Bool) (c : Chunk) (f : UploadFault) :
      Turn begins stopped i (.step i cancelled) (.reporting c f) .ready
  | goesOn (c : Chunk) (work progress : σ) :
      Turn begins stopped i (.work i progress) (.uploading c work) (.uploading c progress)
  | ends (c : Chunk) (work : σ) (result : Except UploadFault String) :
      Turn begins stopped i (.finish i result) (.uploading c work) .ready
  | fails (c : Chunk) (work : σ) {f : UploadFault} : f ≠ .cancelled →
      Turn begins stopped i (.finish i (.error f)) (.uploading c work) (.failing c f)
  | givesUp (c : Chunk) (work : σ) :
      Turn begins stopped i (.interrupt i) (.uploading c work) .ready
  | refuses (c : Chunk) (text : String) :
      Turn begins stopped i (.crash i text) (.holding c) .crashed
  | falls (c : Chunk) (work : σ) (text : String) :
      Turn begins stopped i (.crash i text) (.uploading c work) .crashed
  | noticed : Turn begins stopped i .collect .crashed .left

/-- A move leaves all workers where they are, or it is a turn of one of them. -/
theorem turn_move (begins : Chunk → σ) (hf : p.Fallen) (m : Move σ) :
    p.move begins m = p ∨ ∃ i old new, p.workers[i]? = some old ∧
      (p.move begins m).workers = p.workers.set i new ∧ Turn begins p.stopped i m old new := by
  cases m with
  | step i cancelled =>
    simp only [move, step]
    split
    · next hi =>
      split
      · next hs => exact .inr ⟨i, _, _, hi, rfl, .heeds cancelled hs⟩
      · next hs => exact .inr ⟨i, _, _, hi, rfl, .passes cancelled (Bool.not_eq_true _ ▸ hs)⟩
    · next hi =>
      cases cancelled with
      | true => exact .inr ⟨i, _, _, hi, rfl, .yields⟩
      | false => exact .inr ⟨i, _, _, hi, rfl, .clears⟩
    · next hi =>
      split
      · exact .inr ⟨i, _, _, hi, rfl, .runsOut cancelled⟩
      · next c rest _ => exact .inr ⟨i, _, _, hi, rfl, .takes cancelled c⟩
    · next c hi =>
      cases cancelled with
      | true => exact .inr ⟨i, _, _, hi, rfl, .spares c⟩
      | false => exact .inr ⟨i, _, _, hi, rfl, .begins c⟩
    · next c f hi => exact .inr ⟨i, _, _, hi, rfl, .raises cancelled c f⟩
    · next c f hi => exact .inr ⟨i, _, _, hi, rfl, .reports cancelled c f⟩
    · exact .inl rfl
  | work i progress =>
    simp only [move]
    split
    · next c hc =>
      obtain ⟨work, hi⟩ := uploading?_eq_some hc
      exact .inr ⟨i, _, _, hi, rfl, .goesOn c work progress⟩
    · exact .inl rfl
  | finish i result =>
    simp only [move]
    split
    · next c hc =>
      obtain ⟨work, hi⟩ := uploading?_eq_some hc
      cases result with
      | ok md5 => exact .inr ⟨i, _, _, hi, rfl, .ends c work (.ok md5)⟩
      | error f =>
        by_cases hcancelled : f = .cancelled
        · subst hcancelled
          exact .inr ⟨i, _, _, hi, rfl, .ends c work (.error .cancelled)⟩
        · rw [finish_fault p i c hcancelled]
          exact .inr ⟨i, _, _, hi, rfl, .fails c work hcancelled⟩
    · exact .inl rfl
  | interrupt i =>
    simp only [move]
    split
    · next c hc =>
      obtain ⟨work, hi⟩ := uploading?_eq_some hc
      exact .inr ⟨i, _, _, hi, rfl, .givesUp c work⟩
    · exact .inl rfl
  | crash i text =>
    simp only [move]
    split
    · next c hi => exact .inr ⟨i, _, _, hi, rfl, .refuses c text⟩
    · next c work hi => exact .inr ⟨i, _, _, hi, rfl, .falls c work text⟩
    · exact .inl rfl
  | collect =>
    simp only [move, collect]
    split
    · exact .inl rfl
    · next i text rest hfallen =>
      have hi : p.workers[i]? = some .crashed := by
        rw [← hf.crashed, hfallen]
        exact List.mem_cons_self
      exact .inr ⟨i, _, _, hi, rfl, .noticed⟩

/-- The part that is handed out in a turn is the one that the worker gains. -/
theorem Turn.handed?_eq (ht : Turn begins stopped i m old new) (hi : p.workers[i]? = some old)
    (hworkers : (p.move begins m).workers = p.workers.set i new) :
    p.handed? begins m = if old.chunk?.isSome then none else new.chunk? := by
  cases m with
  | step j cancelled =>
    obtain rfl : j = i := by cases ht <;> rfl
    exact gained?_set new hi hworkers
  | _ => cases ht <;> rfl

/-- A move that changes nothing hands out nothing. -/
theorem handed?_eq_none (h : p.move begins m = p) : p.handed? begins m = none := by
  cases m with
  | step i cancelled =>
    rw [handed?, h]
    exact gained?_self p i
  | _ => rfl

/-! ## Workers that have looked -/

theorem countP_set_add {α : Type} {f : α → Bool} {xs : List α} {i : Nat} {old : α}
    (hi : xs[i]? = some old) (new : α) :
    (xs.set i new).countP f + (f old).toNat = xs.countP f + (f new).toNat := by
  induction xs generalizing i with
  | nil => cases hi
  | cons x rest ih =>
    cases i with
    | zero =>
      obtain rfl : x = old := Option.some.inj hi
      rw [List.set_cons_zero, List.countP_cons, List.countP_cons]
      cases f x <;> cases f new <;> simp
    | succ i =>
      have hrest := ih hi
      rw [List.set_cons_succ, List.countP_cons, List.countP_cons]
      omega

/-- How many workers have looked and take a part yet. -/
def past (cancelled : Bool) (p : Pool σ) : Nat := p.workers.countP (Worker.isPast cancelled)

/-- A look at the token, if the move is one, finds it cancelled. -/
def Move.SeesCancel : Move σ → Prop
  | .step _ cancelled => cancelled = true
  | _ => True

variable {cancelled : Bool}

/-- A worker that takes a part had looked before; nobody else gets past the sign that is up. -/
theorem Turn.isPast_le (ht : Turn begins stopped i m old new)
    (hbarred : stopped = true ∨ cancelled = true) (hm : cancelled = true → m.SeesCancel) :
    (if old.chunk?.isSome then none else new.chunk?).toList.length
      + (new.isPast cancelled).toNat ≤ (old.isPast cancelled).toNat := by
  cases ht with
  | passes _ hs =>
    have hcancelled : cancelled = true := hbarred.resolve_left (by rw [hs]; exact Bool.noConfusion)
    subst hcancelled
    exact Nat.le_refl 0
  | clears =>
    cases cancelled with
    | true => cases hm rfl
    | false => exact Nat.le_refl 1
  | takes => exact Nat.le_refl 1
  | _ => exact Nat.zero_le _

theorem past_move (begins : Chunk → σ) (hf : p.Fallen)
    (hbarred : p.stopped = true ∨ cancelled = true) (hm : cancelled = true → m.SeesCancel) :
    (p.handed? begins m).toList.length + (p.move begins m).past cancelled ≤ p.past cancelled := by
  rcases turn_move begins hf m with hsame | ⟨i, old, new, hi, hworkers, ht⟩
  · rw [handed?_eq_none hsame, hsame]
    exact Nat.le_of_eq (Nat.zero_add _)
  · have hcount := countP_set_add (f := Worker.isPast cancelled) hi new
    have hle := ht.isPast_le hbarred hm
    rw [ht.handed?_eq hi hworkers, past, past, hworkers]
    omega

/-- The stop sign is never taken down. -/
theorem stopped_move (begins : Chunk → σ) (h : p.stopped = true) (m : Move σ) :
    (p.move begins m).stopped = true := by
  cases m with
  | step i cancelled =>
    simp only [move, step]
    split <;> (try split) <;> first | exact h | rfl
  | finish i result =>
    simp only [move]
    split
    · next c _ =>
      cases result with
      | ok md5 => exact h
      | error f => cases f <;> exact h
    · exact h
  | collect =>
    simp only [move, collect]
    split
    · exact h
    · rfl
  | _ => simp only [move]; split <;> exact h

theorem stopped_after (begins : Chunk → σ) (h : p.stopped = true) (ms : List (Move σ)) :
    (p.after begins ms).stopped = true := by
  induction ms generalizing p with
  | nil => exact h
  | cons m ms ih => exact ih (stopped_move begins h m)

/-- Once the sign is up or the token is cancelled, the workers that have looked are all that take
a part. -/
theorem length_handedOut_le (cancelled : Bool) (hf : p.Fallen)
    (hbarred : p.stopped = true ∨ cancelled = true) {ms : List (Move σ)}
    (hms : cancelled = true → ∀ m ∈ ms, m.SeesCancel) :
    (p.handedOut begins ms).length ≤ p.past cancelled := by
  induction ms generalizing p with
  | nil => exact Nat.zero_le _
  | cons m ms ih =>
    have hmove := past_move begins hf hbarred fun hc => hms hc m List.mem_cons_self
    have hrest := ih (hf.change (change_move begins p m))
      (hbarred.imp_left fun hs => stopped_move begins hs m)
      fun hc x hx => hms hc x (List.mem_cons_of_mem m hx)
    rw [handedOut, List.length_append]
    omega

/-- A worker that is not about to take a part is not among those that have looked. -/
theorem past_lt (hi : p.workers[i]? = some old) (hold : old.isPast cancelled = false) :
    p.past cancelled ≤ p.workers.length - 1 := by
  have hlt : p.past cancelled < p.workers.length :=
    List.countP_lt_length_iff.mpr ⟨old, List.mem_of_getElem? hi, hold⟩
  omega

/-! ## Parts taken after the token was cancelled -/

/-- The parts that workers have taken and whose uploads have not begun. -/
def holding (p : Pool σ) : List Chunk := p.workers.filterMap Worker.holding?

/-- The part of worker `i` whose upload has not begun. -/
def holding? (p : Pool σ) (i : Nat) : Option Chunk := p.workers[i]?.bind Worker.holding?

/-- The part that a move puts down as interrupted before its upload has begun. -/
def spared? (p : Pool σ) : Move σ → Option Chunk
  | .step i true => p.holding? i
  | _ => none

/-- The part for which no upload can be had: the asking stops abnormally. -/
def refused? (p : Pool σ) : Move σ → Option Chunk
  | .crash i _ => p.holding? i
  | _ => none

/-- The parts that come up in the course of some moves, in order. -/
def along (begins : Chunk → σ) (part? : Pool σ → Move σ → Option Chunk) :
    Pool σ → List (Move σ) → List Chunk
  | _, [] => []
  | p, m :: ms => (part? p m).toList ++ along begins part? (p.move begins m) ms

theorem holding?_eq (hi : p.workers[i]? = some old) : p.holding? i = old.holding? := by
  rw [holding?, hi, Option.bind_some]

/-- With the token cancelled a worker gives up the part whose upload has not begun. -/
theorem Turn.count_holding (ht : Turn begins stopped i m old new)
    (hi : p.workers[i]? = some old) (hm : m.SeesCancel) (c : Chunk) :
    (if old.chunk?.isSome then none else new.chunk?).toList.count c + old.holding?.toList.count c
      = (p.spared? m).toList.count c + (p.refused? m).toList.count c
        + new.holding?.toList.count c := by
  cases m with
  | step j cancelled =>
    obtain rfl : cancelled = true := hm
    obtain rfl : j = i := by cases ht <;> rfl
    rw [spared?, holding?_eq hi]
    cases ht <;> simp [refused?, Worker.chunk?, Worker.holding?]
  | crash j text =>
    obtain rfl : j = i := by cases ht <;> rfl
    rw [refused?, holding?_eq hi]
    cases ht <;> simp [spared?, Worker.chunk?, Worker.holding?]
  | _ => cases ht <;> rfl

/-- A worker that has come to another place has no part to give up. -/
theorem holding?_eq_none (new : Worker σ) (hnew : new.holding? = none)
    (h : ∀ c, p.workers[i]? = some (.holding c) → p.workers = p.workers.set i new) :
    p.holding? i = none := by
  unfold holding?
  cases hi : p.workers[i]? with
  | none => rfl
  | some wk =>
    cases wk with
    | holding c =>
      have hlt : i < p.workers.length := (List.getElem?_eq_some_iff.mp hi).1
      rw [h c hi, List.getElem?_set_self hlt, Option.some.injEq] at hi
      rw [hi] at hnew
      cases hnew
    | _ => rfl

/-- A move that changes nothing finds no part whose upload has not begun. -/
theorem spared?_eq_none (h : p.move begins m = p) : p.spared? m = none := by
  cases m with
  | step i cancelled =>
    cases cancelled with
    | false => rfl
    | true =>
      refine holding?_eq_none .ready rfl fun c hi => (congrArg workers h).symm.trans ?_
      simp only [move, step, hi, if_pos]
      rfl
  | _ => rfl

theorem refused?_eq_none (h : p.move begins m = p) : p.refused? m = none := by
  cases m with
  | crash i text =>
    refine holding?_eq_none .crashed rfl fun c hi => (congrArg workers h).symm.trans ?_
    simp only [move, hi]
    rfl
  | _ => rfl

theorem count_holding_move (begins : Chunk → σ) (hf : p.Fallen) (hm : m.SeesCancel) (c : Chunk) :
    (p.handed? begins m).toList.count c + p.holding.count c
      = (p.spared? m).toList.count c + (p.refused? m).toList.count c
        + (p.move begins m).holding.count c := by
  rcases turn_move begins hf m with hsame | ⟨i, old, new, hi, hworkers, ht⟩
  · rw [handed?_eq_none hsame, spared?_eq_none hsame, refused?_eq_none hsame, hsame]
    rfl
  · have hcount := count_filterMap_set Worker.holding? hi new c
    have hturn := ht.count_holding hi hm c
    rw [ht.handed?_eq hi hworkers, holding, holding, hworkers]
    omega

/-- Of the parts taken after the token was cancelled, those that no worker holds any more were put
down as interrupted, unless no upload could be had for them. -/
theorem count_holding_after (hf : p.Fallen) {ms : List (Move σ)}
    (hms : ∀ m ∈ ms, m.SeesCancel) (c : Chunk) :
    (p.handedOut begins ms).count c + p.holding.count c
      = (p.along begins spared? ms).count c + (p.along begins refused? ms).count c
        + (p.after begins ms).holding.count c := by
  induction ms generalizing p with
  | nil => exact Nat.zero_add _ |>.trans (Nat.zero_add _).symm
  | cons m ms ih =>
    have hmove := count_holding_move begins hf (hms m List.mem_cons_self) c
    have hrest := ih (hf.change (change_move begins p m))
      fun x hx => hms x (List.mem_cons_of_mem m hx)
    rw [handedOut, along, along, List.count_append, List.count_append, List.count_append]
    show _ = _ + _ + ((p.move begins m).after begins ms).holding.count c
    omega

/-- With the token cancelled no upload begins. -/
theorem uploading?_move (hf : p.Fallen) (hm : m.SeesCancel) {j : Nat} {c : Chunk}
    (h : (p.move begins m).uploading? j = some c) : p.uploading? j = some c := by
  rcases turn_move begins hf m with hsame | ⟨i, old, new, hi, hworkers, ht⟩
  · rwa [hsame] at h
  · obtain ⟨work, hj⟩ := uploading?_eq_some h
    have hlt : i < p.workers.length := (List.getElem?_eq_some_iff.mp hi).1
    rw [hworkers] at hj
    by_cases hij : i = j
    · subst hij
      rw [List.getElem?_set_self hlt] at hj
      obtain rfl : new = .uploading c work := Option.some.inj hj
      cases ht with
      | begins => cases hm
      | goesOn _ old =>
        rw [uploading?, hi]
    · rw [List.getElem?_set_ne hij] at hj
      rw [uploading?, hj]

theorem uploading?_after (hf : p.Fallen) {ms : List (Move σ)} (hms : ∀ m ∈ ms, m.SeesCancel)
    {j : Nat} {c : Chunk} (h : (p.after begins ms).uploading? j = some c) :
    p.uploading? j = some c := by
  induction ms generalizing p with
  | nil => exact h
  | cons m ms ih =>
    exact uploading?_move hf (hms m List.mem_cons_self)
      (ih (hf.change (change_move begins p m)) (fun x hx => hms x (List.mem_cons_of_mem m hx)) h)

theorem interrupted_change {new : Option Chunk} {p' : Pool σ} (hc : p.Change new p') :
    ∃ more, p'.report.interrupted = p.report.interrupted ++ more := by
  cases hc with
  | goes _ _ _ _ hreport =>
    rw [hreport]
    exact ⟨[], (List.append_nil _).symm⟩
  | @drops _ _ c => exact ⟨[c.index], rfl⟩
  | _ => exact ⟨[], (List.append_nil _).symm⟩

/-- What is put down as interrupted stays, and a part whose upload has not begun is added. -/
theorem interrupted_move (begins : Chunk → σ) (p : Pool σ) (m : Move σ) :
    ∃ more, (p.move begins m).report.interrupted = p.report.interrupted ++ more ∧
      ((p.spared? m).toList.map Chunk.index).Sublist more := by
  cases hspared : p.spared? m with
  | some c =>
    refine ⟨[c.index], ?_, List.Sublist.refl _⟩
    cases m with
    | step i cancelled =>
      cases cancelled with
      | false => cases hspared
      | true =>
        obtain ⟨wk, hi, hwk⟩ := Option.bind_eq_some_iff.mp hspared
        cases wk with
        | holding d =>
          obtain rfl : d = c := Option.some.inj hwk
          simp only [move, step, hi, if_pos]
          rfl
        | _ => cases hwk
    | _ => cases hspared
  | none =>
    obtain ⟨more, hmore⟩ := interrupted_change (change_move begins p m)
    exact ⟨more, hmore, List.nil_sublist _⟩

theorem interrupted_after (begins : Chunk → σ) (p : Pool σ) (ms : List (Move σ)) :
    ∃ more, (p.after begins ms).report.interrupted = p.report.interrupted ++ more ∧
      ((p.along begins spared? ms).map Chunk.index).Sublist more := by
  induction ms generalizing p with
  | nil => exact ⟨[], (List.append_nil _).symm, List.Sublist.refl _⟩
  | cons m ms ih =>
    obtain ⟨first, hfirst, hspared⟩ := interrupted_move begins p m
    obtain ⟨rest, hrest, hothers⟩ := ih (p.move begins m)
    refine ⟨first ++ rest, ?_, ?_⟩
    · rw [← List.append_assoc, ← hfirst]
      exact hrest
    · rw [along, List.map_append]
      exact hspared.append hothers

/-! ## Parts of a pool that nobody cancels -/

/-- The upload of a part, or the asking for it, stops abnormally. -/
def Move.isCrash : Move σ → Bool
  | .crash .. => true
  | _ => false

/-- Without a crash no worker is put down as fallen. -/
theorem fallen_move (begins : Chunk → σ) (hm : m.isCrash = false) (h : p.fallen = []) :
    (p.move begins m).fallen = [] ∧
      (p.move begins m).report.workerErrors = p.report.workerErrors := by
  cases m with
  | step i cancelled =>
    simp only [move, step]
    split <;> (try split) <;> exact ⟨h, rfl⟩
  | finish i result =>
    simp only [move]
    split
    · cases result with
      | ok md5 => exact ⟨h, rfl⟩
      | error f => cases f <;> exact ⟨h, rfl⟩
    · exact ⟨h, rfl⟩
  | crash i text => cases hm
  | collect =>
    simp only [move, collect, h]
    exact ⟨trivial, trivial⟩
  | _ => simp only [move]; split <;> exact ⟨h, rfl⟩

theorem fallen_after (begins : Chunk → σ) {ms : List (Move σ)}
    (hms : ∀ m ∈ ms, m.isCrash = false) (h : p.fallen = []) :
    (p.after begins ms).fallen = [] ∧
      (p.after begins ms).report.workerErrors = p.report.workerErrors := by
  induction ms generalizing p with
  | nil => exact ⟨h, rfl⟩
  | cons m ms ih =>
    obtain ⟨hfallen, herrors⟩ := fallen_move begins (hms m List.mem_cons_self) h
    obtain ⟨hlast, hall⟩ := ih (fun x hx => hms x (List.mem_cons_of_mem m hx)) hfallen
    exact ⟨hlast, hall.trans herrors⟩

/-- Each part handed out was uploaded or has failed, or a worker has it; none was interrupted. -/
structure Kept (handed : List Chunk) (p : Pool σ) : Prop where
  told : ∃ done failed, handed.Perm (done ++ failed ++ p.held) ∧
    p.report.completed.map Prod.fst = done.map Chunk.index ∧
    p.report.failures.map Prod.fst = failed.map Chunk.index
  interrupted : p.report.interrupted = []
  workerErrors : p.report.workerErrors = []
  held : p.isDone = true → p.held = []

theorem Shares.kept {chunks handed : List Chunk} {t : Tally} (h : p.Shares chunks handed t)
    (hinterrupted : p.report.interrupted = []) (hfallen : p.fallen = [])
    (herrors : p.report.workerErrors = []) : p.Kept handed where
  told := by
    have hdropped : t.dropped = [] :=
      List.map_eq_nil_iff.mp (h.interrupted.symm.trans hinterrupted)
    have hlost : t.lost = [] := by
      apply List.length_eq_zero_iff.mp
      rw [← h.lost, hfallen, herrors]
      rfl
    refine ⟨t.done, t.failed, ?_, h.completed, h.failures⟩
    apply List.perm_iff_count.mpr
    intro c
    have hshared := h.shared c
    rw [Tally.all, hdropped, hlost, List.append_nil, List.append_nil] at hshared
    rw [List.count_append, hshared]
  interrupted := hinterrupted
  workerErrors := herrors
  held := held_of_isDone


/-! ## Faults of parts -/

/-- A part whose upload was cancelled does not count as failed. -/
def Genuine (p : Pool σ) : Prop := ∀ wk ∈ p.workers, wk.fault? ≠ some .cancelled

theorem genuine_start (threads : Nat) (chunks : List Chunk) :
    (start threads chunks : Pool σ).Genuine := by
  intro wk hwk
  rw [List.eq_of_mem_replicate hwk]
  exact nofun

theorem Turn.genuine (ht : Turn begins stopped i m old new) (h : old.fault? ≠ some .cancelled) :
    new.fault? ≠ some .cancelled := by
  cases ht with
  | raises => exact h
  | fails _ _ hf => exact fun heq => hf (Option.some.inj heq)
  | _ => exact nofun

theorem Genuine.move (h : p.Genuine) (hf : p.Fallen) (m : Move σ) : (p.move begins m).Genuine := by
  rcases turn_move begins hf m with hsame | ⟨i, old, new, hi, hworkers, ht⟩
  · rwa [hsame]
  · intro wk hwk
    rw [hworkers] at hwk
    rcases List.mem_or_eq_of_mem_set hwk with hold | rfl
    · exact h wk hold
    · exact ht.genuine (h old (List.mem_of_getElem? hi))

theorem Genuine.after (h : p.Genuine) (hf : p.Fallen) (ms : List (Move σ)) :
    (p.after begins ms).Genuine := by
  induction ms generalizing p with
  | nil => exact h
  | cons m ms ih => exact ih (h.move hf m) (hf.change (change_move begins p m))

/-! ## Bounds -/

/-- What a pool with `w` workers still does once it is cancelled: no look at the token from this
moment on finds it valid. -/
structure Cancelled (begins : Chunk → σ) (w : Nat) (p : Pool σ) (later : List (Move σ)) :
    Prop where
  few : (p.handedOut begins later).length ≤ w
  -- who uploads a part did so before
  unbegun : ∀ {i : Nat} {c : Chunk},
    (p.after begins later).uploading? i = some c → p.uploading? i = some c
  -- a part taken is put down without its upload, none can be had for it, or its worker holds it
  shared : (p.handedOut begins later ++ p.holding).Perm
    (p.along begins spared? later ++ p.along begins refused? later
      ++ (p.after begins later).holding)
  recorded : ∃ more, (p.after begins later).report.interrupted = p.report.interrupted ++ more ∧
    ((p.along begins spared? later).map Chunk.index).Sublist more
  -- in the end all parts taken are interrupted, if an upload can be had for each
  interrupted : (p.after begins later).isDone = true → p.along begins refused? later = [] →
    ∀ c ∈ p.handedOut begins later, c.index ∈ (p.after begins later).report.interrupted

/-- What a pool with `w` workers still does from a moment on at which it is to stop. -/
structure Halting (begins : Chunk → σ) (w : Nat) (p : Pool σ) : Prop where
  /-- The stop sign is never taken down. -/
  stays : p.stopped = true → ∀ later, (p.after begins later).stopped = true
  /-- A worker whose part failed raises the sign, and each of the others takes a part at most. -/
  raised : ∀ {i : Nat} {c : Chunk} {f : UploadFault} (cancelled : Bool),
    p.workers[i]? = some (.failing c f) → f ≠ .cancelled ∧
      (p.move begins (.step i cancelled)).stopped = true ∧
      ∀ later, ((p.move begins (.step i cancelled)).handedOut begins later).length ≤ w - 1
  cancelled : ∀ later, (∀ m ∈ later, m.SeesCancel) → p.Cancelled begins w later

theorem holding_of_isDone (hdone : p.isDone = true) : p.holding = [] := by
  apply List.filterMap_eq_nil_iff.mpr
  intro wk hwk
  have hleft := List.all_eq_true.mp hdone wk hwk
  cases wk with
  | left => rfl
  | _ => cases hleft

theorem Fallen.cancelled_after (hf : p.Fallen) {later : List (Move σ)}
    (hlater : ∀ m ∈ later, m.SeesCancel) : p.Cancelled begins p.workers.length later := by
  have hshared : (p.handedOut begins later ++ p.holding).Perm
      (p.along begins spared? later ++ p.along begins refused? later
        ++ (p.after begins later).holding) := by
    apply List.perm_iff_count.mpr
    intro c
    rw [List.count_append, List.count_append, List.count_append]
    exact count_holding_after hf hlater c
  have hrecorded := interrupted_after begins p later
  refine ⟨?_, uploading?_after hf hlater, hshared, hrecorded, fun hdone hrefused c hc => ?_⟩
  · exact Nat.le_trans (length_handedOut_le true hf (.inr rfl) fun _ => hlater)
      List.countP_le_length
  · rw [hrefused, holding_of_isDone hdone, List.append_nil, List.append_nil] at hshared
    have hspared : c ∈ p.along begins spared? later :=
      hshared.mem_iff.mp (List.mem_append_left _ hc)
    obtain ⟨more, hmore, hsub⟩ := hrecorded
    rw [hmore]
    exact List.mem_append_right _ (hsub.subset (List.mem_map_of_mem hspared))

theorem Genuine.raised (h : p.Genuine) (hf : p.Fallen) {i : Nat} {c : Chunk} {f : UploadFault}
    (cancelled : Bool) (hi : p.workers[i]? = some (.failing c f)) :
    f ≠ .cancelled ∧ (p.move begins (.step i cancelled)).stopped = true ∧
      ∀ later, ((p.move begins (.step i cancelled)).handedOut begins later).length
        ≤ p.workers.length - 1 := by
  have hlt : i < p.workers.length := (List.getElem?_eq_some_iff.mp hi).1
  have hmove : p.move begins (.step i cancelled)
      = { p with stopped := true }.setWorker i (.reporting c f) := by
    simp only [Pool.move, Pool.step, hi]
  have hstopped : (p.move begins (.step i cancelled)).stopped = true := by
    rw [hmove]
    rfl
  have hreporting : (p.move begins (.step i cancelled)).workers[i]? = some (.reporting c f) := by
    rw [hmove]
    exact List.getElem?_set_self hlt
  refine ⟨fun heq => ?_, hstopped, fun later => ?_⟩
  · subst heq
    exact h _ (List.mem_of_getElem? hi) rfl
  · have hf' : (p.move begins (.step i cancelled)).Fallen := hf.change (change_move begins p _)
    rw [← length_workers_change (change_move begins p (.step i cancelled))]
    exact Nat.le_trans
      (length_handedOut_le false hf' (.inl hstopped) Bool.noConfusion)
      (past_lt hreporting rfl)

/-- Whatever the workers of a pool did until then: when a part fails, at most as many parts are
handed out as there are other workers, and after the token was cancelled at most as many as there
are workers, which are interrupted before their uploads begin. As long as nothing is cancelled and
no worker stops abnormally, each part handed out ends as uploaded or as failed. -/
theorem halting_after (begins : Chunk → σ) (threads : Nat) (chunks : List Chunk)
    (ms : List (Move σ)) :
    let p := (start threads chunks).after begins ms
    p.Halting begins (min (max 1 (min threads 32)) chunks.length) ∧
      ((∀ m ∈ ms, m.isCancel = false ∧ m.isCrash = false) →
        p.Kept ((start threads chunks).handedOut begins ms)) := by
  intro p
  obtain ⟨hf, t, h⟩ := shares_after begins (shares_start threads chunks)
    (fallen_start threads chunks) ms
  have hw : p.workers.length = min (max 1 (min threads 32)) chunks.length :=
    (length_workers_after (start threads chunks) ms).trans List.length_replicate
  have hgenuine : p.Genuine :=
    (genuine_start threads chunks).after (fallen_start threads chunks) ms
  rw [← hw]
  refine ⟨⟨fun hs => stopped_after begins hs, fun cancelled => hgenuine.raised hf cancelled,
    fun later hlater => hf.cancelled_after hlater⟩, fun hms => ?_⟩
  have hunbroken : p.Unbroken :=
    unbroken_after (unbroken_start threads chunks) fun m hm => (hms m hm).1
  obtain ⟨hfallen, herrors⟩ := fallen_after begins (p := start threads chunks)
    (fun m hm => (hms m hm).2) rfl
  exact h.kept hunbroken.interrupted hfallen herrors

namespace Sample

/-- The first of three workers fails when the others have just looked at the stop sign. -/
def failing : List (Move Unit) :=
  taking 0 ++ [.finish 0 (.error (.internal "full")), .step 1 false, .step 2 false]

/-- The others go on as far as they can. -/
def slipping : List (Move Unit) := [1, 2].flatMap taking

end Sample

/-- Each of the others takes a part, and no more are taken. -/
theorem halting_after_failure :
    let p := (start 3 Sample.parts).after (fun _ => ()) Sample.failing
    p.workers[0]? = some (.failing ⟨0, 0, 10, false⟩ (.internal "full")) ∧
      (∀ m ∈ Sample.failing, m.isCancel = false ∧ m.isCrash = false) ∧
      p.Kept (Sample.parts.take 1) ∧
      ((p.move (fun _ => ()) (.step 0 false)).handedOut (fun _ => ())
        Sample.slipping).length = 3 - 1 := by
  obtain ⟨hhalting, hkept⟩ := halting_after (fun _ => ()) 3 Sample.parts Sample.failing
  have hfailing : ((start 3 Sample.parts).after (fun _ => ()) Sample.failing).workers[0]?
      = some (.failing ⟨0, 0, 10, false⟩ (.internal "full")) := rfl
  have hquiet : ∀ m ∈ Sample.failing, m.isCancel = false ∧ m.isCrash = false := by decide
  have hhanded : (start 3 Sample.parts).handedOut (fun _ => ()) Sample.failing
      = Sample.parts.take 1 := by decide
  refine ⟨hfailing, hquiet, hhanded ▸ hkept hquiet, Nat.le_antisymm ?_ (by decide)⟩
  exact (hhalting.raised false hfailing).2.2 Sample.slipping

end Pool

end ResumableUpload
