import ResumableUpload.Proofs.Session.Announcing
import ResumableUpload.Proofs.Session.Parts

/-!
# Attempts to send a part

A part is read once, and every attempt that finds a host sends what was read (`Transfer.Goes.slice`).
So each part is sent with one request, at most as often as the retries admit, and not after it was
answered (`Trace.spent`), as no two workers have parts of one number (`Run.Setup.apart`).
-/

namespace ResumableUpload.Session

namespace Transfer

variable {job : Job} {c : Chunk} {payload : ByteArray} {cancelled : Bool} {w w' : World}
  {sig : Signal} {n : Nat}

/-- The part is sent only in a step after which an attempt goes on. -/
theorem Goes.locates {t : Transfer} {r : TransferResult} {calls : List Call}
    (h : Goes job c cancelled w sig t r calls) (hr : ∀ t', r ≠ .more t') : Locates calls := by
  rcases h.locates_or_sends with hcalls | ⟨_, _, _, _, _, -, hmore, -⟩
  · exact hcalls
  · exact absurd hmore (hr _)

/-! ## What was sent of a part -/

/-- What was read of the part. -/
def payload? : Transfer → Option ByteArray
  | reading => none
  | ready payload _ | attempting payload _ _ | pausing payload _ _ => some payload

/-- The part is sent with what was read of it, to a host that the resolver gives. -/
theorem Goes.slice {t : Transfer} {r : TransferResult} {calls : List Call}
    (h : Goes job c cancelled w sig t r calls) {url token : String} {q : SliceRequest}
    (hq : .slice url token q ∈ calls) : ∃ payload e, t.payload? = some payload ∧
      q = request job c payload ∧ e.baseUrl = url ∧
      w.Gives job.resolver job.target.accessToken sig e := by
  rcases h.locates_or_sends with
    hcalls | ⟨payload, _, _, e, before, rfl, -, hbefore, hgives, rfl⟩
  · obtain ⟨_, heq⟩ := hcalls _ hq
    cases heq
  · rcases List.mem_append.mp hq with hq | hq
    · obtain ⟨_, heq⟩ := hbefore _ hq
      cases heq
    · cases List.mem_singleton.mp hq
      exact ⟨payload, e, rfl, rfl, rfl, hgives⟩

/-- How often the part was sent at most. -/
def tries : Transfer → Nat
  | reading => 0
  | ready _ n | attempting _ n (.resolving _) => n
  | attempting _ n (.sending _) | pausing _ n _ => n + 1

/-- The attempts keep within a bound on the retries. -/
def Within (maxRetries : Nat) : Transfer → Prop
  | reading => True
  | ready _ n | attempting _ n _ => n ≤ maxRetries
  | pausing _ n _ => n < maxRetries

theorem Within.tries_le {maxRetries : Nat} {t : Transfer} (h : t.Within maxRetries) :
    t.tries ≤ maxRetries + 1 := by
  cases t with
  | reading => exact Nat.zero_le _
  | ready payload n => exact Nat.le_succ_of_le h
  | attempting payload n a =>
    cases a with
    | resolving caller => exact Nat.le_succ_of_le h
    | sending e => exact Nat.succ_le_succ h
  | pausing payload n wait => exact Nat.le_succ_of_le h

theorem Goes.within {t t' : Transfer} {calls : List Call}
    (h : Goes job c cancelled w sig t (.more t') calls) (hwithin : t.Within job.policy.maxRetries) :
    t'.Within job.policy.maxRetries := by
  cases h with
  | stays => exact hwithin
  | reads _ => exact Nat.zero_le _
  | begins payload n => exact hwithin
  | looks payload n caller caller' _ => exact hwithin
  | sends payload n caller _ _ => exact hwithin
  | pauses payload n a wait hn _ => exact hn
  | resumes payload n wait => exact hwithin

end Transfer

/-- The request with which the part with this number is sent. -/
def Event.sent? (n : Nat) : Event → Option SliceRequest
  | .called _ (.slice _ _ q) => if q.partseq = n then some q else none
  | _ => none

/-- The server has answered the part with this number. -/
def Event.acknowledges (n : Nat) : Event → Bool
  | .answered _ (.slice _ _ q) (.slice _) => q.partseq == n
  | _ => false

/-- The requests with which the part with this number was sent. -/
def sentOf (n : Nat) (evs : List Event) : List SliceRequest := evs.filterMap (Event.sent? n)

theorem mem_sentOf {n : Nat} {evs : List Event} {q : SliceRequest} (h : q ∈ sentOf n evs) :
    ∃ who url token, .called who (.slice url token q) ∈ evs := by
  obtain ⟨x, hx, hq⟩ := List.mem_filterMap.mp h
  unfold Event.sent? at hq
  split at hq
  · split at hq
    · cases hq
      exact ⟨_, _, _, hx⟩
    · cases hq
  · cases hq

/-- The part with this number was sent as often as a bound on the retries admits, with one request,
and no more once it was answered. -/
structure Spent (maxRetries n : Nat) (evs : List Event) : Prop where
  bounded : (sentOf n evs).length ≤ maxRetries + 1
  same : ∀ q ∈ sentOf n evs, ∀ q' ∈ sentOf n evs, q = q'
  answered : evs.Pairwise fun x y => x.acknowledges n = true → y.sent? n = none

/-- The events have nothing to do with the part with this number. -/
def Spares (n : Nat) (evs : List Event) : Prop :=
  ∀ x ∈ evs, x.sent? n = none ∧ x.acknowledges n = false

section spent

variable {maxRetries n : Nat} {evs new : List Event}

theorem sentOf_append : sentOf n (evs ++ new) = sentOf n evs ++ sentOf n new :=
  List.filterMap_append

theorem Spares.sentOf (h : Spares n evs) : sentOf n evs = [] :=
  List.filterMap_eq_nil_iff.mpr fun x hx => (h x hx).1

theorem Spares.append (h : Spares n evs) (hnew : Spares n new) : Spares n (evs ++ new) :=
  fun x hx => (List.mem_append.mp hx).elim (h x) (hnew x)

theorem spares_nil (n : Nat) : Spares n [] := fun _ hx => absurd hx List.not_mem_nil

theorem Spares.spent (h : Spares n evs) (maxRetries : Nat) : Spent maxRetries n evs where
  bounded := by rw [h.sentOf]; exact Nat.zero_le _
  same q hq := by rw [h.sentOf] at hq; cases hq
  answered := List.pairwise_of_forall_mem_list fun x hx _ _ hack => by
    rw [(h x hx).2] at hack
    cases hack

/-- A part that was answered in the last of some events was not sent after it. -/
theorem Spent.quiet (h : Spent maxRetries n evs) (hnew : ∀ x ∈ new, x.sent? n = none) :
    Spent maxRetries n (evs ++ new) := by
  have hnone : sentOf n new = [] := List.filterMap_eq_nil_iff.mpr hnew
  have hsame : sentOf n (evs ++ new) = sentOf n evs := by
    rw [sentOf_append, hnone, List.append_nil]
  refine ⟨hsame ▸ h.bounded, hsame ▸ h.same, ?_⟩
  refine List.pairwise_append.mpr ⟨h.answered, ?_, fun x _ y hy _ => hnew y hy⟩
  exact List.pairwise_of_forall_mem_list fun x _ y hy _ => hnew y hy

end spent

/-- What was sent of a part that is uploaded: what was read of it, once for each attempt at most. -/
structure Tallied (job : Job) (evs : List Event) (c : Chunk) (t : Transfer) : Prop where
  within : t.Within job.policy.maxRetries
  count : (sentOf c.index evs).length ≤ t.tries
  requests : ∀ q ∈ sentOf c.index evs,
    ∃ payload, t.payload? = some payload ∧ q = Transfer.request job c payload
  unanswered : ∀ x ∈ evs, x.acknowledges c.index = false

section tried

variable {job : Job} {evs new : List Event} {c : Chunk} {t t' : Transfer}

/-- A part that was not sent before is read next. -/
theorem Spares.tallied (h : Spares c.index evs) (job : Job) : Tallied job evs c .reading where
  within := trivial
  count := by rw [h.sentOf]; exact Nat.zero_le _
  requests q hq := by rw [h.sentOf] at hq; cases hq
  unanswered x hx := (h x hx).2

theorem Tallied.spent (h : Tallied job evs c t) : Spent job.policy.maxRetries c.index evs where
  bounded := Nat.le_trans h.count h.within.tries_le
  same q hq q' hq' := by
    obtain ⟨payload, hpayload, rfl⟩ := h.requests q hq
    obtain ⟨payload', hpayload', rfl⟩ := h.requests q' hq'
    rw [Option.some.inj (hpayload.symm.trans hpayload')]
  answered := List.pairwise_of_forall_mem_list fun x hx _ _ hack => by
    rw [h.unanswered x hx] at hack
    cases hack

/-- Nothing is sent. -/
theorem Tallied.keeps (h : Tallied job evs c t) (hnew : Spares c.index new)
    (hwithin : t'.Within job.policy.maxRetries) (htries : t.tries ≤ t'.tries)
    (hpayload : ∀ payload, t.payload? = some payload → t'.payload? = some payload) :
    Tallied job (evs ++ new) c t' where
  within := hwithin
  count := by
    rw [sentOf_append, hnew.sentOf, List.append_nil]
    exact Nat.le_trans h.count htries
  requests q hq := by
    rw [sentOf_append, hnew.sentOf, List.append_nil] at hq
    obtain ⟨payload, hp, hq⟩ := h.requests q hq
    exact ⟨payload, hpayload payload hp, hq⟩
  unanswered x hx := (List.mem_append.mp hx).elim (h.unanswered x) fun hx => (hnew x hx).2

theorem spares_locates {calls : List Call} (h : Transfer.Locates calls) (n : Nat)
    (worker : Option Nat) : Spares n (calls.map (.called worker)) := by
  intro x hx
  obtain ⟨call, hcall, rfl⟩ := List.mem_map.mp hx
  obtain ⟨token, rfl⟩ := h call hcall
  exact ⟨rfl, rfl⟩

/-- The part is sent once more. -/
theorem Tallied.sends {payload : ByteArray} {n : Nat} {caller : Caller}
    (h : Tallied job evs c (.attempting payload n (.resolving caller))) (e : Endpoint)
    (hnew : Spares c.index new) (i : Nat) :
    Tallied job (evs ++ (new ++ [.called (some i) (.slice e.baseUrl job.target.accessToken
      (Transfer.request job c payload))])) c (.attempting payload n (.sending e)) := by
  have hsent : sentOf c.index (evs ++ (new ++ [.called (some i) (.slice e.baseUrl
      job.target.accessToken (Transfer.request job c payload))]))
      = sentOf c.index evs ++ [Transfer.request job c payload] := by
    have hone : sentOf c.index [.called (some i) (.slice e.baseUrl job.target.accessToken
        (Transfer.request job c payload))] = [Transfer.request job c payload] := by
      simp [sentOf, Event.sent?, Transfer.request]
    rw [sentOf_append, sentOf_append, hnew.sentOf, hone, List.nil_append]
  refine ⟨h.within, ?_, fun q hq => ?_, fun x hx => ?_⟩
  · rw [hsent, List.length_append, List.length_singleton]
    exact Nat.succ_le_succ h.count
  · rw [hsent] at hq
    rcases List.mem_append.mp hq with hq | hq
    · exact h.requests q hq
    · exact ⟨payload, rfl, List.mem_singleton.mp hq⟩
  · rw [List.mem_append, List.mem_append, List.mem_singleton] at hx
    rcases hx with hx | hx | rfl
    · exact h.unanswered x hx
    · exact (hnew x hx).2
    · rfl

/-- A step of the upload. -/
theorem Tallied.goes (h : Tallied job evs c t) {w : World} {sig : Signal} {calls : List Call}
    (hgoes : Transfer.Goes job c cancelled w sig t (.more t') calls) (hnew : Spares c.index new)
    (i : Nat) :
    Tallied job (evs ++ (new ++ calls.map (.called (some i)))) c t' := by
  have hwithin := hgoes.within h.within
  have hlocates : ∀ {calls}, Transfer.Locates calls →
      Spares c.index (new ++ calls.map (.called (some i))) :=
    fun hcalls => hnew.append (spares_locates hcalls _ _)
  cases hgoes with
  | stays => exact h.keeps (hlocates Transfer.locates_nil) hwithin (Nat.le_refl _) fun _ hp => hp
  | reads _ => exact h.keeps (hlocates Transfer.locates_nil) hwithin (Nat.le_refl _) nofun
  | begins payload n =>
    exact h.keeps (hlocates Transfer.locates_nil) hwithin (Nat.le_refl _) fun _ hp => hp
  | looks payload n caller caller' hcalls =>
    exact h.keeps (hlocates hcalls) hwithin (Nat.le_refl _) fun _ hp => hp
  | @sends payload n caller e calls _ hcalls =>
    rw [List.map_append, ← List.append_assoc new]
    exact h.sends e (hlocates hcalls) i
  | pauses payload n a wait _ hcalls =>
    refine h.keeps (hlocates hcalls) hwithin ?_ fun _ hp => hp
    cases a with
    | resolving caller => exact Nat.le_succ n
    | sending e => exact Nat.le_refl _
  | resumes payload n wait =>
    exact h.keeps (hlocates Transfer.locates_nil) hwithin (Nat.le_refl _) fun _ hp => hp

end tried

/-! ## All parts of a pool -/

/-- What was sent of the parts of a pool. -/
structure Paced (job : Job) (pool : Pool Transfer) (evs : List Event) : Prop where
  spent : ∀ n, Spent job.policy.maxRetries n evs
  queued : ∀ c ∈ pool.queue, Spares c.index evs
  holding : ∀ (i : Nat) c, pool.workers[i]? = some (Worker.holding c) → Spares c.index evs
  uploading : ∀ (i : Nat) c t, pool.workers[i]? = some (Worker.uploading c t) → Tallied job evs c t

/-- The part is in the queue, or a worker other than `i` has it. -/
def Elsewhere (pool : Pool Transfer) (i : Nat) (c : Chunk) : Prop :=
  c ∈ pool.queue ∨ ∃ j wk, j ≠ i ∧ pool.workers[j]? = some wk ∧ wk.chunk? = some c

section paced

variable {job : Job} {pool pool' : Pool Transfer} {evs new : List Event} {i : Nat}
  {wk : Worker Transfer} {c d : Chunk}

/-- The part that a worker has is nowhere else. -/
theorem Staffed.alone (h : Staffed job pool) (hn : job.plan.Numbered)
    (hi : pool.workers[i]? = some wk) (hchunk : wk.chunk? = some c) : ¬ Elsewhere pool i c := by
  obtain ⟨threads, ms, rfl⟩ := h
  obtain ⟨-, t, hshares⟩ := Pool.shares_after (fun _ => Transfer.reading)
    (Pool.shares_start threads job.plan.pending) (Pool.fallen_start threads job.plan.pending) ms
  have hnodup : job.plan.pending.Nodup := by
    refine List.Pairwise.imp ?_ (List.pairwise_map.mp hn.pairwise_pending)
    rintro a b hlt rfl
    exact Nat.lt_irrefl _ hlt
  obtain ⟨hqueue, hothers⟩ := hshares.alone hnodup hi hchunk
  rintro (hmem | ⟨j, wk', hj, hwk', hchunk'⟩)
  · exact hqueue hmem
  · exact hothers j wk' hj hwk' hchunk'

/-- A worker comes to another place. -/
theorem Paced.moves (h : Paced job pool evs) (hqueue : ∀ c ∈ pool'.queue, c ∈ pool.queue)
    (hworkers : pool'.workers = pool.workers.set i wk)
    (hspares : ∀ c, Elsewhere pool i c → Spares c.index new)
    (hspent : ∀ n, Spent job.policy.maxRetries n (evs ++ new))
    (hholding : ∀ c, wk = .holding c → Spares c.index (evs ++ new))
    (huploading : ∀ c t, wk = .uploading c t → Tallied job (evs ++ new) c t) :
    Paced job pool' (evs ++ new) where
  spent := hspent
  queued c hc := (h.queued c (hqueue c hc)).append (hspares c (.inl (hqueue c hc)))
  holding j c hj := by
    rw [hworkers, List.getElem?_set] at hj
    by_cases hij : i = j
    · rw [if_pos hij] at hj
      split at hj
      · exact hholding c (Option.some.inj hj)
      · cases hj
    · rw [if_neg hij] at hj
      have helse : Elsewhere pool i c := .inr ⟨j, _, fun heq => hij heq.symm, hj, rfl⟩
      exact (h.holding j c hj).append (hspares c helse)
  uploading j c t hj := by
    rw [hworkers, List.getElem?_set] at hj
    by_cases hij : i = j
    · rw [if_pos hij] at hj
      split at hj
      · exact huploading c t (Option.some.inj hj)
      · cases hj
    · rw [if_neg hij] at hj
      have helse : Elsewhere pool i c := .inr ⟨j, _, fun heq => hij heq.symm, hj, rfl⟩
      have htried := h.uploading j c t hj
      exact htried.keeps (hspares c helse) htried.within (Nat.le_refl _) fun _ hp => hp

/-- A worker comes to another place, and nothing is sent. -/
theorem Paced.idles (h : Paced job pool evs) (hnew : ∀ n, Spares n new)
    (hqueue : ∀ c ∈ pool'.queue, c ∈ pool.queue)
    (hworkers : pool'.workers = pool.workers.set i wk)
    (hholding : ∀ c, wk = .holding c → Spares c.index evs)
    (huploading : ∀ c t, wk = .uploading c t → Tallied job evs c t) :
    Paced job pool' (evs ++ new) := by
  refine h.moves hqueue hworkers (fun c _ => hnew c.index)
    (fun n => (h.spent n).quiet fun x hx => (hnew n x hx).1)
    (fun c hc => (hholding c hc).append (hnew c.index)) fun c t hup => ?_
  have htried := huploading c t hup
  exact htried.keeps (hnew c.index) htried.within (Nat.le_refl _) fun _ hp => hp

/-- A worker that is done with its part, or has none, comes to another place without one. -/
theorem Paced.leaves (h : Paced job pool evs)
    (hspares : ∀ c, Elsewhere pool i c → Spares c.index new)
    (hunsent : ∀ n, ∀ x ∈ new, x.sent? n = none) (hqueue : pool'.queue = pool.queue)
    (hworkers : pool'.workers = pool.workers.set i wk)
    (hwk : (∀ c, wk ≠ .holding c) ∧ ∀ c t, wk ≠ .uploading c t) : Paced job pool' (evs ++ new) :=
  h.moves (fun _ hc => hqueue ▸ hc) hworkers hspares (fun n => (h.spent n).quiet (hunsent n))
    (fun c heq => absurd heq (hwk.1 c)) fun c t heq => absurd heq (hwk.2 c t)

theorem Paced.parts (h : Paced job pool evs) (hnew : ∀ n, Spares n new)
    (hqueue : pool'.queue = pool.queue) (hworkers : pool'.workers = pool.workers.set i wk)
    (hwk : (∀ c, wk ≠ .holding c) ∧ ∀ c t, wk ≠ .uploading c t) : Paced job pool' (evs ++ new) :=
  h.leaves (fun c _ => hnew c.index) (fun n x hx => (hnew n x hx).1) hqueue hworkers hwk

/-- A step of a worker that does not upload: it may take a part, and begin to upload it. -/
theorem Paced.steps (h : Paced job pool evs) (hnew : ∀ n, Spares n new) (cancelled : Bool)
    (i : Nat) : Paced job (pool.step (fun _ => .reading) cancelled i).1 (evs ++ new) := by
  have hstays : Paced job pool (evs ++ new) := {
    spent := fun n => (h.spent n).quiet fun x hx => (hnew n x hx).1
    queued := fun c hc => (h.queued c hc).append (hnew _)
    holding := fun i c hi => (h.holding i c hi).append (hnew _)
    uploading := fun i c t hi => (h.uploading i c t hi).keeps (hnew _) (h.uploading i c t hi).within
      (Nat.le_refl _) fun _ hp => hp }
  unfold Pool.step
  dsimp only
  split
  · split <;> exact h.parts hnew rfl rfl ⟨nofun, nofun⟩
  · split <;> exact h.parts hnew rfl rfl ⟨nofun, nofun⟩
  · split
    · exact h.parts hnew rfl rfl ⟨nofun, nofun⟩
    · next c rest hqueue =>
      have hc : c ∈ pool.queue := by rw [hqueue]; exact List.mem_cons_self
      refine h.idles hnew (fun d hd => ?_) rfl (fun d hd => ?_) nofun
      · rw [hqueue]
        exact List.mem_cons_of_mem c hd
      · injection hd with hd
        rw [← hd]
        exact h.queued c hc
  · next c hi =>
    split
    · exact h.parts hnew rfl rfl ⟨nofun, nofun⟩
    · refine h.idles hnew (fun _ hd => hd) rfl nofun fun d t hd => ?_
      injection hd with hd ht
      rw [← hd, ← ht]
      exact (h.holding i c hi).tallied job
  · exact h.parts hnew rfl rfl ⟨nofun, nofun⟩
  · exact h.parts hnew rfl rfl ⟨nofun, nofun⟩
  · exact hstays

end paced

/-! ## What workers do -/

namespace Run.Setup

variable {s : Setup} {w : World} {cancelled : Bool} {i : Nat} {job : Job}
  {pool pool' : Pool Transfer} {sig : Signal} {evs new : List Event} {c : Chunk} {t : Transfer}

theorem spares_interruptions (pool pool' : Pool Transfer) (n : Nat) :
    Spares n (interruptions pool pool') := by
  intro x hx
  obtain ⟨k, -, rfl⟩ := List.mem_map.mp hx
  exact ⟨rfl, rfl⟩

/-- A worker takes up no answer but one to the part that it uploads. -/
theorem spares_answers (hi : pool.workers[i]? = some (.uploading c t)) {n : Nat}
    (hn : n = c.index → ∀ md5, (t.step job c (w.isCancelled s.handle) w sig).result
      ≠ .done (.ok md5)) : Spares n (s.answers (some i) (.sending job pool) sig) := by
  rcases s.answers_worker job sig hi with hnil | ⟨payload, k, e, r, cancels, rfl, rfl, hone⟩
  · rw [hnil]
    exact spares_nil n
  · rw [hone]
    intro x hx
    rw [List.mem_singleton.mp hx]
    refine ⟨rfl, ?_⟩
    cases r with
    | slice r =>
      refine beq_eq_false_iff_ne.mpr fun hindex => hn hindex.symm r.md5 ?_
      exact Transfer.step_done_iff.mpr ⟨payload, k, e, r, cancels, rfl, rfl, rfl⟩
    | _ => rfl

/-- A worker has nothing to do with parts other than the one that it uploads. -/
theorem Does.spares (h : s.Does w cancelled i job pool sig new pool') {n : Nat}
    (hn : ∀ c t, pool.workers[i]? = some (.uploading c t) → n ≠ c.index) : Spares n new := by
  intro x hx
  rcases h.mem hx with hx | hx | ⟨c, t, hi, hx⟩
  · by_cases hup : ∃ c t, pool.workers[i]? = some (.uploading c t)
    · obtain ⟨c, t, hi⟩ := hup
      exact s.spares_answers (w := w) hi (fun heq => absurd heq (hn c t hi)) x hx
    · rw [s.answers_idle fun c t hi => hup ⟨c, t, hi⟩] at hx
      cases hx
  · cases x <;> first | exact ⟨rfl, rfl⟩ | cases hx
  · obtain ⟨call, hcall, rfl⟩ := List.mem_map.mp hx
    cases Transfer.sends_step hcall with
    | locate token => exact ⟨rfl, rfl⟩
    | slice baseUrl payload => exact ⟨if_neg (hn c t hi).symm, rfl⟩

/-- A part is sent only by a worker that is not done with it after that. -/
theorem Does.unsent (h : s.Does w cancelled i job pool sig new pool')
    (hi : pool.workers[i]? = some (.uploading c t))
    (hdone : ∀ t', (t.step job c (w.isCancelled s.handle) w sig).result ≠ .more t') (n : Nat) :
    ∀ x ∈ new, x.sent? n = none := by
  intro x hx
  rcases h.mem hx with hx | hx | ⟨c', t', hi', hx⟩
  · obtain ⟨call, r, cancels, -, -, rfl⟩ := mem_answers hx
    rfl
  · cases x <;> first | rfl | cases hx
  · cases hi.symm.trans hi'
    have hlocates := (Transfer.goes_step job c (w.isCancelled s.handle) w t sig).locates hdone
    exact (spares_locates hlocates n (some i) x hx).1

/-- What a worker does keeps the pace. -/
theorem Paced.does (h : Paced job pool evs)
    (halone : ∀ c t d, pool.workers[i]? = some (.uploading c t) → Elsewhere pool i d →
      d.index ≠ c.index)
    (hdoes : s.Does w cancelled i job pool sig new pool') : Paced job pool' (evs ++ new) := by
  have hother : ∀ {c t n}, pool.workers[i]? = some (.uploading c t) → n ≠ c.index →
      Spares n new := by
    intro c t n hi hn
    refine hdoes.spares fun c' t' hi' => ?_
    cases hi.symm.trans hi'
    exact hn
  have hspares : ∀ {c t}, pool.workers[i]? = some (.uploading c t) → ∀ d, Elsewhere pool i d →
      Spares d.index new := fun hi d hd => hother hi (halone _ _ d hi hd)
  have hunsent := fun {c t} => hdoes.unsent (c := c) (t := t)
  cases hdoes with
  | rests => rwa [List.append_nil]
  | steps _ => exact h.steps (spares_interruptions _ _) _ i
  | @givesUp c t hi _ =>
    exact h.leaves (hspares hi) (fun n x hx => by rw [List.mem_singleton.mp hx]; rfl) rfl rfl
      ⟨nofun, nofun⟩
  | @works c t t' hi hr =>
    have hgoes := Transfer.goes_step job c (w.isCancelled s.handle) w t sig
    rw [hr] at hgoes
    have htried := (h.uploading i c t hi).goes hgoes (s.spares_answers (w := w) hi fun _ => by
      rw [hr]
      exact fun _ => TransferResult.noConfusion) i
    refine h.moves (fun _ hd => hd) rfl (hspares hi) (fun n => ?_) nofun fun d u heq => ?_
    · by_cases hn : n = c.index
      · rw [hn]
        exact htried.spent
      · exact (h.spent n).quiet fun x hx => (hother hi hn x hx).1
    · injection heq with hd hu
      rw [← hd, ← hu]
      exact htried
  | completes hi hr =>
    refine h.leaves (hspares hi) (hunsent hi ?_) rfl rfl ⟨nofun, nofun⟩
    rw [hr]
    exact fun _ => TransferResult.noConfusion
  | fails hi hr _ =>
    refine h.leaves (hspares hi) (hunsent hi ?_) rfl rfl ⟨nofun, nofun⟩
    rw [hr]
    exact fun _ => TransferResult.noConfusion
  | drops hi hr =>
    refine h.leaves (hspares hi) (hunsent hi ?_) rfl rfl ⟨nofun, nofun⟩
    rw [hr]
    exact fun _ => TransferResult.noConfusion
  | falls hi hr =>
    refine h.leaves (hspares hi) (hunsent hi ?_) rfl rfl ⟨nofun, nofun⟩
    rw [hr]
    exact fun _ => TransferResult.noConfusion

theorem Early.spares {d : Digest.FileDigests} (h : ∀ x ∈ evs, s.Early d x) (n : Nat) :
    Spares n evs := by
  intro x hx
  cases h x hx <;> exact ⟨rfl, rfl⟩

/-- No part was sent when the workers start. -/
theorem paced_start (h : ∀ n, Spares n evs) (threads : Nat) :
    Paced job (.start threads job.plan.pending) evs where
  spent n := (h n).spent _
  queued c _ := h c.index
  holding i c hi := by
    cases List.eq_of_mem_replicate (List.mem_of_getElem? hi)
  uploading i c t hi := by
    cases List.eq_of_mem_replicate (List.mem_of_getElem? hi)

/-- The part that a worker uploads has a number that no part elsewhere has. -/
theorem apart {off : Bool} (h : Trace s off (.sending job pool) evs)
    (hi : pool.workers[i]? = some (.uploading c t)) {d : Chunk} (hd : Elsewhere pool i d) :
    d.index ≠ c.index := by
  obtain ⟨digests, o, located, work, -, rfl, hworking, -⟩ := h.course
  have hn : (o.job s digests).plan.Numbered := o.numbered_plan s.numbered_plan
  have hpending : d ∈ (o.job s digests).plan.pending := by
    rcases hd with hqueue | ⟨j, wk, -, hj, hchunk⟩
    · exact hworking.queued d hqueue
    · exact hworking.held wk (List.mem_of_getElem? hj) d hchunk
  have hmine : c ∈ (o.job s digests).plan.pending :=
    hworking.held _ (List.mem_of_getElem? hi) c rfl
  intro heq
  have hsame : d = c := hn.eq_of_index_eq (List.mem_filter.mp hpending).1
    (List.mem_filter.mp hmine).1 heq
  subst hsame
  exact (h.staffed _ _ rfl).alone hn hi rfl hd

theorem tends_paced (s : Setup) :
    s.Tends fun _ job pool evs => Paced job pool evs where
  begins threads hlocated := paced_start (Early.spares hlocated.early) threads
  later h _ := h
  collects {off job pool evs} h := by
    have hnone : Paced job pool.collect.1 (evs ++ []) := by
      unfold Pool.collect
      split
      · rwa [List.append_nil]
      · exact h.parts spares_nil rfl rfl ⟨nofun, nofun⟩
    rwa [List.append_nil] at hnone
  does htrace _ h hdoes := Paced.does h (fun _ _ _ hi hd => apart htrace hi hd) hdoes

/-- The task of a run sends no parts. -/
theorem unsent_main {stage : Stage} {x : Event} (hx : x ∈ s.events w cancelled none stage sig)
    (n : Nat) : x.sent? n = none := by
  rw [events, List.mem_append, List.mem_append] at hx
  rcases hx with (hx | hx) | hx
  · obtain ⟨call, r, cancels, -, -, rfl⟩ := mem_answers hx
    rfl
  · cases x with
    | called worker call => exact absurd hx not_called_of_deeds
    | _ => rfl
  · obtain ⟨call, hcall, rfl⟩ := List.mem_map.mp hx
    cases asks_main hcall <;> rfl

/-- Parts are sent by the workers that upload them. -/
theorem slice_of_events {worker who : Option Nat} {stage : Stage} {signal : Signal}
    {url token : String} {q : SliceRequest}
    (hq : .called who (.slice url token q)
      ∈ s.events w cancelled worker stage (Engine.effective cancelled stage signal)) :
    ∃ (i : Nat) (job : Job) (pool : Pool Transfer) (c : Chunk) (t : Transfer)
      (payload : ByteArray) (e : Endpoint), stage = .sending job pool ∧
      pool.workers[i]? = some (.uploading c t) ∧ t.payload? = some payload ∧
      q = Transfer.request job c payload ∧ e.baseUrl = url ∧
      w.Gives job.resolver job.target.accessToken (Engine.effective cancelled stage signal) e := by
  cases worker with
  | none =>
    have hnone := unsent_main hq q.partseq
    simp [Event.sent?] at hnone
  | some i =>
    rcases s.worker_cases w cancelled i stage signal with
      ⟨job, pool, pool', rfl, -, hdoes⟩ | ⟨-, hnone⟩
    · rcases hdoes.mem hq with hmem | hmem | ⟨c, t, hi, hmem⟩
      · obtain ⟨_, _, _, -, -, heq⟩ := mem_answers hmem
        cases heq
      · cases hmem
      · obtain ⟨call, hcall, heq⟩ := List.mem_map.mp hmem
        cases heq
        obtain ⟨payload, e, hpayload, hrequest, hurl, hgives⟩ :=
          (Transfer.goes_step job c (w.isCancelled s.handle) w t _).slice hcall
        exact ⟨i, job, pool, c, t, payload, e, rfl, hi, hpayload, hrequest, hurl, hgives⟩
    · rw [hnone] at hq
      cases hq

end Run.Setup

/-- No part is sent more often than the retries admit, nor with another request than before, nor
again after it was answered. -/
theorem Trace.spent {s : Run.Setup} {off : Bool} {stage : Stage} {evs : List Event}
    (h : Trace s off stage evs) (n : Nat) : Spent s.settings.retryPolicy.maxRetries n evs := by
  induction h with
  | start => exact (spares_nil n).spent _
  | @turn off stage evs w cancelled worker signal htrace hoff hcancelled ih =>
    cases worker with
    | none => exact ih.quiet fun x hx => Run.Setup.unsent_main hx n
    | some i =>
      have hnext := htrace.turn w cancelled (some i) signal hoff hcancelled
      rcases s.worker_cases w cancelled i stage signal with
        ⟨job, pool, pool', rfl, hstage, -⟩ | ⟨-, hnone⟩
      · obtain ⟨d, o, -, -, -, rfl, -, -⟩ := htrace.course
        exact (hnext.tended s.tends_paced _ _ hstage).spent n
      · rw [hnone, List.append_nil]
        exact ih

end ResumableUpload.Session
