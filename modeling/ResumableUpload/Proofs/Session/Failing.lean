import Mathlib.Data.List.Infix
import ResumableUpload.Proofs.Retry.Account
import ResumableUpload.Proofs.Session.Attempts
import ResumableUpload.Proofs.Session.Blame

/-!
# What a failed upload says

The upload of a part (`Transfer.passage`) and the announcement of an upload
(`Run.Setup.announcing`) are retried calls with something around them. Each step is one of the call
or leaves it where it stands (`Transfer.follows_step`, `Run.Setup.announcing_step`), so the account
of the call is known throughout (`Transfer.Passage.Known`, `Run.Setup.Announcing.Known`). A part or
an announcement that fails therefore says what ended it: that the session was cancelled, or what the
last attempt ended with and how many attempts began. An attempt that the resolver refuses a host
sends nothing and is the last one (`Transfer.Passage.Refusals`).

What a worker of a run does to its part is what the upload of a part does
(`Run.Setup.worker_advances`).
-/

namespace ResumableUpload.Session

/-- A moment at which a worker turns to its part. -/
structure Moment extends Beat where
  -- the session was cancelled before: a part that waits is given up
  already : Bool

namespace Moment

def isCancelled (m : Moment) : Bool := m.already || m.cancelled

end Moment

namespace Transfer

/-! ## The upload of a part -/

/-- What the resolver says to a caller that it has no host for. -/
def refusal? (r : World.Resolved) : Option String :=
  match r.resolution with
  | .done (.error detail) => some detail
  | _ => none

/-- The attempt that the resolver refuses a host with a signal, and what the resolver says. -/
def refused? (job : Job) (w : World) : Transfer → Signal → Option (Nat × String)
  | attempting _ n (.resolving caller), .go =>
    (refusal? (w.ask job.resolver job.target.accessToken caller)).map (n, ·)
  | attempting _ n (.resolving (.waiting l)), .lookup (.outcome o) _ =>
    (refusal? ((w.endLookup job.resolver l (.outcome o)).1.ask job.resolver
      job.target.accessToken (.waiting l))).map (n, ·)
  | _, _ => none

/-- The attempt that ends with a signal, with its end. -/
def ended? (job : Job) (w : World) : Transfer → Signal → Option (Nat × Retry.Outcome String)
  | attempting _ n (.sending _), .reply (.slice r) _ => some (n, .value r.md5)
  | attempting _ n (.sending _), .reply (.fault f) _ => some (n, .fault f)
  | attempting _ n _, .limit => some (n, .late)
  | t, sig =>
    (t.refused? job w sig).map fun x => (x.1, .fault (.plain .endpointUnavailable x.2))

/-- The attempt that begins with a step. -/
def begun? : Transfer → TransferResult → Option Nat
  | ready .., .more (attempting _ n _) => some n
  | _, _ => none

/-- The attempt that sends the part with a step. -/
def sent? : Transfer → List Call → Option Nat
  | attempting _ n _, calls => if calls.any fun x => x matches .slice .. then some n else none
  | _, _ => none

/-- What a worker has seen of the upload of its part. -/
structure Passage where
  result : TransferResult := .more .reading
  -- what was read of the part
  payload? : Option ByteArray := none
  account : Retry.Account String := {}
  -- the attempts that sent the part
  sent : List Nat := []
  -- the attempts that the resolver refused a host, with what it said
  refused : List (Nat × String) := []

namespace Passage

def payloadOf? : TransferResult → Option ByteArray
  | .more t => t.payload?
  | _ => none

/-- The passage after a step of the upload. -/
def after (job : Job) (p : Passage) (t : Transfer) (m : Moment) (turn : TransferTurn) :
    Passage where
  result := turn.result
  payload? := (payloadOf? turn.result).or p.payload?
  account :=
    { begun := p.account.begun ++ (t.begun? turn.result).toList
      past := p.account.past ++ (t.ended? job m.world m.signal).toList }
  sent := p.sent ++ (t.sent? (Note.calls turn.notes)).toList
  refused := p.refused ++ (t.refused? job m.world m.signal).toList

/-- The worker turns to its part: it gives the part up, or the upload takes a step. -/
def advance (job : Job) (c : Chunk) (p : Passage) (m : Moment) : Passage :=
  match p.result with
  | .more t =>
    if m.already && t.isWaiting then { p with result := .done (.error .cancelled) }
    else p.after job t m (t.step job c m.cancelled m.world m.signal)
  | _ => p

end Passage

/-- The upload of a part, from its beginning. -/
def passage (job : Job) (c : Chunk) (ms : List Moment) : Passage :=
  ms.foldl (Passage.advance job c) {}

/-! ### Steps of the retried call -/

/-- Where the retried call stands. -/
def stage? : Transfer → Option Retry.Stage
  | reading => none
  | ready _ n => some (.ready n)
  | attempting _ n _ => some (.attempting n)
  | pausing _ n wait => some (.pausing n wait)

/-- What a signal is to the retried call. -/
def hears (job : Job) (w : World) : Transfer → Signal → Option (Retry.Signal String)
  | ready .., .go => some .look
  | pausing .., .wake => some .wake
  | t, sig => (t.ended? job w sig).map fun x => .outcome x.2

variable {job : Job} {c : Chunk} {payload : ByteArray} {cancelled : Bool} {w w' : World}
  {sig : Signal} {t t' : Transfer} {stage : Retry.Stage}

/-- What becomes of the retried call in a step: it hears a signal, or it stays where it is or falls
with its task. That the session is cancelled is not looked at when an attempt ends. -/
def Follows (job : Job) (c : Chunk) (cancelled : Bool) (stage : Retry.Stage) :
    Option (Retry.Signal String) → TransferResult → Prop
  | some rs, result => ∃ payload off, (off = true → cancelled = true) ∧
      result = (ofLoop job c payload
        ((Retry.Loop.active stage).step (operation job c) 0 off rs).1).1
  | none, result =>
    (∃ t', result = .more t' ∧ t'.stage? = some stage) ∨ ∃ text, result = .crash text

/-- The signal that an attempt hears that is refused a host. -/
def refusal (detail : String) : Retry.Signal String :=
  .outcome (.fault (.plain .endpointUnavailable detail))

theorem hears_refused (job : Job) (w : World) {n : Nat} {caller : Caller} {r : World.Resolved}
    (hended : ended? job w (attempting payload n (.resolving caller)) sig
      = (refused? job w (attempting payload n (.resolving caller)) sig).map
          fun x => (x.1, .fault (.plain .endpointUnavailable x.2)))
    (hrefused : refused? job w (attempting payload n (.resolving caller)) sig
      = (refusal? r).map (n, ·))
    (hhears : hears job w (attempting payload n (.resolving caller)) sig
      = (ended? job w (attempting payload n (.resolving caller)) sig).map fun x => .outcome x.2) :
    hears job w (attempting payload n (.resolving caller)) sig = (refusal? r).map refusal := by
  rw [hhears, hended, hrefused, Option.map_map, Option.map_map]
  rfl

/-- An attempt that looks for a host ends if the resolver refuses it one. -/
theorem follows_resolved (n : Nat) (r : World.Resolved) :
    Follows job c cancelled (.attempting n) ((refusal? r).map refusal)
      (resolved job c payload n r).result := by
  unfold refusal? resolved
  cases r.resolution with
  | pending caller => exact .inl ⟨_, rfl, rfl⟩
  | poisoned => exact .inr ⟨_, rfl⟩
  | done result =>
    cases result with
    | ok e => exact .inl ⟨_, rfl, rfl⟩
    | error detail => exact ⟨payload, false, nofun, rfl⟩

theorem follows_replied (n : Nat) (e : Endpoint) (r : Reply) (cancels : List Nat) :
    Follows job c cancelled (.attempting n)
      (hears job w' (attempting payload n (.sending e)) (.reply r cancels))
      (replied job c payload n e w r).result := by
  cases r with
  | slice r => exact ⟨payload, false, nofun, rfl⟩
  | fault f => exact ⟨payload, false, nofun, rfl⟩
  | crash text => exact .inr ⟨_, rfl⟩
  | precreate r => exact .inl ⟨_, rfl, rfl⟩
  | create r => exact .inl ⟨_, rfl, rfl⟩

/-- A step of an attempt. -/
theorem follows_attempting (cancelled : Bool) (w : World) (sig : Signal) (n : Nat) (a : Attempt) :
    Follows job c cancelled (.attempting n) (hears job w (attempting payload n a) sig)
      (step job c cancelled w (attempting payload n a) sig).result := by
  cases a with
  | sending e =>
    cases sig with
    | reply r cancels => exact follows_replied n e r cancels
    | limit => exact ⟨payload, false, nofun, rfl⟩
    | _ => exact .inl ⟨_, rfl, rfl⟩
  | resolving caller =>
    cases sig with
    | go =>
      rw [hears_refused (r := w.ask job.resolver job.target.accessToken caller) job w rfl rfl rfl]
      exact follows_resolved n _
    | limit => exact ⟨payload, false, nofun, rfl⟩
    | lookup reply cancels =>
      cases caller with
      | waiting l =>
        cases reply with
        | outcome o =>
          rw [hears_refused (r := (w.endLookup job.resolver l (.outcome o)).1.ask job.resolver
            job.target.accessToken (.waiting l)) job w rfl rfl rfl]
          exact follows_resolved n _
        | crash text => exact .inr ⟨_, rfl⟩
      | _ => cases reply <;> exact .inl ⟨_, rfl, rfl⟩
    | _ => cases caller <;> exact .inl ⟨_, rfl, rfl⟩

/-- A step of the upload of a part is one of its retried call, or leaves the call where it
stands. -/
theorem follows_step (job : Job) (c : Chunk) (cancelled : Bool) (w : World) (sig : Signal)
    (ht : t.stage? = some stage) :
    Follows job c cancelled stage (t.hears job w sig) (t.step job c cancelled w sig).result := by
  cases t with
  | reading => cases ht
  | ready payload n =>
    cases ht
    cases sig with
    | go => exact ⟨payload, cancelled, id, rfl⟩
    | _ => exact .inl ⟨_, rfl, rfl⟩
  | attempting payload n a =>
    cases ht
    exact follows_attempting cancelled w sig n a
  | pausing payload n wait =>
    cases ht
    cases sig with
    | wake => exact ⟨payload, cancelled, id, rfl⟩
    | _ => exact .inl ⟨_, rfl, rfl⟩

/-! ### The account of the retried call -/

theorem deeds_begun (ht : t.stage? = some stage) (loop : Retry.Loop String) :
    ((Retry.Loop.active stage).deeds loop).filterMap Retry.Deed.attempt?
      = (t.begun? (ofLoop job c payload loop).1).toList := by
  cases t with
  | reading => cases ht
  | ready =>
    cases ht
    rcases loop with (_ | _ | _) | (_ | _) <;> rfl
  | attempting =>
    cases ht
    rcases loop with (_ | _ | _) | (_ | _) <;> rfl
  | pausing =>
    cases ht
    rcases loop with (_ | _ | _) | (_ | _) <;> rfl

theorem refused?_number {n : Nat} {a : Attempt} {x : Nat × String}
    (h : refused? job w (attempting payload n a) sig = some x) : x.1 = n := by
  unfold refused? at h
  split at h
  · next heq =>
    injection heq with _ hn
    obtain ⟨detail, -, rfl⟩ := Option.map_eq_some_iff.mp h
    exact hn.symm
  · next heq =>
    injection heq with _ hn
    obtain ⟨detail, -, rfl⟩ := Option.map_eq_some_iff.mp h
    exact hn.symm
  · cases h

theorem ended?_number {n : Nat} {a : Attempt} {x : Nat × Retry.Outcome String}
    (h : ended? job w (attempting payload n a) sig = some x) : x.1 = n := by
  unfold ended? at h
  split at h
  · next heq =>
    injection heq with _ hn
    rw [← Option.some.inj h, hn]
  · next heq =>
    injection heq with _ hn
    rw [← Option.some.inj h, hn]
  · next heq =>
    injection heq with _ hn
    rw [← Option.some.inj h, hn]
  · obtain ⟨y, hy, rfl⟩ := Option.map_eq_some_iff.mp h
    exact refused?_number hy

theorem ends_ended {rs : Retry.Signal String} (ht : t.stage? = some stage)
    (hrs : t.hears job w sig = some rs) : stage.ends rs = (t.ended? job w sig).toList := by
  cases t with
  | reading => cases ht
  | ready payload n =>
    cases ht
    cases sig <;> cases hrs
    rfl
  | attempting payload n a =>
    cases ht
    have hhears : hears job w (attempting payload n a) sig
        = (ended? job w (attempting payload n a) sig).map fun x => .outcome x.2 := rfl
    obtain ⟨x, hx, rfl⟩ := Option.map_eq_some_iff.mp (hhears.symm.trans hrs)
    rw [hx, ← ended?_number hx]
    rfl
  | pausing payload n wait =>
    cases ht
    cases sig <;> cases hrs
    rfl

/-- What a passage notes of a step is what the account of the retried call notes. -/
theorem add_eq (c : Chunk) (payload : ByteArray) {rs : Retry.Signal String}
    (ht : t.stage? = some stage) (hrs : t.hears job w sig = some rs) (a : Retry.Account String) (loop : Retry.Loop String) :
    a.add stage rs loop
      = ⟨a.begun ++ (t.begun? (ofLoop job c payload loop).1).toList,
          a.past ++ (t.ended? job w sig).toList⟩ := by
  rw [← deeds_begun ht, ← ends_ended ht hrs]
  rfl

theorem ended?_of_deaf (ht : t.stage? = some stage) (h : t.hears job w sig = none) :
    t.ended? job w sig = none := by
  cases t with
  | reading => cases ht
  | ready => cases sig <;> rfl
  | attempting => exact Option.map_eq_none_iff.mp h
  | pausing => cases sig <;> rfl

theorem begun?_same (ht : t.stage? = some stage) (ht' : t'.stage? = some stage) :
    t.begun? (.more t') = none := by
  cases t with
  | ready payload n =>
    cases ht
    cases t' with
    | attempting => cases ht'
    | _ => rfl
  | _ => rfl

/-- A part whose upload goes on stands where its retried call stands. -/
theorem stage?_ofLoop {loop : Retry.Loop String}
    (h : (ofLoop job c payload loop).1 = .more t) :
    ∃ stage, loop = .active stage ∧ t.stage? = some stage := by
  rcases loop with (_ | _ | _) | (_ | _) <;> cases h
  · exact ⟨_, rfl, rfl⟩
  · exact ⟨_, rfl, rfl⟩
  · exact ⟨_, rfl, rfl⟩

theorem error_ofLoop {loop : Retry.Loop String} {f : UploadFault}
    (h : (ofLoop job c payload loop).1 = .done (.error f)) :
    ∃ why, loop = .ended (.error why) ∧ f = .ofChunk c.index why := by
  rcases loop with (_ | _ | _) | (_ | _) <;> cases h
  exact ⟨_, rfl, rfl⟩

theorem Goes.tries_le {calls : List Call} (h : Goes job c cancelled w sig t (.more t') calls) :
    t.tries ≤ t'.tries := by
  cases h with
  | stays => exact Nat.le_refl _
  | reads => exact Nat.zero_le _
  | begins => exact Nat.le_refl _
  | looks => exact Nat.le_refl _
  | sends => exact Nat.le_succ _
  | pauses payload n a =>
    cases a with
    | resolving => exact Nat.le_succ _
    | sending => exact Nat.le_refl _
  | resumes => exact Nat.le_refl _

theorem any_slice_of_locates {calls : List Call} (h : Locates calls) :
    (calls.any fun x => x matches .slice ..) = false := by
  refine List.any_eq_false.mpr fun x hx => ?_
  obtain ⟨token, rfl⟩ := h x hx
  exact Bool.false_ne_true

theorem sent?_of_locates (t : Transfer) {calls : List Call} (h : Locates calls) :
    t.sent? calls = none := by
  unfold sent?
  split
  · rw [any_slice_of_locates h, if_neg Bool.false_ne_true]
  · rfl

theorem attempting_of_sent {calls : List Call} {n : Nat} (h : t.sent? calls = some n) :
    ∃ payload a, t = attempting payload n a := by
  unfold sent? at h
  split at h
  · split at h
    · rw [Option.some.inj h]
      exact ⟨_, _, rfl⟩
    · cases h
  · cases h

theorem Goes.tries_of_sent {calls : List Call} (h : Goes job c cancelled w sig t (.more t') calls)
    {n : Nat} (hn : t.sent? calls = some n) : n < t'.tries := by
  obtain ⟨_, _, heq⟩ := attempting_of_sent hn
  rcases h.locates_or_sends with hcalls | ⟨payload, k, caller, e, before, ht, hmore, -⟩
  · rw [sent?_of_locates t hcalls] at hn
    cases hn
  · cases ht.symm.trans heq
    cases hmore
    exact Nat.lt_succ_self _

theorem resolved_refused (job : Job) (c : Chunk) (payload : ByteArray) {n : Nat}
    {r : World.Resolved} {detail : String} (h : refusal? r = some detail) :
    (resolved job c payload n r).result = .done (.error (.endpointUnavailable detail)) ∧
      Note.calls (resolved job c payload n r).notes = Note.calls r.notes := by
  unfold refusal? at h
  split at h
  · next hr =>
    rw [Option.some.inj h] at hr
    unfold resolved
    rw [hr]
    refine ⟨rfl, ?_⟩
    rw [Note.calls_append, conclude, calls_retry, List.append_nil]
  · cases h

/-- An attempt that the resolver refuses a host ends the upload of its part, and sends nothing. -/
theorem step_refused (c : Chunk) (cancelled : Bool) {x : Nat × String}
    (h : t.refused? job w sig = some x) :
    (∃ payload a, t = attempting payload x.1 a) ∧ t.tries = x.1 ∧
      (t.step job c cancelled w sig).result = .done (.error (.endpointUnavailable x.2)) ∧
      t.sent? (Note.calls (t.step job c cancelled w sig).notes) = none := by
  unfold refused? at h
  split at h
  · next payload n caller =>
    obtain ⟨detail, hdetail, rfl⟩ := Option.map_eq_some_iff.mp h
    obtain ⟨hresult, hcalls⟩ := resolved_refused job c payload (n := n) hdetail
    refine ⟨⟨payload, _, rfl⟩, rfl, hresult, sent?_of_locates _ fun y hy => ?_⟩
    dsimp only [step] at hy
    rw [hcalls] at hy
    exact World.calls_ask _ _ _ _ hy
  · next payload n l o cancels =>
    obtain ⟨detail, hdetail, rfl⟩ := Option.map_eq_some_iff.mp h
    obtain ⟨hresult, hcalls⟩ := resolved_refused job c payload (n := n) hdetail
    refine ⟨⟨payload, _, rfl⟩, rfl, hresult, sent?_of_locates _ fun y hy => ?_⟩
    dsimp only [step] at hy
    rw [Note.calls_append, Note.calls_lines, List.nil_append, hcalls] at hy
    exact World.calls_ask _ _ _ _ hy
  · cases h

theorem step_reading (job : Job) (c : Chunk) (cancelled : Bool) (w : World) (sig : Signal) :
    (reading.step job c cancelled w sig).result = .more reading ∨
      (∃ payload, (reading.step job c cancelled w sig).result = .more (ready payload 0)) ∨
      ∃ f, (reading.step job c cancelled w sig).result = .done (.error f) := by
  cases sig with
  | go =>
    simp only [step]
    cases Digest.readChunk w.files job.target.localPath c.offset c.size with
    | ok payload => exact .inr (.inl ⟨payload, rfl⟩)
    | error fault => exact .inr (.inr ⟨_, rfl⟩)
  | _ => exact .inl rfl

namespace Passage

/-- What is known of a passage: as long as it goes on, the retried call bears the account out, and
so it does if the passage has failed with something that was read. -/
structure Known (job : Job) (c : Chunk) (ms : List Moment) (p : Passage) : Prop where
  unread : p.result = .more .reading → p.payload? = none ∧ p.account = {}
  going : ∀ t stage, p.result = .more t → t.stage? = some stage →
    Retry.Account.Bears (operation job c) (.active stage) p.account
  failed : ∀ f, p.result = .done (.error f) → p.payload?.isSome = true →
    ∃ why, f = .ofChunk c.index why ∧
      Retry.Account.Bears (operation job c) (.ended (.error why)) p.account ∧
      (why = .cancelled → ∃ m ∈ ms, m.isCancelled = true)

variable {ms : List Moment} {m : Moment} {p : Passage}

/-- A passage that takes a step. -/
theorem advance_step (hp : p.result = .more t) (hgive : (m.already && t.isWaiting) = false) :
    p.advance job c m = p.after job t m (t.step job c m.cancelled m.world m.signal) := by
  simp only [advance, hp, hgive, Bool.false_eq_true, if_false]

/-- A passage that is over stays as it is. -/
theorem advance_over (hp : ∀ t, p.result ≠ .more t) : p.advance job c m = p := by
  unfold advance
  split
  · next h => exact absurd h (hp _)
  · rfl

theorem known_nil : Known job c [] {} where
  unread _ := ⟨rfl, rfl⟩
  going t stage h ht := by
    cases h
    cases ht
  failed f h := by cases h

/-- The part is given up. -/
theorem known_give_up (hm : m.isCancelled = true) :
    Known job c (ms ++ [m]) { p with result := .done (.error .cancelled) } where
  unread := nofun
  going := nofun
  failed f hf _ := by
    cases hf
    exact ⟨.cancelled, rfl, .cancelled _, fun _ =>
      ⟨m, List.mem_append_right _ List.mem_cons_self, hm⟩⟩

/-- The part is read, or not yet, or cannot be. -/
theorem Known.reads (h : Known job c ms p) (hp : p.result = .more .reading) :
    Known job c (ms ++ [m])
      (p.after job .reading m (Transfer.reading.step job c m.cancelled m.world m.signal)) := by
  obtain ⟨hpayload, haccount⟩ := h.unread hp
  have hended : Transfer.reading.ended? job m.world m.signal = none := by cases m.signal <;> rfl
  have hcases := step_reading job c m.cancelled m.world m.signal
  generalize Transfer.reading.step job c m.cancelled m.world m.signal = turn at hcases ⊢
  have hafter : (p.after job .reading m turn).account = {} := by
    simp only [after, hended, haccount]
    rfl
  have hpayload' : (p.after job .reading m turn).payload? = payloadOf? turn.result := by
    simp only [after, hpayload, Option.or_none]
  constructor
  · intro hresult
    have hresult : turn.result = .more .reading := hresult
    rw [hpayload', hafter, hresult]
    exact ⟨rfl, rfl⟩
  · intro t stage hresult ht
    rw [hafter]
    rcases hcases with hmore | ⟨payload, hmore⟩ | ⟨f, hdone⟩
    · cases hmore.symm.trans hresult
      cases ht
    · cases hmore.symm.trans hresult
      cases ht
      exact Retry.Account.bears_start
    · cases hdone.symm.trans hresult
  · intro f hresult hread
    have hresult : turn.result = .done (.error f) := hresult
    rw [hpayload', hresult] at hread
    cases hread

/-- The retried call stays where it stands. -/
theorem Known.deaf (h : Known job c ms p) (hp : p.result = .more t) (ht : t.stage? = some stage)
    (hheard : t.hears job m.world m.signal = none) :
    Known job c (ms ++ [m]) (p.after job t m (t.step job c m.cancelled m.world m.signal)) := by
  have hbears := h.going t stage hp ht
  have hfollows := follows_step job c m.cancelled m.world m.signal ht
  generalize t.step job c m.cancelled m.world m.signal = turn at hfollows ⊢
  rw [hheard] at hfollows
  rcases hfollows with ⟨t', hresult, ht'⟩ | ⟨text, hresult⟩
  · have hafter : (p.after job t m turn).account = p.account := by
      simp only [after, hresult, begun?_same ht ht', ended?_of_deaf ht hheard, Option.toList_none,
        List.append_nil]
    constructor
    · intro hreading
      cases hresult.symm.trans hreading
      cases ht'
    · intro t'' stage'' hmore ht''
      cases hresult.symm.trans hmore
      rw [hafter, ← Option.some.inj (ht'.symm.trans ht'')]
      exact hbears
    · intro f hdone
      cases hresult.symm.trans hdone
  · constructor
    · intro hmore
      cases hresult.symm.trans hmore
    · intro t'' stage'' hmore
      cases hresult.symm.trans hmore
    · intro f hdone
      cases hresult.symm.trans hdone

/-- The retried call takes a step. -/
theorem Known.hears (h : Known job c ms p) (hp : p.result = .more t) (ht : t.stage? = some stage)
    {rs : Retry.Signal String} (hheard : t.hears job m.world m.signal = some rs) :
    Known job c (ms ++ [m]) (p.after job t m (t.step job c m.cancelled m.world m.signal)) := by
  have hbears := h.going t stage hp ht
  have hfollows := follows_step job c m.cancelled m.world m.signal ht
  generalize t.step job c m.cancelled m.world m.signal = turn at hfollows ⊢
  rw [hheard] at hfollows
  obtain ⟨payload, off, hoff, hresult⟩ := hfollows
  have hcases := Retry.Loop.step_cases (operation job c) 0 off stage rs
  generalize ((Retry.Loop.active stage).step (operation job c) 0 off rs).1 = loop
    at hresult hcases
  have hafter : (p.after job t m turn).account = p.account.add stage rs loop := by
    rw [add_eq c payload ht hheard, ← hresult]
    rfl
  have hnext : Retry.Account.Bears (operation job c) loop (p.after job t m turn).account := by
    rcases hcases with ⟨-, rfl⟩ | ⟨-, hgoes⟩
    · exact .cancelled _
    · rw [hafter]
      exact hbears.goes hgoes
  constructor
  · intro hmore
    obtain ⟨stage', -, hstage⟩ := stage?_ofLoop (hresult.symm.trans hmore)
    cases hstage
  · intro t' stage' hmore ht'
    obtain ⟨_, rfl, hstage⟩ := stage?_ofLoop (hresult.symm.trans hmore)
    rw [← Option.some.inj (hstage.symm.trans ht')]
    exact hnext
  · intro f hdone _
    obtain ⟨why, rfl, rfl⟩ := error_ofLoop (hresult.symm.trans hdone)
    refine ⟨why, rfl, hnext, ?_⟩
    rintro rfl
    rcases hcases with ⟨hc, -⟩ | ⟨-, hgoes⟩
    · refine ⟨m, List.mem_append_right _ List.mem_cons_self, ?_⟩
      rw [Moment.isCancelled, hoff hc, Bool.or_true]
    · cases hgoes

/-- What is known of a passage is known of it after a step of the retried call. -/
theorem Known.follows (h : Known job c ms p) (hp : p.result = .more t)
    (ht : t.stage? = some stage) :
    Known job c (ms ++ [m]) (p.after job t m (t.step job c m.cancelled m.world m.signal)) := by
  cases hheard : t.hears job m.world m.signal with
  | none => exact h.deaf hp ht hheard
  | some rs => exact h.hears hp ht hheard

/-- What is known of a passage is known of it after the next moment. -/
theorem Known.advance (h : Known job c ms p) (m : Moment) :
    Known job c (ms ++ [m]) (p.advance job c m) := by
  cases hp : p.result with
  | more t =>
    cases hgive : m.already && t.isWaiting with
    | true =>
      have hm : m.isCancelled = true := by
        rw [Moment.isCancelled, (Bool.and_eq_true_iff.mp hgive).1, Bool.true_or]
      simp only [Passage.advance, hp, hgive, if_true]
      exact known_give_up hm
    | false =>
      rw [advance_step hp hgive]
      cases ht : t.stage? with
      | none =>
        cases t with
        | reading => exact h.reads hp
        | _ => cases ht
      | some stage => exact h.follows hp ht
  | _ =>
    rw [advance_over (by rw [hp]; nofun)]
    refine ⟨h.unread, h.going, fun f hf hread => ?_⟩
    obtain ⟨why, hwhy, hbears, hcancelled⟩ := h.failed f hf hread
    refine ⟨why, hwhy, hbears, fun heq => ?_⟩
    obtain ⟨m', hm', hc⟩ := hcancelled heq
    exact ⟨m', List.mem_append_left _ hm', hc⟩

theorem known (job : Job) (c : Chunk) (ms : List Moment) : Known job c ms (passage job c ms) := by
  induction ms using List.reverseRecOn with
  | nil => exact known_nil
  | append_singleton ms m ih =>
    rw [passage, List.foldl_append]
    exact ih.advance m

/-! ### Attempts without a host -/

/-- An attempt that the resolver refuses a host has sent nothing and is the last one. -/
structure Refusals (p : Passage) : Prop where
  going : ∀ t, p.result = .more t → p.refused = [] ∧ ∀ n ∈ p.sent, n < t.tries
  told : ∀ x ∈ p.refused, x.1 ∉ p.sent ∧ p.account.begun = List.range (x.1 + 1) ∧
    p.result = .done (.error (.endpointUnavailable x.2))

theorem refusals_nil : Refusals {} where
  going _ _ := ⟨rfl, fun _ hn => absurd hn List.not_mem_nil⟩
  told _ hx := absurd hx List.not_mem_nil

/-- A step in which no attempt is refused a host. -/
theorem Refusals.unrefused (h : Refusals p) (hp : p.result = .more t)
    (hnone : t.refused? job m.world m.signal = none) :
    Refusals (p.after job t m (t.step job c m.cancelled m.world m.signal)) := by
  obtain ⟨hrefused, hsent⟩ := h.going t hp
  have hafter : (p.after job t m (t.step job c m.cancelled m.world m.signal)).refused = [] := by
    simp only [after, hrefused, hnone, Option.toList_none, List.append_nil]
  refine ⟨fun t' ht' => ⟨hafter, fun n hn => ?_⟩, fun x hx => ?_⟩
  · have hgoes := goes_step job c m.cancelled m.world t m.signal
    rw [show (t.step job c m.cancelled m.world m.signal).result = .more t' from ht'] at hgoes
    rcases List.mem_append.mp hn with hn | hn
    · exact Nat.lt_of_lt_of_le (hsent n hn) hgoes.tries_le
    · exact hgoes.tries_of_sent (Option.mem_toList.mp hn)
  · rw [hafter] at hx
    cases hx

/-- A step in which an attempt is refused a host. -/
theorem Refusals.refused (h : Refusals p) (hknown : Known job c ms p) (hp : p.result = .more t)
    {x : Nat × String} (hx : t.refused? job m.world m.signal = some x) :
    Refusals (p.after job t m (t.step job c m.cancelled m.world m.signal)) := by
  obtain ⟨hrefused, hsent⟩ := h.going t hp
  obtain ⟨⟨payload, a, rfl⟩, htries, hresult, hcalls⟩ := step_refused c m.cancelled hx
  have hbegun : p.account.begun = List.range (x.1 + 1) :=
    (hknown.going _ _ hp rfl).begun_of_attempting
  refine ⟨fun t' ht' => ?_, fun y hy => ?_⟩
  · cases hresult.symm.trans ht'
  · simp only [after, hrefused, hx, Option.toList_some, List.nil_append] at hy
    rw [List.mem_singleton.mp hy]
    refine ⟨?_, ?_, hresult⟩
    · simp only [after, hcalls, Option.toList_none, List.append_nil]
      exact fun hn => Nat.lt_irrefl _ (htries ▸ hsent _ hn)
    · simp only [after, hresult]
      rw [hbegun]
      exact List.append_nil _

theorem Refusals.advance (h : Refusals p) (hknown : Known job c ms p) (m : Moment) :
    Refusals (p.advance job c m) := by
  cases hp : p.result with
  | more t =>
    cases hgive : m.already && t.isWaiting with
    | true =>
      obtain ⟨hrefused, -⟩ := h.going t hp
      simp only [Passage.advance, hp, hgive, if_true]
      refine ⟨nofun, fun x hx => ?_⟩
      rw [show _ = [] from hrefused] at hx
      cases hx
    | false =>
      rw [advance_step hp hgive]
      cases hx : t.refused? job m.world m.signal with
      | none => exact h.unrefused hp hx
      | some x => exact h.refused hknown hp hx
  | _ =>
    rw [advance_over (by rw [hp]; nofun)]
    exact h

theorem refusals (job : Job) (c : Chunk) (ms : List Moment) : Refusals (passage job c ms) := by
  induction ms using List.reverseRecOn with
  | nil => exact refusals_nil
  | append_singleton ms m ih =>
    rw [passage, List.foldl_append]
    exact ih.advance (known job c ms) m

end Passage

end Transfer

namespace Run.Setup

/-- The pool when worker `i` has come this far with its part. -/
def worked (pool : Pool Transfer) (i : Nat) (c : Chunk) : TransferResult → Pool Transfer
  | .more t => pool.setWorker i (.uploading c t)
  | .done result => (pool.finish i c result).1
  | .crash text => pool.crash i text

/-- A worker does to the part that it uploads what a passage does. -/
theorem worker_advances (s : Setup) (w : World) (cancelled : Bool) {i : Nat} (job : Job)
    {pool : Pool Transfer} {c : Chunk} {t : Transfer} (sig : Signal)
    (hi : pool.workers[i]? = some (.uploading c t)) (p : Transfer.Passage)
    (hp : p.result = .more t) :
    (s.worker w cancelled i (.sending job pool) sig).stage = .sending job
      (worked pool i c (p.advance job c ⟨⟨w, w.isCancelled s.handle, sig⟩, cancelled⟩).result) := by
  cases hgive : cancelled && t.isWaiting with
  | true =>
    simp only [worker, hi, hgive, if_true, Transfer.Passage.advance, hp]
    rfl
  | false =>
    rw [s.worker_uploading w job sig hi (by rw [hgive]; exact Bool.false_ne_true),
      Transfer.Passage.advance_step hp hgive]
    simp only [Transfer.Passage.after]
    cases (t.step job c (w.isCancelled s.handle) w sig).result <;> rfl

/-! ## The announcement of an upload -/

/-- What has been seen of the announcement of an upload. -/
structure Announcing where
  stage : Stage
  account : Retry.Account PrecreateReply := {}
  calls : List Call := []

/-- What a signal is to the announcement. -/
def announcementHears : Signal → Option (Retry.Signal PrecreateReply)
  | .go => some .look
  | .wake => some .wake
  | .limit => some (.outcome .late)
  | .reply (.precreate r) _ => some (.outcome (.value r))
  | .reply (.fault f) _ => some (.outcome (.fault f))
  | _ => none

/-- The attempt of an announcement that begins with a step. -/
def announcementBegun? : Retry.Stage → Stage → Option Nat
  | .ready _, .announcing _ _ (.attempting n) => some n
  | _, _ => none

namespace Announcing

/-- The announcement after a step. -/
def after (p : Announcing) (stage : Retry.Stage) (sig : Signal) (turn : Turn) : Announcing where
  stage := turn.stage
  account :=
    { begun := p.account.begun ++ (announcementBegun? stage turn.stage).toList
      past := p.account.past ++ (announcementHears sig).toList.flatMap stage.ends }
  calls := p.calls ++ Note.calls turn.notes

/-- The announcement takes a step. -/
def advance (s : Setup) (p : Announcing) (b : Beat) : Announcing :=
  match p.stage with
  | .announcing plan d stage =>
    p.after stage b.signal (s.main b.world b.cancelled (.announcing plan d stage) b.signal)
  | _ => p

end Announcing

/-- The announcement of an upload, from its beginning. -/
def announcing (s : Setup) (plan : Plan) (d : Digest.FileDigests) (bs : List Beat) : Announcing :=
  bs.foldl (Announcing.advance s) ⟨.announcing plan d (.ready 0), {}, []⟩

variable {s : Setup} {w : World} {cancelled : Bool} {plan : Plan} {d : Digest.FileDigests}
  {stage : Retry.Stage} {sig : Signal}

theorem announced_stage (s : Setup) (w : World) (plan : Plan) (d : Digest.FileDigests)
    (r : PrecreateReply) :
    (∃ c, (s.announced w plan d r).stage = .settling (.ok c)) ∨
      ∃ job, (s.announced w plan d r).stage = .opening job := by
  unfold announced
  split
  · exact .inl ⟨_, rfl⟩
  · exact .inr ⟨_, rfl⟩

theorem announcementBegun?_eq (s : Setup) (w : World) (plan : Plan) (d : Digest.FileDigests)
    (stage : Retry.Stage) (loop : Retry.Loop PrecreateReply) :
    (announcementBegun? stage (s.ofAnnouncement w plan d loop).stage).toList
      = ((Retry.Loop.active stage).deeds loop).filterMap Retry.Deed.attempt? := by
  rcases loop with (_ | _ | _) | (_ | r)
  · cases stage <;> rfl
  · cases stage <;> rfl
  · cases stage <;> rfl
  · cases stage <;> rfl
  · have hdeeds : (Retry.Loop.active stage).deeds (.ended (.ok r)) = [] := by cases stage <;> rfl
    rw [hdeeds]
    rcases announced_stage s w plan d r with ⟨c, hstage⟩ | ⟨job, hstage⟩
    · rw [show (s.ofAnnouncement w plan d (.ended (.ok r))).stage = _ from hstage]
      cases stage <;> rfl
    · rw [show (s.ofAnnouncement w plan d (.ended (.ok r))).stage = _ from hstage]
      cases stage <;> rfl

/-- An announcement takes the steps of its retried call, and makes one call for each attempt. -/
theorem announce_loop (w : World) (plan : Plan) (d : Digest.FileDigests) (stage : Retry.Stage)
    (cancelled : Bool) (rs : Retry.Signal PrecreateReply) :
    let loop := ((Retry.Loop.active stage).step s.announcement 0 cancelled rs).1
    let turn := s.announce w plan d stage cancelled rs
    turn.stage = (s.ofAnnouncement w plan d loop).stage ∧
      Note.calls turn.notes = (announcementBegun? stage turn.stage).toList.map
        fun _ => s.precreate d := by
  intro loop turn
  have hmoves : ∀ next, loop = next → next.isAt stage = false →
      Note.calls (s.ofAnnouncement w plan d next).notes
        = (announcementBegun? stage (s.ofAnnouncement w plan d next).stage).toList.map
            (fun _ => s.precreate d) →
      turn.stage = (s.ofAnnouncement w plan d loop).stage ∧
        Note.calls turn.notes = (announcementBegun? stage turn.stage).toList.map
          fun _ => s.precreate d := by
    intro next hnext hat hcalls
    obtain ⟨hstage, hnotes⟩ := announce_eq (s := s) w plan d hnext hat
    rw [hnext, show turn.stage = _ from hstage, show Note.calls turn.notes = _ from hnotes]
    exact ⟨rfl, hcalls⟩
  rcases Retry.Loop.step_cases s.announcement 0 cancelled stage rs with ⟨-, hend⟩ | ⟨-, hgoes⟩
  · refine hmoves _ hend rfl ?_
    rw [announcementBegun?_eq]
    cases stage <;> rfl
  · generalize hloop : ((Retry.Loop.active stage).step s.announcement 0 cancelled rs).1 = next
      at hgoes
    cases hgoes with
    | succeeds n r =>
      refine hmoves _ hloop rfl ?_
      rw [announcementBegun?_eq]
      exact calls_announced w plan d r
    | stays _ _ hno =>
      have hstay : turn = ⟨w, .announcing plan d stage, []⟩ := announce_stays w plan d hloop
      rw [hstay, show loop = _ from hloop]
      cases stage <;> exact ⟨rfl, rfl⟩
    | begins n => exact hmoves _ hloop rfl rfl
    | fails n o f => exact hmoves _ hloop rfl rfl
    | tires n o f => exact hmoves _ hloop rfl rfl
    | pauses n o f => exact hmoves _ hloop rfl rfl
    | resumes n wait => exact hmoves _ hloop rfl rfl

/-- An announcement that goes on stands where its retried call stands. -/
theorem active_ofAnnouncement {plan' : Plan} {d' : Digest.FileDigests}
    {loop : Retry.Loop PrecreateReply}
    (h : (s.ofAnnouncement w plan d loop).stage = .announcing plan' d' stage) :
    d' = d ∧ loop = .active stage := by
  rcases loop with (_ | _ | _) | (_ | r)
  · cases h
    exact ⟨rfl, rfl⟩
  · cases h
    exact ⟨rfl, rfl⟩
  · cases h
    exact ⟨rfl, rfl⟩
  · cases h
  · rcases announced_stage s w plan d r with ⟨c, hstage⟩ | ⟨job, hstage⟩
    · cases hstage.symm.trans h
    · cases hstage.symm.trans h

theorem error_ofAnnouncement {f : UploadFault} {loop : Retry.Loop PrecreateReply}
    (h : (s.ofAnnouncement w plan d loop).stage = .settling (.error f)) :
    ∃ why, loop = .ended (.error why) ∧ f = .ofInit why := by
  rcases loop with (_ | _ | _) | (_ | r)
  · cases h
  · cases h
  · cases h
  · cases h
    exact ⟨_, rfl, rfl⟩
  · rcases announced_stage s w plan d r with ⟨c, hstage⟩ | ⟨job, hstage⟩
    · cases hstage.symm.trans h
    · cases hstage.symm.trans h

/-- A step of an announcement is one of its retried call, or leaves the call where it stands, or the
task falls. -/
theorem announcing_step (s : Setup) (w : World) (cancelled : Bool) (plan : Plan)
    (d : Digest.FileDigests) (stage : Retry.Stage) (sig : Signal) :
    match announcementHears sig with
    | some rs => s.main w cancelled (.announcing plan d stage) sig
        = s.announce w plan d stage cancelled rs
    | none =>
      s.main w cancelled (.announcing plan d stage) sig = ⟨w, .announcing plan d stage, []⟩ ∨
        ∃ text, s.main w cancelled (.announcing plan d stage) sig = ⟨w, .crashed text, []⟩ := by
  cases sig with
  | reply r cancels =>
    cases r with
    | crash text =>
      cases stage with
      | attempting n => exact .inr ⟨_, rfl⟩
      | _ => exact .inl rfl
    | precreate r => exact rfl
    | fault f => exact rfl
    | _ => exact .inl rfl
  | lookup r cancels => exact .inl rfl
  | _ => exact rfl

namespace Announcing

/-- What is known of an announcement: as long as it goes on, the retried call bears the account
out, and so it does if it has failed; each attempt is one call. -/
structure Known (s : Setup) (d : Digest.FileDigests) (bs : List Beat) (p : Announcing) :
    Prop where
  going : ∀ plan d' stage, p.stage = .announcing plan d' stage → d' = d ∧
    Retry.Account.Bears s.announcement (.active stage) p.account
  failed : ∀ f, p.stage = .settling (.error f) →
    ∃ why, f = .ofInit why ∧
      Retry.Account.Bears s.announcement (.ended (.error why)) p.account ∧
      (why = .cancelled → ∃ b ∈ bs, b.cancelled = true)
  calls : p.calls = p.account.begun.map fun _ => s.precreate d

variable {bs : List Beat} {p : Announcing}

theorem Known.mono (h : Known s d bs p) (b : Beat) : Known s d (bs ++ [b]) p := by
  refine ⟨h.going, fun f hf => ?_, h.calls⟩
  obtain ⟨why, hwhy, hbears, hcancelled⟩ := h.failed f hf
  refine ⟨why, hwhy, hbears, fun heq => ?_⟩
  obtain ⟨b', hb', hc⟩ := hcancelled heq
  exact ⟨b', List.mem_append_left _ hb', hc⟩

/-- A step of the retried call. -/
theorem Known.hears (h : Known s d bs p) (hp : p.stage = .announcing plan d stage) (b : Beat)
    {rs : Retry.Signal PrecreateReply} (hrs : announcementHears b.signal = some rs) :
    Known s d (bs ++ [b])
      (p.after stage b.signal (s.announce b.world plan d stage b.cancelled rs)) := by
  obtain ⟨-, hbears⟩ := h.going _ _ _ hp
  obtain ⟨hstage, hcalls⟩ := announce_loop (s := s) b.world plan d stage b.cancelled rs
  have hcases := Retry.Loop.step_cases s.announcement 0 b.cancelled stage rs
  generalize ((Retry.Loop.active stage).step s.announcement 0 b.cancelled rs).1 = loop
    at hstage hcases
  generalize s.announce b.world plan d stage b.cancelled rs = turn at hstage hcalls ⊢
  have hafter : (p.after stage b.signal turn).account = p.account.add stage rs loop := by
    simp only [after, hrs, hstage, announcementBegun?_eq, Option.toList_some,
      List.flatMap_singleton]
    rfl
  have hnext : Retry.Account.Bears s.announcement loop (p.after stage b.signal turn).account := by
    rcases hcases with ⟨-, rfl⟩ | ⟨-, hgoes⟩
    · exact .cancelled _
    · rw [hafter]
      exact hbears.goes hgoes
  refine ⟨fun plan' d' stage' hmore => ?_, fun f hf => ?_, ?_⟩
  · obtain ⟨rfl, rfl⟩ := active_ofAnnouncement (hstage.symm.trans hmore)
    exact ⟨rfl, hnext⟩
  · obtain ⟨why, rfl, rfl⟩ := error_ofAnnouncement (hstage.symm.trans hf)
    refine ⟨why, rfl, hnext, ?_⟩
    rintro rfl
    rcases hcases with ⟨hc, -⟩ | ⟨-, hgoes⟩
    · exact ⟨b, List.mem_append_right _ List.mem_cons_self, hc⟩
    · cases hgoes
  · simp only [after, h.calls, hcalls, List.map_append]

/-- A step that the retried call hears nothing of. -/
theorem Known.deaf (h : Known s d bs p) (hp : p.stage = .announcing plan d stage) (b : Beat)
    (hrs : announcementHears b.signal = none) {next : Stage}
    (hnext : next = .announcing plan d stage ∨ ∃ text, next = .crashed text) :
    Known s d (bs ++ [b]) (p.after stage b.signal ⟨b.world, next, []⟩) := by
  obtain ⟨-, hbears⟩ := h.going _ _ _ hp
  have hbegun : announcementBegun? stage next = none := by
    rcases hnext with rfl | ⟨text, rfl⟩ <;> cases stage <;> rfl
  have hafter : (p.after stage b.signal ⟨b.world, next, []⟩).account = p.account := by
    simp only [after, hbegun, hrs, Option.toList_none, List.append_nil, List.flatMap_nil]
  refine ⟨fun plan' d' stage' hmore => ?_, fun f hf => ?_, ?_⟩
  · have hmore : next = .announcing plan' d' stage' := hmore
    rcases hnext with rfl | ⟨text, rfl⟩
    · injection hmore with _ hd hstage
      rw [hafter, ← hd, ← hstage]
      exact ⟨rfl, hbears⟩
    · cases hmore
  · have hf : next = .settling (.error f) := hf
    rcases hnext with rfl | ⟨text, rfl⟩ <;> cases hf
  · rw [hafter]
    exact (List.append_nil _).trans h.calls

/-- What is known of an announcement is known of it after the next step. -/
theorem Known.advance (h : Known s d bs p) (b : Beat) : Known s d (bs ++ [b]) (p.advance s b) := by
  unfold Announcing.advance
  split
  · next plan d' stage hp =>
    obtain ⟨rfl, -⟩ := h.going _ _ _ hp
    have hstep := s.announcing_step b.world b.cancelled plan d' stage b.signal
    cases hrs : announcementHears b.signal with
    | some rs =>
      rw [hrs] at hstep
      rw [show s.main b.world b.cancelled (.announcing plan d' stage) b.signal = _ from hstep]
      exact h.hears hp b hrs
    | none =>
      rw [hrs] at hstep
      rcases hstep with hstep | ⟨text, hstep⟩
      · rw [hstep]
        exact h.deaf hp b hrs (.inl rfl)
      · rw [hstep]
        exact h.deaf hp b hrs (.inr ⟨text, rfl⟩)
  · exact h.mono b

theorem known (s : Setup) (plan : Plan) (d : Digest.FileDigests) (bs : List Beat) :
    Known s d bs (s.announcing plan d bs) := by
  induction bs using List.reverseRecOn with
  | nil =>
    refine ⟨fun plan' d' stage h => ?_, nofun, rfl⟩
    cases h
    exact ⟨rfl, Retry.Account.bears_start⟩
  | append_singleton bs b ih =>
    rw [announcing, List.foldl_append]
    exact ih.advance b

end Announcing

end Run.Setup

/-! ## What failures say -/

/-- The upload of a part that was read, and the announcement of an upload, tell how they failed: by
being cancelled, or with what the last attempt ended with and the number of attempts that began. An
attempt that the resolver refuses a host sends nothing and is not followed by another, and what the
resolver says is what the upload of its part says. An announcement calls the server once for each
attempt, and may be made again exactly if no retry was left. Each step of a worker of the run that
uploads the part is one of the upload of the part. -/
theorem failures_told (s : Run.Setup) (job : Job) (c : Chunk) :
    (∀ w cancelled i pool t sig ms, pool.workers[i]? = some (.uploading c t) →
      (Transfer.passage job c ms).result = .more t →
        (s.worker w cancelled i (.sending job pool) sig).stage = .sending job
          (Run.Setup.worked pool i c (Transfer.passage job c
            (ms ++ [⟨⟨w, w.isCancelled s.handle, sig⟩, cancelled⟩])).result)) ∧
    (∀ ms f, let p := Transfer.passage job c ms
      p.result = .done (.error f) → p.payload?.isSome = true →
        f.Tells (Transfer.operation job c) (.chunkFailed c.index) p.account
          (∃ m ∈ ms, m.isCancelled = true)) ∧
    (∀ ms, let p := Transfer.passage job c ms
      ∀ x ∈ p.refused, x.1 ∉ p.sent ∧ p.account.begun = List.range (x.1 + 1) ∧
        p.result = .done (.error (.endpointUnavailable x.2))) ∧
    ∀ plan d bs f, let p := s.announcing plan d bs
      p.stage = .settling (.error f) →
        f.Tells s.announcement .initFailed p.account (∃ b ∈ bs, b.cancelled = true) ∧
          p.calls = (p.account.begun.map fun _ => s.precreate d) ∧
          ∀ n last, f = .initFailed n last →
            (f.isRestartable = true ↔ p.account.Exhausted s.announcement) ∧
              (f.isRestartable = false ↔ p.account.MetFatal s.announcement) := by
  refine ⟨?_, ?_, fun ms => (Transfer.Passage.refusals job c ms).told, ?_⟩
  · intro w cancelled i pool t sig ms hi hp
    rw [s.worker_advances w cancelled job sig hi _ hp, Transfer.passage, Transfer.passage,
      List.foldl_append]
    rfl
  · intro ms f p hp hread
    obtain ⟨why, rfl, hbears, hcancelled⟩ :=
      (Transfer.Passage.known job c ms).failed f hp hread
    exact UploadFault.tells_of_bears (UploadFault.isOwn_chunkFailed _) hbears hcancelled
  · intro plan d bs f p hp
    have hknown := Run.Setup.Announcing.known s plan d bs
    obtain ⟨why, rfl, hbears, hcancelled⟩ := hknown.failed f hp
    have htells := UploadFault.tells_of_bears UploadFault.isOwn_initFailed hbears hcancelled
    refine ⟨htells, hknown.calls, fun n last heq => ?_⟩
    have heq : UploadFault.ofRetry .initFailed why = .initFailed n last := heq
    rw [show UploadFault.ofInit why = _ from heq]
    rw [heq] at htells
    exact htells.restartable

namespace Sample

/-- A run that may not fall back on another host. -/
def hostless : Run.Setup := ⟨0, target, { allowFallback := false }, 0⟩

def hostlessJob : Job := hostless.job ⟨1, 1, [⟨0, 0, 1, false⟩]⟩ ⟨"", "", []⟩ "U"

/-- The small world with a lookup under way that nothing can take the place of. -/
def lookingUp : World where
  files := world.files
  resolvers := [{
    settings := { allowFallback := false }
    inflight := some ⟨0, "token", .asking⟩
    nextLookup := 1 }]

/-- The first attempt is cut off, and the second one is refused a host. -/
def refusedSecond : List Moment :=
  [.go, .go, .limit, .wake, .go, .go, .go, .lookup (.outcome (.servers [])) []].map fun sig =>
    ⟨⟨lookingUp, false, sig⟩, false⟩

/-- A request that the server cannot read. -/
def badRequest : CallFault := .plain .badRequest "HTTP 400"

def refusedAnnouncement : List Beat :=
  [.go, .limit, .wake, .go, .reply (.fault badRequest) []].map fun sig => ⟨lookingUp, false, sig⟩

end Sample

/-- A worker turns to its part; the second attempt to send the part is refused a host. The second
call of an announcement is refused for good. -/
theorem failures_told_second :
    let part : Chunk := ⟨0, 0, 1, false⟩
    let pool : Pool Transfer := { queue := [], workers := [.uploading part .reading] }
    (Sample.hostless.worker Sample.lookingUp false 0 (.sending Sample.hostlessJob pool) .go).stage
        = .sending Sample.hostlessJob
          (pool.setWorker 0 (.uploading part (.ready ⟨#[1]⟩ 0))) ∧
      (UploadFault.endpointUnavailable "locateupload 未返回 https 上传地址").Tells
        (Transfer.operation Sample.hostlessJob part) (.chunkFailed 0)
        (Transfer.passage Sample.hostlessJob part Sample.refusedSecond).account
        (∃ m ∈ Sample.refusedSecond, m.isCancelled = true) ∧
      (Transfer.passage Sample.hostlessJob part Sample.refusedSecond).refused
        = [(1, "locateupload 未返回 https 上传地址")] ∧
      (UploadFault.initFailed 2 Sample.badRequest).Tells Sample.hostless.announcement .initFailed
        (Sample.hostless.announcing ⟨1, 1, []⟩ ⟨"", "", []⟩ Sample.refusedAnnouncement).account
        (∃ b ∈ Sample.refusedAnnouncement, b.cancelled = true) := by
  intro part pool
  obtain ⟨hsteps, hparts, -, hannounced⟩ :=
    failures_told Sample.hostless Sample.hostlessJob part
  exact ⟨hsteps Sample.lookingUp false 0 pool .reading .go [] rfl rfl,
    hparts Sample.refusedSecond _ rfl rfl, rfl,
    (hannounced ⟨1, 1, []⟩ ⟨"", "", []⟩ Sample.refusedAnnouncement _ rfl).1⟩

end ResumableUpload.Session
