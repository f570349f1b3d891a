import ResumableUpload.Proofs.Retry.Steps
import ResumableUpload.Proofs.Session.Frame

/-!
# The upload of one part

What a step of the upload of a part can do is listed once, with the calls that it makes
(`Transfer.Goes`, `Transfer.goes_step`): a part is read once, and every attempt that finds a host
sends what was read. So a part is done exactly when the server has answered it (`step_done_iff`),
its upload counts as cancelled only if the session was cancelled (`cancelled_of_step`), and it makes
no calls but for a host and with the part itself (`sends_step`).
-/

namespace ResumableUpload

/-- Only a call that was given up makes an upload count as cancelled. -/
theorem UploadFault.ofRetry_eq_cancelled {other : Nat → CallFault → UploadFault} {f : Retry.Failure}
    (hother : ∀ n fault, other n fault ≠ .cancelled) (h : ofRetry other f = .cancelled) :
    f = .cancelled := by
  cases f with
  | cancelled => rfl
  | exhausted n last =>
    simp only [ofRetry, Retry.Failure.lastFault?] at h
    split at h
    · cases h
    · cases h
    · exact absurd h (hother _ _)
  | fatal n fault =>
    simp only [ofRetry, Retry.Failure.lastFault?] at h
    split at h
    · cases h
    · cases h
    · exact absurd h (hother _ _)

namespace Session

theorem World.calls_ask (w : World) (resolver : Nat) (token : String) (caller : Caller) {x : Call}
    (hx : x ∈ Note.calls (w.ask resolver token caller).notes) : ∃ token, x = .locate token := by
  unfold World.ask at hx
  split at hx
  · cases hx
  · rw [Note.calls_append, Note.calls_lines, List.nil_append, Note.calls, List.mem_filterMap] at hx
    obtain ⟨note, hnote, hcall⟩ := hx
    obtain ⟨l, -, rfl⟩ := List.mem_map.mp hnote
    exact ⟨l.token, (Option.some.inj hcall).symm⟩

/-- The resolver gives a host to a caller that asks for one: as it stands, or with the end of the
lookup that the signal brings. -/
def World.Gives (w : World) (resolver : Nat) (token : String) (sig : Signal) (e : Endpoint) :
    Prop :=
  ∃ w' caller, (w' = w ∨ ∃ l o cancels, sig = .lookup (.outcome o) cancels ∧
      w' = (w.endLookup resolver l (.outcome o)).1) ∧
    (w'.ask resolver token caller).resolution = .done (.ok e)

namespace Transfer

/-- The calls that the upload of a part makes: for a host, and with the part. -/
inductive Sends (job : Job) (c : Chunk) : Call → Prop
  | locate (token : String) : Sends job c (.locate token)
  | slice (baseUrl : String) (payload : ByteArray) :
      Sends job c (.slice baseUrl job.target.accessToken (request job c payload))

/-- The calls are for hosts. -/
def Locates (calls : List Call) : Prop := ∀ x ∈ calls, ∃ token, x = .locate token

theorem locates_nil : Locates [] := fun _ hx => absurd hx List.not_mem_nil

/-- What a step of the upload of a part can do, and the calls that it makes. -/
inductive Goes (job : Job) (c : Chunk) (cancelled : Bool) (w : World) (sig : Signal) :
    Transfer → TransferResult → List Call → Prop
  | stays (t : Transfer) : Goes job c cancelled w sig t (.more t) []
  | reads {payload : ByteArray} :
      Digest.readChunk w.files job.target.localPath c.offset c.size = .ok payload →
      Goes job c cancelled w sig .reading (.more (.ready payload 0)) []
  | begins (payload : ByteArray) (n : Nat) : Goes job c cancelled w sig (.ready payload n)
      (.more (.attempting payload n (.resolving .entering))) []
  | looks (payload : ByteArray) (n : Nat) (caller caller' : Caller) {calls : List Call} :
      Locates calls → Goes job c cancelled w sig (.attempting payload n (.resolving caller))
        (.more (.attempting payload n (.resolving caller'))) calls
  -- the part is sent to the host that the resolver gives
  | sends (payload : ByteArray) (n : Nat) (caller : Caller) {e : Endpoint} {calls : List Call} :
      w.Gives job.resolver job.target.accessToken sig e → Locates calls →
      Goes job c cancelled w sig (.attempting payload n (.resolving caller))
        (.more (.attempting payload n (.sending e)))
        (calls ++ [.slice e.baseUrl job.target.accessToken (request job c payload)])
  | pauses (payload : ByteArray) (n : Nat) (a : Attempt) (wait : Duration) {calls : List Call} :
      n < job.policy.maxRetries → Locates calls → Goes job c cancelled w sig
        (.attempting payload n a) (.more (.pausing payload n wait)) calls
  | resumes (payload : ByteArray) (n : Nat) (wait : Duration) :
      Goes job c cancelled w sig (.pausing payload n wait) (.more (.ready payload (n + 1))) []
  -- the server has answered the part
  | answered (payload : ByteArray) (n : Nat) (e : Endpoint) (reply : SliceReply)
      (cancels : List Nat) : sig = .reply (.slice reply) cancels →
      Goes job c cancelled w sig (.attempting payload n (.sending e)) (.done (.ok reply.md5)) []
  | fails (t : Transfer) {f : UploadFault} {calls : List Call} :
      f ≠ .cancelled → Locates calls → Goes job c cancelled w sig t (.done (.error f)) calls
  -- the session was cancelled
  | drops (t : Transfer) :
      cancelled = true → Goes job c cancelled w sig t (.done (.error .cancelled)) []
  | falls (t : Transfer) (text : String) {calls : List Call} :
      Locates calls → Goes job c cancelled w sig t (.crash text) calls

variable {job : Job} {c : Chunk} {payload : ByteArray} {cancelled : Bool} {w w' : World}
  {sig : Signal} {n : Nat}

/-! ## The retried call -/

@[simp] theorem calls_ofLoop (l : Retry.Loop String) :
    Note.calls (ofLoop job c payload l).2 = [] := by
  unfold ofLoop
  split
  · rfl
  · rfl
  · rfl
  · exact Note.calls_lines _
  · rfl

@[simp] theorem calls_retry (cancelled : Bool) (w : World) (stage : Retry.Stage)
    (s : Retry.Signal String) :
    Note.calls (retry job c payload cancelled w stage s).notes = [] := by
  have hnotes : (retry job c payload cancelled w stage s).notes
      = Note.lines ((Retry.Loop.active stage).step (operation job c) 0 cancelled s).2
        ++ (ofLoop job c payload
            ((Retry.Loop.active stage).step (operation job c) 0 cancelled s).1).2 := rfl
  rw [hnotes, Note.calls_append, Note.calls_lines, calls_ofLoop, List.nil_append]

/-- An attempt that fails leads to a pause, within the bound of the retries, or the part has
failed. -/
theorem goes_conclude (a : Attempt) {o : Retry.Outcome String} {fault : CallFault}
    (ho : o.fault? (operation job c) = some fault) {calls : List Call} (hcalls : Locates calls) :
    Goes job c cancelled w sig (.attempting payload n a) (conclude job c payload n w' o).result
      calls := by
  have hresult : (conclude job c payload n w' o).result = (ofLoop job c payload
      ((Retry.Loop.active (.attempting n)).step (operation job c) 0 false (.outcome o)).1).1 := rfl
  have hfails : ∀ f : Retry.Failure, f ≠ .cancelled → UploadFault.ofChunk c.index f ≠ .cancelled :=
    fun f hf h => hf (UploadFault.ofRetry_eq_cancelled (fun _ _ => UploadFault.noConfusion) h)
  rw [hresult]
  rcases Retry.Loop.step_cases (operation job c) 0 false (.attempting n) (.outcome o) with
    ⟨hc, -⟩ | ⟨-, hgoes⟩
  · cases hc
  · generalize ((Retry.Loop.active (.attempting n)).step (operation job c) 0 false
      (.outcome o)).1 = loop at hgoes ⊢
    cases hgoes with
    | succeeds _ md5 => cases ho
    | fails _ _ f _ _ => exact .fails _ (hfails _ nofun) hcalls
    | tires _ _ f _ _ _ => exact .fails _ (hfails _ nofun) hcalls
    | pauses _ _ f _ _ hn => exact .pauses payload n a _ hn hcalls
    | stays _ _ hawaits => cases hawaits

theorem goes_ready :
    Goes job c cancelled w sig (.ready payload n)
      (retry job c payload cancelled w' (.ready n) .look).result [] := by
  cases cancelled with
  | true => exact .drops _ rfl
  | false => exact .begins payload n

theorem goes_pausing (wait : Duration) :
    Goes job c cancelled w sig (.pausing payload n wait)
      (retry job c payload cancelled w' (.pausing n wait) .wake).result [] := by
  cases cancelled with
  | true => exact .drops _ rfl
  | false => exact .resumes payload n wait

/-! ## A step -/

/-- An attempt that looks for a host sends the part once it has one. -/
theorem goes_resolved (caller : Caller) {r : World.Resolved}
    (hgives : ∀ e, r.resolution = .done (.ok e) →
      w.Gives job.resolver job.target.accessToken sig e)
    (hcalls : Locates (Note.calls r.notes)) :
    Goes job c cancelled w sig (.attempting payload n (.resolving caller))
      (resolved job c payload n r).result (Note.calls (resolved job c payload n r).notes) := by
  unfold resolved
  split
  · exact .looks payload n caller _ hcalls
  · exact .falls _ _ hcalls
  · next e he =>
    dsimp only
    rw [Note.calls_append]
    exact .sends payload n caller (hgives e he) hcalls
  · next detail _ =>
    dsimp only
    rw [Note.calls_append, conclude, calls_retry, List.append_nil]
    exact goes_conclude (.resolving caller) rfl hcalls

theorem result_replied_fault (n : Nat) (e : Endpoint) (w : World) (f : CallFault) :
    (replied job c payload n e w (.fault f)).result
      = (conclude job c payload n w (.fault f)).result := rfl

theorem calls_replied (n : Nat) (e : Endpoint) (w : World) (r : Reply) :
    Note.calls (replied job c payload n e w r).notes = [] := by
  cases r with
  | slice r => exact calls_retry ..
  | fault f =>
    have hnotes : (replied job c payload n e w (.fault f)).notes = Note.lines _ ++ _ := rfl
    rw [hnotes, Note.calls_append, Note.calls_lines, List.nil_append]
    exact calls_retry ..
  | crash text => rfl
  | precreate r => rfl
  | create r => rfl

theorem goes_replied (e : Endpoint) (r : Reply) {cancels : List Nat}
    (hsig : sig = .reply r cancels) :
    Goes job c cancelled w sig (.attempting payload n (.sending e))
      (replied job c payload n e w' r).result [] := by
  cases r with
  | slice r => exact .answered payload n e r cancels hsig
  | fault f =>
    rw [result_replied_fault]
    exact goes_conclude (.sending e) rfl locates_nil
  | crash text => exact .falls _ _ locates_nil
  | precreate r => exact .stays _
  | create r => exact .stays _

/-- A step of the upload of a part does one of the things listed. -/
theorem goes_step (job : Job) (c : Chunk) (cancelled : Bool) (w : World) (t : Transfer)
    (sig : Signal) :
    Goes job c cancelled w sig t (t.step job c cancelled w sig).result
      (Note.calls (t.step job c cancelled w sig).notes) := by
  unfold step
  split
  · split
    · next hread => exact .reads hread
    · exact .fails _ nofun locates_nil
  · rw [calls_retry]
    exact goes_ready
  · next payload n caller =>
    refine goes_resolved caller (fun e he => ⟨w, caller, .inl rfl, he⟩) fun x hx => ?_
    exact World.calls_ask _ _ _ _ hx
  · next payload n l reply cancels =>
    cases reply with
    | outcome o =>
      dsimp only
      rw [Note.calls_append, Note.calls_lines, List.nil_append]
      refine goes_resolved (.waiting l) (fun e he => ?_) fun x hx => World.calls_ask _ _ _ _ hx
      exact ⟨_, .waiting l, .inr ⟨l, o, cancels, rfl, rfl⟩, he⟩
    | crash text =>
      dsimp only
      rw [Note.calls_lines]
      exact .falls _ _ locates_nil
  · rw [calls_replied]
    exact goes_replied _ _ rfl
  · next payload n a =>
    rw [conclude, calls_retry]
    exact goes_conclude a rfl locates_nil
  · rw [calls_retry]
    exact goes_pausing _
  · exact .stays _

variable {t : Transfer}

theorem goes_of_result {result : TransferResult}
    (h : (t.step job c cancelled w sig).result = result) :
    ∃ calls, Goes job c cancelled w sig t result calls :=
  ⟨_, h ▸ goes_step job c cancelled w t sig⟩

/-- The upload of a part is done exactly when the server has answered the part. -/
theorem step_done_iff {md5 : String} :
    (t.step job c cancelled w sig).result = .done (.ok md5)
      ↔ ∃ payload n e reply cancels, t = .attempting payload n (.sending e) ∧
          sig = .reply (.slice reply) cancels ∧ reply.md5 = md5 := by
  constructor
  · intro h
    obtain ⟨_, hgoes⟩ := goes_of_result h
    cases hgoes with
    | answered payload n e reply cancels hsig =>
      exact ⟨payload, n, e, reply, cancels, rfl, hsig, rfl⟩
  · rintro ⟨payload, n, e, reply, cancels, rfl, rfl, rfl⟩
    rfl

/-- The upload of a part ends as cancelled only if the session was cancelled. -/
theorem cancelled_of_step
    (h : (t.step job c cancelled w sig).result = .done (.error .cancelled)) :
    cancelled = true := by
  obtain ⟨_, hgoes⟩ := goes_of_result h
  cases hgoes with
  | fails _ hf _ => exact absurd rfl hf
  | drops _ hc => exact hc

/-- A step that makes other calls than for hosts sends the part, and an attempt goes on. -/
theorem Goes.locates_or_sends {result : TransferResult} {calls : List Call}
    (h : Goes job c cancelled w sig t result calls) :
    Locates calls ∨ ∃ payload n caller e before,
      t = .attempting payload n (.resolving caller) ∧
      result = .more (.attempting payload n (.sending e)) ∧ Locates before ∧
      w.Gives job.resolver job.target.accessToken sig e ∧
      calls = before ++ [.slice e.baseUrl job.target.accessToken (request job c payload)] := by
  cases h with
  | @sends payload n caller e before hgives hbefore =>
    exact .inr ⟨payload, n, caller, e, before, rfl, rfl, hbefore, hgives, rfl⟩
  | looks _ _ _ _ hcalls => exact .inl hcalls
  | pauses _ _ _ _ _ hcalls => exact .inl hcalls
  | fails _ _ hcalls => exact .inl hcalls
  | falls _ _ hcalls => exact .inl hcalls
  | _ => exact .inl locates_nil

/-- The upload of a part makes no calls but for a host and with the part. -/
theorem sends_step {x : Call} (hx : x ∈ Note.calls (t.step job c cancelled w sig).notes) :
    Sends job c x := by
  have hlocates : ∀ {calls : List Call}, Locates calls → x ∈ calls → Sends job c x := by
    intro calls hcalls hx
    obtain ⟨token, rfl⟩ := hcalls x hx
    exact .locate token
  rcases (goes_step job c cancelled w t sig).locates_or_sends with
    hcalls | ⟨payload, _, _, e, before, -, -, hbefore, -, heq⟩
  · exact hlocates hcalls hx
  · rw [heq] at hx
    rcases List.mem_append.mp hx with hx | hx
    · exact hlocates hbefore hx
    · rw [List.mem_singleton.mp hx]
      exact .slice e.baseUrl payload

/-- A part is on its way since before, or was just sent. -/
theorem sending_step {e : Endpoint}
    (h : (t.step job c cancelled w sig).result = .more (.attempting payload n (.sending e))) :
    t = .attempting payload n (.sending e) ∨
      Call.slice e.baseUrl job.target.accessToken (request job c payload)
        ∈ Note.calls (t.step job c cancelled w sig).notes := by
  have hgoes := goes_step job c cancelled w t sig
  rw [h] at hgoes
  generalize Note.calls (t.step job c cancelled w sig).notes = calls at hgoes ⊢
  cases hgoes with
  | stays => exact .inl rfl
  | sends => exact .inr (List.mem_append_right _ List.mem_cons_self)

end Transfer

end Session

end ResumableUpload
