import ResumableUpload.Proofs.Client.Disclosure
import ResumableUpload.Proofs.Session.Supplied

/-!
# Which replies a client accepts

The four calls look at a reply in one order: its status, its form, the number in it, and what it has
(`Client.Judged`). They differ in the form of the reply, in where the number is, and in what it must
have (`Client.Demand`).

An announcement is accepted with an identifier unless nothing need be sent. So a session whose calls
go through a client never sends a part, nor joins the parts, under the empty identifier, as long as
no record with an empty identifier was in the store at the start (`Client.accepts_in_order`). A
record is taken as it is: with an empty identifier in it, the session sends parts under that
(`Client.resumes_empty`).
-/

namespace ResumableUpload.Client

/-! ## What the calls need -/

/-- What a call needs of the reply to it. -/
structure Demand (α β : Type) where
  ofJson? : Json → Option α
  /-- Zero unless the call has failed. -/
  number : α → Int
  /-- What the call gives, if the reply has all that it needs. -/
  result? : α → Option β

/-- Secure hosts, without the slashes at their end and the first ones first. -/
def locateDemand : Demand LocateReply (List String) where
  ofJson? := LocateReply.ofJson?
  number := LocateReply.errorCode
  result? r :=
    let addresses := (r.servers ++ r.backupServers).map Text.trimSlashes
    if ∃ a ∈ addresses, LocateReply.isSecure a = true then
      some (addresses.filter LocateReply.isSecure)
    else none

/-- An identifier, unless the server has the content already. -/
def precreateDemand : Demand PrecreateReply PrecreateReply where
  ofJson? := PrecreateReply.ofJson?
  number := PrecreateReply.errno
  result? r := if r.returnType = 2 ∨ r.uploadId ≠ "" then some r else none

/-- The digest of the part. -/
def sliceDemand : Demand SliceReply SliceReply where
  ofJson? := SliceReply.ofJson?
  number := SliceReply.errorCode
  result? r := if r.md5 ≠ "" then some r else none

def createDemand : Demand CreateReply CreateReply where
  ofJson? := CreateReply.ofJson?
  number := CreateReply.errno
  result? := some

variable {α β : Type} {d : Demand α β}
  {result : Except CallFault β} {kind : FaultKind} {errno : Option Int}

/-- The reply, if its body has the form that the call needs. -/
def Demand.read? (d : Demand α β) (body : ByteArray) : Option α :=
  (Json.read? (Text.ofUtf8 body)).bind d.ofJson?

/-! ## Judging a reply -/

/-- The call ends with a fault of this kind and with this number. -/
def Faults (result : Except CallFault β) (kind : FaultKind) (errno : Option Int) : Prop :=
  ∃ message, result = .error ⟨kind, errno, message⟩

theorem Faults.ne_ok (h : Faults result kind errno) (b : β) : result ≠ .ok b := by
  obtain ⟨message, rfl⟩ := h
  nofun

/-- What is made of a reply that has the right form: its number comes first. -/
def Demand.check (d : Demand α β) (tells lacks : α → String) (a : α) : Except CallFault β :=
  if d.number a ≠ 0 then .error (.ofErrno (d.number a) (tells a))
  else
    match d.result? a with
    | some b => .ok b
    | none => .error (lacking (lacks a))

theorem Demand.check_eq_ok {tells lacks : α → String} {a : α} {b : β} :
    d.check tells lacks a = .ok b ↔ d.number a = 0 ∧ d.result? a = some b := by
  unfold Demand.check
  by_cases hnumber : d.number a = 0
  · rw [if_neg (not_not_intro hnumber)]
    cases d.result? a <;> simp [hnumber]
  · rw [if_pos hnumber]
    simp [hnumber]

/-- What the call makes of a reply with this status, given what is read from its body. -/
structure Judged (d : Demand α β) (status : Http.Status) (reply? : Option α)
    (result : Except CallFault β) : Prop where
  accepts : ∀ b, result = .ok b ↔ status.isSuccess = true ∧
    ∃ a, reply? = some a ∧ d.number a = 0 ∧ d.result? a = some b
  /-- The status comes first, whatever the body. -/
  refuses : status.isSuccess = false → Faults result (.ofStatus status.code) none
  garbled : status.isSuccess = true → reply? = none → Faults result .malformedResponse none
  failed : status.isSuccess = true → ∀ a, reply? = some a → d.number a ≠ 0 →
    Faults result (.ofErrno (d.number a)) (some (d.number a))
  lacks : status.isSuccess = true → ∀ a, reply? = some a → d.number a = 0 →
    d.result? a = none → Faults result .malformedResponse none

variable {status : Http.Status}

theorem judged_of_refused (hstatus : status.isSuccess = false) (reply? : Option α)
    (h : Faults result (.ofStatus status.code) none) : Judged d status reply? result := by
  have hnot : status.isSuccess ≠ true := Bool.eq_false_iff.mp hstatus
  exact {
    accepts := fun b => iff_of_false (h.ne_ok b) fun hb => hnot hb.1
    refuses := fun _ => h
    garbled := fun hs => absurd hs hnot
    failed := fun hs => absurd hs hnot
    lacks := fun hs => absurd hs hnot }

theorem judged_of_garbled (hstatus : status.isSuccess = true)
    (h : Faults result .malformedResponse none) : Judged d status none result where
  accepts b := iff_of_false (h.ne_ok b) fun ⟨_, _, ha, _⟩ => nomatch ha
  refuses hs := absurd hstatus (Bool.eq_false_iff.mp hs)
  garbled _ _ := h
  failed _ _ ha := nomatch ha
  lacks _ _ ha := nomatch ha

theorem judged_check (d : Demand α β) (tells lacks : α → String)
    (hstatus : status.isSuccess = true) (a : α) :
    Judged d status (some a) (d.check tells lacks a) where
  accepts b := by
    rw [Demand.check_eq_ok]
    constructor
    · rintro ⟨hnumber, hresult⟩
      exact ⟨hstatus, a, rfl, hnumber, hresult⟩
    · rintro ⟨-, a', ha, hnumber, hresult⟩
      obtain rfl := Option.some.inj ha
      exact ⟨hnumber, hresult⟩
  refuses hs := absurd hstatus (Bool.eq_false_iff.mp hs)
  garbled _ ha := nomatch ha
  failed _ a' ha hnumber := by
    obtain rfl := Option.some.inj ha
    rw [Demand.check, if_pos hnumber]
    exact ⟨_, rfl⟩
  lacks _ a' ha hnumber hresult := by
    obtain rfl := Option.some.inj ha
    rw [Demand.check, if_neg (not_not_intro hnumber), hresult]
    exact ⟨_, rfl⟩

/-- A reply is judged by its status, its form, and the check, in this order. -/
theorem judged_reply (d : Demand α β) (tells lacks : α → String) (request : Http.Request)
    (status : Http.Status) (body : ByteArray) :
    Judged d status (d.read? body)
      ((receive (some request) d.ofJson? (.reply status body)).bind (d.check tells lacks)) := by
  have hreceive : receive (some request) d.ofJson? (.reply status body)
      = if status.isSuccess then
          match d.read? body with
          | some a => .ok a
          | none => .error (unreadable (Text.ofUtf8 body))
        else .error (.ofStatus status (Text.ofUtf8 body)) := rfl
  rw [hreceive]
  cases hstatus : status.isSuccess with
  | false => exact judged_of_refused hstatus _ ⟨_, rfl⟩
  | true =>
    rw [if_pos rfl]
    cases d.read? body with
    | none => exact judged_of_garbled hstatus ⟨_, rfl⟩
    | some a => exact judged_check d tells lacks hstatus a

/-! ## The four calls -/

theorem isEmpty_secureServers (r : LocateReply) : r.secureServers.isEmpty = true ↔
    ¬ ∃ a ∈ (r.servers ++ r.backupServers).map Text.trimSlashes, LocateReply.isSecure a = true := by
  rw [List.isEmpty_iff, LocateReply.secureServers, List.filter_eq_nil_iff]
  exact ⟨fun h ⟨a, ha, hsecure⟩ => h a ha hsecure, fun h a ha hsecure => h ⟨a, ha, hsecure⟩⟩

theorem hosts_eq (r : LocateReply) : (hosts r).1
    = locateDemand.check LocateReply.errorMessage (fun _ => "响应中没有可用的 https 上传地址") r := by
  unfold hosts Demand.check locateDemand
  dsimp only
  by_cases hnumber : r.errorCode = 0
  · rw [if_neg (not_not_intro hnumber), if_neg (not_not_intro hnumber)]
    by_cases hempty : r.secureServers.isEmpty = true
    · rw [if_pos hempty, if_neg ((isEmpty_secureServers r).mp hempty)]
    · rw [if_neg hempty, if_pos (not_not.mp fun hno => hempty ((isEmpty_secureServers r).mpr hno))]
      rfl
  · rw [if_pos hnumber, if_pos hnumber]

theorem located_eq (request : Option Http.Request) (o : Http.Outcome) :
    (located request o).1 = (receive request LocateReply.ofJson? o).bind
      (locateDemand.check LocateReply.errorMessage fun _ => "响应中没有可用的 https 上传地址") := by
  rw [located]
  cases receive request LocateReply.ofJson? o with
  | ok r => exact hosts_eq r
  | error f => rfl

theorem checkPrecreate_eq : checkPrecreate = precreateDemand.check (fun _ => "precreate 失败")
    fun _ => "precreate 响应缺少 uploadid" := by
  funext r
  unfold checkPrecreate Demand.check precreateDemand PrecreateReply.isRapid
  dsimp only
  by_cases hnumber : r.errno = 0
  · by_cases hrapid : r.returnType = 2 <;> by_cases hid : r.uploadId = "" <;>
      simp [hnumber, hrapid, hid]
  · rw [if_pos hnumber, if_pos hnumber]

theorem checkSlice_eq (partseq : Nat) : checkSlice partseq
    = sliceDemand.check SliceReply.errorMessage fun _ => s!"分片 #{partseq} 响应缺少 md5" := by
  funext r
  unfold checkSlice Demand.check sliceDemand
  dsimp only
  by_cases hnumber : r.errorCode = 0
  · by_cases hmd5 : r.md5 = "" <;> simp [hnumber, hmd5]
  · rw [if_pos hnumber, if_pos hnumber]

theorem checkCreate_eq :
    checkCreate = createDemand.check (fun _ => "create 失败") fun _ => "" := rfl

/-! ## Sessions over a client -/

open Session (Call Reply Entry Event World Action History Names Supplied)

/-- A reply that the client can give to a call when this comes of its request. -/
inductive Answers (c : Client) (boundary : String) (o : Http.Outcome) : Call → Reply → Prop
  | announced {token : String} {q : PrecreateRequest} {reply : PrecreateReply} :
      announced (c.precreate token q) o = .ok reply →
      c.Answers boundary o (.precreate token q) (.precreate reply)
  | accepted {url token : String} {q : SliceRequest} {reply : SliceReply} :
      accepted q.partseq (slice boundary url token q) o = .ok reply →
      c.Answers boundary o (.slice url token q) (.slice reply)
  | joined {token : String} {q : CreateRequest} {reply : CreateReply} :
      joined (c.create token q) o = .ok reply →
      c.Answers boundary o (.create token q) (.create reply)
  | fault {call : Call} {f : CallFault} : c.faultOf boundary o call = some f →
      c.Answers boundary o call (.fault f)

/-- Every answer in the journal is one that the client can have given. -/
def Gave (c : Client) (journal : List Entry) : Prop :=
  ∀ run worker call r, ⟨run, .answered worker call r⟩ ∈ journal →
    ∃ boundary o, c.Answers boundary o call r

/-- The entries of the journal in which a call is answered. -/
def answersIn (journal : List Entry) : List Entry :=
  journal.filter fun e => e.event matches .answered ..

theorem mem_answersIn {journal : List Entry} {run : Nat} {worker : Option Nat} {call : Call}
    {r : Reply} (h : ⟨run, .answered worker call r⟩ ∈ journal) :
    ⟨run, .answered worker call r⟩ ∈ answersIn journal :=
  List.mem_filter.mpr ⟨h, rfl⟩

/-- An announcement is accepted with an identifier unless nothing need be sent. -/
theorem uploadId_of_announced {request : Option Http.Request} {o : Http.Outcome}
    {reply : PrecreateReply} (h : announced request o = .ok reply)
    (hrapid : reply.isRapid = false) : reply.uploadId ≠ "" := by
  rw [announced] at h
  cases hreply : receive request PrecreateReply.ofJson? o with
  | error f =>
    rw [hreply] at h
    cases h
  | ok r =>
    have hcheck : checkPrecreate r = .ok reply := by rwa [hreply] at h
    rw [checkPrecreate_eq] at hcheck
    have hresult : (if r.returnType = 2 ∨ r.uploadId ≠ "" then some r else none) = some reply :=
      (Demand.check_eq_ok.mp hcheck).2
    obtain ⟨hneeds, heq⟩ := Option.ite_none_right_eq_some.mp hresult
    obtain rfl := Option.some.inj heq
    rcases hneeds with htwo | hid
    · rw [PrecreateReply.isRapid, htwo] at hrapid
      cases hrapid
    · exact hid

/-- No identifier that a client gave is empty. -/
theorem not_supplied_empty {c : Client} {store : Resume.Store} {journal : List Entry}
    (hgave : c.Gave journal) (hstore : ∀ e ∈ store.entries, e.2.uploadId ≠ "") :
    ¬ Supplied store journal "" := by
  intro hsupplied
  cases hsupplied with
  | stored hmem hid => exact hstore _ hmem hid
  | issued hmem hrapid hid =>
    obtain ⟨boundary, o, hanswers⟩ := hgave _ _ _ _ hmem
    cases hanswers with
    | announced hannounced => exact uploadId_of_announced hannounced hrapid hid

/-- For every status and body of a reply, each of the four calls gives a result just if the status
is that of a success, the body has the form of the reply, its number is zero, and it has what the
call needs; otherwise it ends with the fault of the first of these that is not so. A session over a
client names no empty identifier, unless a record with one was in the store at the start. -/
theorem accepts_in_order :
    (∀ (request : Http.Request) (status : Http.Status) (body : ByteArray),
      let o := Http.Outcome.reply status body
      Judged locateDemand status (locateDemand.read? body) (located (some request) o).1 ∧
      Judged precreateDemand status (precreateDemand.read? body) (announced (some request) o) ∧
      (∀ partseq,
        Judged sliceDemand status (sliceDemand.read? body) (accepted partseq (some request) o)) ∧
      Judged createDemand status (createDemand.read? body) (joined (some request) o)) ∧
    ∀ (c : Client) (w : World) (as : List Action),
      let h := (History.start w).after as
      c.Gave h.journal → (∀ e ∈ w.store.entries, e.2.uploadId ≠ "") → ∀ k, ¬ Names (h.of k) "" := by
  constructor
  · intro request status body o
    refine ⟨?_, ?_, fun partseq => ?_, ?_⟩
    · rw [located_eq]
      exact judged_reply locateDemand _ _ request status body
    · rw [announced, checkPrecreate_eq]
      exact judged_reply precreateDemand _ _ request status body
    · rw [accepted, checkSlice_eq]
      exact judged_reply sliceDemand _ _ request status body
    · rw [joined, checkCreate_eq]
      exact judged_reply createDemand _ _ request status body
  · intro c w as h hgave hstore k hnames
    exact not_supplied_empty hgave hstore (History.supplied w as k hnames)

/-- The one answer in this history has an identifier, and the part is sent under it. -/
theorem accepts_in_order_sending :
    let h := (History.start Session.Sample.world).after Session.Sample.sending
    ({} : Client).Gave h.journal ∧
      (∀ e ∈ Session.Sample.world.store.entries, e.2.uploadId ≠ "") ∧
      Names (h.of 0) "U" ∧ ¬ Names (h.of 0) "" := by
  intro h
  have hone : answersIn h.journal
      = [⟨0, .answered none (Session.Sample.setup.precreate Session.Sample.digests)
        (.precreate { errno := 0, uploadId := "U" })⟩] := by decide +kernel
  have hissued : announced (({} : Client).precreate "token" {
        path := "/f"
        size := 1
        blockList := Session.Sample.digests.blockList
        contentMd5 := Session.Sample.digests.contentMd5
        sliceMd5 := Session.Sample.digests.sliceMd5 })
      (.reply ⟨200, by decide⟩ "\x7b\"errno\":0,\"uploadid\":\"U\"\x7d".toUTF8)
      = .ok { errno := 0, uploadId := "U" } := by decide +kernel
  have hgave : ({} : Client).Gave h.journal := by
    intro run worker call r hmem
    have hin := mem_answersIn hmem
    rw [hone, List.mem_singleton] at hin
    cases hin
    exact ⟨"", _, .announced hissued⟩
  have hstore : ∀ e ∈ Session.Sample.world.store.entries, e.2.uploadId ≠ "" := by decide
  have hsent : .called (some 0) (.slice "https://d.pcs.baidu.com" "token" ⟨"/f", "U", 0, 0, ⟨#[1]⟩⟩)
      ∈ h.of 0 := by decide +kernel
  exact ⟨hgave, hstore, ⟨_, _, hsent, rfl⟩,
    accepts_in_order.2 {} Session.Sample.world Session.Sample.sending hgave hstore 0⟩

namespace Sample

/-- The small world, with a record of its file that has an empty identifier. -/
def recorded : World :=
  { Session.Sample.world with
    store := ({} : Resume.Store).insert (Session.Sample.setup.key Session.Sample.digests)
      ⟨"", 4194304, 1, [0], Session.Sample.digests.blockList, 0⟩ }

/-- The run takes the record, and its worker sends the part. -/
def resuming : List Action :=
  [.addUploader { useDynamicUploadApi := false }, .start "s" 0 Session.Sample.target, .run 0] ++
    List.replicate 6 Session.Sample.go ++ List.replicate 7 Session.Sample.work

end Sample

/-- A run that takes a record with an empty identifier sends its parts under that. -/
theorem resumes_empty :
    let h := (History.start Sample.recorded).after Sample.resuming
    ({} : Client).Gave h.journal ∧ Names (h.of 0) "" := by
  intro h
  have hnone : answersIn h.journal = [] := by decide +kernel
  have hsent : .called (some 0) (.slice "https://d.pcs.baidu.com" "token" ⟨"/f", "", 0, 0, ⟨#[1]⟩⟩)
      ∈ h.of 0 := by decide +kernel
  refine ⟨?_, _, _, hsent, rfl⟩
  intro run worker call r hmem
  have hin := mem_answersIn hmem
  rw [hnone] at hin
  cases hin

end ResumableUpload.Client
