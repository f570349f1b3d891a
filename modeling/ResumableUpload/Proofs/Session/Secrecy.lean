import Mathlib.Data.List.Forall2
import ResumableUpload.Proofs.Session.Bare
import ResumableUpload.Proofs.Session.Lifecycle

/-!
# Secrets are not seen

A run takes the same steps without its secrets as with them, its task (`Run.Setup.main_bare`) and
its workers (`Run.Setup.worker_bare`), and so do all sessions together (`Engine.act_bare`). So two
histories that differ in the secrets of their targets only, and in the time on the clock, say the
same, end the same and leave the same behind (`History.unseen`).
-/

namespace ResumableUpload.Session

/-! ## The upload of a part -/

/-- What the parts of an upload have in common, without its secrets. -/
def Job.bare (j : Job) : Job := { j with target := j.target.bare }

/-- A step of the upload of a part without its secrets. -/
def TransferTurn.bare (t : TransferTurn) : TransferTurn :=
  ⟨t.world.bare, t.result, t.notes.map Note.bare⟩

namespace Transfer

variable (job : Job) (c : Chunk) (payload : ByteArray) (w : World)

theorem ofLoop_bare (loop : Retry.Loop String) :
    ofLoop job.bare c payload loop
      = ((ofLoop job c payload loop).1, (ofLoop job c payload loop).2.map Note.bare) := by
  cases loop with
  | active stage => cases stage <;> rfl
  | ended result =>
    cases result with
    | ok md5 =>
      simp only [ofLoop, Note.map_bare_lines]
      rfl
    | error f => rfl

theorem retry_bare (cancelled : Bool) (stage : Retry.Stage) (sig : Retry.Signal String) :
    retry job.bare c payload cancelled w.bare stage sig
      = (retry job c payload cancelled w stage sig).bare := by
  have hoperation : operation job.bare c = operation job c := rfl
  unfold retry
  rw [hoperation]
  simp only [ofLoop_bare, TransferTurn.bare, List.map_append, Note.map_bare_lines]

theorem conclude_bare (n : Nat) (o : Retry.Outcome String) :
    conclude job.bare c payload n w.bare o = (conclude job c payload n w o).bare :=
  retry_bare job c payload w false _ _

theorem resolved_bare (n : Nat) (r : World.Resolved) :
    resolved job.bare c payload n r.bare = (resolved job c payload n r).bare := by
  obtain ⟨world, resolution, notes⟩ := r
  cases resolution with
  | pending caller => rfl
  | poisoned => rfl
  | done result =>
    cases result with
    | ok e =>
      simp only [resolved, World.Resolved.bare, TransferTurn.bare, List.map_append]
      rfl
    | error detail =>
      simp only [resolved, World.Resolved.bare, conclude_bare, TransferTurn.bare, List.map_append]

theorem replied_bare (n : Nat) (e : Endpoint) (r : Reply) :
    replied job.bare c payload n e w.bare r = (replied job c payload n e w r).bare := by
  have hresolver : job.bare.resolver = job.resolver := rfl
  cases r with
  | slice r => simp only [replied, hresolver, World.reportSuccess_bare, conclude_bare]
  | fault f =>
    unfold replied
    rw [hresolver]
    dsimp only
    split
    · simp only [World.reportFailure_bare, conclude_bare, TransferTurn.bare, List.map_append,
        Note.map_bare_lines]
    · simp only [conclude_bare, TransferTurn.bare, List.map_append, Note.map_bare_lines]
  | _ => rfl

/-- A lookup that a part waits for ends. -/
theorem looked_bare (cancelled : Bool) (n l : Nat) (reply : LookupReply) (cancels : List Nat) :
    step job.bare c cancelled w.bare (.attempting payload n (.resolving (.waiting l)))
        (.lookup reply cancels)
      = (step job c cancelled w (.attempting payload n (.resolving (.waiting l)))
          (.lookup reply cancels)).bare := by
  have hresolver : job.bare.resolver = job.resolver := rfl
  have htoken : job.bare.target.accessToken = bareToken job.target.accessToken := rfl
  simp only [step, hresolver, htoken, World.endLookup_bare, World.ask_bare]
  cases reply with
  | outcome o =>
    simp only [resolved_bare, TransferTurn.bare, List.map_append, Note.map_bare_lines]
  | crash text => simp only [TransferTurn.bare, Note.map_bare_lines]

theorem step_bare (cancelled : Bool) (t : Transfer) (sig : Signal) :
    step job.bare c cancelled w.bare t sig = (step job c cancelled w t sig).bare := by
  have hresolver : job.bare.resolver = job.resolver := rfl
  have htoken : job.bare.target.accessToken = bareToken job.target.accessToken := rfl
  cases t with
  | reading =>
    cases sig with
    | go =>
      have hfiles : w.bare.files = w.files := rfl
      have hpath : job.bare.target.localPath = job.target.localPath := rfl
      simp only [step, hfiles, hpath]
      split <;> rfl
    | _ => rfl
  | ready payload n =>
    cases sig with
    | go => simp only [step, retry_bare]
    | _ => rfl
  | attempting payload n a =>
    cases a with
    | resolving caller =>
      cases sig with
      | go => simp only [step, hresolver, htoken, World.ask_bare, resolved_bare]
      | limit => simp only [step, conclude_bare]
      | lookup reply cancels =>
        cases caller with
        | waiting l => exact looked_bare job c payload w cancelled n l reply cancels
        | _ => rfl
      | _ => rfl
    | sending e =>
      cases sig with
      | reply r cancels => simp only [step, replied_bare]
      | limit => simp only [step, conclude_bare]
      | _ => rfl
  | pausing payload n wait =>
    cases sig with
    | wake => simp only [step, retry_bare]
    | _ => rfl

end Transfer

/-! ## Runs -/

/-- A stage without its secrets. -/
def Stage.bare : Stage → Stage
  | .opening job => .opening job.bare
  | .locating job c => .locating job.bare c
  | .sending job pool => .sending job.bare pool
  | .closing job report => .closing job.bare report
  | .checking job => .checking job.bare
  | .finalizing job => .finalizing job.bare
  | stage => stage

/-- A step of a task without its secrets. -/
def Turn.bare (t : Turn) : Turn := ⟨t.world.bare, t.stage.bare, t.notes.map Note.bare⟩

namespace Run.Setup

/-- What a run goes by, without its secrets. -/
def bare (s : Setup) : Setup := { s with target := s.target.bare }

variable (s : Setup) (w : World)

theorem enter_bare : s.bare.enter w.bare = (s.enter w).bare := by
  have hhandle : s.bare.handle = s.handle := rfl
  unfold enter
  rw [hhandle, World.handle?_bare]
  cases w.handles[s.handle]? with
  | none => rfl
  | some h =>
    have hstate : h.bare.state = h.state := rfl
    simp only [Option.map_some, hstate]
    split
    · simp only [Turn.bare, World.bare, List.map_set]
      rfl
    · rfl

theorem start_bare : s.bare.start w.bare = (s.start w).bare := by
  have hhandle : s.bare.handle = s.handle := rfl
  unfold start
  rw [hhandle, World.isCancelled_bare]
  split
  · rfl
  · simp only [Turn.bare, Note.map_bare_lines]
    rfl

theorem hash_bare (plan : Plan) : s.bare.hash w.bare plan = (s.hash w plan).bare := by
  have hfiles : w.bare.files = w.files := rfl
  have hpath : s.bare.target.localPath = s.target.localPath := rfl
  unfold hash
  rw [hfiles, hpath]
  split <;> rfl

theorem claim_bare (plan : Plan) (d : Digest.FileDigests) :
    s.bare.claim w.bare plan d = (s.claim w plan d).bare := by
  have hkey : s.bare.key d = s.key d := rfl
  have hstore : w.bare.store = w.store.bare := rfl
  have hfits : ∀ r : Resume.Record, s.bare.fits plan d r.bare = s.fits plan d r := fun _ => rfl
  have htaken : ((w.store.find? (s.key d)).map Resume.Record.bare).filter (s.bare.fits plan d)
      = ((w.store.find? (s.key d)).filter (s.fits plan d)).map Resume.Record.bare := by
    cases w.store.find? (s.key d) with
    | none => rfl
    | some r =>
      simp only [Option.map_some, Option.filter_some, hfits]
      split <;> rfl
  simp only [claim, hkey, hstore, Resume.Store.find?_bare, Resume.Store.erase_bare, htaken]
  cases (w.store.find? (s.key d)).filter (s.fits plan d) <;> rfl

theorem announced_bare (plan : Plan) (d : Digest.FileDigests) (r : PrecreateReply) :
    s.bare.announced w.bare plan d r = (s.announced w plan d r).bare := by
  unfold announced
  split <;> rfl

theorem ofAnnouncement_bare (plan : Plan) (d : Digest.FileDigests)
    (loop : Retry.Loop PrecreateReply) :
    s.bare.ofAnnouncement w.bare plan d loop = (s.ofAnnouncement w plan d loop).bare := by
  cases loop with
  | active stage => cases stage <;> rfl
  | ended result =>
    cases result with
    | ok r => exact s.announced_bare w plan d r
    | error f => rfl

theorem announce_bare (plan : Plan) (d : Digest.FileDigests) (stage : Retry.Stage)
    (cancelled : Bool) (signal : Retry.Signal PrecreateReply) :
    s.bare.announce w.bare plan d stage cancelled signal
      = (s.announce w plan d stage cancelled signal).bare := by
  have hoperation : s.bare.announcement = s.announcement := rfl
  unfold announce
  rw [hoperation]
  generalize (Retry.Loop.active stage).step s.announcement 0 cancelled signal = result
  obtain ⟨loop, lines⟩ := result
  dsimp only
  split
  · rfl
  · simp only [ofAnnouncement_bare, Turn.bare, List.map_append, Note.map_bare_lines]

theorem beginLocating_bare (job : Job) :
    s.bare.beginLocating w.bare job.bare = (s.beginLocating w job).bare := by
  have hhandle : s.bare.handle = s.handle := rfl
  simp only [beginLocating, hhandle, World.advance_bare, World.isCancelled_bare]
  split
  · simp only [settle, Turn.bare, Note.map_bare_lines, Stage.bare]
  · simp only [Turn.bare, Note.map_bare_lines, Stage.bare]

theorem located_bare (job : Job) (r : World.Resolved) :
    s.bare.located job.bare r.bare = (s.located job r).bare := by
  obtain ⟨world, resolution, notes⟩ := r
  cases resolution with
  | pending caller => rfl
  | poisoned => rfl
  | done result =>
    cases result with
    | ok e =>
      simp only [located, World.Resolved.bare, Turn.bare, List.map_append, Note.map_bare_lines]
      rfl
    | error detail => rfl

theorem attend_bare (job : Job) (pool : Pool Transfer) :
    attend w.bare job.bare pool = (attend w job pool).bare := by
  unfold attend
  split
  · simp only [Turn.bare, Note.map_bare_lines]
    rfl
  · split
    · simp only [Turn.bare, Note.map_bare_lines]
      rfl
    · rfl

theorem save_bare (job : Job) : s.bare.save w.bare job.bare = (s.save w job).bare := by
  have hkey : s.bare.key job.bare.digests = s.key job.digests := rfl
  have hrecord : s.bare.record w.bare job.bare = (s.record w job).bare := rfl
  have hstore : w.bare.store = w.store.bare := rfl
  have hpath : s.bare.target.remotePath = s.target.remotePath := rfl
  simp only [save, hkey, hrecord, hstore, hpath, Resume.Store.insert_bare, settle, Turn.bare,
    Note.map_bare_lines]
  rfl

theorem close_bare (job : Job) (report : PoolReport) :
    s.bare.close w.bare job.bare report = (s.close w job report).bare := by
  have hhandle : s.bare.handle = s.handle := rfl
  have hplan : job.bare.plan = job.plan := rfl
  have hjob : ∀ plan, ({ job.bare with plan := plan } : Job)
      = Job.bare { job with plan := plan } := fun _ => rfl
  simp only [close, hhandle, World.isCancelled_bare, hplan, hjob]
  split
  · exact s.save_bare w _
  · split
    · rfl
    · rfl
    · split <;> rfl

theorem finalize_bare (job : Job) : s.bare.finalize w.bare job.bare = (s.finalize w job).bare := by
  have hhandle : s.bare.handle = s.handle := rfl
  have hrequest : s.bare.createRequest job.bare = s.createRequest job := rfl
  simp only [finalize, hhandle, World.isCancelled_bare, World.advance_bare, hrequest]
  split
  · rfl
  · simp only [Turn.bare, List.map_append, Note.map_bare_lines]
    rfl

theorem commit_bare (job : Job) (r : CreateReply) :
    s.bare.commit w.bare job.bare r = (s.commit w job r).bare := by
  have hkey : s.bare.key job.bare.digests = s.key job.digests := rfl
  have hstore : w.bare.store = w.store.bare := rfl
  simp only [commit, hkey, hstore, Resume.Store.erase_bare]
  rfl

theorem credentialsNotice_bare (f : UploadFault) :
    s.bare.credentialsNotice f = s.credentialsNotice f := by
  have hcredentials : s.bare.target.credentials = s.target.credentials.map Credentials.bare := rfl
  cases f with
  | authFailed source =>
    simp only [credentialsNotice, hcredentials]
    cases s.target.credentials <;> rfl
  | _ => rfl

theorem conclude_bare (result : Except UploadFault Commit) :
    s.bare.conclude w.bare result = (s.conclude w result).bare := by
  have hhandle : s.bare.handle = s.handle := rfl
  have hpath : s.bare.target.remotePath = s.target.remotePath := rfl
  unfold conclude
  split
  · simp only [hhandle, World.advance_bare, Turn.bare, Note.map_bare_lines]
    rfl
  · simp only [hhandle, hpath, World.advance_bare, Turn.bare, Note.map_bare_lines]
    rfl
  · simp only [hhandle, hpath, World.advance_bare, credentialsNotice_bare, Turn.bare,
      Note.map_bare_lines]
    rfl

/-! ### Steps -/

variable (cancelled : Bool) (sig : Signal)

theorem main_announcing_bare (plan : Plan) (d : Digest.FileDigests) (stage : Retry.Stage) :
    s.bare.main w.bare cancelled (.announcing plan d stage) sig
      = (s.main w cancelled (.announcing plan d stage) sig).bare := by
  cases sig with
  | lookup r cancels => rfl
  | reply r cancels =>
    cases r with
    | precreate r => exact s.announce_bare w plan d stage cancelled _
    | fault f => exact s.announce_bare w plan d stage cancelled _
    | crash text => cases stage <;> rfl
    | _ => rfl
  | _ => exact s.announce_bare w plan d stage cancelled _

theorem main_locating_bare (job : Job) (c : Caller) :
    s.bare.main w.bare cancelled (.locating job.bare c) sig
      = (s.main w cancelled (.locating job c) sig).bare := by
  have hresolver : s.bare.resolver = s.resolver := rfl
  have htoken : s.bare.target.accessToken = bareToken s.target.accessToken := rfl
  cases c with
  | waiting l =>
    cases sig with
    | go =>
      simp only [main, hresolver, htoken, World.ask_bare, located_bare]
      split <;> rfl
    | lookup reply cancels =>
      simp only [main, hresolver, htoken, World.endLookup_bare, World.ask_bare, located_bare]
      cases reply with
      | outcome o => simp only [Turn.bare, List.map_append, Note.map_bare_lines]
      | crash text => simp only [Turn.bare, Stage.bare, Note.map_bare_lines]
    | _ => rfl
  | entering =>
    cases sig with
    | go => simp only [main, hresolver, htoken, World.ask_bare, located_bare]
    | _ => rfl
  | missed =>
    cases sig with
    | go => simp only [main, hresolver, htoken, World.ask_bare, located_bare]
    | _ => rfl

/-- The task of a run takes the same steps without its secrets. -/
theorem main_bare (stage : Stage) :
    s.bare.main w.bare cancelled stage.bare sig = (s.main w cancelled stage sig).bare := by
  cases stage with
  | announcing plan d retry => exact s.main_announcing_bare w cancelled sig plan d retry
  | locating job c => exact s.main_locating_bare w cancelled sig job c
  | entering =>
    cases sig with
    | go => exact s.enter_bare w
    | _ => rfl
  | starting =>
    cases sig with
    | go => exact s.start_bare w
    | _ => rfl
  | hashing plan =>
    cases sig with
    | go =>
      simp only [main, Stage.bare, hash_bare]
      split <;> rfl
    | _ => rfl
  | claiming plan d =>
    cases sig with
    | go => exact s.claim_bare w plan d
    | _ => rfl
  | opening job =>
    cases sig with
    | go => exact s.beginLocating_bare w job
    | _ => rfl
  | sending job pool =>
    cases sig with
    | go => exact attend_bare w job pool
    | _ => rfl
  | closing job report =>
    cases sig with
    | go => exact s.close_bare w job report
    | _ => rfl
  | checking job =>
    cases sig with
    | go => exact s.finalize_bare w job
    | _ => rfl
  | finalizing job =>
    cases sig with
    | reply r cancels =>
      cases r with
      | create r => exact s.commit_bare w job r
      | _ => rfl
    | _ => rfl
  | settling result =>
    cases sig with
    | go => exact s.conclude_bare w result
    | _ => rfl
  | ended result => cases sig <;> rfl
  | crashed report => cases sig <;> rfl

/-- Workers take the same steps without their secrets. -/
theorem worker_bare (i : Nat) (stage : Stage) :
    s.bare.worker w.bare cancelled i stage.bare sig
      = (s.worker w cancelled i stage sig).bare := by
  have hhandle : s.bare.handle = s.handle := rfl
  cases stage with
  | sending job pool =>
    simp only [worker, Stage.bare, hhandle, World.isCancelled_bare, Transfer.step_bare]
    split
    · next c t hi =>
      split
      · simp only [Turn.bare, Stage.bare, Note.map_bare_lines]
      · generalize t.step job c (w.isCancelled s.handle) w sig = turn
        obtain ⟨world, result, notes⟩ := turn
        cases result with
        | more t => rfl
        | done result =>
          simp only [TransferTurn.bare, Turn.bare, Stage.bare, List.map_append,
            Note.map_bare_lines]
        | crash text => rfl
    · split
      · simp only [Turn.bare, Stage.bare, Note.map_bare_lines]
      · rfl
  | _ => rfl

end Run.Setup

/-! ## All sessions -/

/-- A run without its secrets. -/
def Run.bare (r : Run) : Run := { r with stage := r.stage.bare }

/-- Sessions at work without their secrets. -/
def Engine.bare (e : Engine) : Engine := ⟨e.world.bare, e.runs.map Run.bare⟩

/-- An action without its secrets, and without the time. -/
def Action.bare : Action → Action
  | .start id uploader target => .start id uploader target.bare
  | .setClock _ => .setClock 0
  | a => a

namespace Engine

variable (e : Engine)

/-- What is noted with an action. -/
def notes (e : Engine) : Action → List Note
  | .signal t s => (e.signal t s).2
  | .start id uploader target => Note.lines (e.start id uploader target).2.2
  | .cancel handle => Note.lines (e.cancel handle).2
  | .invalidate resolver => Note.lines (e.world.withResolver resolver Resolver.invalidate).2
  | .reload path =>
    match e.world.store.save e.world.files path with
    | (_, some _) => []
    | (files, none) =>
      match Resume.Store.load files path with
      | .ok (_, lines) => Note.lines lines
      | .error _ => []
  | _ => []

theorem setup?_bare (w : World) (i : Nat) :
    setup? w.bare i = (setup? w i).map Run.Setup.bare := by
  have huploaders : w.bare.uploaders = w.uploaders := rfl
  unfold setup?
  rw [World.handle?_bare, huploaders]
  cases w.handles[i]? with
  | none => rfl
  | some h =>
    have huploader : h.bare.uploader = h.uploader := rfl
    simp only [Option.map_some, Option.bind_eq_bind, Option.bind_some, huploader]
    cases w.uploaders[h.uploader]? <;> rfl

theorem effective_bare (cancelled : Bool) (stage : Stage) (sig : Signal) :
    effective cancelled stage.bare sig = effective cancelled stage sig := by
  have hfinalizing : isFinalizing stage.bare = isFinalizing stage := by
    cases stage <;> rfl
  rw [effective, hfinalizing, effective]

theorem signal_bare (t : Task) (sig : Signal) :
    e.bare.signal t sig = ((e.signal t sig).1.bare, (e.signal t sig).2.map Note.bare) := by
  have hrun : e.bare.runs[t.run]? = e.runs[t.run]?.map Run.bare := List.getElem?_map
  have hworld : e.bare.world = e.world.bare := rfl
  unfold signal
  rw [hrun]
  cases e.runs[t.run]? with
  | none => rfl
  | some r =>
    have hhandle : r.bare.handle = r.handle := rfl
    have hstage : r.bare.stage = r.stage.bare := rfl
    simp only [Option.map_some, hhandle, hstage, hworld, setup?_bare]
    cases setup? e.world r.handle with
    | none => rfl
    | some s =>
      simp only [Option.map_some, World.isCancelled_bare, effective_bare, World.cancelAll_bare]
      cases t.worker with
      | none =>
        simp only [Run.Setup.main_bare, Turn.bare, List.map_append, Note.map_bare_lines, bare,
          List.map_set]
        rfl
      | some i =>
        simp only [Run.Setup.worker_bare, Turn.bare, List.map_append, Note.map_bare_lines, bare,
          List.map_set]
        rfl

theorem addUploader_bare (settings : Settings) :
    (e.bare.addUploader settings).1 = (e.addUploader settings).1.bare := by
  simp only [addUploader, bare, World.bare, List.map_append, List.length_map]
  rfl

theorem invalidate_bare (resolver : Nat) :
    e.world.bare.withResolver resolver Resolver.invalidate
      = ((e.world.withResolver resolver Resolver.invalidate).1.bare,
        (e.world.withResolver resolver Resolver.invalidate).2) :=
  e.world.withResolver_bare resolver fun r => r.invalidate_bare

/-- Sessions take the same steps without their secrets. -/
theorem act_bare {a : Action} (ha : ∀ path, a ≠ .reload path) :
    e.bare.act a.bare = (e.act a).bare := by
  cases a with
  | signal t sig => exact congrArg Prod.fst (e.signal_bare t sig)
  | addUploader settings => exact e.addUploader_bare settings
  | addSharingUploader settings other =>
    have huploaders : e.bare.world.uploaders = e.world.uploaders := rfl
    simp only [act, addSharingUploader, Action.bare, huploaders]
    split
    · exact e.addUploader_bare settings
    · rfl
  | start id uploader target =>
    simp only [act, start, Action.bare, bare, World.bare, List.map_append]
    rfl
  | run handle =>
    simp only [act, run, Action.bare, bare, List.map_append]
    rfl
  | cancel handle =>
    simp only [act, cancel, Action.bare, bare, World.cancel_bare]
  | edit files => rfl
  | setClock now => rfl
  | invalidate resolver =>
    simp only [act, withWorld, Action.bare, bare, invalidate_bare]
  | age resolver nanos =>
    refine congrArg (Engine.mk · (e.runs.map Run.bare)) ?_
    exact congrArg Prod.fst (e.world.withResolver_bare resolver fun _ => rfl)
  | reload path => exact absurd rfl (ha path)

/-- What is noted without the secrets is what is noted with them, without the secrets. -/
theorem notes_bare {a : Action} (ha : ∀ path, a ≠ .reload path) :
    e.bare.notes a.bare = (e.notes a).map Note.bare := by
  cases a with
  | signal t sig => exact congrArg Prod.snd (e.signal_bare t sig)
  | start id uploader target =>
    simp only [notes, start, Action.bare, Note.map_bare_lines]
    exact congrArg (fun l => Note.lines [l])
      (Handle.startNotice_bare ⟨id, target, uploader, .created, false⟩)
  | cancel handle =>
    have hworld : e.bare.world = e.world.bare := rfl
    simp only [notes, cancel, Action.bare, hworld, World.cancel_bare, Note.map_bare_lines]
  | invalidate resolver =>
    have hworld : e.bare.world = e.world.bare := rfl
    simp only [notes, Action.bare, hworld, invalidate_bare, Note.map_bare_lines]
  | reload path => exact absurd rfl (ha path)
  | _ => rfl

theorem ending?_bare (k : Nat) : e.bare.ending? k = e.ending? k := by
  have hrun : e.bare.runs[k]? = e.runs[k]?.map Run.bare := List.getElem?_map
  unfold ending?
  rw [hrun]
  cases e.runs[k]? with
  | none => rfl
  | some r =>
    obtain ⟨handle, stage⟩ := r
    cases stage <;> rfl

end Engine

/-! ## Two histories -/

/-- Two targets differ in what is secret at most. -/
structure Target.Alike (t t' : Target) : Prop where
  localPath : t.localPath = t'.localPath
  remotePath : t.remotePath = t'.remotePath
  totalSize : t.totalSize = t'.totalSize
  accessToken : t.accessToken.toList.take 6 = t'.accessToken.toList.take 6
  credentials : t.credentials.map Credentials.clientId = t'.credentials.map Credentials.clientId

/-- The same happens, but for the secrets of a target that is uploaded and for the time on the
clock. The store does not go through a file, in which records would have their times. -/
inductive Action.Alike : Action → Action → Prop
  | same {a : Action} : (∀ path, a ≠ .reload path) → Alike a a
  | start (id : String) (uploader : Nat) {t t' : Target} :
      t.Alike t' → Alike (.start id uploader t) (.start id uploader t')
  | setClock (now now' : Int) : Alike (.setClock now) (.setClock now')

theorem Target.Alike.bare_eq {t t' : Target} (h : t.Alike t') : t.bare = t'.bare := by
  have hcredentials : t.credentials.map Credentials.bare = t'.credentials.map Credentials.bare := by
    have hc : ∀ c : Credentials, c.bare = ⟨c.clientId, ""⟩ := fun _ => rfl
    have hmap := congrArg (Option.map fun id => Credentials.mk id "") h.credentials
    rwa [Option.map_map, Option.map_map] at hmap
  simp only [Target.bare, bareToken, h.localPath, h.remotePath, h.totalSize, h.accessToken,
    hcredentials]

theorem Action.Alike.bare_eq {a b : Action} (h : a.Alike b) :
    a.bare = b.bare ∧ (∀ path, a ≠ .reload path) ∧ ∀ path, b ≠ .reload path := by
  cases h with
  | same ha => exact ⟨rfl, ha, ha⟩
  | start id uploader ht =>
    refine ⟨?_, fun _ => Action.noConfusion, fun _ => Action.noConfusion⟩
    simp only [Action.bare, ht.bare_eq]
  | setClock now now' => exact ⟨rfl, fun _ => Action.noConfusion, fun _ => Action.noConfusion⟩

namespace Sample

/-- The file of the small history, uploaded with a token and the secret of an application. -/
def targetOf (token secret : String) : Target := ⟨"f", "/f", 1, token, some ⟨"app", secret⟩⟩

/-- The session is run, and cancelled while the part is on its way. -/
def onward : List Action := sending.drop 2 ++ [.cancel 0, work, work, work, go, go, go]

/-- A session stops half-way, and a record is saved. -/
def stopped (now : Int) (token secret : String) : List Action :=
  .setClock now :: .addUploader { useDynamicUploadApi := false }
    :: .start "s" 0 (targetOf token secret) :: onward

end Sample

namespace History

variable {h h' : History} {as bs : List Action}

/-- What is noted while the actions happen. -/
def notes (h : History) : List Action → List Note
  | [] => []
  | a :: as => h.engine.notes a ++ (h.next a).notes as

/-- Without their secrets two histories in which the same happens cannot be told apart. -/
theorem bare_after (hbare : h.engine.bare = h'.engine.bare)
    (halike : List.Forall₂ Action.Alike as bs) :
    (h.after as).engine.bare = (h'.after bs).engine.bare ∧
      (h.notes as).map Note.bare = (h'.notes bs).map Note.bare := by
  induction halike generalizing h h' with
  | nil => exact ⟨hbare, rfl⟩
  | @cons a b as bs hab _ ih =>
    obtain ⟨haction, ha, hb⟩ := hab.bare_eq
    have hnext : (h.next a).engine.bare = (h'.next b).engine.bare := by
      rw [next, next, ← Engine.act_bare _ ha, ← Engine.act_bare _ hb, hbare, haction]
    obtain ⟨hafter, hnotes⟩ := ih hnext
    refine ⟨hafter, ?_⟩
    rw [notes, notes, List.map_append, List.map_append, hnotes, ← Engine.notes_bare _ ha,
      ← Engine.notes_bare _ hb, hbare, haction]

/-- Two histories, each with what was noted in it, look the same from outside. -/
structure LooksLike (h h' : History) (noted noted' : List Note) : Prop where
  said : Note.said noted = Note.said noted'
  -- but for the secrets of tokens: who is called answers the same if he does not go by these
  called : (Note.calls noted).map Call.bare = (Note.calls noted').map Call.bare
  ended : ∀ k, h.engine.ending? k = h'.engine.ending? k
  state : ∀ i, h.stateOf? i = h'.stateOf? i
  -- but for when records were saved
  stored : h.engine.world.store.bare = h'.engine.world.store.bare
  -- whatever the texts of a session's token and of the lock on its state are
  shown : ∀ token lock (i : Nat), h.engine.world.handles[i]?.map (Handle.shown token lock)
    = h'.engine.world.handles[i]?.map (Handle.shown token lock)
  target : ∀ i : Nat, h.engine.world.handles[i]?.map (Target.shown ∘ Handle.target)
    = h'.engine.world.handles[i]?.map (Target.shown ∘ Handle.target)

/-- Whatever does not show the secrets of sessions is the same for sessions that are the same
without them. -/
theorem map_handle?_congr {α : Type} {f : Handle → α} (hf : ∀ hd : Handle, f hd.bare = f hd)
    {w w' : World} (hw : w.bare = w'.bare) (i : Nat) :
    w.handles[i]?.map f = w'.handles[i]?.map f := by
  have hbare : ∀ w : World, w.bare.handles[i]?.map f = w.handles[i]?.map f := by
    intro w
    rw [World.handle?_bare, Option.map_map]
    exact congrArg (Option.map · _) (funext hf)
  rw [← hbare w, hw, hbare w']

theorem looksLike_of_bare {noted noted' : List Note} (hengine : h.engine.bare = h'.engine.bare)
    (hnoted : noted.map Note.bare = noted'.map Note.bare) : h.LooksLike h' noted noted' where
  said := by rw [← Note.said_bare, hnoted, Note.said_bare]
  called := by rw [← Note.calls_bare, hnoted, Note.calls_bare]
  ended k := by rw [← Engine.ending?_bare, hengine, Engine.ending?_bare]
  state := map_handle?_congr (fun _ => rfl) (congrArg Engine.world hengine)
  stored := congrArg (World.store ∘ Engine.world) hengine
  shown token lock :=
    map_handle?_congr (fun hd => hd.shown_bare token lock) (congrArg Engine.world hengine)
  target := map_handle?_congr (fun hd => hd.target.shown_bare) (congrArg Engine.world hengine)

/-- Secrets are not seen: two histories from one beginning, with the same identifiers of sessions
and the same signals, look the same from outside if their targets differ in the secrets of the
applications, and in their tokens after the first six characters, at most. The times at which
records are saved may differ as well. -/
theorem unseen (w : World) {as bs : List Action} (halike : List.Forall₂ Action.Alike as bs) :
    ((start w).after as).LooksLike ((start w).after bs)
      ((start w).notes as) ((start w).notes bs) := by
  obtain ⟨hengine, hnoted⟩ := bare_after (Eq.refl (start w).engine.bare) halike
  exact looksLike_of_bare hengine hnoted

/-- A session that stops half-way is the same with other secrets and at another time. -/
theorem unseen_stopped :
    List.Forall₂ Action.Alike (Sample.stopped 0 "121.ab-one" "a")
        (Sample.stopped 7 "121.ab-two" "b") ∧
      ((start Sample.world).after (Sample.stopped 0 "121.ab-one" "a")).LooksLike
        ((start Sample.world).after (Sample.stopped 7 "121.ab-two" "b"))
        ((start Sample.world).notes (Sample.stopped 0 "121.ab-one" "a"))
        ((start Sample.world).notes (Sample.stopped 7 "121.ab-two" "b")) := by
  have hreload : ∀ path, .reload path ∉ Sample.onward := by
    simp [Sample.onward, Sample.sending, Sample.opened, Sample.go, Sample.work, Sample.reply]
  have htarget : (Sample.targetOf "121.ab-one" "a").Alike (Sample.targetOf "121.ab-two" "b") :=
    ⟨rfl, rfl, rfl, by decide, rfl⟩
  have halike : List.Forall₂ Action.Alike (Sample.stopped 0 "121.ab-one" "a")
      (Sample.stopped 7 "121.ab-two" "b") :=
    .cons (.setClock 0 7) <| .cons (.same fun _ => Action.noConfusion) <|
      .cons (.start "s" 0 htarget) <| List.forall₂_same.mpr fun _ ha =>
        .same fun path hpath => hreload path (hpath ▸ ha)
  exact ⟨halike, unseen Sample.world halike⟩

end History

end ResumableUpload.Session
