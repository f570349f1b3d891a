import ResumableUpload.Proofs.Session.Trace
import ResumableUpload.Proofs.Session.Work

/-!
# The course of a run

What has happened in a run is known from its stage (`Run.Setup.Course`). A run asks for its session,
digests the file and takes the resume record, and comes by an identifier for the upload in one of
two ways (`Origin`); it looks for a host, sends the parts that are wanted, looks at what the workers
report, looks at its token for the last time, and joins the parts. `Run.Setup.Outcome` lists how a
run can end, each ending with all the events that lead to it.
-/

namespace ResumableUpload.Session

/-- How a run came by the identifier of its upload: from a resume record that fits, or from the
answer to its announcement. -/
inductive Origin
  | taken (r : Resume.Record)
  | issued (r : PrecreateReply)

namespace Origin

def uploadId : Origin → String
  | taken r => r.uploadId
  | issued r => r.uploadId

/-- The plan of what is left to send. An answer that names no parts wants all of them. -/
def plan : Origin → Plan → Plan
  | taken r, p => p.retain r.pending
  | issued r, p => if r.blockList.isEmpty then p else p.retain r.blockList

/-- The numbers of the parts to send, of the given number of parts. -/
def wanted : Origin → Nat → List Nat
  | taken r, _ => r.pending
  | issued r, count => if r.blockList.isEmpty then List.range count else r.blockList

/-- What the parts of the upload have in common. -/
def job (o : Origin) (s : Run.Setup) (d : Digest.FileDigests) : Job :=
  s.job (o.plan s.plan) d o.uploadId

theorem plan_eq_retain (o : Origin) {p : Plan} (hn : p.Numbered) (hf : p.Fresh) :
    o.plan p = p.retain (o.wanted p.count) := by
  cases o with
  | taken r => rfl
  | issued r =>
    simp only [plan, wanted]
    split
    · exact (hf.retain_all hn).symm
    · rfl

@[simp] theorem count_plan (o : Origin) (p : Plan) : (o.plan p).count = p.count := by
  cases o with
  | taken r => exact Plan.count_retain p _
  | issued r =>
    simp only [plan]
    split
    · rfl
    · exact Plan.count_retain p _

@[simp] theorem partSize_plan (o : Origin) (p : Plan) : (o.plan p).partSize = p.partSize := by
  cases o with
  | taken r => rfl
  | issued r =>
    simp only [plan]
    split <;> rfl

theorem numbered_plan (o : Origin) {p : Plan} (hn : p.Numbered) : (o.plan p).Numbered := by
  cases o with
  | taken r => exact hn.retain _
  | issued r =>
    simp only [plan]
    split
    · exact hn
    · exact hn.retain _

/-- The parts to send are those of the plan that are wanted. -/
theorem mem_pending_plan (o : Origin) {p : Plan} (hn : p.Numbered) (hf : p.Fresh) {c : Chunk} :
    c ∈ (o.plan p).pending ↔ c ∈ p.chunks ∧ c.index ∈ o.wanted p.count := by
  rw [o.plan_eq_retain hn hf, hf.mem_pending_retain]

end Origin

namespace Run.Setup

variable (s : Setup)

theorem numbered_plan : s.plan.Numbered := Plan.numbered_cut _ _

theorem fresh_plan : s.plan.Fresh := Plan.fresh_cut _ _

/-! ## Before the upload has an identifier -/

/-- The first events of a run that has digested its file. -/
def prologue (files : Files) (d : Digest.FileDigests) (taken : Option Resume.Record) :
    List Event :=
  [.entered .created, .digested files d, .claimed (s.key d) taken]

/-- The digests are those of the file as it was. -/
def Digests (files : Files) (d : Digest.FileDigests) : Prop :=
  Digest.ofFile files s.target.localPath s.plan = .ok d

/-- Calls of an announcement and answers that say nothing of an upload. -/
def Vain (d : Digest.FileDigests) (tries : List Event) : Prop :=
  ∀ x ∈ tries, x = .called none (s.precreate d) ∨
    ∃ r, (∀ reply, r ≠ .precreate reply) ∧ x = .answered none (s.precreate d) r

/-- No resume record fits, and the upload is announced in vain so far. -/
structure Sought (d : Digest.FileDigests) (files : Files) (taken : Option Resume.Record)
    (tries : List Event) : Prop where
  digests : s.Digests files d
  unfit : taken.filter (s.fits s.plan d) = none
  vain : s.Vain d tries

/-- The run has not come by an identifier. -/
inductive Unopened : List Event → Prop
  | begun : Unopened [.entered .created]
  | digested {files : Files} {d : Digest.FileDigests} :
      s.Digests files d → Unopened [.entered .created, .digested files d]
  | sought {d : Digest.FileDigests} {files : Files} {taken : Option Resume.Record}
      {tries : List Event} :
      s.Sought d files taken tries → Unopened (s.prologue files d taken ++ tries)

/-! ## From the identifier to the request that joins the parts -/

/-- The run has just come by an identifier. -/
inductive Opened (d : Digest.FileDigests) : Origin → List Event → Prop
  | taken {files : Files} {r : Resume.Record} :
      s.Digests files d → s.fits s.plan d r = true →
      Opened d (.taken r) (s.prologue files d (some r))
  | issued {files : Files} {taken : Option Resume.Record} {tries : List Event}
      {r : PrecreateReply} : s.Sought d files taken tries → r.isRapid = false →
      Opened d (.issued r)
        (s.prologue files d taken ++ tries ++ [.answered none (s.precreate d) (.precreate r)])

/-- The run has an identifier and made no calls since but for a host. -/
inductive Located (d : Digest.FileDigests) (o : Origin) : List Event → Prop
  | intro {opening quest : List Event} : s.Opened d o opening →
      (∀ x ∈ quest, ∃ token, x = .called none (.locate token)) →
      Located d o (opening ++ quest)

/-- The workers are done: all have left, and those that fell have been noticed. -/
def Worked (off : Bool) (job : Job) (report : PoolReport) (work : List Event) : Prop :=
  ∃ pool, Working off job pool work ∧ pool.isDone = true ∧ pool.fallen = [] ∧
    report = pool.result

/-- All parts that were wanted are on the server, and nothing went wrong. -/
structure Complete (job : Job) (work : List Event) : Prop where
  works : ∀ x ∈ work, Works job x
  sound : ∀ x ∈ work, x.isTrouble = false
  acknowledged : ∀ c ∈ job.plan.pending, Acknowledged job work c.index

/-- The run has sent all parts and found its token valid. -/
inductive Finished (d : Digest.FileDigests) (o : Origin) : List Event → Prop
  | intro {located work : List Event} : s.Located d o located → Complete (o.job s d) work →
      Finished d o (located ++ work ++ [.closed false])

/-- The request that joins the parts. -/
def create (d : Digest.FileDigests) (o : Origin) : Call :=
  .create s.target.accessToken (s.createRequest (o.job s d))

/-- The run has asked for the parts to be joined. -/
inductive Joining (d : Digest.FileDigests) (o : Origin) : List Event → Prop
  | intro {finished : List Event} : s.Finished d o finished →
      Joining d o (finished ++ [.checked false, .called none (s.create d o)])

/-! ## How a run ends -/

/-- How a run that found its session ready can end, with all that happened in it. -/
inductive Outcome : Except UploadFault Commit → List Event → Prop
  -- it failed or was cancelled before the upload had an identifier
  | unopened {evs : List Event} (f : UploadFault) : s.Unopened evs → Outcome (.error f) evs
  -- the server had the content
  | rapid {d : Digest.FileDigests} {files : Files} {taken : Option Resume.Record}
      {tries : List Event} {r : PrecreateReply} {c : Commit} :
      s.Sought d files taken tries → r.isRapid = true → c.rapid = true →
      Outcome (.ok c)
        (s.prologue files d taken ++ tries ++ [.answered none (s.precreate d) (.precreate r)])
  -- it failed or was cancelled before any worker started
  | stranded {d : Digest.FileDigests} {o : Origin} {located : List Event} (f : UploadFault) :
      s.Located d o located → Outcome (.error f) located
  -- it was cancelled, and a resume record was saved
  | kept {d : Digest.FileDigests} {o : Origin} {located work : List Event} {report : PoolReport}
      (w : World) : s.Located d o located → Worked true (o.job s d) report work →
      Outcome (.error .cancelled) (located ++ work ++ [.closed true,
        .saved (s.key d)
          (s.record w { o.job s d with plan := marked (o.job s d).plan report })])
  -- a part failed, a worker fell, or parts are missing
  | failed {d : Digest.FileDigests} {o : Origin} {located work : List Event}
      {report : PoolReport} {f : UploadFault} : s.Located d o located →
      Worked false (o.job s d) report work → f ≠ .cancelled →
      Outcome (.error f) (located ++ work ++ [.closed false])
  -- it was cancelled when it looked at its token for the last time
  | withdrawn {d : Digest.FileDigests} {o : Origin} {finished : List Event} :
      s.Finished d o finished → Outcome (.error .cancelled) (finished ++ [.checked true])
  -- the parts were not joined, or no answer came
  | unjoined {d : Digest.FileDigests} {o : Origin} {joining answers : List Event}
      (f : UploadFault) : s.Joining d o joining →
      (answers = [] ∨ ∃ fault, answers = [.answered none (s.create d o) (.fault fault)]) →
      Outcome (.error f) (joining ++ answers)
  | joined {d : Digest.FileDigests} {o : Origin} {joining : List Event} {r : CreateReply}
      {c : Commit} : s.Joining d o joining → c.rapid = false →
      Outcome (.ok c)
        (joining ++ [.answered none (s.create d o) (.create r), .dropped (s.key d)])

/-- How a run that stops abnormally can end. -/
inductive Broken : List Event → Prop
  | announcing {evs : List Event} : s.Unopened evs → Broken evs
  | locating {d : Digest.FileDigests} {o : Origin} {located : List Event} :
      s.Located d o located → Broken located
  | joining {d : Digest.FileDigests} {o : Origin} {joining : List Event} (text : String) :
      s.Joining d o joining →
      Broken (joining ++ [.answered none (s.create d o) (.crash text)])

/-! ## What has happened at a stage -/

/-- What has happened when a run is at a stage. `off` says whether the session was cancelled when
the run took its last step. -/
def Course (off : Bool) : Stage → List Event → Prop
  | .entering, evs => evs = []
  | .starting, evs => evs = [.entered .created]
  | .hashing plan, evs => plan = s.plan ∧ evs = [.entered .created]
  | .claiming plan d, evs => plan = s.plan ∧ ∃ files, s.Digests files d ∧
      evs = [.entered .created, .digested files d]
  | .announcing plan d _, evs => plan = s.plan ∧ ∃ files taken tries,
      s.Sought d files taken tries ∧ evs = s.prologue files d taken ++ tries
  | .opening job, evs => ∃ d o, s.Opened d o evs ∧ job = o.job s d
  | .locating job _, evs => ∃ d o, s.Located d o evs ∧ job = o.job s d
  | .sending job pool, evs => ∃ d o located work, s.Located d o located ∧ job = o.job s d ∧
      Working off job pool work ∧ evs = located ++ work
  | .closing job report, evs => ∃ d o located work, s.Located d o located ∧ job = o.job s d ∧
      Worked off job report work ∧ evs = located ++ work
  | .checking job, evs => ∃ d o, s.Finished d o evs ∧
      ∃ plan, job = { o.job s d with plan := plan } ∧ plan.count = s.plan.count
  | .finalizing job, evs => ∃ d o, s.Joining d o evs ∧
      ∃ plan, job = { o.job s d with plan := plan } ∧ plan.count = s.plan.count
  | .settling result, evs => s.Outcome result evs
  | .ended result, evs => s.Outcome result evs ∨
      ∃ found detail, found ≠ .created ∧ evs = [.entered found] ∧
        result = .error (.invalidState detail)
  | .crashed _, evs => s.Broken evs

end Run.Setup

end ResumableUpload.Session
