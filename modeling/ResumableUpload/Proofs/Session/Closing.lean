import ResumableUpload.Proofs.Session.Commit
import ResumableUpload.Proofs.Session.Draining
import ResumableUpload.Proofs.Session.Mishaps

/-!
# What comes of the parts

A pool of a session that is never cancelled was given no reason to leave a part but a part that
failed or a worker that stopped abnormally. So if nothing went wrong all its parts are uploaded, and
what went wrong is in the report (`Run.Setup.Finds`).

Once the workers are done nothing but the steps of the run itself counts: two of them end a run in
which a part failed or a worker stopped abnormally, with the fault that was recorded first, and make
the request that joins the parts in any other run that is not cancelled (`History.parts_decide`).
-/

namespace ResumableUpload

/-- The fault that a report comes to: that of the part that failed first, or else that of the worker
that stopped abnormally first. -/
def PoolReport.verdict? (r : PoolReport) : Option UploadFault :=
  match r.failures, r.workerErrors with
  | (_, f) :: _, _ => some f
  | [], e :: _ => some (.internal s!"上传线程异常退出: {e}")
  | [], [] => none

theorem PoolReport.verdict?_eq_none {r : PoolReport} (h : r.verdict? = none) :
    r.failures = [] ∧ r.workerErrors = [] := by
  unfold PoolReport.verdict? at h
  split at h
  · cases h
  · cases h
  · next hfailures herrors => exact ⟨hfailures, herrors⟩

namespace Session

/-! ## When the workers are done -/

/-- How a run has ended at a stage, if it has. -/
def Stage.ending? : Stage → Option Engine.Ending
  | .ended result => some (.result result)
  | .crashed report => some (.crashed report)
  | _ => none

/-- The stage goes on with nothing but the run's own step. -/
def Stage.isSteady : Stage → Bool
  | .closing .. | .checking _ | .settling _ | .ended _ | .crashed _ => true
  | _ => false

namespace Run.Setup

variable {s : Setup} {w : World} {cancelled : Bool} {worker : Option Nat} {stage : Stage}
  {sig : Signal}

/-- At a steady stage, nothing happens without the run's own step. -/
theorem turn_steady (s : Setup) (w : World) (cancelled : Bool) (hsteady : stage.isSteady = true)
    (hne : worker = none → sig ≠ .go) :
    (s.turn w cancelled worker stage sig).stage = stage ∧
      s.events w cancelled worker stage sig = [] := by
  cases worker with
  | some i =>
    apply worker_elsewhere
    rintro job pool rfl
    cases hsteady
  | none =>
    cases sig with
    | go => exact absurd rfl (hne rfl)
    | _ =>
      cases stage with
      | closing | checking | settling | ended | crashed => exact ⟨rfl, rfl⟩
      | _ => cases hsteady

/-! ### The run winds up -/

/-- The request that joins the parts of a job. -/
def createCall (s : Setup) (job : Job) : Call :=
  .create s.target.accessToken (s.createRequest job)

/-- How the request that joins the parts ends: the stage that it leads to, and what happens. -/
inductive Joins (s : Setup) (job : Job) : Stage → List Event → Prop
  | commits (c : Commit) (r : CreateReply) (key : String) :
      Joins s job (.settling (.ok c)) [.answered none (s.createCall job) (.create r), .dropped key]
  | fails (f : CallFault) :
      Joins s job (.settling (.error (.ofFinalize f)))
        [.answered none (s.createCall job) (.fault f)]
  | late : Joins s job (.settling (.error (.finalizeFailed s.lateFault))) []
  | crashes (text : String) :
      Joins s job (.crashed (crashReport text)) [.answered none (s.createCall job) (.crash text)]

/-- How a run that is not cancelled winds up when its workers are done: the number of its own steps,
the stage that they lead to, and what happens meanwhile. -/
inductive Winds (s : Setup) (job : Job) (report : PoolReport) : Nat → Stage → List Event → Prop
  | closing : Winds s job report 0 (.closing job report) []
  -- a part failed, or a worker stopped abnormally
  | failing {f : UploadFault} : report.verdict? = some f →
      Winds s job report 1 (.settling (.error f)) [.closed false]
  | failed {f : UploadFault} (n : Nat) : report.verdict? = some f →
      Winds s job report (n + 2) (.ended (.error f)) [.closed false]
  -- all parts are on the server
  | checking {plan : Plan} : report.verdict? = none → plan.count = job.plan.count →
      Winds s job report 1 (.checking { job with plan := plan }) [.closed false]
  | joining {plan : Plan} (n : Nat) : report.verdict? = none → plan.count = job.plan.count →
      Winds s job report (n + 2) (.finalizing { job with plan := plan })
        [.closed false, .checked false, .called none (s.createCall job)]
  | joined {stage : Stage} {answer : List Event} (n : Nat) : report.verdict? = none →
      s.Joins job stage answer → Winds s job report (n + 2) stage
        ([.closed false, .checked false, .called none (s.createCall job)] ++ answer)
  | ended {result : Except UploadFault Commit} {answer : List Event} (n : Nat) :
      report.verdict? = none → s.Joins job (.settling result) answer →
      Winds s job report (n + 2) (.ended result)
        ([.closed false, .checked false, .called none (s.createCall job)] ++ answer)

theorem createCall_plan (s : Setup) (job : Job) {plan : Plan}
    (hcount : plan.count = job.plan.count) :
    s.createCall { job with plan := plan } = s.createCall job := by
  rw [createCall, createCall, createRequest_plan job hcount]

theorem Joins.plan {s : Setup} {job : Job} {plan : Plan} {stage : Stage} {answer : List Event}
    (hcount : plan.count = job.plan.count) (h : s.Joins { job with plan := plan } stage answer) :
    s.Joins job stage answer := by
  cases h with
  | commits c r key => rw [createCall_plan s job hcount]; exact .commits c r key
  | fails f => rw [createCall_plan s job hcount]; exact .fails f
  | late => exact .late
  | crashes text => rw [createCall_plan s job hcount]; exact .crashes text

/-- The task of a run goes on by itself. -/
def isOwnStep : Option Nat → Signal → Bool
  | none, .go => true
  | _, _ => false

theorem isOwnStep_iff : isOwnStep worker sig = true ↔ worker = none ∧ sig = .go := by
  cases worker with
  | some i => exact ⟨nofun, fun h => by cases h.1⟩
  | none => cases sig <;> simp [isOwnStep]

/-- A run whose session is not cancelled looks at what its workers report. -/
theorem turn_closing {job : Job} {report : PoolReport} (hw : w.isCancelled s.handle = false)
    (hinter : report.interrupted = [])
    (hcomplete : report.verdict? = none → (marked job.plan report).isComplete = true) :
    s.events w false none (.closing job report) .go = [.closed false] ∧
      (s.turn w false none (.closing job report) .go).stage =
        match report.verdict? with
        | some f => .settling (.error f)
        | none => .checking { job with plan := marked job.plan report } := by
  have hcond : (w.isCancelled s.handle || !report.interrupted.isEmpty) = false := by
    rw [hw, hinter]
    rfl
  have hclose : (s.close w job report).stage =
      match report.verdict? with
      | some f => .settling (.error f)
      | none => .checking { job with plan := marked job.plan report } := by
    unfold close
    simp only [hcond, Bool.false_eq_true, if_false]
    unfold PoolReport.verdict? at hcomplete ⊢
    cases hfailures : report.failures with
    | cons x rest => rfl
    | nil =>
      cases herrors : report.workerErrors with
      | cons e rest => rfl
      | nil =>
        simp only [hfailures, herrors, forall_const] at hcomplete
        simp only [hcomplete, if_true]
  refine ⟨?_, hclose⟩
  have hdeeds : ∀ next, s.deeds w (.closing job report) .go next = [.closed false] := by
    intro next
    simp only [deeds, hcond, Bool.false_eq_true, if_false]
    rw [hw]
  rw [events, changes, hdeeds, show Note.calls (s.turn w false none (.closing job report) .go).notes
    = [] from s.calls_close w job report]
  rfl

/-- A run whose session is not cancelled looks at its token for the last time. -/
theorem turn_checking (job : Job) (hw : w.isCancelled s.handle = false) :
    s.events w false none (.checking job) .go
        = [.checked false, .called none (s.createCall job)] ∧
      (s.turn w false none (.checking job) .go).stage = .finalizing job := by
  have hfinalize : Note.calls (s.finalize w job).notes = [s.createCall job] ∧
      (s.finalize w job).stage = .finalizing job := by
    simp only [finalize, hw, Bool.false_eq_true, if_false]
    rw [Note.calls_append, Note.calls_lines]
    exact ⟨rfl, trivial⟩
  refine ⟨?_, hfinalize.2⟩
  rw [events, changes, show Note.calls (s.turn w false none (.checking job) .go).notes
    = [s.createCall job] from hfinalize.1]
  simp only [deeds, hw]
  rfl

/-- The session is told how its run ended. -/
theorem turn_settling (s : Setup) (w : World) (result : Except UploadFault Commit) :
    s.events w false none (.settling result) .go = [] ∧
      (s.turn w false none (.settling result) .go).stage = .ended result := by
  have hconclude : (s.conclude w result).stage = .ended result := by
    unfold conclude
    split <;> rfl
  refine ⟨?_, hconclude⟩
  rw [events, show Note.calls (s.turn w false none (.settling result) .go).notes = []
    from s.calls_conclude w result]
  rfl

/-- A run that has ended stays as it is. -/
theorem turn_ended (s : Setup) (w : World) (result : Except UploadFault Commit)
    (worker : Option Nat) (sig : Signal) :
    (s.turn w false worker (.ended result) sig).stage = .ended result ∧
      s.events w false worker (.ended result) sig = [] := by
  cases worker with
  | some i => exact worker_elsewhere (fun _ _ => Stage.noConfusion) i
  | none => cases sig <;> exact ⟨rfl, rfl⟩

theorem ofFinalize_eq_cancelled {f : CallFault} (h : UploadFault.ofFinalize f = .cancelled) :
    f.kind = .cancelled := by
  unfold UploadFault.ofFinalize at h
  split at h
  · cases h
  · assumption
  · cases h

variable {job : Job} {report : PoolReport} {n : Nat} {later : List Event}

/-- A run that has asked for its parts to be joined waits for the answer. -/
theorem turn_finalizing (s : Setup) (w : World) (job : Job) (worker : Option Nat) (sig : Signal) :
    ((s.turn w false worker (.finalizing job) sig).stage = .finalizing job ∧
      s.events w false worker (.finalizing job) sig = []) ∨
    s.Joins job (s.turn w false worker (.finalizing job) sig).stage
      (s.events w false worker (.finalizing job) sig) := by
  cases worker with
  | some i => exact .inl (worker_elsewhere (fun _ _ => Stage.noConfusion) i)
  | none =>
    cases sig with
    | reply r cancels =>
      cases r with
      | create r => exact .inr (.commits _ r _)
      | fault f => exact .inr (.fails f)
      | crash text => exact .inr (.crashes text)
      | precreate r => exact .inl ⟨rfl, rfl⟩
      | slice r => exact .inl ⟨rfl, rfl⟩
    | limit => exact .inr .late
    | _ => exact .inl ⟨rfl, rfl⟩

/-- A joined run comes to an end with its next own step. -/
theorem Joins.turn {answer : List Event} (h : s.Joins job stage answer) (w : World)
    (worker : Option Nat) (sig : Signal) :
    s.events w false worker stage sig = [] ∧
      ((s.turn w false worker stage sig).stage = stage ∨
        ∃ result, stage = .settling result ∧
          (s.turn w false worker stage sig).stage = .ended result) := by
  by_cases hown : worker = none ∧ sig = .go
  · obtain ⟨rfl, rfl⟩ := hown
    cases h with
    | crashes text => exact ⟨rfl, .inl rfl⟩
    | _ =>
      obtain ⟨hevents, hstage⟩ := turn_settling s w _
      exact ⟨hevents, .inr ⟨_, rfl, hstage⟩⟩
  · have hsteady : stage.isSteady = true := by cases h <;> rfl
    obtain ⟨hstage, hevents⟩ := s.turn_steady w false hsteady
      fun hworker hsig => hown ⟨hworker, hsig⟩
    exact ⟨hevents, .inl hstage⟩

/-- Without the run's own step a steady stage stays as it is. -/
theorem Winds.stays (h : s.Winds job report n stage later) (hsteady : stage.isSteady = true)
    (w : World) {worker : Option Nat} {sig : Signal} (hother : isOwnStep worker sig = false) :
    s.Winds job report (n + (isOwnStep worker sig).toNat) (s.turn w false worker stage sig).stage
      (later ++ s.events w false worker stage sig) := by
  have hne : worker = none → sig ≠ .go := by
    rintro rfl rfl
    cases hother
  obtain ⟨hstage, hevents⟩ := s.turn_steady w false hsteady hne
  rw [hother, hstage, hevents, List.append_nil]
  exact h

/-- Every step of a run that winds up takes it further by its own steps only. -/
theorem Winds.turn (h : s.Winds job report n stage later) (hw : w.isCancelled s.handle = false)
    (hinter : report.interrupted = [])
    (hcomplete : report.verdict? = none → (marked job.plan report).isComplete = true)
    (worker : Option Nat) (sig : Signal) :
    s.Winds job report (n + (isOwnStep worker sig).toNat) (s.turn w false worker stage sig).stage
      (later ++ s.events w false worker stage sig) := by
  have hwinds := h
  cases h with
  | closing =>
    cases hown : isOwnStep worker sig with
    | false => exact hown ▸ hwinds.stays rfl w hown
    | true =>
      obtain ⟨rfl, rfl⟩ := isOwnStep_iff.mp hown
      obtain ⟨hevents, hstage⟩ := turn_closing hw hinter hcomplete
      rw [hevents, hstage]
      cases hverdict : report.verdict? with
      | some f => exact .failing hverdict
      | none => exact .checking hverdict (count_marked _ _)
  | failing hverdict =>
    cases hown : isOwnStep worker sig with
    | false => exact hown ▸ hwinds.stays rfl w hown
    | true =>
      obtain ⟨rfl, rfl⟩ := isOwnStep_iff.mp hown
      obtain ⟨hevents, hstage⟩ := turn_settling s w _
      rw [hevents, hstage]
      exact .failed 0 hverdict
  | checking hverdict hcount =>
    cases hown : isOwnStep worker sig with
    | false => exact hown ▸ hwinds.stays rfl w hown
    | true =>
      obtain ⟨rfl, rfl⟩ := isOwnStep_iff.mp hown
      obtain ⟨hevents, hstage⟩ := turn_checking { job with plan := _ } hw
      rw [hevents, hstage, createCall_plan s job hcount]
      exact .joining 0 hverdict hcount
  -- from here on it does not matter whose step it is
  | failed n hverdict =>
    obtain ⟨hstage, hevents⟩ := turn_ended s w _ worker sig
    rw [hstage, hevents, List.append_nil, Nat.add_right_comm]
    exact .failed _ hverdict
  | joining n hverdict hcount =>
    rw [Nat.add_right_comm]
    rcases turn_finalizing s w { job with plan := _ } worker sig with
      ⟨hstage, hevents⟩ | hjoins
    · rw [hstage, hevents, List.append_nil]
      exact .joining _ hverdict hcount
    · exact .joined _ hverdict (hjoins.plan hcount)
  | joined n hverdict hjoins =>
    rw [Nat.add_right_comm]
    obtain ⟨hevents, hsame | ⟨result, rfl, hended⟩⟩ := hjoins.turn w worker sig
    · rw [hsame, hevents, List.append_nil]
      exact .joined _ hverdict hjoins
    · rw [hended, hevents, List.append_nil]
      exact .ended _ hverdict hjoins
  | ended n hverdict hjoins =>
    obtain ⟨hstage, hevents⟩ := turn_ended s w _ worker sig
    rw [hstage, hevents, List.append_nil, Nat.add_right_comm]
    exact .ended _ hverdict hjoins

/-! ### How it ends -/

theorem ofFinalize_ne_internal (f : CallFault) (text : String) :
    UploadFault.ofFinalize f ≠ .internal text := by
  unfold UploadFault.ofFinalize
  split <;> exact UploadFault.noConfusion

/-- A run with a fault to report ends with it, in two steps of its own. -/
theorem Winds.fails {f : UploadFault} (h : s.Winds job report n stage later)
    (hverdict : report.verdict? = some f) :
    (∀ ending, stage.ending? = some ending → ending = .result (.error f)) ∧
      (2 ≤ n → stage = .ended (.error f)) := by
  have hnone : report.verdict? ≠ none := by rw [hverdict]; exact Option.some_ne_none f
  cases h with
  | closing => exact ⟨fun _ hending => (by cases hending), fun hn => absurd hn (by decide)⟩
  | failing _ => exact ⟨fun _ hending => (by cases hending), fun hn => absurd hn (by decide)⟩
  | failed n hf =>
    obtain rfl : _ = f := Option.some.inj (hf.symm.trans hverdict)
    exact ⟨fun ending hending => (Option.some.inj hending).symm, fun _ => rfl⟩
  | checking hf _ => exact absurd hf hnone
  | joining n hf _ => exact absurd hf hnone
  | joined n hf _ => exact absurd hf hnone
  | ended n hf _ => exact absurd hf hnone

/-- A run without a fault to report asks for its parts to be joined, in two steps of its own, and
ends as the answer says. -/
theorem Winds.joins (h : s.Winds job report n stage later) (hverdict : report.verdict? = none) :
    (∀ result, stage.ending? = some (.result result) →
      .called none (s.createCall job) ∈ later ∧ (∀ text, result ≠ .error (.internal text)) ∧
      (result = .error .cancelled →
        ∃ f, f.kind = .cancelled ∧ .answered none (s.createCall job) (.fault f) ∈ later)) ∧
    (2 ≤ n → .called none (s.createCall job) ∈ later) := by
  have hsome : ∀ f, report.verdict? ≠ some f := by
    intro f
    rw [hverdict]
    exact (Option.some_ne_none f).symm
  cases h with
  | closing => exact ⟨fun _ hending => (by cases hending), fun hn => absurd hn (by decide)⟩
  | failing hf => exact absurd hf (hsome _)
  | failed n hf => exact absurd hf (hsome _)
  | checking _ _ => exact ⟨fun _ hending => (by cases hending), fun hn => absurd hn (by decide)⟩
  | joining n _ _ => exact ⟨fun _ hending => (by cases hending), fun _ => by simp⟩
  | joined n _ hjoins =>
    exact ⟨fun _ hending => (by cases hjoins <;> cases hending), fun _ => by simp⟩
  | ended n _ hjoins =>
    refine ⟨fun result hending => ⟨by simp, ?_⟩, fun _ => by simp⟩
    cases hending
    cases hjoins with
    | commits c r key => exact ⟨nofun, nofun⟩
    | late => exact ⟨nofun, nofun⟩
    | fails f =>
      refine ⟨fun text hc => ofFinalize_ne_internal f text (Except.error.inj hc), fun hc => ?_⟩
      exact ⟨f, ofFinalize_eq_cancelled (Except.error.inj hc), by simp⟩

/-! ### What the run looks at -/

/-- What a run that was never cancelled finds when its workers are done. -/
structure Finds (job : Job) (report : PoolReport) (evs : List Event) : Prop where
  interrupted : report.interrupted = []
  failed : ∀ c f, .partFailed c f ∈ evs → (c.index, f) ∈ report.failures
  failures : ∀ x ∈ report.failures,
    x.2 ≠ .cancelled ∧ ∃ c, c.index = x.1 ∧ .partFailed c x.2 ∈ evs
  fell : (∃ i, .workerFell i ∈ evs) ↔ report.workerErrors ≠ []
  unsaved : ∀ key r, .saved key r ∉ evs
  sent : report.verdict? = none → report.unassigned = 0 ∧
    (report.completed.map Prod.fst).Perm (job.plan.pending.map Chunk.index) ∧
    (∀ c ∈ job.plan.pending, Acknowledged job evs c.index) ∧
    (marked job.plan report).isComplete = true

theorem finds_of_done {pool : Pool Transfer} {evs : List Event}
    (htrace : Trace s false (.sending job pool) evs) (hdone : pool.isDone = true)
    (hfallen : pool.fallen = []) : Finds job pool.result evs := by
  have hkept := htrace.tended (kept_tends s) job pool rfl
  obtain ⟨d, o, located, work, hlocated, rfl, hworking, rfl⟩ := htrace.course
  obtain ⟨threads, ms, hms, hpool⟩ := hkept.manned rfl
  have huploaded := Pool.uploaded_of_untroubled (fun _ => Transfer.reading) threads
    (o.job s d).plan.pending hms (hpool ▸ hdone)
  rw [← hpool] at huploaded
  have hleft : ∀ wk ∈ pool.workers, wk.blame? = none := by
    intro wk hwk
    have hgone := List.all_eq_true.mp hdone wk hwk
    cases wk with
    | left => rfl
    | _ => cases hgone
  refine ⟨huploaded.1, fun c f hmem => ?_, fun x hx => ?_, ?_, fun key r hmem => ?_, ?_⟩
  · rcases hkept.recorded.failed c f hmem with hfail | ⟨wk, hwk, hblame⟩
    · exact hfail
    · rw [hleft wk hwk] at hblame
      cases hblame
  · exact ⟨hworking.failures x hx, hkept.recorded.failures x hx⟩
  · rw [hkept.recorded.fell, hfallen]
    exact or_iff_left (fun hne => hne rfl)
  · rcases List.mem_append.mp hmem with hmem | hmem
    · cases hlocated.early _ hmem
    · cases hworking.works _ hmem
  · intro hverdict
    obtain ⟨hfailures, herrors⟩ := PoolReport.verdict?_eq_none hverdict
    obtain ⟨hunassigned, hperm⟩ := huploaded.2 hfailures herrors
    have hacknowledged : ∀ c ∈ (o.job s d).plan.pending, Acknowledged (o.job s d) work c.index := by
      intro c hc
      apply (hworking.completed c.index).mp
      exact hperm.mem_iff.mpr (List.mem_map_of_mem hc)
    refine ⟨hunassigned, hperm, fun c hc => acknowledged_append.mpr (.inr (hacknowledged c hc)), ?_⟩
    apply Plan.isComplete_iff.mpr
    have hworked : Worked false (o.job s d) pool.result work :=
      ⟨pool, hworking, hdone, hfallen, rfl⟩
    apply List.eq_nil_iff_forall_not_mem.mpr
    intro c hc
    obtain ⟨hpending, hno⟩ := (hworked.pending_marked (o.numbered_plan s.numbered_plan)).mp hc
    exact hno (hacknowledged c hpending)

/-- The event tells of nothing that goes wrong, and saves no resume record. -/
def IsCalm (x : Event) : Prop := x.isMishap = false ∧ ∀ key r, x ≠ .saved key r

theorem Joins.calm {answer : List Event} (h : s.Joins job stage answer) :
    ∀ x ∈ answer, IsCalm x := by
  intro x hx
  cases h with
  | commits c r key =>
    rw [List.mem_cons, List.mem_singleton] at hx
    rcases hx with rfl | rfl <;> exact ⟨rfl, fun _ _ => Event.noConfusion⟩
  | late => cases hx
  | _ =>
    rw [List.mem_singleton.mp hx]
    exact ⟨rfl, fun _ _ => Event.noConfusion⟩

/-- Nothing goes wrong with parts or workers while a run winds up, and no resume record is saved. -/
theorem Winds.calm (h : s.Winds job report n stage later) : ∀ x ∈ later, IsCalm x := by
  have hfirst : ∀ x ∈ [Event.closed false, .checked false, .called none (s.createCall job)],
      IsCalm x := by
    intro x hx
    rw [List.mem_cons, List.mem_cons, List.mem_singleton] at hx
    rcases hx with rfl | rfl | rfl <;> exact ⟨rfl, fun _ _ => Event.noConfusion⟩
  intro x hx
  cases h with
  | closing => cases hx
  | joining n _ _ => exact hfirst x hx
  | joined n _ hjoins => exact (List.mem_append.mp hx).elim (hfirst x) (hjoins.calm x)
  | ended n _ hjoins => exact (List.mem_append.mp hx).elim (hfirst x) (hjoins.calm x)
  | _ => exact hfirst x (List.mem_cons.mpr (.inl (List.mem_singleton.mp hx)))

/-- What is found keeps being told while nothing more goes wrong. -/
theorem Finds.calm {before : List Event}
    (hfinds : Finds job report before) (hcalm : ∀ x ∈ later, IsCalm x) :
    Finds job report (before ++ later) where
  interrupted := hfinds.interrupted
  failed c f hmem := by
    rcases List.mem_append.mp hmem with hmem | hmem
    · exact hfinds.failed c f hmem
    · cases (hcalm _ hmem).1
  failures x hx := by
    obtain ⟨hne, c, hc, hmem⟩ := hfinds.failures x hx
    exact ⟨hne, c, hc, List.mem_append_left _ hmem⟩
  fell := by
    rw [← hfinds.fell]
    constructor
    · rintro ⟨i, hmem⟩
      rcases List.mem_append.mp hmem with hmem | hmem
      · exact ⟨i, hmem⟩
      · cases (hcalm _ hmem).1
    · rintro ⟨i, hmem⟩
      exact ⟨i, List.mem_append_left _ hmem⟩
  unsaved key r hmem := by
    rcases List.mem_append.mp hmem with hmem | hmem
    · exact hfinds.unsaved key r hmem
    · exact (hcalm _ hmem).2 key r rfl
  sent hverdict := by
    obtain ⟨hunassigned, hperm, hacknowledged, hcomplete⟩ := hfinds.sent hverdict
    exact ⟨hunassigned, hperm,
      fun c hc => acknowledged_append.mpr (.inl (hacknowledged c hc)), hcomplete⟩

end Run.Setup

/-! ## The whole run -/

/-- An action with which the task of run `k` goes on by itself. -/
def Action.goesOn (k : Nat) : Action → Bool
  | .signal t sig => t.run == k && Run.Setup.isOwnStep t.worker sig
  | _ => false

/-- How many steps of its own the task of run `k` takes. -/
def ownSteps (k : Nat) (as : List Action) : Nat := as.countP (Action.goesOn k)

theorem ownSteps_concat (k : Nat) (as : List Action) (a : Action) :
    ownSteps k (as ++ [a]) = ownSteps k as + (Action.goesOn k a).toNat := by
  rw [ownSteps, List.countP_append, List.countP_singleton]
  cases a.goesOn k <;> rfl

/-- Parts are sent at the stage. -/
def Stage.isSending : Stage → Bool
  | .sending .. => true
  | _ => false

namespace Sample

/-- The run finds a host. -/
def located : List Action := opened ++ [go, go]

/-- The part is refused for good, and the run ends. -/
def refused : List Action :=
  [work, work, work, work, work, work, work,
    .signal ⟨0, some 0⟩ (.reply (.fault (.plain .forbidden "no")) []), work, work, work, work,
    go, go, go]

end Sample

namespace History

open Run.Setup

/-- A run winds up that looked at its report when it had these events. -/
def WindsUp (h : History) (k handle : Nat) (s : Run.Setup) (job : Job) (report : PoolReport)
    (before : List Event) (n : Nat) : Prop :=
  ∃ stage later, h.engine.runs[k]? = some ⟨handle, stage⟩ ∧ h.of k = before ++ later ∧
    s.Winds job report n stage later

variable {h : History} {k handle : Nat} {job : Job} {pool : Pool Transfer}

theorem ending?_of_run {stage : Stage} (hrun : h.engine.runs[k]? = some ⟨handle, stage⟩) :
    h.engine.ending? k = stage.ending? := by
  rw [Engine.ending?, hrun]
  cases stage <;> rfl

/-- What was not cancelled after an action was not cancelled before. -/
theorem not_cancelled_before (a : Action)
    (hoff : (h.next a).engine.world.isCancelled handle = false) :
    h.engine.world.isCancelled handle = false := by
  apply Bool.eq_false_iff.mpr
  intro hc
  have hlater := (h.engine.later_act a).isCancelled hc
  exact Bool.noConfusion (hoff.symm.trans hlater)

/-- A signal to a task of a run whose session is not cancelled. -/
theorem next_signal_free {worker : Option Nat} {stage : Stage} {s : Run.Setup}
    (hrun : h.engine.runs[k]? = some ⟨handle, stage⟩)
    (hs : Engine.setup? h.engine.world handle = some s) (sig : Signal)
    (hoff : (h.next (.signal ⟨k, worker⟩ sig)).engine.world.isCancelled handle = false) :
    let w := (h.engine.world.cancelAll sig.cancels).1
    w.isCancelled s.handle = false ∧
      (h.next (.signal ⟨k, worker⟩ sig)).engine.runs[k]?
        = some ⟨handle, (s.turn w false worker stage sig).stage⟩ ∧
      (h.next (.signal ⟨k, worker⟩ sig)).of k
        = h.of k ++ s.events w false worker stage sig := by
  intro w
  obtain ⟨hworld, hruns, hof⟩ := next_signal (t := ⟨k, worker⟩) hrun hs sig
  rw [not_cancelled_before _ hoff] at hworld hruns hof
  refine ⟨Bool.eq_false_iff.mpr fun hc => ?_, hruns, hof⟩
  have hlater := (s.later_turn w false worker stage sig).isCancelled hc
  rw [Engine.setup?_handle hs] at hlater
  rw [hworld] at hoff
  exact Bool.noConfusion (hoff.symm.trans hlater)

/-- An action while a run sends parts whose session is not cancelled. -/
theorem sending_next (hin : h.InStep) (a : Action)
    (hrun : h.engine.runs[k]? = some ⟨handle, .sending job pool⟩)
    (hoff : (h.next a).engine.world.isCancelled handle = false) :
    (∃ pool', (h.next a).engine.runs[k]? = some ⟨handle, .sending job pool'⟩) ∨
      ∃ s report, (h.next a).setup? k = some s ∧
        (h.next a).engine.runs[k]? = some ⟨handle, .closing job report⟩ ∧
        Finds job report ((h.next a).of k) := by
  rcases next_cases h a hrun with ⟨hsame, -⟩ | ⟨worker, sig, s, rfl, hs⟩
  · exact .inl ⟨pool, hsame⟩
  · obtain ⟨-, hruns, hof⟩ := next_signal_free hrun hs sig hoff
    let w := (h.engine.world.cancelAll sig.cancels).1
    have hbecomes : ∀ {stage : Stage},
        (s.turn w false worker (.sending job pool) sig).stage = stage →
        (h.next (.signal ⟨k, worker⟩ sig)).engine.runs[k]? = some ⟨handle, stage⟩ := by
      rintro _ rfl
      exact hruns
    cases worker with
    | some i =>
      obtain ⟨pool', hstage, -⟩ := s.does_worker w i job pool (Bool.noConfusion : false = true → _)
      exact .inl ⟨pool', hbecomes hstage⟩
    | none =>
      obtain ⟨hevents, hsame | hcollect | ⟨hclosing, hdone, hfallen⟩⟩ :=
        s.main_while_sending w false job pool sig rfl
      · exact .inl ⟨_, hbecomes hsame⟩
      · exact .inl ⟨_, hbecomes hcollect⟩
      · have hclosed := hbecomes hclosing
        obtain ⟨off, htrace, hcancelled⟩ := (hin.follows k _ hrun).trace hs
        obtain rfl : off = false := Bool.eq_false_iff.mpr fun ho =>
          Bool.noConfusion ((not_cancelled_before _ hoff).symm.trans (hcancelled ho))
        have hsetup : h.setup? k = some s := by
          rw [setup?, hrun]
          exact hs
        refine .inr ⟨s, pool.result, setup?_next hsetup _, hclosed, ?_⟩
        rw [hof, show s.events _ false none (.sending job pool) sig = [] from hevents,
          List.append_nil]
        exact finds_of_done htrace hdone hfallen

/-- A run that winds up goes on to do so. -/
theorem WindsUp.next {s : Run.Setup} {report : PoolReport} {before : List Event} {n : Nat}
    (hwinds : h.WindsUp k handle s job report before n) (hfinds : Finds job report before)
    (hs : h.setup? k = some s) (a : Action)
    (hoff : (h.next a).engine.world.isCancelled handle = false) :
    (h.next a).WindsUp k handle s job report before (n + (a.goesOn k).toNat) := by
  obtain ⟨stage, later, hrun, hof, hwinds⟩ := hwinds
  rw [setup?, hrun] at hs
  by_cases ha : ∃ worker sig, a = .signal ⟨k, worker⟩ sig
  · obtain ⟨worker, sig, rfl⟩ := ha
    obtain ⟨hw, hruns, hof'⟩ := next_signal_free hrun hs sig hoff
    have hgoes : Action.goesOn k (.signal ⟨k, worker⟩ sig) = isOwnStep worker sig := by
      rw [Action.goesOn, beq_self_eq_true, Bool.true_and]
    refine ⟨_, _, hruns, (hof'.trans (congrArg (· ++ _) hof)).trans (List.append_assoc _ _ _), ?_⟩
    rw [hgoes]
    exact hwinds.turn hw hfinds.interrupted (fun hverdict => (hfinds.sent hverdict).2.2.2) worker
      sig
  · have hgoes : a.goesOn k = false := by
      cases a with
      | signal t sig =>
        have hne : t.run ≠ k := by
          rintro rfl
          exact ha ⟨t.worker, sig, rfl⟩
        simp only [Action.goesOn, beq_eq_false_iff_ne.mpr hne, Bool.false_and]
      | _ => rfl
    rcases next_cases h a hrun with ⟨hsame, hof'⟩ | ⟨worker, sig, _, heq, -⟩
    · rw [hgoes]
      exact ⟨stage, later, hsame, hof'.trans hof, hwinds⟩
    · exact absurd ⟨worker, sig, heq⟩ ha

/-- A run that sent parts and whose session is not cancelled sends them still, or it winds up. -/
theorem sends_or_winds (w : World) (as rest : List Action)
    (hsends : ((start w).after as).engine.runs[k]? = some ⟨handle, .sending job pool⟩)
    (hnever : ((start w).after (as ++ rest)).engine.world.isCancelled handle = false) :
    (∃ pool, ((start w).after (as ++ rest)).engine.runs[k]? = some ⟨handle, .sending job pool⟩) ∨
      ∃ mid tail s report before, rest = mid ++ tail ∧
        ((start w).after (as ++ rest)).setup? k = some s ∧
        ((start w).after (as ++ mid)).engine.runs[k]? = some ⟨handle, .closing job report⟩ ∧
        Finds job report before ∧
        ((start w).after (as ++ rest)).WindsUp k handle s job report before (ownSteps k tail) := by
  induction rest using List.reverseRecOn with
  | nil => exact .inl ⟨pool, by rwa [List.append_nil]⟩
  | append_singleton rest a ih =>
    rw [← List.append_assoc, after_concat] at hnever ⊢
    rcases ih (not_cancelled_before a hnever) with
      ⟨pool, hrun⟩ | ⟨mid, tail, s, report, before, rfl, hs, hclosing, hfinds, hwinds⟩
    · rcases sending_next (inStep w _) a hrun hnever with
        ⟨pool', hrun'⟩ | ⟨s, report, hs, hclosing, hfinds⟩
      · exact .inl ⟨pool', hrun'⟩
      · refine .inr ⟨rest ++ [a], [], s, report, _, (List.append_nil _).symm, hs, ?_, hfinds, ?_⟩
        · rw [← List.append_assoc, after_concat]
          exact hclosing
        · exact ⟨_, [], hclosing, (List.append_nil _).symm, .closing⟩
    · have hnext := hwinds.next hfinds hs a hnever
      rw [← ownSteps_concat] at hnext
      exact .inr ⟨mid, tail ++ [a], s, report, before, List.append_assoc _ _ _, setup?_next hs a,
        hclosing, hfinds, hnext⟩

/-- What comes of the parts of a run whose session is never cancelled, whatever the server answers
and in whatever order the workers take their steps. The run sends parts, and steps of its own tasks
lead it to the report of its workers; or its workers were done at some time and their report tells
what went wrong. If a part failed the run ends with the fault that was recorded first, and if none
did but a worker stopped abnormally, with an internal fault that shows what was recorded of it
first. Otherwise all parts that were wanted are on the server, and the run asks for them to be
joined; it is then cancelled only if the answer says so. No resume record is saved. The first two
steps that the run takes by itself after the report bring it there. -/
theorem parts_decide (w : World) (as rest : List Action) (k handle : Nat) (job : Job)
    (pool : Pool Transfer)
    (hsends : ((start w).after as).engine.runs[k]? = some ⟨handle, .sending job pool⟩)
    (hnever : ((start w).after (as ++ rest)).engine.world.isCancelled handle = false) :
    let h := (start w).after (as ++ rest)
    ((∃ pool, h.engine.runs[k]? = some ⟨handle, .sending job pool⟩) ∧ h.Drains k handle job) ∨
    ∃ mid tail s report, rest = mid ++ tail ∧ h.setup? k = some s ∧
      ((start w).after (as ++ mid)).engine.runs[k]? = some ⟨handle, .closing job report⟩ ∧
      Finds job report (h.of k) ∧
      (∀ f, report.verdict? = some f →
        (∀ ending, h.engine.ending? k = some ending → ending = .result (.error f)) ∧
        (2 ≤ ownSteps k tail → h.engine.ending? k = some (.result (.error f)))) ∧
      (report.verdict? = none →
        (∀ result, h.engine.ending? k = some (.result result) →
          .called none (s.createCall job) ∈ h.of k ∧ (∀ text, result ≠ .error (.internal text)) ∧
          (result = .error .cancelled → ∃ f, f.kind = .cancelled ∧
            .answered none (s.createCall job) (.fault f) ∈ h.of k)) ∧
        (2 ≤ ownSteps k tail → .called none (s.createCall job) ∈ h.of k)) := by
  intro h
  rcases sends_or_winds w as rest hsends hnever with
    ⟨pool, hsending⟩ | ⟨mid, tail, s, report, before, hrest, hs, hclosing, hfinds, hwinds⟩
  · exact .inl ⟨⟨pool, hsending⟩, drains (inStep w _) hsending hnever⟩
  · refine .inr ⟨mid, tail, s, report, hrest, hs, hclosing, ?_⟩
    obtain ⟨stage, later, hrun, hof, hwinds⟩ := hwinds
    have hending : h.engine.ending? k = stage.ending? := ending?_of_run hrun
    have hmem : ∀ {x : Event}, x ∈ later → x ∈ h.of k := by
      intro x hx
      rw [hof]
      exact List.mem_append_right _ hx
    rw [hending]
    refine ⟨?_, fun f hverdict => ?_, fun hverdict => ?_⟩
    · rw [hof]
      exact hfinds.calm hwinds.calm
    · obtain ⟨honly, hends⟩ := hwinds.fails hverdict
      exact ⟨honly, fun hsteps => by rw [hends hsteps]; rfl⟩
    · obtain ⟨honly, hcalls⟩ := hwinds.joins hverdict
      refine ⟨fun result hresult => ?_, fun hsteps => hmem (hcalls hsteps)⟩
      obtain ⟨hcall, hinternal, hcancelled⟩ := honly result hresult
      refine ⟨hmem hcall, hinternal, fun hc => ?_⟩
      obtain ⟨f, hkind, hanswer⟩ := hcancelled hc
      exact ⟨f, hkind, hmem hanswer⟩

/-- A run whose part is refused for good ends with the fault of the part. -/
theorem parts_decide_refused :
    let h := (start Sample.world).after (Sample.located ++ Sample.refused)
    ∃ job report, Finds job report (h.of 0) ∧
      report.verdict? = some (.chunkFailed 0 1 (.plain .forbidden "no")) ∧
      h.engine.ending? 0 = some (.result (.error (.chunkFailed 0 1 (.plain .forbidden "no")))) := by
  intro h
  have hended : h.engine.ending? 0
      = some (.result (.error (.chunkFailed 0 1 (.plain .forbidden "no")))) := by decide +kernel
  have hnone : (h.of 0).any Event.isCreate = false := by decide +kernel
  obtain ⟨job, pool, hsends⟩ : ∃ job pool,
      ((start Sample.world).after Sample.located).engine.runs[0]? = some ⟨0, .sending job pool⟩ := by
    have hfirst : (((start Sample.world).after Sample.located).engine.runs[0]?).map
        (fun r => (r.handle, r.stage.isSending)) = some (0, true) := by decide +kernel
    obtain ⟨⟨handle, stage⟩, hr, heq⟩ := Option.map_eq_some_iff.mp hfirst
    cases stage with
    | sending job pool =>
      obtain rfl : handle = 0 := congrArg Prod.fst heq
      exact ⟨job, pool, hr⟩
    | _ => cases heq
  have houtcome := parts_decide Sample.world Sample.located Sample.refused 0 0 job pool hsends
    (by decide +kernel)
  rcases houtcome with ⟨⟨pool', hrun⟩, -⟩ | ⟨_, _, s, report, -, -, -, hfinds, hfails, hjoins⟩
  · cases (ending?_of_run hrun).symm.trans hended
  · refine ⟨job, report, hfinds, ?_, hended⟩
    cases hverdict : report.verdict? with
    | none =>
      have hcreate := ((hjoins hverdict).1 _ hended).1
      exact absurd (List.any_eq_true.mpr ⟨_, hcreate, rfl⟩) (by rw [hnone]; exact Bool.noConfusion)
    | some f =>
      have hending := (hfails f hverdict).1 _ hended
      injection hending with hresult
      injection hresult with hf
      rw [hf]

end History

end Session

end ResumableUpload
