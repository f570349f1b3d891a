import ResumableUpload.Proofs.Session.Labour
import ResumableUpload.Proofs.Session.States

/-!
# Calls of the task of a run

The task of a run calls at three stages only, each time for one thing (`Run.Setup.Asks`): it
announces the upload, it looks for a host, and it joins the parts. An upload is announced as often
as the bound of the retries admits, and no more once it was answered other than with a fault that a
retry can mend (`Trace.announced`).
-/

namespace ResumableUpload.Session

/-- The event is the call that announces the upload. -/
def Event.announces : Event → Bool
  | .called _ (.precreate ..) => true
  | _ => false

/-- The event is an answer after which the upload is announced no more. -/
def Event.endsAnnouncing : Event → Bool
  | .answered _ (.precreate ..) (.fault f) => !f.isRetriable
  | .answered _ (.precreate ..) _ => true
  | _ => false

namespace Run.Setup

variable {s : Setup} {w : World} {cancelled : Bool} {stage : Stage} {sig : Signal} {x : Call}

/-- What the task of a run calls for at a stage. -/
inductive Asks (s : Setup) : Stage → Call → Prop
  | announces (plan : Plan) (d : Digest.FileDigests) (retry : Retry.Stage) :
      Asks s (.announcing plan d retry) (s.precreate d)
  | looks (job : Job) (caller : Caller) (token : String) :
      Asks s (.locating job caller) (.locate token)
  | joins (job : Job) : Asks s (.checking job) (.create s.target.accessToken (s.createRequest job))

theorem calls_announced (w : World) (plan : Plan) (d : Digest.FileDigests) (r : PrecreateReply) :
    Note.calls (s.announced w plan d r).notes = [] := by
  unfold announced
  dsimp only
  split <;> rfl

theorem calls_announce {plan : Plan} {d : Digest.FileDigests} {retry : Retry.Stage}
    {rs : Retry.Signal PrecreateReply}
    (hx : x ∈ Note.calls (s.announce w plan d retry cancelled rs).notes) : x = s.precreate d := by
  rcases announce_cases (s := s) w plan d retry cancelled rs with
    ⟨n, r, -, -, -, hcalls⟩ | ⟨-, hcalls⟩
  · rw [hcalls, calls_announced] at hx
    cases hx
  · exact hcalls x hx

theorem calls_announcing {plan : Plan} {d : Digest.FileDigests} {retry : Retry.Stage}
    (hx : x ∈ Note.calls (s.main w cancelled (.announcing plan d retry) sig).notes) :
    x = s.precreate d := by
  cases sig with
  | reply r cancels =>
    cases r with
    | precreate r => exact calls_announce hx
    | fault f => exact calls_announce hx
    | crash text => cases retry <;> cases hx
    | _ => cases hx
  | lookup r cancels => cases hx
  | _ => exact calls_announce hx

theorem calls_enter (s : Setup) (w : World) : Note.calls (s.enter w).notes = [] := by
  unfold enter
  split
  · rfl
  · split <;> rfl

theorem calls_start (s : Setup) (w : World) : Note.calls (s.start w).notes = [] := by
  unfold start
  split
  · rfl
  · exact Note.calls_lines _

theorem calls_hash (s : Setup) (w : World) (plan : Plan) :
    Note.calls (s.hash w plan).notes = [] := by
  unfold hash
  split <;> rfl

theorem calls_claim (s : Setup) (w : World) (plan : Plan) (d : Digest.FileDigests) :
    Note.calls (s.claim w plan d).notes = [] := by
  unfold claim
  dsimp only
  split <;> rfl

theorem calls_beginLocating (s : Setup) (w : World) (job : Job) :
    Note.calls (s.beginLocating w job).notes = [] := by
  unfold beginLocating
  dsimp only
  split <;> exact Note.calls_lines _

theorem calls_close (s : Setup) (w : World) (job : Job) (report : PoolReport) :
    Note.calls (s.close w job report).notes = [] := by
  unfold close
  dsimp only
  split
  · exact Note.calls_lines _
  · split
    · rfl
    · rfl
    · split <;> rfl

theorem calls_conclude (s : Setup) (w : World) (result : Except UploadFault Commit) :
    Note.calls (s.conclude w result).notes = [] := by
  unfold conclude
  split <;> exact Note.calls_lines _

theorem asks_checking {job : Job}
    (hx : x ∈ Note.calls (s.main w cancelled (.checking job) sig).notes) :
    x = .create s.target.accessToken (s.createRequest job) := by
  cases sig with
  | go =>
    by_cases hc : w.isCancelled s.handle = true
    · simp only [main, finalize, hc, if_true] at hx
      cases hx
    · simp only [main, finalize, if_neg hc] at hx
      rw [Note.calls_append, Note.calls_lines] at hx
      exact List.mem_singleton.mp hx
  | _ => cases hx

/-- The task of a run makes no other calls. -/
theorem asks_main (hx : x ∈ Note.calls (s.main w cancelled stage sig).notes) :
    s.Asks stage x := by
  have hnone : ∀ {calls : List Call}, calls = [] → x ∈ calls → s.Asks stage x := by
    rintro _ rfl hx
    cases hx
  cases stage with
  | announcing plan d retry => exact calls_announcing hx ▸ .announces plan d retry
  | locating job caller =>
    obtain ⟨token, rfl⟩ := calls_locating hx
    exact .looks job caller token
  | checking job => exact asks_checking hx ▸ .joins job
  | sending job pool =>
    obtain ⟨hevents, -⟩ := s.main_while_sending w cancelled job pool sig rfl
    have hmem : Event.called none x ∈ s.events w cancelled none (.sending job pool) sig :=
      List.mem_append_right _ (List.mem_map_of_mem hx)
    rw [hevents] at hmem
    cases hmem
  | hashing plan =>
    cases sig with
    | go =>
      cases cancelled with
      | true => cases hx
      | false => exact hnone (s.calls_hash w plan) hx
    | _ => cases hx
  | finalizing job =>
    cases sig with
    | reply r cancels => cases r <;> cases hx
    | _ => cases hx
  | ended result => cases sig <;> cases hx
  | crashed report => cases sig <;> cases hx
  | entering => cases sig with
    | go => exact hnone (s.calls_enter w) hx
    | _ => cases hx
  | starting => cases sig with
    | go => exact hnone (s.calls_start w) hx
    | _ => cases hx
  | claiming plan d => cases sig with
    | go => exact hnone (s.calls_claim w plan d) hx
    | _ => cases hx
  | opening job => cases sig with
    | go => exact hnone (s.calls_beginLocating w job) hx
    | _ => cases hx
  | closing job report => cases sig with
    | go => exact hnone (s.calls_close w job report) hx
    | _ => cases hx
  | settling result => cases sig with
    | go => exact hnone (s.calls_conclude w result) hx
    | _ => cases hx

/-! ## The announcement -/

/-- How an announcement goes on in a step, with the events of the step: it is announced once more
at most, and goes on only if it was answered with no more than a fault that a retry can mend. -/
inductive Proceeds (s : Setup) (plan : Plan) (d : Digest.FileDigests) (retry : Retry.Stage) :
    Stage → List Event → Prop
  | again {next : Retry.Stage} {new : List Event} :
      next.Within s.settings.retryPolicy.maxRetries →
      retry.begun + new.countP Event.announces = next.begun →
      (∀ x ∈ new, x.endsAnnouncing = false) →
      Proceeds s plan d retry (.announcing plan d next) new
  | leaves {next : Stage} {new : List Event} : (∀ plan d retry, next ≠ .announcing plan d retry) →
      (∀ x ∈ new, x.announces = false) → Proceeds s plan d retry next new

variable {plan : Plan} {d : Digest.FileDigests} {retry : Retry.Stage}

theorem events_announcing (s : Setup) (w : World) (cancelled : Bool) (plan : Plan)
    (d : Digest.FileDigests) (retry : Retry.Stage) (sig : Signal) :
    s.events w cancelled none (.announcing plan d retry) sig
      = s.answers none (.announcing plan d retry) sig
        ++ (Note.calls (s.main w cancelled (.announcing plan d retry) sig).notes).map
            (.called none) := by
  rw [events, changes, deeds_announcing, List.append_nil]
  rfl

/-- The retried call ends, and with it the announcement. -/
theorem proceeds_over {rs : Retry.Signal PrecreateReply} {loop : Retry.Loop PrecreateReply}
    {answers : List Event}
    (hloop : ((Retry.Loop.active retry).step s.announcement 0 cancelled rs).1 = loop)
    (hat : loop.isAt retry = false)
    (hcalls : Note.calls (s.ofAnnouncement w plan d loop).notes = [])
    (hnext : ∀ plan' d' retry, (s.ofAnnouncement w plan d loop).stage ≠ .announcing plan' d' retry)
    (hanswers : ∀ x ∈ answers, x.announces = false) :
    s.Proceeds plan d retry (s.announce w plan d retry cancelled rs).stage
      (answers ++ (Note.calls (s.announce w plan d retry cancelled rs).notes).map
        (.called none)) := by
  obtain ⟨hstage, hsame⟩ := announce_eq (s := s) w plan d hloop hat
  rw [hstage, hsame, hcalls, List.map_nil, List.append_nil]
  exact .leaves hnext hanswers

theorem announced_ne (w : World) (plan : Plan) (d : Digest.FileDigests) (r : PrecreateReply)
    (plan' : Plan) (d' : Digest.FileDigests) (retry : Retry.Stage) :
    (s.announced w plan d r).stage ≠ .announcing plan' d' retry := by
  unfold announced
  dsimp only
  split <;> exact Stage.noConfusion

/-- A step of an announcement whose answer, if it takes one up, is what the retried call sees. -/
theorem proceeds_announce (rs : Retry.Signal PrecreateReply)
    (hwithin : retry.Within s.settings.retryPolicy.maxRetries)
    (hmain : s.main w cancelled (.announcing plan d retry) sig
      = s.announce w plan d retry cancelled rs)
    (hanswers : ∀ x ∈ s.answers none (.announcing plan d retry) sig, x.announces = false)
    (hmends : ∀ o f, rs = .outcome o → o.fault? s.announcement = some f → f.isRetriable = true →
      ∀ x ∈ s.answers none (.announcing plan d retry) sig, x.endsAnnouncing = false)
    (hidle : (∀ o, rs ≠ .outcome o) → s.answers none (.announcing plan d retry) sig = []) :
    s.Proceeds plan d retry (s.main w cancelled (.announcing plan d retry) sig).stage
      (s.events w cancelled none (.announcing plan d retry) sig) := by
  rw [events_announcing, hmain]
  rcases Retry.Loop.step_cases s.announcement 0 cancelled retry rs with ⟨-, hend⟩ | ⟨-, hgoes⟩
  · exact proceeds_over hend rfl rfl (fun _ _ _ => Stage.noConfusion) hanswers
  · generalize hloop : ((Retry.Loop.active retry).step s.announcement 0 cancelled rs).1 = loop
      at hgoes
    cases hgoes with
    | begins n =>
      obtain ⟨hstage, hcalls⟩ := announce_eq (s := s) w plan d hloop rfl
      rw [hstage, hcalls, hidle nofun]
      refine .again hwithin rfl fun x hx => ?_
      rw [List.mem_singleton.mp hx]
      rfl
    | succeeds n r =>
      exact proceeds_over hloop rfl (calls_announced w plan d r) (announced_ne w plan d r) hanswers
    | fails n o f => exact proceeds_over hloop rfl rfl (fun _ _ _ => Stage.noConfusion) hanswers
    | tires n o f => exact proceeds_over hloop rfl rfl (fun _ _ _ => Stage.noConfusion) hanswers
    | pauses n o f hf hr hn =>
      obtain ⟨hstage, hcalls⟩ := announce_eq (s := s) w plan d hloop rfl
      have hcount : (s.answers none (.announcing plan d (.attempting n)) sig).countP
          Event.announces = 0 := by
        apply List.countP_eq_zero.mpr
        intro x hx
        rw [hanswers x hx]
        exact Bool.noConfusion
      rw [hstage, hcalls]
      show s.Proceeds plan d _ (.announcing plan d _) (_ ++ [])
      rw [List.append_nil]
      exact .again hn (by rw [hcount]; rfl) (hmends o f rfl hf hr)
    | resumes n wait =>
      obtain ⟨hstage, hcalls⟩ := announce_eq (s := s) w plan d hloop rfl
      rw [hstage, hcalls, hidle nofun]
      exact .again hwithin rfl fun x hx => absurd hx List.not_mem_nil
    | stays _ _ hawaits =>
      have hnone : s.answers none (.announcing plan d retry) sig = [] := by
        cases rs with
        | outcome o =>
          cases retry with
          | attempting n => cases hawaits
          | _ => rfl
        | _ => exact hidle nofun
      rw [announce_stays w plan d hloop, hnone]
      exact .again hwithin rfl fun x hx => absurd hx List.not_mem_nil

/-- A step of an announcement that takes up no answer. -/
theorem proceeds_quiet (rs : Retry.Signal PrecreateReply)
    (hwithin : retry.Within s.settings.retryPolicy.maxRetries)
    (hmain : s.main w cancelled (.announcing plan d retry) sig
      = s.announce w plan d retry cancelled rs)
    (hnone : s.answers none (.announcing plan d retry) sig = []) :
    s.Proceeds plan d retry (s.main w cancelled (.announcing plan d retry) sig).stage
      (s.events w cancelled none (.announcing plan d retry) sig) := by
  apply proceeds_announce rs hwithin hmain
  · rw [hnone]
    exact fun x hx => absurd hx List.not_mem_nil
  · rw [hnone]
    exact fun _ _ _ _ _ x hx => absurd hx List.not_mem_nil
  · exact fun _ => hnone

/-- A signal that does not fit an announcement. -/
theorem proceeds_stays (hwithin : retry.Within s.settings.retryPolicy.maxRetries)
    (hmain : s.main w cancelled (.announcing plan d retry) sig
      = ⟨w, .announcing plan d retry, []⟩)
    (hnone : s.answers none (.announcing plan d retry) sig = []) :
    s.Proceeds plan d retry (s.main w cancelled (.announcing plan d retry) sig).stage
      (s.events w cancelled none (.announcing plan d retry) sig) := by
  rw [events_announcing, hmain, hnone]
  exact .again hwithin rfl fun x hx => absurd hx List.not_mem_nil

/-- An answer reaches an announcement. -/
theorem proceeds_reply (r : Reply) (cancels : List Nat)
    (hwithin : retry.Within s.settings.retryPolicy.maxRetries) :
    s.Proceeds plan d retry
      (s.main w cancelled (.announcing plan d retry) (.reply r cancels)).stage
      (s.events w cancelled none (.announcing plan d retry) (.reply r cancels)) := by
  have hanswers : ∀ x ∈ s.answers none (.announcing plan d retry) (.reply r cancels),
      x = .answered none (s.precreate d) r := by
    intro x hx
    rcases s.answers_announcing plan d retry r cancels with hnone | ⟨-, hone⟩
    · rw [hnone] at hx
      cases hx
    · rw [hone] at hx
      exact List.mem_singleton.mp hx
  have hcalls : ∀ x ∈ s.answers none (.announcing plan d retry) (.reply r cancels),
      x.announces = false := by
    intro x hx
    rw [hanswers x hx]
    rfl
  cases r with
  | precreate r =>
    apply proceeds_announce (.outcome (.value r)) hwithin rfl hcalls
    · rintro o f ho hf -
      cases ho
      cases hf
    · intro hno
      exact absurd rfl (hno _)
  | fault f =>
    apply proceeds_announce (.outcome (.fault f)) hwithin rfl hcalls
    · intro o f' ho hf hr x hx
      cases ho
      rw [hanswers x hx]
      show (!f.isRetriable) = false
      rw [Option.some.inj hf, hr]
      rfl
    · intro hno
      exact absurd rfl (hno _)
  | crash text =>
    cases retry with
    | attempting n =>
      rw [events_announcing]
      refine .leaves (fun _ _ _ => Stage.noConfusion) fun x hx => ?_
      exact (List.mem_append.mp hx).elim (hcalls x) fun hx => absurd hx List.not_mem_nil
    | _ => exact proceeds_stays hwithin rfl rfl
  | slice r => exact proceeds_stays hwithin rfl (by cases retry <;> rfl)
  | create r => exact proceeds_stays hwithin rfl (by cases retry <;> rfl)

/-- A step of the task of a run that announces its upload. -/
theorem proceeds_main (hwithin : retry.Within s.settings.retryPolicy.maxRetries) :
    s.Proceeds plan d retry (s.main w cancelled (.announcing plan d retry) sig).stage
      (s.events w cancelled none (.announcing plan d retry) sig) := by
  cases sig with
  | go => exact proceeds_quiet .look hwithin rfl (answers_of_no_reply (by simp))
  | wake => exact proceeds_quiet .wake hwithin rfl (answers_of_no_reply (by simp))
  | limit => exact proceeds_quiet (.outcome .late) hwithin rfl (answers_of_no_reply (by simp))
  | lookup r cancels => exact proceeds_stays hwithin rfl (answers_of_no_reply (by simp))
  | reply r cancels => exact proceeds_reply r cancels hwithin

/-! ## All runs -/

/-- An announcement goes on from before, or begins with the first attempt once the store was asked
for a resume record. -/
theorem announcing_of_main (h : (s.main w cancelled stage sig).stage = .announcing plan d retry) :
    (∃ plan d retry, stage = .announcing plan d retry) ∨
      (∃ plan d, stage = .claiming plan d) ∧ retry = .ready 0 := by
  have hsteps := s.steps_main w cancelled stage sig
  rw [h] at hsteps
  generalize (s.main w cancelled stage sig).world = w' at hsteps
  cases hsteps with
  | idle _ => exact .inl ⟨plan, d, retry, rfl⟩
  | announces _ => exact .inl ⟨_, _, _, rfl⟩
  | @claims plan' d' =>
    refine .inr ⟨⟨plan', d', rfl⟩, ?_⟩
    have hclaim : (s.claim w plan' d').stage = .announcing plan d retry := h
    unfold claim at hclaim
    dsimp only at hclaim
    split at hclaim
    · cases hclaim
    · injection hclaim with _ _ hretry
      exact hretry.symm
  | @opens job =>
    have hopen : (s.beginLocating w job).stage = .announcing plan d retry := h
    unfold beginLocating at hopen
    dsimp only at hopen
    split at hopen <;> cases hopen
  | @looks job caller =>
    have hshows : (s.main w cancelled (.locating job caller) sig).stage.Shows .uploading :=
      shows_main rfl rfl
    rw [h] at hshows
    cases hshows

theorem not_called_of_deeds {next : Stage} {worker : Option Nat} {c : Call} :
    .called worker c ∉ s.deeds w stage sig next := by
  intro h
  unfold deeds at h
  split at h
  · simp at h
  · simp at h
  · simp at h
  · split at h <;> simp at h
  · simp at h
  · simp at h
  · cases h

/-- Nothing else announces an upload. -/
theorem not_announces_main (hstage : ∀ plan d retry, stage ≠ .announcing plan d retry) {y : Event}
    (hy : y ∈ s.events w cancelled none stage sig) : y.announces = false := by
  rw [events, List.mem_append, List.mem_append] at hy
  rcases hy with (hy | hy) | hy
  · obtain ⟨c, r, cancels, -, -, rfl⟩ := mem_answers hy
    rfl
  · cases y with
    | called worker c => exact absurd hy not_called_of_deeds
    | _ => rfl
  · obtain ⟨c, hc, rfl⟩ := List.mem_map.mp hy
    cases asks_main hc with
    | announces plan d retry => exact absurd rfl (hstage plan d retry)
    | looks job caller token => rfl
    | joins job => rfl

theorem Does.not_announces {i : Nat} {job : Job} {pool pool' : Pool Transfer} {new : List Event}
    (h : s.Does w cancelled i job pool sig new pool') : ∀ y ∈ new, y.announces = false := by
  intro y hy
  rcases h.mem hy with hy | hy | ⟨c, t, -, hy⟩
  · obtain ⟨c, r, cancels, -, -, rfl⟩ := mem_answers hy
    rfl
  · cases y <;> first | rfl | cases hy
  · obtain ⟨call, hcall, rfl⟩ := List.mem_map.mp hy
    cases Transfer.sends_step hcall <;> rfl

end Run.Setup

/-- How the upload of a run is announced. -/
structure Announced (s : Run.Setup) (stage : Stage) (evs : List Event) : Prop where
  bounded : evs.countP Event.announces ≤ s.settings.retryPolicy.maxRetries + 1
  ended : evs.Pairwise fun x y => x.endsAnnouncing = true → y.announces = false
  going : ∀ plan d retry, stage = .announcing plan d retry →
    retry.Within s.settings.retryPolicy.maxRetries ∧
      evs.countP Event.announces = retry.begun ∧ ∀ x ∈ evs, x.endsAnnouncing = false

variable {s : Run.Setup} {stage : Stage} {evs : List Event}

/-- What announces nothing leads to a stage at which the upload is announced only if that is known
of the stage. -/
theorem Announced.quiet (h : Announced s stage evs) {next : Stage} {new : List Event}
    (hnew : ∀ x ∈ new, x.announces = false)
    (hnext : ∀ plan d retry, next = .announcing plan d retry →
      retry.Within s.settings.retryPolicy.maxRetries ∧
        (evs ++ new).countP Event.announces = retry.begun ∧
        ∀ x ∈ evs ++ new, x.endsAnnouncing = false) : Announced s next (evs ++ new) where
  bounded := by
    have hcount : new.countP Event.announces = 0 := by
      apply List.countP_eq_zero.mpr
      intro x hx
      rw [hnew x hx]
      exact Bool.noConfusion
    rw [List.countP_append, hcount]
    exact h.bounded
  ended := by
    refine List.pairwise_append.mpr ⟨h.ended, ?_, fun x _ y hy _ => hnew y hy⟩
    exact List.pairwise_of_forall_mem_list fun x _ y hy _ => hnew y hy
  going := hnext

/-- Once an announcement is over nothing announces the upload again. -/
theorem Announced.leaves (h : Announced s stage evs) {next : Stage} {new : List Event}
    (hnext : ∀ plan d retry, next ≠ .announcing plan d retry)
    (hnew : ∀ x ∈ new, x.announces = false) : Announced s next (evs ++ new) :=
  h.quiet hnew fun plan d retry heq => absurd heq (hnext plan d retry)

/-- An announcement begins. -/
theorem Announced.begins {plan : Plan} {d : Digest.FileDigests}
    (h : Announced s (.claiming plan d) evs) {off : Bool}
    (hcourse : s.Course off (.claiming plan d) evs) {w : World} {cancelled : Bool} {sig : Signal}
    (hnext : ∀ plan' d' retry, (s.main w cancelled (.claiming plan d) sig).stage
      = .announcing plan' d' retry → retry = .ready 0) :
    Announced s (s.main w cancelled (.claiming plan d) sig).stage
      (evs ++ s.events w cancelled none (.claiming plan d) sig) := by
  have hnew : ∀ x ∈ s.events w cancelled none (.claiming plan d) sig, x.announces = false :=
    fun x hx => Run.Setup.not_announces_main (fun _ _ _ => Stage.noConfusion) hx
  have hends : ∀ x ∈ s.events w cancelled none (.claiming plan d) sig,
      x.endsAnnouncing = false := by
    intro x hx
    cases x with
    | answered who c r =>
      obtain ⟨-, hunder⟩ := Run.Setup.underWay_of_answered hx
      cases hunder
    | _ => rfl
  obtain ⟨-, files, -, rfl⟩ := hcourse
  refine h.quiet hnew fun plan' d' retry heq => ?_
  obtain rfl := hnext plan' d' retry heq
  refine ⟨Nat.zero_le _, ?_, fun x hx => ?_⟩
  · apply List.countP_eq_zero.mpr
    intro x hx
    rw [List.mem_append, List.mem_cons, List.mem_singleton] at hx
    rcases hx with (rfl | rfl) | hx
    · exact Bool.noConfusion
    · exact Bool.noConfusion
    · rw [hnew x hx]
      exact Bool.noConfusion
  · rw [List.mem_append, List.mem_cons, List.mem_singleton] at hx
    rcases hx with (rfl | rfl) | hx
    · rfl
    · rfl
    · exact hends x hx

/-- A step of an announcement. -/
theorem Announced.proceeds (h : Announced s stage evs) {plan : Plan} {d : Digest.FileDigests}
    {retry : Retry.Stage} (hstage : stage = .announcing plan d retry) {next : Stage}
    {new : List Event} (hproceeds : s.Proceeds plan d retry next new) :
    Announced s next (evs ++ new) := by
  obtain ⟨hwithin, hcount, hopen⟩ := h.going plan d retry hstage
  cases hproceeds with
  | leaves hnext hnew => exact h.leaves hnext hnew
  | @again next new hnext hbegun hnew =>
    have hall : ∀ x ∈ evs ++ new, x.endsAnnouncing = false := by
      intro x hx
      exact (List.mem_append.mp hx).elim (hopen x) (hnew x)
    have hsum : (evs ++ new).countP Event.announces = next.begun := by
      rw [List.countP_append, hcount, hbegun]
    refine ⟨?_, ?_, ?_⟩
    · rw [hsum]
      exact hnext.begun_le
    · apply List.pairwise_of_forall_mem_list
      intro x hx y _ hends
      rw [hall x hx] at hends
      cases hends
    · intro plan' d' retry' heq
      injection heq with _ _ hretry
      rw [← hretry]
      exact ⟨hnext, hsum, hall⟩

/-- No upload is announced more often than its retries admit, nor after an answer that no retry can
mend. -/
theorem Trace.announced {off : Bool} (h : Trace s off stage evs) : Announced s stage evs := by
  induction h with
  | start => exact ⟨Nat.zero_le _, .nil, fun _ _ _ => Stage.noConfusion⟩
  | @turn off stage evs w cancelled worker signal htrace _ _ ih =>
    cases worker with
    | some i =>
      rcases s.worker_cases w cancelled i stage signal with
        ⟨job, pool, pool', -, hstage, hdoes⟩ | ⟨hsame, hnone⟩
      · refine ih.leaves (fun _ _ _ heq => ?_) hdoes.not_announces
        cases hstage.symm.trans heq
      · rw [hsame, hnone, List.append_nil]
        exact ih
    | none =>
      generalize Engine.effective cancelled stage signal = sig
      by_cases hannouncing : ∃ plan d retry, stage = .announcing plan d retry
      · obtain ⟨plan, d, retry, rfl⟩ := hannouncing
        exact ih.proceeds rfl (Run.Setup.proceeds_main (ih.going plan d retry rfl).1)
      · have hno : ∀ plan d retry, stage ≠ .announcing plan d retry :=
          fun plan d retry heq => hannouncing ⟨plan, d, retry, heq⟩
        by_cases hclaiming : ∃ plan d, stage = .claiming plan d
        · obtain ⟨plan, d, rfl⟩ := hclaiming
          exact ih.begins htrace.course fun _ _ _ heq =>
            ((Run.Setup.announcing_of_main heq).resolve_left hannouncing).2
        · refine ih.leaves (fun _ _ _ heq => ?_) fun x hx => Run.Setup.not_announces_main hno hx
          exact (Run.Setup.announcing_of_main heq).elim hannouncing fun h => hclaiming h.1

end ResumableUpload.Session
