import ResumableUpload.Proofs.Session.Reached

/-!
# What workers do

A step of a worker does one of few things to the pool, each with its events (`Run.Setup.Does`,
`does_worker`). While parts are sent a run does nothing else but to notice workers that stopped
abnormally. So what holds of a pool as it starts, and is kept by these, holds of the pool as long
as there is one, on every trace (`Run.Setup.Tends`, `Trace.tended`).
-/

namespace ResumableUpload.Session

namespace Run.Setup

/-- The calls of a step with which worker `i` uploads a part. -/
def callsOf (s : Setup) (w : World) (i : Nat) (job : Job) (c : Chunk) (t : Transfer)
    (sig : Signal) : List Event :=
  (Note.calls (t.step job c (w.isCancelled s.handle) w sig).notes).map (.called (some i))

/-- What a step of worker `i` does: its events, and the pool that it leads to. -/
inductive Does (s : Setup) (w : World) (cancelled : Bool) (i : Nat) (job : Job)
    (pool : Pool Transfer) (sig : Signal) : List Event → Pool Transfer → Prop
  | rests : Does s w cancelled i job pool sig [] pool
  -- it does not upload
  | steps : (∀ c t, pool.workers[i]? ≠ some (.uploading c t)) →
      Does s w cancelled i job pool sig
        (interruptions pool (pool.step (fun _ => .reading) (w.isCancelled s.handle) i).1)
        (pool.step (fun _ => .reading) (w.isCancelled s.handle) i).1
  -- it was cancelled while it waited
  | givesUp {c : Chunk} {t : Transfer} : pool.workers[i]? = some (.uploading c t) →
      cancelled = true →
      Does s w cancelled i job pool sig [.partInterrupted c.index] (pool.interrupt i c).1
  -- its upload goes on
  | works {c : Chunk} {t t' : Transfer} : pool.workers[i]? = some (.uploading c t) →
      (t.step job c (w.isCancelled s.handle) w sig).result = .more t' →
      Does s w cancelled i job pool sig
        (s.answers (some i) (.sending job pool) sig ++ s.callsOf w i job c t sig)
        (pool.setWorker i (.uploading c t'))
  | completes {c : Chunk} {t : Transfer} {md5 : String} :
      pool.workers[i]? = some (.uploading c t) →
      (t.step job c (w.isCancelled s.handle) w sig).result = .done (.ok md5) →
      Does s w cancelled i job pool sig
        (s.answers (some i) (.sending job pool) sig ++ s.callsOf w i job c t sig)
        (pool.finish i c (.ok md5)).1
  | fails {c : Chunk} {t : Transfer} {f : UploadFault} :
      pool.workers[i]? = some (.uploading c t) →
      (t.step job c (w.isCancelled s.handle) w sig).result = .done (.error f) → f ≠ .cancelled →
      Does s w cancelled i job pool sig
        (s.answers (some i) (.sending job pool) sig ++ [.partFailed c f]
          ++ s.callsOf w i job c t sig)
        (pool.setWorker i (.failing c f))
  -- it was cancelled between two attempts
  | drops {c : Chunk} {t : Transfer} : pool.workers[i]? = some (.uploading c t) →
      (t.step job c (w.isCancelled s.handle) w sig).result = .done (.error .cancelled) →
      Does s w cancelled i job pool sig
        (s.answers (some i) (.sending job pool) sig ++ [.partInterrupted c.index]
          ++ s.callsOf w i job c t sig)
        (pool.interrupt i c).1
  | falls {c : Chunk} {t : Transfer} {text : String} : pool.workers[i]? = some (.uploading c t) →
      (t.step job c (w.isCancelled s.handle) w sig).result = .crash text →
      Does s w cancelled i job pool sig
        (s.answers (some i) (.sending job pool) sig ++ [.workerFell i]
          ++ s.callsOf w i job c t sig)
        (pool.crash i text)

variable {s : Setup} {w : World} {cancelled : Bool} {i : Nat} {job : Job} {pool : Pool Transfer}
  {sig : Signal}

/-- The answer that a step takes up is the one to the call that its task waits for. -/
theorem mem_answers {worker : Option Nat} {stage : Stage} {x : Event}
    (h : x ∈ s.answers worker stage sig) : ∃ c r cancels, s.underWay worker stage = some c ∧
      sig = .reply r cancels ∧ x = .answered worker c r := by
  unfold answers at h
  split at h
  · next c r cancels hc =>
    split at h
    · exact ⟨c, r, cancels, hc, rfl, List.mem_singleton.mp h⟩
    · cases h
  · cases h

/-- A worker that does not upload. -/
theorem does_idle (hi : ∀ c t, pool.workers[i]? ≠ some (.uploading c t)) :
    ∃ pool', (s.worker w cancelled i (.sending job pool) sig).stage = .sending job pool' ∧
      s.Does w cancelled i job pool sig
        (s.events w cancelled (some i) (.sending job pool) sig) pool' := by
  obtain ⟨pool', lines, hturn, hdoes⟩ : ∃ pool' lines,
      s.worker w cancelled i (.sending job pool) sig
        = ⟨w, .sending job pool', Note.lines lines⟩ ∧
      s.Does w cancelled i job pool sig (interruptions pool pool') pool' := by
    unfold worker
    dsimp only
    split
    · next hup => exact absurd hup (hi _ _)
    · split
      · exact ⟨_, _, rfl, .steps hi⟩
      · refine ⟨pool, [], rfl, ?_⟩
        rw [interruptions_same rfl]
        exact .rests
  refine ⟨pool', by rw [hturn], ?_⟩
  rw [s.events_worker hturn rfl, s.answers_idle hi, upsets_idle hi, Note.calls_lines,
    List.nil_append, List.map_nil, List.append_nil]
  exact hdoes

/-- A worker that uploads and does not give its part up. -/
theorem does_uploading {c : Chunk} {t : Transfer} (hi : pool.workers[i]? = some (.uploading c t))
    (hgive : ¬ (cancelled && t.isWaiting) = true) :
    ∃ pool', (s.worker w cancelled i (.sending job pool) sig).stage = .sending job pool' ∧
      s.Does w cancelled i job pool sig
        (s.events w cancelled (some i) (.sending job pool) sig) pool' := by
  have hturn := s.worker_uploading w job sig hi hgive
  cases hr : (t.step job c (w.isCancelled s.handle) w sig).result with
  | more t' =>
    simp only [hr] at hturn
    refine ⟨pool.setWorker i (.uploading c t'), by rw [hturn], ?_⟩
    have hups : upsets i (.sending job pool) (.sending job (pool.setWorker i (.uploading c t')))
        = [] := (upsets_uploading job _ hi rfl).trans (interruptions_same rfl)
    rw [s.events_worker hturn rfl, hups, List.append_nil]
    exact .works hi hr
  | done result =>
    simp only [hr] at hturn
    refine ⟨(pool.finish i c result).1, by rw [hturn], ?_⟩
    rw [s.events_worker hturn rfl, Note.calls_append, Note.calls_lines, List.append_nil]
    cases result with
    | ok md5 =>
      have hups : upsets i (.sending job pool) (.sending job (pool.finish i c (.ok md5)).1) = [] :=
        (upsets_uploading job .ready hi rfl).trans (interruptions_same rfl)
      rw [hups, List.append_nil]
      exact .completes hi hr
    | error f =>
      by_cases hf : f = .cancelled
      · subst hf
        have hups : upsets i (.sending job pool)
            (.sending job (pool.finish i c (.error .cancelled)).1) = [.partInterrupted c.index] :=
          upsets_interrupt job hi
        rw [hups]
        exact .drops hi hr
      · have hups : upsets i (.sending job pool) (.sending job (pool.setWorker i (.failing c f)))
            = [.partFailed c f] := upsets_uploading job _ hi rfl
        rw [Pool.finish_fault pool i c hf, hups]
        exact .fails hi hr hf
  | crash text =>
    simp only [hr] at hturn
    refine ⟨pool.crash i text, by rw [hturn], ?_⟩
    have hups : upsets i (.sending job pool) (.sending job (pool.crash i text)) = [.workerFell i] :=
      upsets_uploading job .crashed hi rfl
    rw [s.events_worker hturn rfl, hups]
    exact .falls hi hr

/-- A step of a worker does one of the things listed. -/
theorem does_worker (s : Setup) (w : World) (i : Nat) (job : Job) (pool : Pool Transfer)
    (hgo : cancelled = true → sig = .go) :
    ∃ pool', (s.worker w cancelled i (.sending job pool) sig).stage = .sending job pool' ∧
      s.Does w cancelled i job pool sig
        (s.events w cancelled (some i) (.sending job pool) sig) pool' := by
  by_cases hup : ∃ c t, pool.workers[i]? = some (.uploading c t)
  · obtain ⟨c, t, hi⟩ := hup
    by_cases hgive : (cancelled && t.isWaiting) = true
    · obtain ⟨hc, ht⟩ := Bool.and_eq_true_iff.mp hgive
      have hsig := hgo hc
      subst hc hsig
      have hturn : s.worker w true i (.sending job pool) .go
          = ⟨w, .sending job (pool.interrupt i c).1, Note.lines (pool.interrupt i c).2⟩ := by
        simp only [worker, hi, ht, Bool.and_self, if_true]
      have hans : s.answers (some i) (.sending job pool) .go = [] :=
        answers_of_no_reply (by simp)
      refine ⟨(pool.interrupt i c).1, by rw [hturn], ?_⟩
      rw [s.events_worker hturn rfl, hans, Note.calls_lines, upsets_interrupt job hi]
      exact .givesUp hi rfl
    · exact does_uploading hi hgive
  · exact does_idle fun c t hi => hup ⟨c, t, hi⟩

/-- A worker has nothing to do but to send parts. -/
theorem worker_elsewhere {stage : Stage} (hno : NoSending stage) (i : Nat) :
    (s.turn w cancelled (some i) stage sig).stage = stage ∧
      s.events w cancelled (some i) stage sig = [] := by
  have hidle : s.worker w cancelled i stage sig = ⟨w, stage, []⟩ ∧
      s.answers (some i) stage sig = [] ∧ upsets i stage stage = [] := by
    cases stage with
    | sending job pool => exact absurd rfl (hno job pool)
    | _ => exact ⟨rfl, rfl, rfl⟩
  obtain ⟨hturn, hans, hups⟩ := hidle
  refine ⟨congrArg Turn.stage hturn, ?_⟩
  rw [events, hans, changes, turn]
  simp only [hturn, hups]
  rfl

/-- A step of a worker, whatever the stage of its run: it does one of the things listed, or nothing
where no parts are sent. -/
theorem worker_cases (s : Setup) (w : World) (cancelled : Bool) (i : Nat) (stage : Stage)
    (signal : Signal) :
    let sig := Engine.effective cancelled stage signal
    (∃ job pool pool', stage = .sending job pool ∧
      (s.turn w cancelled (some i) stage sig).stage = .sending job pool' ∧
      s.Does w cancelled i job pool sig (s.events w cancelled (some i) stage sig) pool') ∨
    ((s.turn w cancelled (some i) stage sig).stage = stage ∧
      s.events w cancelled (some i) stage sig = []) := by
  intro sig
  by_cases hsending : ∃ job pool, stage = .sending job pool
  · obtain ⟨job, pool, rfl⟩ := hsending
    have hgo : cancelled = true → sig = .go := by
      rintro rfl
      rfl
    obtain ⟨pool', hstage, hdoes⟩ := s.does_worker w i job pool hgo
    exact .inl ⟨job, pool, pool', rfl, hstage, hdoes⟩
  · exact .inr (worker_elsewhere (fun job pool heq => hsending ⟨job, pool, heq⟩) i)

/-- What happens in a step of a worker: it takes up an answer, a part or the worker comes to grief,
or it calls for the part that it uploads. -/
theorem Does.mem {new : List Event} {pool' : Pool Transfer} {x : Event}
    (h : s.Does w cancelled i job pool sig new pool') (hx : x ∈ new) :
    x ∈ s.answers (some i) (.sending job pool) sig ∨ x.isTrouble = true ∨
      ∃ c t, pool.workers[i]? = some (.uploading c t) ∧ x ∈ s.callsOf w i job c t sig := by
  have hboth : ∀ {c t}, pool.workers[i]? = some (.uploading c t) →
      x ∈ s.answers (some i) (.sending job pool) sig ++ s.callsOf w i job c t sig →
      x ∈ s.answers (some i) (.sending job pool) sig ∨ x.isTrouble = true ∨
        ∃ c t, pool.workers[i]? = some (.uploading c t) ∧ x ∈ s.callsOf w i job c t sig := by
    intro c t hi hx
    exact (List.mem_append.mp hx).imp_right fun hx => .inr ⟨c, t, hi, hx⟩
  have hgrief : ∀ {c t y}, pool.workers[i]? = some (.uploading c t) → y.isTrouble = true →
      x ∈ s.answers (some i) (.sending job pool) sig ++ [y] ++ s.callsOf w i job c t sig →
      x ∈ s.answers (some i) (.sending job pool) sig ∨ x.isTrouble = true ∨
        ∃ c t, pool.workers[i]? = some (.uploading c t) ∧ x ∈ s.callsOf w i job c t sig := by
    intro c t y hi hy hx
    rw [List.mem_append, List.mem_append, List.mem_singleton] at hx
    rcases hx with (hx | rfl) | hx
    · exact .inl hx
    · exact .inr (.inl hy)
    · exact .inr (.inr ⟨c, t, hi, hx⟩)
  cases h with
  | rests => cases hx
  | steps _ =>
    obtain ⟨n, -, rfl⟩ := List.mem_map.mp hx
    exact .inr (.inl rfl)
  | givesUp _ _ =>
    rw [List.mem_singleton.mp hx]
    exact .inr (.inl rfl)
  | works hi _ => exact hboth hi hx
  | completes hi _ => exact hboth hi hx
  | fails hi _ _ => exact hgrief hi rfl hx
  | drops hi _ => exact hgrief hi rfl hx
  | falls hi _ => exact hgrief hi rfl hx

/-! ## While parts are sent -/

/-- What holds of a pool as it starts, and is kept by all that happens to it while parts are sent.
The first argument of `P` says whether the session was cancelled. -/
structure Tends (s : Setup) (P : Bool → Job → Pool Transfer → List Event → Prop) : Prop where
  begins {off : Bool} {d : Digest.FileDigests} {o : Origin} {evs : List Event} (threads : Nat) :
    s.Located d o evs → P off (o.job s d) (.start threads (o.job s d).plan.pending) evs
  later {off off' : Bool} {job : Job} {pool : Pool Transfer} {evs : List Event} :
    P off job pool evs → (off = true → off' = true) → P off' job pool evs
  collects {off : Bool} {job : Job} {pool : Pool Transfer} {evs : List Event} :
    P off job pool evs → P off job pool.collect.1 evs
  does {w : World} {off cancelled : Bool} {i : Nat} {job : Job} {pool pool' : Pool Transfer}
    {sig : Signal} {evs new : List Event} :
    Trace s off (.sending job pool) evs → (cancelled = true → w.isCancelled s.handle = true) →
    P (w.isCancelled s.handle) job pool evs → s.Does w cancelled i job pool sig new pool' →
    P (w.isCancelled s.handle) job pool' (evs ++ new)

variable {P : Bool → Job → Pool Transfer → List Event → Prop} {off : Bool}
  {stage : Stage} {evs : List Event} {signal : Signal}

/-- A run that looks for a host makes no other calls. -/
theorem calls_locating {caller : Caller} {x : Call}
    (hx : x ∈ Note.calls (s.main w cancelled (.locating job caller) sig).notes) :
    ∃ token, x = .locate token := by
  have hlocated : ∀ (w : World) (caller : Caller) (lines : List LogLine),
      x ∈ Note.calls (Note.lines lines
        ++ (s.located job (w.ask s.resolver s.target.accessToken caller)).notes) →
      ∃ token, x = .locate token := by
    intro w caller lines hx
    rw [Note.calls_append, Note.calls_lines, List.nil_append] at hx
    apply World.calls_ask w s.resolver s.target.accessToken caller
    unfold located at hx
    split at hx
    · exact hx
    · exact hx
    · exact hx
    · dsimp only at hx
      rwa [Note.calls_append, Note.calls_lines, List.append_nil] at hx
  cases caller with
  | waiting l =>
    cases sig with
    | go =>
      cases cancelled with
      | true => cases hx
      | false => exact hlocated w (.waiting l) [] hx
    | lookup reply cancels =>
      cases reply with
      | outcome o => exact hlocated _ (.waiting l) _ hx
      | crash text =>
        have hlines : x ∈ Note.calls (Note.lines (w.endLookup s.resolver l (.crash text)).2) := hx
        rw [Note.calls_lines] at hlines
        cases hlines
    | _ => cases hx
  | entering =>
    cases sig with
    | go => exact hlocated w .entering [] hx
    | _ => cases hx
  | missed =>
    cases sig with
    | go => exact hlocated w .missed [] hx
    | _ => cases hx

/-- The events of a run that looks for a host. -/
theorem events_locating (s : Setup) (w : World) (cancelled : Bool) (job : Job) (caller : Caller)
    (sig : Signal) : s.events w cancelled none (.locating job caller) sig
      = (Note.calls (s.main w cancelled (.locating job caller) sig).notes).map (.called none) := by
  have hans : s.answers none (.locating job caller) sig = [] := by cases sig <;> rfl
  have hdeeds : ∀ next, s.deeds w (.locating job caller) sig next = [] := by
    intro next
    cases sig <;> rfl
  rw [events, hans, changes, hdeeds]
  rfl

/-- A run that sends parts notices workers that stopped abnormally, and nothing happens. -/
theorem main_while_sending (s : Setup) (w : World) (cancelled : Bool) (job : Job)
    (pool : Pool Transfer) (sig : Signal) {next : Stage}
    (hnext : (s.main w cancelled (.sending job pool) sig).stage = next) :
    s.events w cancelled none (.sending job pool) sig = [] ∧
      (next = .sending job pool ∨ next = .sending job pool.collect.1 ∨
        next = .closing job pool.result ∧ pool.isDone = true ∧ pool.fallen = []) := by
  have hquiet : ∀ turn, s.main w cancelled (.sending job pool) sig = turn →
      Note.calls turn.notes = [] → s.events w cancelled none (.sending job pool) sig = [] := by
    intro turn hturn hcalls
    have hans : s.answers none (.sending job pool) sig = [] := by cases sig <;> rfl
    have hdeeds : ∀ next, s.deeds w (.sending job pool) sig next = [] := by
      intro next
      cases sig <;> rfl
    rw [events, hans, changes, hdeeds, show s.turn w cancelled none (.sending job pool) sig = turn
      from hturn, hcalls]
    rfl
  subst hnext
  cases sig with
  | go =>
    by_cases hfallen : (!pool.fallen.isEmpty) = true
    · have hturn : s.main w cancelled (.sending job pool) .go
          = ⟨w, .sending job pool.collect.1, Note.lines pool.collect.2⟩ := by
        simp only [main, attend, hfallen, if_true]
      refine ⟨hquiet _ hturn (Note.calls_lines _), .inr (.inl ?_)⟩
      rw [hturn]
    · by_cases hdone : pool.isDone = true
      · have hturn : s.main w cancelled (.sending job pool) .go
            = ⟨w, .closing job pool.result, Note.lines pool.resultNotice⟩ := by
          simp only [main, attend, if_neg hfallen, if_pos hdone]
        have hnone : pool.fallen = [] := by simpa using hfallen
        refine ⟨hquiet _ hturn (Note.calls_lines _), .inr (.inr ⟨?_, hdone, hnone⟩)⟩
        rw [hturn]
      · have hturn : s.main w cancelled (.sending job pool) .go = ⟨w, .sending job pool, []⟩ := by
          simp only [main, attend, if_neg hfallen, if_neg hdone]
        refine ⟨hquiet _ hturn rfl, .inl ?_⟩
        rw [hturn]
  | _ => exact ⟨hquiet _ rfl rfl, .inl rfl⟩

/-- Parts are sent after a step of the task of a run that sent parts before, or that has found a
host. -/
theorem sends_or_finds (h : (s.main w cancelled stage sig).stage = .sending job pool) :
    (∃ before, stage = .sending job before) ∨ ∃ caller threads, stage = .locating job caller ∧
      pool = .start threads job.plan.pending := by
  have hsteps := s.steps_main w cancelled stage sig
  rw [h] at hsteps
  generalize (s.main w cancelled stage sig).world = w' at hsteps
  cases hsteps with
  | idle _ => exact .inl ⟨pool, rfl⟩
  | claims hno => exact absurd rfl (hno job pool)
  | announces hno => exact absurd rfl (hno job pool)
  | opens hno => exact absurd rfl (hno job pool)
  | looks _ hno => exact absurd rfl (hno job pool)
  | finds threads _ => exact .inr ⟨_, threads, rfl, rfl⟩
  | collects => exact .inl ⟨_, rfl⟩

/-- A step of the task of a run, when parts are sent after it. -/
theorem Tends.main (h : s.Tends P) (htrace : Trace s off stage evs)
    (hp : ∀ job pool, stage = .sending job pool → P off job pool evs)
    (hoff : off = true → w.isCancelled s.handle = true)
    (hnext : (s.main w cancelled stage sig).stage = .sending job pool) :
    P (w.isCancelled s.handle) job pool (evs ++ s.events w cancelled none stage sig) := by
  rcases sends_or_finds hnext with ⟨before, rfl⟩ | ⟨caller, threads, rfl, rfl⟩
  · have hbefore := h.later (hp job before rfl) hoff
    obtain ⟨hevents, hsame | hcollect | ⟨hclosing, -⟩⟩ :=
      s.main_while_sending w cancelled job before sig hnext
    · injection hsame with _ hpool
      rw [hevents, List.append_nil, hpool]
      exact hbefore
    · injection hcollect with _ hpool
      rw [hevents, List.append_nil, hpool]
      exact h.collects hbefore
    · cases hclosing
  · obtain ⟨d, o, hlocated, rfl⟩ := htrace.course
    rw [s.events_locating]
    exact h.begins threads (hlocated.append fun x hx => calls_locating hx)

/-- A step of a task of a run, when parts are sent after it. -/
theorem Tends.turn (h : s.Tends P) (htrace : Trace s off stage evs)
    (hp : ∀ job pool, stage = .sending job pool → P off job pool evs)
    (hoff : off = true → cancelled = true)
    (hcancelled : cancelled = true → w.isCancelled s.handle = true) (worker : Option Nat)
    (hnext : (s.turn w cancelled worker stage (Engine.effective cancelled stage signal)).stage
      = .sending job pool) :
    P (w.isCancelled s.handle) job pool
      (evs ++ s.events w cancelled worker stage (Engine.effective cancelled stage signal)) := by
  have hlater := fun ho => hcancelled (hoff ho)
  cases worker with
  | none => exact h.main htrace hp hlater hnext
  | some i =>
    rcases s.worker_cases w cancelled i stage signal with
      ⟨job', before, pool', rfl, hstage, hdoes⟩ | ⟨hsame, hnone⟩
    · have heq : Stage.sending job' pool' = .sending job pool := hstage.symm.trans hnext
      injection heq with hjob hpool
      subst hjob hpool
      exact h.does htrace hcancelled (h.later (hp job' before rfl) hlater) hdoes
    · rw [hnone, List.append_nil]
      exact h.later (hp job pool (hsame.symm.trans hnext)) hlater

end Run.Setup

/-- What all that happens to a pool keeps holds on every trace while parts are sent. -/
theorem Trace.tended {s : Run.Setup} {P : Bool → Job → Pool Transfer → List Event → Prop}
    (hP : s.Tends P) {off : Bool} {stage : Stage} {evs : List Event}
    (h : Trace s off stage evs) : ∀ job pool, stage = .sending job pool → P off job pool evs := by
  induction h with
  | start => exact fun _ _ => Stage.noConfusion
  | turn w cancelled worker signal htrace hoff hcancelled ih =>
    intro job pool hnext
    exact hP.turn htrace ih hoff hcancelled worker hnext

end ResumableUpload.Session
