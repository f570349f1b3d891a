import ResumableUpload.Proofs.Session.Course

/-!
# Every run keeps to its course

One lemma for each stage says that a step from there keeps to the course of a run; together they
make `Trace.course`: what has happened in a run at a stage is what `Run.Setup.Course` says.
-/

namespace ResumableUpload.Session

namespace Run.Setup

variable {s : Setup} {w : World} {cancelled off : Bool} {evs : List Event} {sig : Signal}

/-- A step from a stage, with these events before it, keeps to the course. -/
def Keeps (s : Setup) (w : World) (cancelled : Bool) (worker : Option Nat) (stage : Stage)
    (sig : Signal) (evs : List Event) : Prop :=
  s.Course (w.isCancelled s.handle) (s.turn w cancelled worker stage sig).stage
    (evs ++ s.events w cancelled worker stage sig)

theorem keeps_main {stage : Stage} (next : Stage) {calls : List Call}
    (hstage : (s.main w cancelled stage sig).stage = next)
    (hcalls : Note.calls (s.main w cancelled stage sig).notes = calls)
    (h : s.Course (w.isCancelled s.handle) next
      (evs ++ (s.answers none stage sig ++ s.deeds w stage sig next
        ++ calls.map (.called none)))) :
    s.Keeps w cancelled none stage sig evs := by
  have hevents : s.events w cancelled none stage sig
      = s.answers none stage sig ++ s.deeds w stage sig next ++ calls.map (.called none) := by
    rw [← hstage, ← hcalls]
    rfl
  have hturn : (s.turn w cancelled none stage sig).stage = next := hstage
  rw [Keeps, hturn, hevents]
  exact h

/-- A step without calls that takes up no answer. -/
theorem keeps_quiet {stage : Stage} (next : Stage)
    (hstage : (s.main w cancelled stage sig).stage = next)
    (hcalls : Note.calls (s.main w cancelled stage sig).notes = [])
    (hans : s.answers none stage sig = [])
    (h : s.Course (w.isCancelled s.handle) next (evs ++ s.deeds w stage sig next)) :
    s.Keeps w cancelled none stage sig evs := by
  apply keeps_main next hstage hcalls
  rw [hans, List.nil_append, List.map_nil, List.append_nil]
  exact h

/-- A signal that does not fit the stage. -/
theorem keeps_idle {stage : Stage} (hturn : s.main w cancelled stage sig = ⟨w, stage, []⟩)
    (hans : s.answers none stage sig = []) (hdeeds : s.deeds w stage sig stage = [])
    (h : s.Course (w.isCancelled s.handle) stage evs) :
    s.Keeps w cancelled none stage sig evs := by
  refine keeps_quiet stage (by rw [hturn]) (by rw [hturn]; rfl) hans ?_
  rw [hdeeds, List.append_nil]
  exact h

/-! ## Before the announcement -/

theorem keeps_entering (h : s.Course off .entering evs) :
    s.Keeps w cancelled none .entering sig evs := by
  have hevs : evs = [] := h
  subst hevs
  cases sig with
  | go =>
    cases hk : w.handles[s.handle]? with
    | none =>
      have hturn : s.main w cancelled .entering .go = ⟨w, .entering, []⟩ := by
        simp only [main, enter, hk]
      refine keeps_idle hturn rfl ?_ rfl
      simp only [deeds, hk, Option.toList_none, List.map_nil]
    | some k =>
      have hdeeds : ∀ next, s.deeds w .entering .go next = [.entered k.state] := by
        intro next
        simp only [deeds, hk]
        rfl
      by_cases hc : k.state = .created
      · refine keeps_quiet .starting ?_ ?_ rfl ?_
        · simp only [main, enter, hk, if_pos hc]
        · simp only [main, enter, hk, if_pos hc]
          rfl
        · rw [hdeeds, hc]
          exact rfl
      · refine keeps_quiet (.ended (.error (.invalidState k.runAgainFault))) ?_ ?_ rfl ?_
        · simp only [main, enter, hk, if_neg hc]
        · simp only [main, enter, hk, if_neg hc]
          rfl
        · rw [hdeeds]
          exact .inr ⟨k.state, k.runAgainFault, hc, rfl, rfl⟩
  | _ => exact keeps_idle rfl rfl rfl rfl

theorem keeps_starting (h : s.Course off .starting evs) :
    s.Keeps w cancelled none .starting sig evs := by
  cases sig with
  | go =>
    have hevs : evs = [.entered .created] := h
    by_cases hc : w.isCancelled s.handle = true
    · refine keeps_quiet (.settling (.error .cancelled)) ?_ ?_ rfl ?_
      · simp only [main, start, hc, if_true]
        rfl
      · simp only [main, start, hc, if_true]
        rfl
      · rw [hevs]
        exact .unopened .cancelled .begun
    · refine keeps_quiet (.hashing s.plan) ?_ ?_ rfl ?_
      · simp only [main, start, if_neg hc]
        rfl
      · simp only [main, start, if_neg hc]
        exact Note.calls_lines _
      · rw [hevs]
        exact ⟨rfl, rfl⟩
  | _ => exact keeps_idle rfl rfl rfl h

theorem keeps_hashing {plan : Plan} (h : s.Course off (.hashing plan) evs) :
    s.Keeps w cancelled none (.hashing plan) sig evs := by
  cases sig with
  | go =>
    obtain ⟨rfl, rfl⟩ := h
    cases cancelled with
    | true =>
      refine keeps_quiet (.settling (.error .cancelled)) rfl rfl rfl ?_
      exact .unopened .cancelled .begun
    | false =>
      cases hd : Digest.ofFile w.files s.target.localPath s.plan with
      | error fault =>
        refine keeps_quiet (.settling (.error (.io fault))) ?_ ?_ rfl ?_
        · simp only [main, hash, hd, Bool.false_eq_true, if_false]
          rfl
        · simp only [main, hash, hd, Bool.false_eq_true, if_false]
          rfl
        · exact .unopened _ .begun
      | ok d =>
        refine keeps_quiet (.claiming s.plan d) ?_ ?_ rfl ?_
        · simp only [main, hash, hd, Bool.false_eq_true, if_false]
        · simp only [main, hash, hd, Bool.false_eq_true, if_false]
          rfl
        · exact ⟨rfl, w.files, hd, rfl⟩
  | _ => exact keeps_idle rfl rfl rfl h

theorem keeps_claiming {plan : Plan} {d : Digest.FileDigests}
    (h : s.Course off (.claiming plan d) evs) :
    s.Keeps w cancelled none (.claiming plan d) sig evs := by
  cases sig with
  | go =>
    obtain ⟨rfl, files, hd, rfl⟩ := h
    cases htaken : (w.store.find? (s.key d)).filter (s.fits s.plan d) with
    | none =>
      refine keeps_quiet (.announcing s.plan d (.ready 0)) ?_ ?_ rfl ?_
      · simp only [main, claim, htaken]
      · simp only [main, claim, htaken]
        rfl
      · refine ⟨rfl, files, _, [], ⟨hd, htaken, fun x hx => ?_⟩, rfl⟩
        cases hx
    | some r =>
      obtain ⟨hfind, hfits⟩ := Option.filter_eq_some_iff.mp htaken
      refine keeps_quiet (.opening ((Origin.taken r).job s d)) ?_ ?_ rfl ?_
      · simp only [main, claim, htaken]
        rfl
      · simp only [main, claim, htaken]
        rfl
      · refine ⟨d, .taken r, ?_, rfl⟩
        simp only [deeds, hfind]
        exact .taken hd hfits
  | _ => exact keeps_idle rfl rfl rfl h

/-! ## The announcement -/

theorem answers_of_no_reply {worker : Option Nat} {stage : Stage}
    (hsig : ∀ r cancels, sig ≠ .reply r cancels) : s.answers worker stage sig = [] := by
  unfold answers
  split
  · exact absurd rfl (hsig _ _)
  · rfl

/-- What a step of an announcement comes to when it changes anything. -/
theorem announce_eq (w : World) (plan : Plan) (d : Digest.FileDigests) {stage : Retry.Stage}
    {cancelled : Bool} {signal : Retry.Signal PrecreateReply} {loop : Retry.Loop PrecreateReply}
    (hloop : ((Retry.Loop.active stage).step s.announcement 0 cancelled signal).1 = loop)
    (hat : loop.isAt stage = false) :
    (s.announce w plan d stage cancelled signal).stage = (s.ofAnnouncement w plan d loop).stage ∧
      Note.calls (s.announce w plan d stage cancelled signal).notes
        = Note.calls (s.ofAnnouncement w plan d loop).notes := by
  subst hloop
  unfold announce
  generalize (Retry.Loop.active stage).step s.announcement 0 cancelled signal = next at hat ⊢
  obtain ⟨loop, lines⟩ := next
  dsimp only at hat ⊢
  rw [hat]
  refine ⟨rfl, ?_⟩
  show Note.calls (Note.lines lines ++ _) = _
  rw [Note.calls_append, Note.calls_lines, List.nil_append]

theorem announce_stays (w : World) (plan : Plan) (d : Digest.FileDigests) {stage : Retry.Stage}
    {cancelled : Bool} {signal : Retry.Signal PrecreateReply}
    (hloop : ((Retry.Loop.active stage).step s.announcement 0 cancelled signal).1
      = .active stage) :
    s.announce w plan d stage cancelled signal = ⟨w, .announcing plan d stage, []⟩ := by
  have hat : Retry.Loop.isAt (Retry.Loop.active stage : Retry.Loop PrecreateReply) stage = true :=
    beq_self_eq_true stage
  unfold announce
  generalize (Retry.Loop.active stage).step s.announcement 0 cancelled signal = next at hloop ⊢
  obtain ⟨loop, lines⟩ := next
  dsimp only at hloop ⊢
  rw [hloop, hat, if_pos rfl]

/-- Where a retried call stands that has no value, the announcement goes on or ends with a fault,
and makes no call but its own. -/
theorem ofAnnouncement_cases (w : World) (plan : Plan) (d : Digest.FileDigests)
    {loop : Retry.Loop PrecreateReply} (hne : ∀ r, loop ≠ .ended (.ok r)) :
    ((∃ next, (s.ofAnnouncement w plan d loop).stage = .announcing plan d next) ∨
      ∃ f, (s.ofAnnouncement w plan d loop).stage = .settling (.error f)) ∧
      ∀ x ∈ Note.calls (s.ofAnnouncement w plan d loop).notes, x = s.precreate d := by
  cases loop with
  | active stage =>
    cases stage with
    | ready n => exact ⟨.inl ⟨_, rfl⟩, fun x hx => absurd hx List.not_mem_nil⟩
    | attempting n => exact ⟨.inl ⟨_, rfl⟩, fun x hx => List.mem_singleton.mp hx⟩
    | pausing n wait => exact ⟨.inl ⟨_, rfl⟩, fun x hx => absurd hx List.not_mem_nil⟩
  | ended result =>
    cases result with
    | ok r => exact absurd rfl (hne r)
    | error f => exact ⟨.inr ⟨_, rfl⟩, fun x hx => absurd hx List.not_mem_nil⟩

/-- An announcement goes through, or goes on, or ends with a fault. -/
theorem announce_cases (w : World) (plan : Plan) (d : Digest.FileDigests) (stage : Retry.Stage)
    (cancelled : Bool) (signal : Retry.Signal PrecreateReply) :
    let turn := s.announce w plan d stage cancelled signal
    (∃ n r, stage = .attempting n ∧ signal = .outcome (.value r) ∧
        turn.stage = (s.announced w plan d r).stage ∧
        Note.calls turn.notes = Note.calls (s.announced w plan d r).notes) ∨
      ((∃ next, turn.stage = .announcing plan d next) ∨ ∃ f, turn.stage = .settling (.error f)) ∧
        ∀ x ∈ Note.calls turn.notes, x = s.precreate d := by
  intro turn
  have hgo : ∀ loop, ((Retry.Loop.active stage).step s.announcement 0 cancelled signal).1 = loop →
      loop.isAt stage = false → (∀ r, loop ≠ .ended (.ok r)) →
      ((∃ next, turn.stage = .announcing plan d next) ∨ ∃ f, turn.stage = .settling (.error f)) ∧
        ∀ x ∈ Note.calls turn.notes, x = s.precreate d := by
    intro loop hloop hat hne
    obtain ⟨hstage, hcalls⟩ := announce_eq (s := s) w plan d hloop hat
    rw [show turn.stage = _ from hstage, show Note.calls turn.notes = _ from hcalls]
    exact ofAnnouncement_cases w plan d hne
  rcases Retry.Loop.step_cases s.announcement 0 cancelled stage signal with ⟨-, hend⟩ | ⟨-, hgoes⟩
  · exact .inr (hgo _ hend rfl fun _ => by simp)
  · generalize hloop : ((Retry.Loop.active stage).step s.announcement 0 cancelled signal).1 = loop
      at hgoes
    cases hgoes with
    | succeeds n r =>
      obtain ⟨hstage, hcalls⟩ := announce_eq (s := s) w plan d hloop rfl
      exact .inl ⟨n, r, rfl, rfl, hstage, hcalls⟩
    | stays =>
      have hstay : turn = ⟨w, .announcing plan d stage, []⟩ := announce_stays w plan d hloop
      rw [hstay]
      exact .inr ⟨.inl ⟨stage, rfl⟩, fun x hx => absurd hx List.not_mem_nil⟩
    | begins n => exact .inr (hgo _ hloop rfl fun _ => by simp)
    | fails n o f => exact .inr (hgo _ hloop rfl fun _ => by simp)
    | tires n o f => exact .inr (hgo _ hloop rfl fun _ => by simp)
    | pauses n o f => exact .inr (hgo _ hloop rfl fun _ => by simp)
    | resumes n wait => exact .inr (hgo _ hloop rfl fun _ => by simp)

variable {plan : Plan} {d : Digest.FileDigests} {stage : Retry.Stage}

/-- The answer that an announcement takes up, if any, is one to its own call. -/
theorem answers_announcing (s : Setup) (plan : Plan) (d : Digest.FileDigests)
    (stage : Retry.Stage) (r : Reply) (cancels : List Nat) :
    s.answers none (.announcing plan d stage) (.reply r cancels) = [] ∨
      (∃ n, stage = .attempting n) ∧
        s.answers none (.announcing plan d stage) (.reply r cancels)
          = [.answered none (s.precreate d) r] := by
  cases stage with
  | attempting n =>
    simp only [answers, underWay]
    split
    · exact .inr ⟨⟨n, rfl⟩, rfl⟩
    · exact .inl rfl
  | ready n => exact .inl rfl
  | pausing n wait => exact .inl rfl

theorem Vain.append {a b : List Event} (ha : s.Vain d a) (hb : s.Vain d b) : s.Vain d (a ++ b) :=
  fun x hx => (List.mem_append.mp hx).elim (ha x) (hb x)

theorem vain_calls {calls : List Call} (h : ∀ x ∈ calls, x = s.precreate d) :
    s.Vain d (calls.map (.called none)) := by
  intro x hx
  obtain ⟨call, hcall, rfl⟩ := List.mem_map.mp hx
  rw [h call hcall]
  exact .inl rfl

theorem Sought.append {files : Files} {taken : Option Resume.Record} {tries more : List Event}
    (h : s.Sought d files taken tries) (hmore : s.Vain d more) :
    s.Sought d files taken (tries ++ more) :=
  ⟨h.digests, h.unfit, h.vain.append hmore⟩

theorem deeds_announcing (w : World) (plan : Plan) (d : Digest.FileDigests)
    (stage : Retry.Stage) (sig : Signal) (next : Stage) :
    s.deeds w (.announcing plan d stage) sig next = [] := by
  cases sig <;> rfl

/-- An announcement whose answer is vain, if there is one, keeps to the course. -/
theorem keeps_announce {signal : Retry.Signal PrecreateReply}
    (h : s.Course off (.announcing plan d stage) evs)
    (hmain : s.main w cancelled (.announcing plan d stage) sig
      = s.announce w plan d stage cancelled signal)
    (hvain : s.Vain d (s.answers none (.announcing plan d stage) sig))
    (hsignal : ∀ n r, stage = .attempting n → signal ≠ .outcome (.value r)) :
    s.Keeps w cancelled none (.announcing plan d stage) sig evs := by
  obtain ⟨rfl, files, taken, tries, hsought, rfl⟩ := h
  rcases announce_cases w s.plan d stage cancelled signal with
    ⟨n, r, hn, hr, -⟩ | ⟨hnext, hcalls⟩
  · exact absurd hr (hsignal n r hn)
  · rw [← hmain] at hnext hcalls
    have hmore := hsought.append (hvain.append (vain_calls hcalls))
    rcases hnext with ⟨next, hstage⟩ | ⟨f, hstage⟩
    · refine keeps_main _ hstage rfl ?_
      rw [deeds_announcing, List.append_nil, List.append_assoc]
      exact ⟨rfl, files, taken, _, hmore, rfl⟩
    · refine keeps_main _ hstage rfl ?_
      rw [deeds_announcing, List.append_nil, List.append_assoc]
      exact .unopened f (.sought hmore)

/-- An announcement that goes through keeps to the course. -/
theorem keeps_announced {n : Nat} {r : PrecreateReply} {cancels : List Nat}
    (h : s.Course off (.announcing plan d (.attempting n)) evs) :
    s.Keeps w false none (.announcing plan d (.attempting n)) (.reply (.precreate r) cancels)
      evs := by
  obtain ⟨rfl, files, taken, tries, hsought, rfl⟩ := h
  have hans : s.answers none (.announcing s.plan d (.attempting n)) (.reply (.precreate r) cancels)
      = [.answered none (s.precreate d) (.precreate r)] := rfl
  have hloop : ((Retry.Loop.active (.attempting n)).step s.announcement 0 false
      (.outcome (.value r))).1 = .ended (.ok r) := rfl
  obtain ⟨hstage, hcalls⟩ := announce_eq w s.plan d hloop rfl
  by_cases hrapid : r.isRapid = true
  · have hturn : s.announced w s.plan d r = _ := if_pos hrapid
    refine keeps_main _ (hstage.trans (congrArg Turn.stage hturn))
      (hcalls.trans (congrArg (fun t => Note.calls t.notes) hturn)) ?_
    rw [hans, deeds_announcing]
    exact .rapid hsought hrapid rfl
  · have hturn : s.announced w s.plan d r = _ := if_neg hrapid
    refine keeps_main _ (hstage.trans (congrArg Turn.stage hturn))
      (hcalls.trans (congrArg (fun t => Note.calls t.notes) hturn)) ?_
    rw [hans, deeds_announcing]
    exact ⟨d, .issued r, .issued hsought (by simpa using hrapid), rfl⟩

/-- The answer that an announcement takes up is vain unless it is the one that was waited for. -/
theorem vain_answers (s : Setup) (plan : Plan) (d : Digest.FileDigests) (stage : Retry.Stage)
    (sig : Signal)
    (hsig : ∀ n r cancels, stage = .attempting n → sig ≠ .reply (.precreate r) cancels) :
    s.Vain d (s.answers none (.announcing plan d stage) sig) := by
  intro x hx
  cases sig with
  | reply r cancels =>
    rcases s.answers_announcing plan d stage r cancels with hnil | ⟨⟨n, hn⟩, hans⟩
    · rw [hnil] at hx
      cases hx
    · rw [hans, List.mem_singleton] at hx
      subst hx
      refine .inr ⟨r, fun reply hr => ?_, rfl⟩
      exact hsig n reply cancels hn (congrArg (Signal.reply · cancels) hr)
  | _ =>
    rw [answers_of_no_reply fun _ _ => Signal.noConfusion] at hx
    cases hx

theorem keeps_announcing (h : s.Course off (.announcing plan d stage) evs)
    (hgo : cancelled = true → sig = .go) :
    s.Keeps w cancelled none (.announcing plan d stage) sig evs := by
  have hvain := s.vain_answers plan d stage sig
  cases sig with
  | go => exact keeps_announce h rfl (hvain (by simp)) (by simp)
  | wake => exact keeps_announce h rfl (hvain (by simp)) (by simp)
  | limit => exact keeps_announce h rfl (hvain (by simp)) (by simp)
  | lookup r cancels => exact keeps_idle rfl (answers_of_no_reply (by simp)) rfl h
  | reply r cancels =>
    have hoff : cancelled = false := by
      cases cancelled with
      | false => rfl
      | true => cases hgo rfl
    subst hoff
    cases r with
    | precreate r =>
      by_cases hn : ∃ n, stage = .attempting n
      · obtain ⟨n, rfl⟩ := hn
        exact keeps_announced h
      · have hnot : ∀ n, stage ≠ .attempting n := fun n hn' => hn ⟨n, hn'⟩
        exact keeps_announce h rfl (hvain fun n _ _ hn' => absurd hn' (hnot n))
          fun n _ hn' => absurd hn' (hnot n)
    | fault f => exact keeps_announce h rfl (hvain (by simp)) (by simp)
    | crash text =>
      cases stage with
      | attempting n =>
        obtain ⟨rfl, files, taken, tries, hsought, rfl⟩ := h
        have hmore := hsought.append (hvain (by simp))
        refine keeps_main (.crashed (crashReport text)) rfl rfl ?_
        exact .announcing (.sought hmore)
      | ready n => exact keeps_idle rfl rfl rfl h
      | pausing n wait => exact keeps_idle rfl rfl rfl h
    | slice r => exact keeps_idle rfl (by cases stage <;> rfl) rfl h
    | create r => exact keeps_idle rfl (by cases stage <;> rfl) rfl h

/-! ## The search for a host -/

variable {job : Job} {caller : Caller}

theorem Opened.located {o : Origin} (h : s.Opened d o evs) : s.Located d o evs := by
  have hnil : s.Located d o (evs ++ []) := .intro h fun x hx => absurd hx List.not_mem_nil
  rwa [List.append_nil] at hnil

theorem Located.append {o : Origin} {calls : List Call} (h : s.Located d o evs)
    (hcalls : ∀ x ∈ calls, ∃ token, x = .locate token) :
    s.Located d o (evs ++ calls.map (.called none)) := by
  obtain ⟨hopened, hquest⟩ := h
  rw [List.append_assoc]
  apply Located.intro hopened
  intro x hx
  rcases List.mem_append.mp hx with hx | hx
  · exact hquest x hx
  · obtain ⟨call, hcall, rfl⟩ := List.mem_map.mp hx
    obtain ⟨token, rfl⟩ := hcalls call hcall
    exact ⟨token, rfl⟩

theorem keeps_opening (h : s.Course off (.opening job) evs) :
    s.Keeps w cancelled none (.opening job) sig evs := by
  cases sig with
  | go =>
    obtain ⟨d, o, hopened, rfl⟩ := h
    by_cases hc : (w.advance s.handle .uploading).1.isCancelled s.handle = true
    · refine keeps_quiet (.settling (.error .cancelled)) ?_ ?_ rfl ?_
      · simp only [main, beginLocating, hc, if_true]
        rfl
      · simp only [main, beginLocating, hc, if_true]
        exact Note.calls_lines _
      · rw [show s.deeds w (.opening _) .go _ = [] from rfl, List.append_nil]
        exact .stranded .cancelled hopened.located
    · refine keeps_quiet (.locating (o.job s d) .entering) ?_ ?_ rfl ?_
      · simp only [main, beginLocating, if_neg hc]
      · simp only [main, beginLocating, if_neg hc]
        exact Note.calls_lines _
      · rw [show s.deeds w (.opening _) .go _ = [] from rfl, List.append_nil]
        exact ⟨d, o, hopened.located, rfl⟩
  | _ => exact keeps_idle rfl rfl rfl h

/-- What a search for a host comes to keeps to the course. -/
theorem course_located {o : Origin} {r : World.Resolved} {extra : List Note}
    (h : s.Located d o evs) (hextra : Note.calls extra = [])
    (hr : ∀ x ∈ Note.calls r.notes, ∃ token, x = .locate token) :
    s.Course off (s.located (o.job s d) r).stage
      (evs ++ (Note.calls (extra ++ (s.located (o.job s d) r).notes)).map (.called none)) := by
  rw [Note.calls_append, hextra, List.nil_append]
  have hmore := h.append hr
  unfold located
  split
  · exact ⟨d, o, hmore, rfl⟩
  · exact .locating hmore
  · exact .stranded _ hmore
  · refine ⟨d, o, _, [], hmore, rfl, working_start _ _ _, ?_⟩
    dsimp only
    rw [Note.calls_append, Note.calls_lines, List.append_nil, List.append_nil]

/-- A step that asks the resolver for a host keeps to the course. -/
theorem keeps_asking {w' : World} {extra : List Note} (h : s.Course off (.locating job caller) evs)
    (hstage : (s.main w cancelled (.locating job caller) sig).stage
      = (s.located job (w'.ask s.resolver s.target.accessToken caller)).stage)
    (hnotes : (s.main w cancelled (.locating job caller) sig).notes
      = extra ++ (s.located job (w'.ask s.resolver s.target.accessToken caller)).notes)
    (hextra : Note.calls extra = []) (hans : s.answers none (.locating job caller) sig = []) :
    s.Keeps w cancelled none (.locating job caller) sig evs := by
  obtain ⟨d, o, hlocated, rfl⟩ := h
  have hdeeds : ∀ next, s.deeds w (.locating (o.job s d) caller) sig next = [] := by
    intro next
    cases sig <;> rfl
  refine keeps_main _ hstage (congrArg Note.calls hnotes) ?_
  rw [hans, hdeeds, List.nil_append, List.nil_append]
  exact course_located hlocated hextra fun x hx => World.calls_ask _ _ _ _ hx

theorem keeps_locating (h : s.Course off (.locating job caller) evs) :
    s.Keeps w cancelled none (.locating job caller) sig evs := by
  cases caller with
  | waiting l =>
    cases sig with
    | go =>
      cases cancelled with
      | true =>
        obtain ⟨d, o, hlocated, rfl⟩ := h
        refine keeps_quiet (.settling (.error .cancelled)) rfl rfl rfl ?_
        rw [show s.deeds w (.locating _ (.waiting l)) .go _ = [] from rfl, List.append_nil]
        exact .stranded .cancelled hlocated
      | false => exact keeps_asking h rfl (List.nil_append _).symm rfl rfl
    | lookup reply cancels =>
      cases reply with
      | outcome o => exact keeps_asking h rfl rfl (Note.calls_lines _) rfl
      | crash text =>
        obtain ⟨d, o, hlocated, rfl⟩ := h
        refine keeps_quiet (.crashed (crashReport text)) rfl (Note.calls_lines _) rfl ?_
        rw [show s.deeds w (.locating _ (.waiting l)) (.lookup _ _) _ = [] from rfl,
          List.append_nil]
        exact .locating hlocated
    | _ => exact keeps_idle rfl rfl rfl h
  | entering =>
    cases sig with
    | go => exact keeps_asking h rfl (List.nil_append _).symm rfl rfl
    | _ => exact keeps_idle rfl rfl rfl h
  | missed =>
    cases sig with
    | go => exact keeps_asking h rfl (List.nil_append _).symm rfl rfl
    | _ => exact keeps_idle rfl rfl rfl h

/-! ## The workers -/

variable {pool : Pool Transfer} {report : PoolReport} {work : List Event}

theorem working_later {off' : Bool} (h : Working off job pool work)
    (hoff : off = true → off' = true) :
    Working off' job pool work := by
  have hnext := h.next hoff (moves_refl pool)
  rwa [List.append_nil] at hnext

theorem keeps_sending (h : s.Course off (.sending job pool) evs)
    (hoff : off = true → w.isCancelled s.handle = true) :
    s.Keeps w cancelled none (.sending job pool) sig evs := by
  obtain ⟨d, o, located, work, hlocated, rfl, hwork, rfl⟩ := h
  have hlater := working_later hwork hoff
  cases sig with
  | go =>
    have hdeeds : ∀ next, s.deeds w (.sending (o.job s d) pool) .go next = [] := fun _ => rfl
    by_cases hfallen : (!pool.fallen.isEmpty) = true
    · refine keeps_quiet (.sending (o.job s d) pool.collect.1) ?_ ?_ rfl ?_
      · simp only [main, attend, hfallen, if_true]
      · simp only [main, attend, hfallen, if_true]
        exact Note.calls_lines _
      · rw [hdeeds, List.append_nil]
        have hnext := hlater.next (fun ho => ho) (moves_collect pool)
        rw [List.append_nil] at hnext
        exact ⟨d, o, located, work, hlocated, rfl, hnext, rfl⟩
    · by_cases hdone : pool.isDone = true
      · refine keeps_quiet (.closing (o.job s d) pool.result) ?_ ?_ rfl ?_
        · simp only [main, attend, if_neg hfallen, if_pos hdone]
        · simp only [main, attend, if_neg hfallen, if_pos hdone]
          exact Note.calls_lines _
        · rw [hdeeds, List.append_nil]
          have hnil : pool.fallen = [] := by simpa using hfallen
          exact ⟨d, o, located, work, hlocated, rfl, ⟨pool, hlater, hdone, hnil, rfl⟩, rfl⟩
      · refine keeps_idle ?_ rfl rfl ⟨d, o, located, work, hlocated, rfl, hlater, rfl⟩
        simp only [main, attend, if_neg hfallen, if_neg hdone]
  | _ => exact keeps_idle rfl rfl rfl ⟨d, o, located, work, hlocated, rfl, hlater, rfl⟩

theorem Worked.later {off' : Bool} (h : Worked off job report work)
    (hoff : off = true → off' = true) : Worked off' job report work := by
  obtain ⟨pool, hwork, hrest⟩ := h
  exact ⟨pool, working_later hwork hoff, hrest⟩

theorem Course.later {off' : Bool} {stage : Stage} (h : s.Course off stage evs)
    (hoff : off = true → off' = true) : s.Course off' stage evs := by
  cases stage with
  | sending job pool =>
    obtain ⟨d, o, located, work, hlocated, hjob, hwork, hevs⟩ := h
    exact ⟨d, o, located, work, hlocated, hjob, working_later hwork hoff, hevs⟩
  | closing job report =>
    obtain ⟨d, o, located, work, hlocated, hjob, hwork, hevs⟩ := h
    exact ⟨d, o, located, work, hlocated, hjob, hwork.later hoff, hevs⟩
  | _ => exact h

/-- Workers are at work while parts are sent, and do nothing at any other stage. -/
theorem keeps_worker {stage : Stage} {signal : Signal} {i : Nat} (h : s.Course off stage evs)
    (hoff : off = true → cancelled = true)
    (hcancelled : cancelled = true → w.isCancelled s.handle = true) :
    s.Keeps w cancelled (some i) stage (Engine.effective cancelled stage signal) evs := by
  by_cases hsending : ∃ job pool, stage = .sending job pool
  · obtain ⟨job, pool, rfl⟩ := hsending
    obtain ⟨d, o, located, work, hlocated, hjob, hwork, rfl⟩ := h
    obtain ⟨pool', hstage, hnext⟩ := s.working_worker hwork hoff hcancelled signal (i := i)
    have hturn : (s.turn w cancelled (some i) (.sending job pool)
        (Engine.effective cancelled (.sending job pool) signal)).stage = .sending job pool' :=
      hstage
    rw [Keeps, hturn, List.append_assoc]
    exact ⟨d, o, located, _, hlocated, hjob, hnext, rfl⟩
  · have hidle : ∀ sig, s.worker w cancelled i stage sig = ⟨w, stage, []⟩ ∧
        s.answers (some i) stage sig = [] ∧ upsets i stage stage = [] := by
      intro sig
      cases stage with
      | sending job pool => exact absurd ⟨job, pool, rfl⟩ hsending
      | _ => exact ⟨rfl, rfl, rfl⟩
    obtain ⟨hturn, hans, hups⟩ := hidle (Engine.effective cancelled stage signal)
    have hevents : s.events w cancelled (some i) stage (Engine.effective cancelled stage signal)
        = [] := by
      rw [events, hans, changes, turn]
      simp only [hturn, hups]
      rfl
    have hturn' : (s.turn w cancelled (some i) stage
        (Engine.effective cancelled stage signal)).stage = stage := congrArg Turn.stage hturn
    rw [Keeps, hturn', hevents, List.append_nil]
    exact h.later fun ho => hcancelled (hoff ho)

/-! ## The end -/

theorem marked_eq_markAll (plan : Plan) (report : PoolReport) :
    marked plan report = plan.markAll (report.completed.map Prod.fst) :=
  List.foldl_map.symm

theorem count_marked (plan : Plan) (report : PoolReport) :
    (marked plan report).count = plan.count := by
  rw [marked_eq_markAll, Plan.count_markAll]

/-- What is pending once the workers are done: the parts that the server has not answered. -/
theorem Worked.pending_marked (h : Worked off job report work) (hn : job.plan.Numbered)
    {c : Chunk} :
    c ∈ (marked job.plan report).pending
      ↔ c ∈ job.plan.pending ∧ ¬ Acknowledged job work c.index := by
  obtain ⟨pool, hwork, -, -, rfl⟩ := h
  have hcompleted : c.index ∈ pool.result.completed.map Prod.fst ↔ Acknowledged job work c.index :=
    hwork.completed c.index
  rw [marked_eq_markAll, hn.pending_markAll, List.mem_filter, decide_eq_true_eq, hcompleted]

/-- When nothing is left to send and nothing went wrong, all parts are on the server. -/
theorem Worked.complete (h : Worked off job report work) (hn : job.plan.Numbered)
    (hfailures : report.failures = []) (hinter : report.interrupted = [])
    (herrors : report.workerErrors = [])
    (hcomplete : (marked job.plan report).isComplete = true) : Complete job work := by
  have hpending := Plan.isComplete_iff.mp hcomplete
  have hmem := fun c => h.pending_marked (c := c) hn
  obtain ⟨pool, hwork, hdone, hfallen, rfl⟩ := h
  refine ⟨hwork.works, fun x hx => ?_, fun c hc => ?_⟩
  · cases htrouble : x.isTrouble with
    | false => rfl
    | true =>
      rcases (hwork.troubled ⟨x, hx, htrouble⟩).report hdone hfallen with hne | hne | hne
      · exact absurd hfailures hne
      · exact absurd hinter hne
      · exact absurd herrors hne
  · by_cases hack : Acknowledged job work c.index
    · exact hack
    · have hin := (hmem c).mpr ⟨hc, hack⟩
      rw [hpending] at hin
      cases hin

/-- A run whose session was not cancelled decides by the report of its workers. -/
theorem course_decided {o : Origin} {located : List Event} (w : World)
    (hlocated : s.Located d o located) (hwork : Worked false (o.job s d) report work)
    (hc : w.isCancelled s.handle = false) (hinter : report.interrupted = []) :
    s.Course false (s.close w (o.job s d) report).stage (located ++ work ++ [.closed false]) ∧
      Note.calls (s.close w (o.job s d) report).notes = [] := by
  have hcond : ¬ (w.isCancelled s.handle || !report.interrupted.isEmpty) = true := by
    rw [hc, hinter]
    exact Bool.noConfusion
  have hfaults : ∀ x ∈ report.failures, x.2 ≠ .cancelled := by
    obtain ⟨pool, hworking, -, -, rfl⟩ := hwork
    exact hworking.failures
  simp only [close, if_neg hcond]
  split
  · next index f rest hfailures =>
    have hf : f ≠ .cancelled := hfaults (index, f) (by rw [hfailures]; exact List.mem_cons_self)
    exact ⟨.failed hlocated hwork hf, rfl⟩
  · exact ⟨.failed hlocated hwork (by simp), rfl⟩
  · next hfailures herrors =>
    split
    · next hcomplete =>
      have hn : (o.job s d).plan.Numbered := o.numbered_plan s.numbered_plan
      have hall := hwork.complete hn hfailures hinter herrors hcomplete
      refine ⟨⟨d, o, .intro hlocated hall, _, rfl, ?_⟩, rfl⟩
      rw [count_marked]
      exact o.count_plan s.plan
    · exact ⟨.failed hlocated hwork (by simp), rfl⟩

theorem keeps_closing (h : s.Course off (.closing job report) evs)
    (hoff : off = true → w.isCancelled s.handle = true) :
    s.Keeps w cancelled none (.closing job report) sig evs := by
  obtain ⟨d, o, located, work, hlocated, rfl, hwork, rfl⟩ := h
  have hlater := hwork.later hoff
  cases sig with
  | go =>
    by_cases hcond : (w.isCancelled s.handle || !report.interrupted.isEmpty) = true
    · have hc : w.isCancelled s.handle = true := by
        rcases Bool.or_eq_true_iff.mp hcond with hc | hinter
        · exact hc
        · obtain ⟨pool, hworking, -, -, rfl⟩ := hlater
          have hne : pool.result.interrupted ≠ [] := by simpa using hinter
          exact hworking.interrupted hne
      refine keeps_quiet (.settling (.error .cancelled)) ?_ ?_ rfl ?_
      · simp only [main, close, hcond, if_true]
        rfl
      · simp only [main, close, hcond, if_true]
        exact Note.calls_lines _
      · simp only [deeds, hcond, if_true]
        rw [hc]
        exact .kept w hlocated (hc ▸ hlater)
    · have hc : w.isCancelled s.handle = false := by
        cases hc : w.isCancelled s.handle with
        | false => rfl
        | true => exact absurd (by rw [hc]; rfl) hcond
      have hinter : report.interrupted = [] := by simpa [hc] using hcond
      rw [hc] at hlater
      obtain ⟨hcourse, hcalls⟩ := course_decided w hlocated hlater hc hinter
      refine keeps_quiet _ rfl hcalls rfl ?_
      simp only [deeds, if_neg hcond]
      rw [hc]
      exact hcourse
  | _ => exact keeps_idle rfl rfl rfl ⟨d, o, located, work, hlocated, rfl, hlater, rfl⟩

theorem createRequest_plan (job : Job) {plan : Plan} (hcount : plan.count = job.plan.count) :
    s.createRequest { job with plan := plan } = s.createRequest job := by
  simp only [createRequest, hcount]

theorem keeps_checking (h : s.Course off (.checking job) evs) :
    s.Keeps w cancelled none (.checking job) sig evs := by
  cases sig with
  | go =>
    obtain ⟨d, o, hfinished, plan, rfl, hcount⟩ := h
    have hrequest : s.createRequest { o.job s d with plan := plan } = s.createRequest (o.job s d) :=
      createRequest_plan _ (hcount.trans (o.count_plan s.plan).symm)
    by_cases hc : w.isCancelled s.handle = true
    · refine keeps_quiet (.settling (.error .cancelled)) ?_ ?_ rfl ?_
      · simp only [main, finalize, hc, if_true]
        rfl
      · simp only [main, finalize, hc, if_true]
        rfl
      · simp only [deeds, hc]
        exact .withdrawn hfinished
    · have hc' : w.isCancelled s.handle = false := by simpa using hc
      have hcalls : Note.calls (s.main w cancelled (.checking { o.job s d with plan := plan })
          .go).notes = [s.create d o] := by
        simp only [main, finalize, if_neg hc]
        rw [Note.calls_append, Note.calls_lines, hrequest]
        rfl
      refine keeps_main (.finalizing { o.job s d with plan := plan }) ?_ hcalls ?_
      · simp only [main, finalize, if_neg hc]
      · simp only [deeds, hc']
        exact ⟨d, o, .intro hfinished, plan, rfl, hcount⟩
  | _ => exact keeps_idle rfl rfl rfl h

theorem keeps_finalizing (h : s.Course off (.finalizing job) evs) :
    s.Keeps w cancelled none (.finalizing job) sig evs := by
  obtain ⟨d, o, hjoining, plan, rfl, hcount⟩ := h
  have hrequest : s.createRequest { o.job s d with plan := plan } = s.createRequest (o.job s d) :=
    createRequest_plan _ (hcount.trans (o.count_plan s.plan).symm)
  have hans : ∀ r cancels, s.answers none (.finalizing { o.job s d with plan := plan })
      (.reply r cancels)
        = if (s.create d o).admits r then [.answered none (s.create d o) r] else [] := by
    intro r cancels
    simp only [answers, underWay, hrequest]
    rfl
  cases sig with
  | reply r cancels =>
    cases r with
    | create r =>
      refine keeps_main (.settling _) rfl rfl ?_
      rw [hans]
      exact .joined hjoining rfl
    | fault f =>
      refine keeps_main (.settling _) rfl rfl ?_
      rw [hans]
      exact .unjoined _ hjoining (.inr ⟨f, rfl⟩)
    | crash text =>
      refine keeps_main (.crashed _) rfl rfl ?_
      rw [hans]
      exact .joining text hjoining
    | precreate r => exact keeps_idle rfl (hans _ _) rfl ⟨d, o, hjoining, plan, rfl, hcount⟩
    | slice r => exact keeps_idle rfl (hans _ _) rfl ⟨d, o, hjoining, plan, rfl, hcount⟩
  | limit =>
    refine keeps_quiet (.settling (.error (.finalizeFailed s.lateFault))) rfl rfl rfl ?_
    exact .unjoined _ hjoining (.inl rfl)
  | _ => exact keeps_idle rfl rfl rfl ⟨d, o, hjoining, plan, rfl, hcount⟩

theorem keeps_settling {result : Except UploadFault Commit}
    (h : s.Course off (.settling result) evs) :
    s.Keeps w cancelled none (.settling result) sig evs := by
  cases sig with
  | go =>
    have hstage : (s.conclude w result).stage = .ended result := by
      unfold conclude
      split <;> rfl
    have hcalls : Note.calls (s.conclude w result).notes = [] := by
      unfold conclude
      split
      · exact Note.calls_lines _
      · exact Note.calls_lines _
      · exact Note.calls_lines _
    refine keeps_quiet (.ended result) hstage hcalls rfl ?_
    rw [show s.deeds w (.settling result) .go _ = [] from rfl, List.append_nil]
    exact .inl h
  | _ => exact keeps_idle rfl rfl rfl h

/-! ## All steps -/

theorem keeps_turn {stage : Stage} {worker : Option Nat} {signal : Signal}
    (h : s.Course off stage evs) (hoff : off = true → cancelled = true)
    (hcancelled : cancelled = true → w.isCancelled s.handle = true) :
    s.Keeps w cancelled worker stage (Engine.effective cancelled stage signal) evs := by
  cases worker with
  | some i => exact keeps_worker h hoff hcancelled
  | none =>
    have hlater := fun ho => hcancelled (hoff ho)
    cases stage with
    | entering => exact keeps_entering h
    | starting => exact keeps_starting h
    | hashing plan => exact keeps_hashing h
    | claiming plan d => exact keeps_claiming h
    | announcing plan d stage =>
      apply keeps_announcing h
      intro hc
      rw [hc]
      rfl
    | opening job => exact keeps_opening h
    | locating job caller => exact keeps_locating h
    | sending job pool => exact keeps_sending h hlater
    | closing job report => exact keeps_closing h hlater
    | checking job => exact keeps_checking h
    | finalizing job => exact keeps_finalizing h
    | settling result => exact keeps_settling h
    | ended result =>
      generalize Engine.effective cancelled (.ended result) signal = sig
      cases sig <;> exact keeps_idle rfl rfl rfl h
    | crashed report =>
      generalize Engine.effective cancelled (.crashed report) signal = sig
      cases sig <;> exact keeps_idle rfl rfl rfl h

end Run.Setup

/-- What has happened in a run at a stage is what the course of a run says. -/
theorem Trace.course {s : Run.Setup} {off : Bool} {stage : Stage} {evs : List Event}
    (h : Trace s off stage evs) : s.Course off stage evs := by
  induction h with
  | start => exact rfl
  | turn w cancelled worker signal _ hoff hcancelled ih =>
    exact Run.Setup.keeps_turn ih hoff hcancelled

end ResumableUpload.Session
