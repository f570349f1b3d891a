import ResumableUpload.Proofs.Session.Handover

/-!
# Runs that take a record

A run that goes on with a record uploads the same file to the same place and in the same parts as
the run that saved it, and a run that the record does not fit announces its upload as if there were
none: it names no identifier but those that its own announcement was answered with
(`History.handed_over`).
-/

namespace ResumableUpload.Session

/-- What is uploaded, to which place, and in what parts. -/
structure Upload where
  remotePath : String
  contentMd5 : String
  totalSize : Nat
  partSize : Nat
  blockList : List String
  deriving DecidableEq

/-- A call that sends or joins parts is for the upload with this identifier. -/
def Names (evs : List Event) (id : String) : Prop :=
  ∃ who c, .called who c ∈ evs ∧ c.uploadId? = some id

namespace Run.Setup

variable {s t : Setup} {d e : Digest.FileDigests} {o : Origin} {evs : List Event} {off : Bool}
  {stage : Stage} {w : World} {cancelled : Bool} {worker : Option Nat} {sig : Signal}
  {key id : String} {r : Resume.Record} {taken : Option Resume.Record} {files : Files}

/-- What a run uploads, given the digests of its file. -/
def upload (s : Setup) (d : Digest.FileDigests) : Upload where
  remotePath := s.target.remotePath
  contentMd5 := d.contentMd5
  totalSize := s.target.totalSize
  partSize := s.plan.partSize
  blockList := d.blockList

/-! ## What a record says of an upload -/

theorem fits_iff : s.fits s.plan d r = true ↔
    r.partSize = s.plan.partSize ∧ r.totalSize = s.target.totalSize ∧
      r.blockList = d.blockList := by
  simp only [fits, Bool.and_eq_true, beq_iff_eq, and_assoc]

theorem Tells.fits (h : s.Tells d o evs r) : s.fits s.plan d r = true :=
  fits_iff.mpr ⟨h.partSize, h.totalSize, h.blockList⟩

/-- Runs that use one key and that the same record fits upload the same. -/
theorem upload_eq (hd : d.contentMd5.length = 32) (he : e.contentMd5.length = 32)
    (hkey : s.key d = t.key e) (hs : s.fits s.plan d r = true) (ht : t.fits t.plan e r = true) :
    t.upload e = s.upload d := by
  obtain ⟨hpath, hmd5⟩ := Resume.key_inj (hd.trans he.symm) hkey
  obtain ⟨hspart, hstotal, hsblocks⟩ := fits_iff.mp hs
  obtain ⟨htpart, httotal, htblocks⟩ := fits_iff.mp ht
  simp only [upload, hpath, hmd5, ← hspart, ← hstotal, ← hsblocks, ← htpart, ← httotal, ← htblocks]

/-! ## What is known of a run that saves or takes -/

/-- A run takes the record out that its own file and place have in the store. -/
theorem Course.claimed (h : s.Course off stage evs) (hclaimed : .claimed key taken ∈ evs) :
    ∃ files d, .digested files d ∈ evs ∧ s.Digests files d ∧ key = s.key d := by
  rcases h.proper with hnone | ⟨d, o, hproper⟩
  · rcases hnone with rfl | ⟨found, rfl⟩
    · cases hclaimed
    · cases List.mem_singleton.mp hclaimed
  · obtain ⟨files, hd, hmem⟩ := hproper.digests
    refine ⟨files, d, hmem, hd, ?_⟩
    cases hproper.happens _ hclaimed with
    | taken _ => rfl
    | unfit _ => rfl
    | works hworks => cases hworks
    | weighs hweighs => cases hweighs
    | settles hsettles => cases hsettles

/-- A call names the identifier that the run goes by. -/
theorem Proper.names (h : s.Proper d o evs) (hnames : Names evs id) : id = o.uploadId := by
  obtain ⟨who, c, hcall, hid⟩ := hnames
  cases c with
  | slice url token q =>
    obtain ⟨c, payload, -, rfl⟩ := h.sends hcall
    exact (Option.some.inj hid).symm
  | create token q => exact (Option.some.inj hid).symm.trans (h.joins hcall).1
  | locate token => cases hid
  | precreate token q => cases hid

theorem Early.not_names (h : ∀ x ∈ evs, s.Early d x) : ¬ Names evs id := by
  rintro ⟨who, c, hcall, hid⟩
  cases h _ hcall <;> cases hid

theorem Finished.comesFrom (h : s.Finished d o evs) : o.ComesFrom s d evs := by
  obtain ⟨hlocated, -⟩ := h
  exact (hlocated.comesFrom.append _).append _

theorem Joining.comesFrom (h : s.Joining d o evs) : o.ComesFrom s d evs := by
  obtain ⟨hfinished⟩ := h
  exact hfinished.comesFrom.append _

/-- A run that makes calls for an upload shows how it came by the identifier. -/
theorem Reached.comesFrom (h : s.Reached evs) (hnames : Names evs id) :
    ∃ d o, s.Proper d o evs ∧ o.ComesFrom s d evs ∧ id = o.uploadId := by
  cases h with
  | unopened hunopened =>
    obtain ⟨who, c, hcall, hid⟩ := hnames
    cases hunopened with
    | begun => simp at hcall
    | digested _ => simp at hcall
    | sought hsought => exact absurd ⟨who, c, hcall, hid⟩ (Early.not_names hsought.early)
  | rapid hsought =>
    obtain ⟨who, c, hcall, hid⟩ := hnames
    rcases List.mem_append.mp hcall with hcall | hcall
    · exact absurd ⟨who, c, hcall, hid⟩ (Early.not_names hsought.early)
    · cases List.mem_singleton.mp hcall
  | @located d o located work weighing hlocated hworks hweighs =>
    have hproper : s.Proper d o (located ++ work ++ weighing) :=
      (hlocated.proper_work hworks).append fun x hx => .weighs (hweighs x hx)
    exact ⟨d, o, hproper, (hlocated.comesFrom.append _).append _, hproper.names hnames⟩
  | @joining d o joining settling hjoining hsettles =>
    have hproper : s.Proper d o (joining ++ settling) :=
      hjoining.proper.append fun x hx => .settles (hsettles x hx)
    exact ⟨d, o, hproper, hjoining.comesFrom.append _, hproper.names hnames⟩

/-- A run that took no record that fits names no identifier but those that its announcement was
answered with. -/
theorem Course.issued (h : s.Course off stage evs) (hdigested : .digested files d ∈ evs)
    (hclaimed : .claimed (s.key d) taken ∈ evs) (hunfit : taken.filter (s.fits s.plan d) = none)
    (hnames : Names evs id) :
    ∃ reply, .answered none (s.precreate d) (.precreate reply) ∈ evs ∧ reply.isRapid = false ∧
      reply.uploadId = id := by
  rcases h.reached with (⟨-, rfl⟩ | ⟨found, _, -, rfl, -⟩) | hreached
  · cases hdigested
  · cases List.mem_singleton.mp hdigested
  · obtain ⟨d', o, hproper, horigin, rfl⟩ := hreached.comesFrom hnames
    obtain rfl : d = d' := by
      cases hproper.happens _ hdigested with
      | digested _ => rfl
      | works hworks => cases hworks
      | weighs hweighs => cases hweighs
      | settles hsettles => cases hsettles
    cases o with
    | taken r =>
      cases hproper.happens _ hclaimed with
      | taken hfits =>
        rw [Option.filter_some_pos hfits] at hunfit
        cases hunfit
      | works hworks => cases hworks
      | weighs hweighs => cases hweighs
      | settles hsettles => cases hsettles
    | issued reply => exact ⟨reply, horigin.2.1, horigin.2.2, rfl⟩

/-! ## Announcing the upload instead -/

/-- The run has announced the upload, is about to, or was cancelled before it came to that. -/
def Announces (s : Setup) (d : Digest.FileDigests) (stage : Stage) (evs : List Event) : Prop :=
  .called none (s.precreate d) ∈ evs ∨ (∃ plan, stage = .announcing plan d (.ready 0)) ∨
    stage = .settling (.error .cancelled) ∨ stage = .ended (.error .cancelled)

/-- A run that is about to announce the upload does so next, unless it is cancelled. -/
theorem announces_ready (s : Setup) (w : World) (cancelled : Bool) (plan : Plan)
    (d : Digest.FileDigests) (sig : Signal) (evs : List Event) :
    s.Announces d (s.main w cancelled (.announcing plan d (.ready 0)) sig).stage
      (evs ++ s.events w cancelled none (.announcing plan d (.ready 0)) sig) := by
  cases cancelled with
  | true =>
    cases sig with
    | lookup r cancels => exact .inr (.inl ⟨plan, rfl⟩)
    | reply r cancels =>
      cases r with
      | precreate r => exact .inr (.inr (.inl rfl))
      | fault f => exact .inr (.inr (.inl rfl))
      | _ => exact .inr (.inl ⟨plan, rfl⟩)
    | _ => exact .inr (.inr (.inl rfl))
  | false =>
    cases sig with
    | go => exact .inl (List.mem_append_right _ List.mem_cons_self)
    | reply r cancels => cases r <;> exact .inr (.inl ⟨plan, rfl⟩)
    | _ => exact .inr (.inl ⟨plan, rfl⟩)

theorem Announces.turn (h : s.Announces d stage evs) (w : World) (cancelled : Bool)
    (worker : Option Nat) (sig : Signal) :
    s.Announces d (s.turn w cancelled worker stage sig).stage
      (evs ++ s.events w cancelled worker stage sig) := by
  rcases h with hcalled | ⟨plan, rfl⟩ | rfl | rfl
  · exact .inl (List.mem_append_left _ hcalled)
  · cases worker with
    | none => exact announces_ready s w cancelled plan d sig evs
    | some i => exact .inr (.inl ⟨plan, rfl⟩)
  · cases worker with
    | none =>
      cases sig with
      | go => exact .inr (.inr (.inr rfl))
      | _ => exact .inr (.inr (.inl rfl))
    | some i => exact .inr (.inr (.inl rfl))
  · cases worker with
    | none => cases sig <;> exact .inr (.inr (.inr rfl))
    | some i => exact .inr (.inr (.inr rfl))

end Run.Setup

namespace Trace

variable {s : Run.Setup} {d : Digest.FileDigests} {evs : List Event} {off : Bool} {stage : Stage}
  {key : String} {r : Resume.Record} {taken : Option Resume.Record} {files : Files}

/-- A run saves a record that fits its own upload. -/
theorem saved (h : Trace s off stage evs) (hsaved : .saved key r ∈ evs) :
    ∃ files d, .digested files d ∈ evs ∧ s.Digests files d ∧ key = s.key d ∧
      s.fits s.plan d r = true := by
  induction h with
  | start => cases hsaved
  | turn w cancelled worker signal htrace _ _ ih =>
    rcases List.mem_append.mp hsaved with hold | hnew
    · obtain ⟨files, d, hmem, hrest⟩ := ih hold
      exact ⟨files, d, List.mem_append_left _ hmem, hrest⟩
    · obtain ⟨job, report, hstage, rfl, rfl⟩ := Run.Setup.saved_of_events hnew
      have hcourse := htrace.course
      rw [hstage] at hcourse
      obtain ⟨d, o, located, work, hlocated, rfl, hworked, hevs⟩ := hcourse
      obtain ⟨files, hd, hmem⟩ := hlocated.digested
      have htells := hworked.tells w hlocated (fun _ _ _ => List.not_mem_nil)
      refine ⟨files, d, ?_, hd, rfl, htells.fits⟩
      rw [hevs]
      exact List.mem_append_left _ (List.mem_append_left _ hmem)

/-- A run that took no record that fits announces the upload. -/
theorem announces (h : Trace s off stage evs) (hdigested : .digested files d ∈ evs)
    (hclaimed : .claimed (s.key d) taken ∈ evs)
    (hunfit : taken.filter (s.fits s.plan d) = none) : s.Announces d stage evs := by
  induction h with
  | start => cases hclaimed
  | @turn off stage evs w cancelled worker signal htrace _ _ ih =>
    have hcourse := htrace.course
    generalize Engine.effective cancelled stage signal = sig at *
    rcases List.mem_append.mp hclaimed with hold | hnew
    · rcases List.mem_append.mp hdigested with hdold | hdnew
      · exact (ih hdold hold).turn w cancelled worker sig
      · -- a run that digests its file has taken nothing yet
        obtain ⟨plan, rfl⟩ : ∃ plan, stage = .hashing plan := by
          cases Run.Setup.arises_of_events hdnew with
          | digested plan _ => exact ⟨plan, rfl⟩
        rw [hcourse.2] at hold
        cases List.mem_singleton.mp hold
    · obtain ⟨rfl, rfl, ⟨plan, d', rfl, -⟩, hfind, hevs⟩ := Run.Setup.events_of_claimed hnew
      obtain ⟨rfl, files', -, rfl⟩ := hcourse
      obtain rfl : d = d' := by
        rw [hevs] at hdigested
        simp only [List.cons_append, List.nil_append, List.mem_cons, reduceCtorEq, false_or,
          List.not_mem_nil, or_false, Event.digested.injEq] at hdigested
        exact hdigested.2
      refine .inr (.inl ⟨s.plan, ?_⟩)
      rw [hfind] at hunfit
      simp only [Run.Setup.turn, Run.Setup.main, Run.Setup.claim, hunfit]

end Trace

namespace Sample

/-- The run is cancelled while the part is on its way, and that of another session begins. -/
def takenUp : List Action :=
  sending ++ [.cancel 0, work, work, work, go, go, go, .start "t" 0 target, .run 1,
    .signal ⟨1, none⟩ .go, .signal ⟨1, none⟩ .go, .signal ⟨1, none⟩ .go, .signal ⟨1, none⟩ .go]

end Sample

namespace History

variable {h : History} {k : Nat}

/-- A run in which something has happened is a trace. -/
theorem InStep.trace_of_mem (hin : h.InStep) {x : Event} (hx : x ∈ h.of k) :
    ∃ run s off, h.engine.runs[k]? = some run ∧ h.setup? k = some s ∧
      Trace s off run.stage (h.of k) := by
  cases hr : h.engine.runs[k]? with
  | none =>
    rw [hin.absent k hr] at hx
    cases hx
  | some run =>
    rcases hin.follows k run hr with ⟨-, hnil⟩ | ⟨s, off, hs, htrace, -⟩
    · rw [hnil] at hx
      cases hx
    · exact ⟨run, s, off, rfl, by rw [setup?, hr]; exact hs, htrace⟩

/-- What a run that has taken a record does with it, given what the record was saved for. -/
structure Uses (h : History) (k : Nat) (t : Run.Setup) (e : Digest.FileDigests)
    (r : Resume.Record) (saved : Upload) : Prop where
  -- it goes on with the upload that the record was saved for, and with no other
  resumes : r.partSize = t.plan.partSize ∧ r.totalSize = t.target.totalSize ∧
      r.blockList = e.blockList →
    t.upload e = saved ∧ ∀ id, Names (h.of k) id → id = r.uploadId
  -- or it announces its upload, and names no identifier that was not the answer
  restarts : r.partSize ≠ t.plan.partSize ∨ r.totalSize ≠ t.target.totalSize ∨
      r.blockList ≠ e.blockList →
    (∃ run, h.engine.runs[k]? = some run ∧ t.Announces e run.stage (h.of k)) ∧
      ∀ id, Names (h.of k) id → ∃ reply,
        .answered none (t.precreate e) (.precreate reply) ∈ h.of k ∧ reply.isRapid = false ∧
          reply.uploadId = id

theorem uses_of_taken {run : Run} {t : Run.Setup} {e : Digest.FileDigests} {off : Bool}
    {files : Files} {r : Resume.Record} {saved : Upload} (hr : h.engine.runs[k]? = some run)
    (htrace : Trace t off run.stage (h.of k)) (hdigested : .digested files e ∈ h.of k)
    (hclaimed : .claimed (t.key e) (some r) ∈ h.of k)
    (hsaved : t.fits t.plan e r = true → t.upload e = saved) : h.Uses k t e r saved where
  resumes hsame := by
    have hfits := Run.Setup.fits_iff.mpr hsame
    have hproper := htrace.course.resumed ⟨files, hdigested⟩ hclaimed hfits
    exact ⟨hsaved hfits, fun id hnames => hproper.names hnames⟩
  restarts hother := by
    have hunfit : (some r).filter (t.fits t.plan e) = none := by
      refine Option.filter_some_neg (Bool.eq_false_iff.mpr fun hfits => ?_)
      obtain ⟨hpart, htotal, hblocks⟩ := Run.Setup.fits_iff.mp hfits
      rcases hother with hne | hne | hne
      · exact hne hpart
      · exact hne htotal
      · exact hne hblocks
    exact ⟨⟨run, hr, htrace.announces hdigested hclaimed hunfit⟩,
      fun id hnames => htrace.course.issued hdigested hclaimed hunfit hnames⟩

/-- However many runs share the store, and whether or not it goes through a file between their
steps: each record that is taken out was put in by one run and left alone since, and no other run
takes it out. The key is that of the file and the place of either run. A run that the record fits
uploads the same as the run that saved it, and names no identifier but that of the record; a run
that the record does not fit announces its upload, and names no identifier but those that were the
answer. -/
theorem handed_over (w : World) (as : List Action) :
    let h := (start { w with store := {} }).after as
    (∀ j taker key r, h.journal[j]? = some ⟨taker, .claimed key (some r)⟩ →
      ∃ i saver, Handover h.journal i j saver taker key r) ∧
    (∀ i j j' saver taker taker' key r, Handover h.journal i j saver taker key r →
      Handover h.journal i j' saver taker' key r → j = j' ∧ taker = taker') ∧
    ∀ i j saver taker key r, Handover h.journal i j saver taker key r →
      ∃ s t d e, h.setup? saver = some s ∧ h.setup? taker = some t ∧
        (∃ files, .digested files d ∈ h.of saver) ∧ (∃ files, .digested files e ∈ h.of taker) ∧
        key = s.key d ∧ key = t.key e ∧ h.Uses taker t e r (s.upload d) := by
  intro h
  have hin : h.InStep := inStep _ as
  have hhanded : h.Handed := handed w as
  refine ⟨hhanded.taken, fun i j j' saver taker taker' key r => Handover.taken_once, ?_⟩
  intro i j saver taker key r hhandover
  have hsaved : .saved key r ∈ h.of saver := mem_of.mpr (List.mem_of_getElem? hhandover.saved)
  have hclaimed : .claimed key (some r) ∈ h.of taker :=
    mem_of.mpr (List.mem_of_getElem? hhandover.taken)
  obtain ⟨_, s, _, -, hs, hstrace⟩ := hin.trace_of_mem hsaved
  obtain ⟨run, t, off, hr, ht, httrace⟩ := hin.trace_of_mem hclaimed
  obtain ⟨files, d, hdmem, hd, rfl, hsfits⟩ := hstrace.saved hsaved
  obtain ⟨files', e, hemem, he, hkey⟩ := httrace.course.claimed hclaimed
  refine ⟨s, t, d, e, hs, ht, ⟨files, hdmem⟩, ⟨files', hemem⟩, rfl, hkey, ?_⟩
  rw [hkey] at hclaimed
  exact uses_of_taken hr httrace hemem hclaimed fun htfits =>
    Run.Setup.upload_eq (Digest.length_contentMd5 hd) (Digest.length_contentMd5 he) hkey hsfits
      htfits

/-- The second of two sessions for one file takes what the run of the first has saved. -/
example : ((start Sample.world).after Sample.takenUp).of 1
    = [.entered .created, .digested Sample.world.files Sample.digests,
      .claimed (Sample.setup.key Sample.digests)
        (some ⟨"U", 4194304, 1, [0], Sample.digests.blockList, 0⟩)] := by decide +kernel

end History

end ResumableUpload.Session
