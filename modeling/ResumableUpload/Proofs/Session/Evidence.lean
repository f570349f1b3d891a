import ResumableUpload.Proofs.Digest.Stream
import ResumableUpload.Proofs.Session.Answers
import ResumableUpload.Proofs.Session.Progress

/-!
# What the events of a run show

Before the workers start a run digests its file, takes the resume record, announces the upload and
asks for a host, and does nothing else (`Run.Setup.Early`). While they are at work parts are sent
(`Works`). So the events show where the identifier of an upload comes from (`Origin.ComesFrom`), and
in which of the two stretches an event can stand.
-/

namespace ResumableUpload.Session

namespace Run.Setup

variable (s : Setup) {d : Digest.FileDigests} {o : Origin} {evs : List Event}

/-- What may happen in a run before its workers start. -/
inductive Early (d : Digest.FileDigests) : Event → Prop
  | entered : Early d (.entered .created)
  | digested {files : Files} : s.Digests files d → Early d (.digested files d)
  | claimed (taken : Option Resume.Record) : Early d (.claimed (s.key d) taken)
  | announced : Early d (.called none (s.precreate d))
  | answered {r : Reply} : (∀ reply, r = .precreate reply → reply.isRapid = false) →
      Early d (.answered none (s.precreate d) r)
  | asked (token : String) : Early d (.called none (.locate token))

variable {s}

theorem early_prologue {files : Files} {taken : Option Resume.Record} (hd : s.Digests files d) :
    ∀ x ∈ s.prologue files d taken, s.Early d x := by
  intro x hx
  rw [prologue, List.mem_cons, List.mem_cons, List.mem_singleton] at hx
  rcases hx with rfl | rfl | rfl
  · exact .entered
  · exact .digested hd
  · exact .claimed taken

theorem Vain.early {tries : List Event} (h : s.Vain d tries) : ∀ x ∈ tries, s.Early d x := by
  intro x hx
  rcases h x hx with rfl | ⟨r, hr, rfl⟩
  · exact .announced
  · exact .answered fun reply heq => absurd heq (hr reply)

theorem Sought.early {files : Files} {taken : Option Resume.Record} {tries : List Event}
    (h : s.Sought d files taken tries) : ∀ x ∈ s.prologue files d taken ++ tries, s.Early d x :=
  fun x hx => (List.mem_append.mp hx).elim (early_prologue h.digests x) (h.vain.early x)

theorem Opened.early (h : s.Opened d o evs) : ∀ x ∈ evs, s.Early d x := by
  cases h with
  | taken hd _ => exact early_prologue hd
  | issued hsought hrapid =>
    intro x hx
    rcases List.mem_append.mp hx with hx | hx
    · exact hsought.early x hx
    · rw [List.mem_singleton.mp hx]
      apply Early.answered
      intro reply heq
      injection heq with heq
      rwa [← heq]

theorem Located.early (h : s.Located d o evs) : ∀ x ∈ evs, s.Early d x := by
  obtain ⟨hopened, hquest⟩ := h
  intro x hx
  rcases List.mem_append.mp hx with hx | hx
  · exact hopened.early x hx
  · obtain ⟨token, rfl⟩ := hquest x hx
    exact .asked token

/-- The digests are those of the file at the moment that the events show. -/
theorem Opened.digested (h : s.Opened d o evs) :
    ∃ files, s.Digests files d ∧ .digested files d ∈ evs := by
  cases h with
  | @taken files r hd _ => exact ⟨files, hd, by simp [prologue]⟩
  | @issued files taken tries r hsought _ => exact ⟨files, hsought.digests, by simp [prologue]⟩

end Run.Setup

/-- The events show where the identifier comes from: the run took a resume record that fits, or it
took none that fits and its announcement was answered. -/
def Origin.ComesFrom (o : Origin) (s : Run.Setup) (d : Digest.FileDigests) (evs : List Event) :
    Prop :=
  match o with
  | .taken r => .claimed (s.key d) (some r) ∈ evs ∧ s.fits s.plan d r = true
  | .issued r => (∃ taken, .claimed (s.key d) taken ∈ evs ∧ taken.filter (s.fits s.plan d) = none) ∧
      .answered none (s.precreate d) (.precreate r) ∈ evs ∧ r.isRapid = false

namespace Origin

variable {o : Origin} {s : Run.Setup} {d : Digest.FileDigests} {evs : List Event}

theorem comesFrom_of_opened (h : s.Opened d o evs) : o.ComesFrom s d evs := by
  cases h with
  | @taken files r _ hfits => exact ⟨by simp [Run.Setup.prologue], hfits⟩
  | @issued files taken tries r hsought hrapid =>
    refine ⟨⟨taken, by simp [Run.Setup.prologue], hsought.unfit⟩, ?_, hrapid⟩
    exact List.mem_append_right _ List.mem_cons_self

theorem ComesFrom.append (h : o.ComesFrom s d evs) (more : List Event) :
    o.ComesFrom s d (evs ++ more) := by
  cases o with
  | taken r => exact ⟨List.mem_append_left _ h.1, h.2⟩
  | issued r =>
    obtain ⟨⟨taken, htaken, hunfit⟩, hans, hrapid⟩ := h
    exact ⟨⟨taken, List.mem_append_left _ htaken, hunfit⟩, List.mem_append_left _ hans, hrapid⟩

end Origin

namespace Run.Setup

variable {s : Setup} {d : Digest.FileDigests} {o : Origin} {evs : List Event}

theorem Located.comesFrom (h : s.Located d o evs) : o.ComesFrom s d evs := by
  obtain ⟨hopened, -⟩ := h
  exact (Origin.comesFrom_of_opened hopened).append _

theorem Located.digested (h : s.Located d o evs) :
    ∃ files, s.Digests files d ∧ .digested files d ∈ evs := by
  obtain ⟨hopened, -⟩ := h
  obtain ⟨files, hd, hmem⟩ := hopened.digested
  exact ⟨files, hd, List.mem_append_left _ hmem⟩

/-! ## Calls -/

theorem Early.not_create {x : Event} (h : s.Early d x) : x.isCreate = false := by
  cases h <;> rfl

theorem not_create_of_works {job : Job} {x : Event} (h : Works job x) : x.isCreate = false := by
  cases h with
  | called i _ hsends => cases hsends <;> rfl
  | _ => rfl

/-- The request that joins the parts names what the run has sent. -/
theorem create_eq (s : Setup) (d : Digest.FileDigests) (o : Origin) :
    s.create d o = .create s.target.accessToken {
      path := s.target.remotePath
      size := s.target.totalSize
      uploadId := o.uploadId
      chunkCount := s.plan.count
      blockList := d.blockList } := by
  have hcount : (o.job s d).plan.count = s.plan.count := o.count_plan s.plan
  rw [create, createRequest, hcount]
  rfl

/-- The part is one of the plan, and it is wanted. -/
def Wants (s : Setup) (o : Origin) (c : Chunk) : Prop :=
  c ∈ s.plan.chunks ∧ c.index ∈ o.wanted s.plan.count

theorem mem_pending_job {c : Chunk} : c ∈ (o.job s d).plan.pending ↔ s.Wants o c :=
  o.mem_pending_plan s.numbered_plan s.fresh_plan

/-- The request that sends a part. -/
def sliceRequest (s : Setup) (o : Origin) (c : Chunk) (payload : ByteArray) : SliceRequest where
  path := s.target.remotePath
  uploadId := o.uploadId
  partseq := c.index
  offset := c.offset
  payload := payload

/-- The server has answered the part. -/
def Answered (s : Setup) (o : Origin) (evs : List Event) (c : Chunk) : Prop :=
  ∃ i url payload r, .answered (some i)
    (.slice url s.target.accessToken (s.sliceRequest o c payload)) (.slice r) ∈ evs

/-- A part that was acknowledged was sent as it is in the plan. -/
theorem answered_of_acknowledged {job : Job} {work : List Event} (hn : job.plan.Numbered)
    (hworks : ∀ x ∈ work, Works job x) {c : Chunk} (hc : c ∈ job.plan.chunks)
    (h : Acknowledged job work c.index) :
    ∃ i url payload r, .answered (some i)
      (.slice url job.target.accessToken (Transfer.request job c payload)) (.slice r) ∈ work := by
  obtain ⟨i, url, payload, c', r, hindex, hmem⟩ := h
  have hwork := hworks _ hmem
  generalize hcall : Call.slice url job.target.accessToken (Transfer.request job c' payload) = call
    at hwork hmem
  generalize hreply : Reply.slice r = reply at hwork hmem
  cases hwork with
  | answered _ url' payload' _ hpending =>
    rename_i c''
    injection hcall with _ _ hreq
    have hindex' : c''.index = c.index := by
      rw [← hindex]
      exact (congrArg SliceRequest.partseq hreq).symm
    have heq : c'' = c := hn.eq_of_index_eq (Plan.mem_chunks_of_mem_pending hpending) hc hindex'
    subst heq hreply
    exact ⟨i, url', payload', r, hmem⟩

end Run.Setup

end ResumableUpload.Session
