import ResumableUpload.Proofs.Session.Attempts
import ResumableUpload.Proofs.Session.Ledger
import ResumableUpload.Proofs.Session.Lifecycle

/-!
# The order of calls

The calls of a run come in three stretches: it announces the upload, it finds hosts and sends parts,
and it joins the parts (`Run.Setup.Stretches`). It has come by an identifier before it calls for
anything but an announcement (`Run.Setup.Reached.obtained`). With the bounds on the attempts this
says in which order and how often a run calls, whatever the server answers, in whatever order its
tasks take their steps and whenever the session is cancelled (`Trace.inOrder`).
-/

namespace ResumableUpload.Session

/-- The event is a call. -/
def Event.isCall : Event → Bool
  | .called .. => true
  | _ => false

/-- No call follows the event: it is the request that joins the parts, or the server has the
content. -/
def Event.endsCalls : Event → Bool
  | .called _ (.create ..) => true
  | .answered _ (.precreate ..) (.precreate r) => r.isRapid
  | _ => false

namespace Run.Setup

variable {s : Setup} {d : Digest.FileDigests} {o : Origin} {evs : List Event} {x : Event}

/-! ## Three stretches -/

/-- The upload is announced, hosts are found and parts are sent, and there is one last call or
answer. -/
inductive Stretches : List Event → Prop
  | intro {first middle last : List Event} :
      (∀ x ∈ first, x.isCall = true → x.announces = true) →
      (∀ x ∈ first ++ middle, x.endsCalls = false) →
      (∀ x ∈ middle ++ last, x.announces = false) →
      (∀ x ∈ last.tail, x.isCall = false) → Stretches (first ++ middle ++ last)

theorem Early.not_endsCalls (h : s.Early d x) : x.endsCalls = false := by
  cases h with
  | @answered r hrapid =>
    cases r with
    | precreate reply => exact hrapid reply rfl
    | _ => rfl
  | _ => rfl

theorem Sought.announces {files : Files} {taken : Option Resume.Record} {tries : List Event}
    (h : s.Sought d files taken tries) :
    ∀ x ∈ s.prologue files d taken ++ tries, x.isCall = true → x.announces = true := by
  intro x hx hcall
  rcases List.mem_append.mp hx with hx | hx
  · rw [prologue, List.mem_cons, List.mem_cons, List.mem_singleton] at hx
    rcases hx with rfl | rfl | rfl <;> cases hcall
  · rcases h.vain x hx with rfl | ⟨r, -, rfl⟩
    · rfl
    · cases hcall

theorem Opened.announces (h : s.Opened d o evs) :
    ∀ x ∈ evs, x.isCall = true → x.announces = true := by
  cases h with
  | taken _ _ =>
    intro x hx hcall
    rw [prologue, List.mem_cons, List.mem_cons, List.mem_singleton] at hx
    rcases hx with rfl | rfl | rfl <;> cases hcall
  | issued hsought _ =>
    intro x hx hcall
    rcases List.mem_append.mp hx with hx | hx
    · exact hsought.announces x hx hcall
    · rw [List.mem_singleton.mp hx] at hcall
      cases hcall

theorem not_announces_of_works {job : Job} (h : Works job x) :
    x.announces = false ∧ x.endsCalls = false := by
  cases h with
  | called i _ hsends => cases hsends <;> exact ⟨rfl, rfl⟩
  | _ => exact ⟨rfl, rfl⟩

/-- What has happened before the workers start, and more that announces nothing and ends nothing. -/
theorem Located.stretches (h : s.Located d o evs) {more last : List Event}
    (hmore : ∀ x ∈ more, x.announces = false ∧ x.endsCalls = false)
    (hlast : ∀ x ∈ last, x.announces = false) (htail : ∀ x ∈ last.tail, x.isCall = false) :
    Stretches (evs ++ more ++ last) := by
  have hearly := h.early
  obtain ⟨hopened, hquest⟩ := h
  rename_i opening quest
  rw [List.append_assoc opening]
  refine .intro hopened.announces (fun x hx => ?_) (fun x hx => ?_) htail
  · rw [← List.append_assoc] at hx
    rcases List.mem_append.mp hx with hx | hx
    · exact (hearly x hx).not_endsCalls
    · exact (hmore x hx).2
  · rw [List.mem_append, List.mem_append] at hx
    rcases hx with (hx | hx) | hx
    · obtain ⟨token, rfl⟩ := hquest x hx
      rfl
    · exact (hmore x hx).1
    · exact hlast x hx

/-- A run that has no identifier yet has called for nothing but announcements. -/
theorem Unopened.announces (h : s.Unopened evs) :
    ∀ x ∈ evs, (x.isCall = true → x.announces = true) ∧ x.endsCalls = false := by
  intro x hx
  cases h with
  | begun =>
    rw [List.mem_singleton.mp hx]
    exact ⟨nofun, rfl⟩
  | digested _ =>
    rw [List.mem_cons, List.mem_singleton] at hx
    rcases hx with rfl | rfl <;> exact ⟨nofun, rfl⟩
  | sought hsought => exact ⟨hsought.announces x hx, (hsought.early x hx).not_endsCalls⟩

/-- The calls of a run that was let in come in three stretches. -/
theorem Reached.stretches (h : s.Reached evs) : Stretches evs := by
  cases h with
  | unopened hunopened =>
    have hfirst := hunopened.announces
    have hall : Stretches (evs ++ [] ++ []) := by
      refine .intro (fun x hx => (hfirst x hx).1) (fun x hx => ?_)
        (fun x hx => absurd hx List.not_mem_nil) fun x hx => absurd hx List.not_mem_nil
      rw [List.append_nil] at hx
      exact (hfirst x hx).2
    rwa [List.append_nil, List.append_nil] at hall
  | @rapid d files taken tries r hsought =>
    have hall : Stretches (s.prologue files d taken ++ tries ++ []
        ++ [.answered none (s.precreate d) (.precreate r)]) := by
      refine .intro hsought.announces (fun x hx => ?_) (fun x hx => ?_)
        fun x hx => absurd hx List.not_mem_nil
      · rw [List.append_nil] at hx
        exact (hsought.early x hx).not_endsCalls
      · rw [List.mem_singleton.mp hx]
        rfl
    rwa [List.append_nil] at hall
  | @located d o located work weighing hlocated hworks hweighs =>
    have hall : Stretches (located ++ (work ++ weighing) ++ []) := by
      refine hlocated.stretches (fun x hx => ?_) (fun x hx => absurd hx List.not_mem_nil)
        fun x hx => absurd hx List.not_mem_nil
      rcases List.mem_append.mp hx with hx | hx
      · exact not_announces_of_works (hworks x hx)
      · cases hweighs x hx <;> exact ⟨rfl, rfl⟩
    rwa [List.append_nil, ← List.append_assoc] at hall
  | @joining d o _ settling hjoining hsettles =>
    obtain ⟨⟨hlocated, hcomplete⟩⟩ := hjoining
    rename_i located work
    have hall : Stretches (located ++ (work ++ [.closed false, .checked false])
        ++ .called none (s.create d o) :: settling) := by
      refine hlocated.stretches (fun x hx => ?_) (fun x hx => ?_) fun x hx => ?_
      · rcases List.mem_append.mp hx with hx | hx
        · exact not_announces_of_works (hcomplete.works x hx)
        · rw [List.mem_cons, List.mem_singleton] at hx
          rcases hx with rfl | rfl <;> exact ⟨rfl, rfl⟩
      · rcases List.mem_cons.mp hx with rfl | hx
        · rfl
        · cases hsettles x hx <;> rfl
      · cases hsettles x hx <;> rfl
    have heq : located ++ work ++ [.closed false] ++ [.checked false, .called none (s.create d o)]
        ++ settling = located ++ (work ++ [.closed false, .checked false])
          ++ .called none (s.create d o) :: settling := by simp
    rwa [heq]

/-! ## From the stretches to the order -/

/-- Nothing but announcements is called for before an announcement. -/
theorem Stretches.first (h : Stretches evs) : evs.Pairwise fun x y =>
    y.announces = true → x.isCall = true → x.announces = true := by
  obtain ⟨hfirst, -, hlater, -⟩ := h
  rw [List.append_assoc]
  refine List.pairwise_append.mpr ⟨?_, ?_, fun x hx y hy hann => ?_⟩
  · exact List.pairwise_of_forall_mem_list fun x hx y _ _ => hfirst x hx
  · apply List.pairwise_of_forall_mem_list
    intro x _ y hy hann
    rw [hlater y hy] at hann
    cases hann
  · rw [hlater y hy] at hann
    cases hann

/-- No call follows the last one, nor the answer that the server has the content. -/
theorem Stretches.last (h : Stretches evs) : evs.Pairwise fun x y =>
    x.endsCalls = true → y.isCall = false := by
  obtain ⟨-, hopen, -, htail⟩ := h
  rename_i first middle last
  refine List.pairwise_append.mpr ⟨?_, ?_, fun x hx y _ hends => ?_⟩
  · apply List.pairwise_of_forall_mem_list
    intro x hx y _ hends
    rw [hopen x hx] at hends
    cases hends
  · cases last with
    | nil => exact .nil
    | cons x tail =>
      refine .cons (fun y hy _ => htail y hy) ?_
      exact List.pairwise_of_forall_mem_list fun x _ y hy _ => htail y hy
  · rw [hopen x hx] at hends
    cases hends

/-! ## The identifier -/

/-- Parts are sent under the identifier only. -/
def Bears (o : Origin) (evs : List Event) : Prop :=
  ∀ who url token q, .called who (.slice url token q) ∈ evs → q.uploadId = o.uploadId

theorem Bears.append {a b : List Event} (ha : Bears o a) (hb : Bears o b) : Bears o (a ++ b) :=
  fun who url token q hq =>
    (List.mem_append.mp hq).elim (ha who url token q) (hb who url token q)

theorem bears_of_works (h : ∀ x ∈ evs, Works (o.job s d) x) : Bears o evs := by
  intro who url token q hq
  cases h _ hq with
  | called i _ hsends =>
    cases hsends
    rfl

theorem bears_of_no_slice
    (h : ∀ x ∈ evs, ∀ who url token q, x ≠ .called who (.slice url token q)) : Bears o evs :=
  fun who url token q hq => absurd rfl (h _ hq who url token q)

theorem bears_of_quest (h : ∀ x ∈ evs, ∃ token, x = .called none (.locate token)) : Bears o evs :=
  bears_of_no_slice fun x hx => by
    obtain ⟨token, rfl⟩ := h x hx
    nofun

/-- What has happened to a run that calls for anything but an announcement is cut where the run has
come by its identifier. -/
theorem Reached.cut (h : s.Reached evs) {who : Option Nat} {c : Call}
    (hmem : .called who c ∈ evs) (hc : (Event.called who c).announces = false) :
    ∃ d o opening later, s.Opened d o opening ∧ Bears o later ∧ evs = opening ++ later := by
  -- a list in which all calls are announcements cannot hold the call
  have hother : ¬ ∀ x ∈ evs, x.isCall = true → x.announces = true := by
    intro hall
    rw [hall _ hmem rfl] at hc
    cases hc
  cases h with
  | unopened hunopened => exact absurd (fun x hx => (hunopened.announces x hx).1) hother
  | rapid hsought =>
    refine absurd (fun x hx hcall => ?_) hother
    rcases List.mem_append.mp hx with hx | hx
    · exact hsought.announces x hx hcall
    · rw [List.mem_singleton.mp hx] at hcall
      cases hcall
  | @located d o _ work weighing hlocated hworks hweighs =>
    obtain ⟨hopened, hquest⟩ := hlocated
    rename_i opening quest
    refine ⟨d, o, opening, quest ++ work ++ weighing, hopened, ?_, by simp only [List.append_assoc]⟩
    exact ((bears_of_quest hquest).append (bears_of_works hworks)).append
      (bears_of_no_slice fun x hx => by cases hweighs x hx <;> nofun)
  | @joining d o _ settling hjoining hsettles =>
    obtain ⟨⟨⟨hopened, hquest⟩, hcomplete⟩⟩ := hjoining
    rename_i work opening quest
    refine ⟨d, o, opening, quest ++ work ++ (.closed false :: .checked false ::
      .called none (s.create d o) :: settling), hopened, ?_, by simp⟩
    refine ((bears_of_quest hquest).append (bears_of_works hcomplete.works)).append
      (bears_of_no_slice fun x hx => ?_)
    rw [List.mem_cons, List.mem_cons, List.mem_cons] at hx
    rcases hx with rfl | rfl | rfl | hx
    · nofun
    · nofun
    · nofun
    · cases hsettles x hx <;> nofun

/-- What comes in a list after all of its first part. -/
theorem exists_between {first more before after : List Event}
    (heq : first ++ more = before ++ x :: after) (hx : x ∉ first) :
    ∃ between, before = first ++ between ∧ more = between ++ x :: after := by
  rcases List.append_eq_append_iff.mp heq with hsplit | ⟨between, hfirst, hrest⟩
  · exact hsplit
  · cases between with
    | nil => exact ⟨[], by rw [hfirst, List.append_nil, List.append_nil], hrest.symm⟩
    | cons y between =>
      injection hrest with hy
      refine absurd ?_ hx
      rw [hfirst, hy]
      exact List.mem_append_right _ List.mem_cons_self

/-- Whatever a run calls for besides announcements, it calls for after it has come by an identifier,
under which it sends its parts. -/
theorem Reached.precedes (h : s.Reached evs) {before after : List Event} {who : Option Nat}
    {c : Call} (heq : evs = before ++ .called who c :: after)
    (hc : (Event.called who c).announces = false) :
    ∃ d o opening between, s.Opened d o opening ∧ before = opening ++ between ∧
      Bears o (between ++ [.called who c]) := by
  have hmem : .called who c ∈ evs := by
    rw [heq]
    exact List.mem_append_right _ List.mem_cons_self
  obtain ⟨d, o, opening, later, hopened, hbears, rfl⟩ := h.cut hmem hc
  have hno : .called who c ∉ opening := by
    intro hin
    rw [hopened.announces _ hin rfl] at hc
    cases hc
  obtain ⟨between, rfl, rfl⟩ := exists_between heq hno
  refine ⟨d, o, opening, between, hopened, rfl, fun who' url token q hq => ?_⟩
  apply hbears who' url token q
  rcases List.mem_append.mp hq with hq | hq
  · exact List.mem_append_left _ hq
  · rw [List.mem_singleton.mp hq]
    exact List.mem_append_right _ List.mem_cons_self

/-- The run has come by an identifier: it took a resume record that fits its file, or the server has
answered its announcement and wants parts. -/
def Obtained (s : Setup) (evs : List Event) : Prop :=
  ∃ files d, s.Digests files d ∧ .digested files d ∈ evs ∧
    ((∃ r, .claimed (s.key d) (some r) ∈ evs ∧ s.fits s.plan d r = true) ∨
      ∃ r, .answered none (s.precreate d) (.precreate r) ∈ evs ∧ r.isRapid = false)

theorem Obtained.append (h : s.Obtained evs) (more : List Event) : s.Obtained (evs ++ more) := by
  obtain ⟨files, d, hd, hdigested, hway⟩ := h
  refine ⟨files, d, hd, List.mem_append_left _ hdigested, ?_⟩
  rcases hway with ⟨r, hclaimed, hfits⟩ | ⟨r, hanswered, hrapid⟩
  · exact .inl ⟨r, List.mem_append_left _ hclaimed, hfits⟩
  · exact .inr ⟨r, List.mem_append_left _ hanswered, hrapid⟩

theorem Opened.obtained (h : s.Opened d o evs) : s.Obtained evs := by
  obtain ⟨files, hd, hdigested⟩ := h.digested
  have horigin := Origin.comesFrom_of_opened h
  refine ⟨files, d, hd, hdigested, ?_⟩
  cases o with
  | taken r => exact .inl ⟨r, horigin⟩
  | issued r => exact .inr ⟨r, horigin.2⟩

/-- Whenever anything else than an announcement is called for, the run had come by an identifier
before. -/
theorem Reached.obtained (h : s.Reached evs) {before after : List Event} {who : Option Nat}
    {c : Call} (heq : evs = before ++ .called who c :: after)
    (hc : (Event.called who c).announces = false) : s.Obtained before := by
  obtain ⟨d, o, opening, between, hopened, rfl, -⟩ := h.precedes heq hc
  exact hopened.obtained.append between

/-- The run had come by an identifier before it sent the part under it. -/
def OpenedBefore (s : Setup) (before : List Event) (q : SliceRequest) : Prop :=
  ∃ (d : Digest.FileDigests) (o : Origin),
    (∃ files, s.Digests files d ∧ .digested files d ∈ before) ∧ o.ComesFrom s d before ∧
    q.uploadId = o.uploadId

/-- Whenever a part is sent, the run had come by its identifier before. -/
theorem Reached.opened (h : s.Reached evs) {before after : List Event} {who : Option Nat}
    {url token : String} {q : SliceRequest}
    (heq : evs = before ++ .called who (.slice url token q) :: after) :
    s.OpenedBefore before q := by
  obtain ⟨d, o, opening, between, hopened, rfl, hbears⟩ := h.precedes heq rfl
  obtain ⟨files, hdigests, hmem⟩ := hopened.digested
  refine ⟨d, o, ⟨files, hdigests, List.mem_append_left _ hmem⟩,
    (Origin.comesFrom_of_opened hopened).append between, ?_⟩
  exact hbears who url token q (List.mem_append_right _ List.mem_cons_self)

/-- A run that took a resume record that fits announces nothing. -/
theorem Proper.resumed (h : s.Proper d o evs) {files : Files} {d' : Digest.FileDigests}
    {r : Resume.Record} (hdigested : .digested files d' ∈ evs)
    (hclaimed : .claimed (s.key d') (some r) ∈ evs) (hfits : s.fits s.plan d' r = true) :
    ∀ x ∈ evs, x.announces = false := by
  have horigin : (Origin.taken r).ComesFrom s d' evs := ⟨hclaimed, hfits⟩
  obtain ⟨rfl, rfl⟩ := h.unique ⟨files, hdigested⟩ horigin
  intro x hx
  cases h.happens x hx with
  | works hworks => exact (not_announces_of_works hworks).1
  | weighs hweighs => cases hweighs <;> rfl
  | settles hsettles => cases hsettles <;> rfl
  | _ => rfl

end Run.Setup

/-! ## All runs -/

/-- A run that was not let in calls for nothing. -/
theorem Outside.no_call {stage : Stage} {evs before after : List Event} {who : Option Nat}
    {c : Call} (h : Outside stage evs) : evs ≠ before ++ .called who c :: after := by
  intro heq
  have hmem : .called who c ∈ evs := by
    rw [heq]
    exact List.mem_append_right _ List.mem_cons_self
  rcases h with ⟨-, rfl⟩ | ⟨found, _, -, rfl, -⟩
  · cases hmem
  · cases List.mem_singleton.mp hmem

/-- The calls of a run in their order, and how often each is made. -/
structure InOrder (s : Run.Setup) (evs : List Event) : Prop where
  /-- Nothing else is called for before the upload is announced. -/
  first : evs.Pairwise fun x y => y.announces = true → x.isCall = true → x.announces = true
  announced : evs.countP Event.announces ≤ s.settings.retryPolicy.maxRetries + 1
  /-- An announcement that was answered is not made again, unless a retry can mend the fault. -/
  settled : evs.Pairwise fun x y => x.endsAnnouncing = true → y.announces = false
  resumed : ∀ files d r, .digested files d ∈ evs → .claimed (s.key d) (some r) ∈ evs →
    s.fits s.plan d r = true → ∀ x ∈ evs, x.announces = false
  /-- Nothing but announcements is called for before the run has come by an identifier. -/
  obtained : ∀ before who c after, evs = before ++ .called who c :: after →
    (Event.called who c).announces = false → s.Obtained before
  opened : ∀ before who url token q after,
    evs = before ++ .called who (.slice url token q) :: after → s.OpenedBefore before q
  parts : ∀ n, Spent s.settings.retryPolicy.maxRetries n evs
  /-- Nothing is called for after the parts were joined, or when the server has the content. -/
  last : evs.Pairwise fun x y => x.endsCalls = true → y.isCall = false

/-- The calls of every run are in order. -/
theorem Trace.inOrder {s : Run.Setup} {off : Bool} {stage : Stage} {evs : List Event}
    (h : Trace s off stage evs) : InOrder s evs where
  first := by
    rcases h.course.reached with (⟨-, rfl⟩ | ⟨found, _, -, rfl, -⟩) | hreached
    · exact .nil
    · exact List.pairwise_singleton _ _
    · exact hreached.stretches.first
  announced := h.announced.bounded
  settled := h.announced.ended
  resumed files d r hdigested hclaimed hfits := by
    rcases h.course.proper with (rfl | ⟨found, rfl⟩) | ⟨d', o, hproper⟩
    · cases hdigested
    · cases List.mem_singleton.mp hdigested
    · exact hproper.resumed hdigested hclaimed hfits
  obtained before who c after heq hc := by
    rcases h.course.reached with hout | hreached
    · exact absurd heq hout.no_call
    · exact hreached.obtained heq hc
  opened before who url token q after heq := by
    rcases h.course.reached with hout | hreached
    · exact absurd heq hout.no_call
    · exact hreached.opened heq
  parts := h.spent
  last := by
    rcases h.course.reached with (⟨-, rfl⟩ | ⟨found, _, -, rfl, -⟩) | hreached
    · exact .nil
    · exact List.pairwise_singleton _ _
    · exact hreached.stretches.last

/-! ## The hosts -/

/-- A part is sent in a step in which the resolver of the run gives the host. -/
theorem Trace.gives {s : Run.Setup} {off : Bool} {stage : Stage} {evs : List Event}
    (h : Trace s off stage evs) {w : World} {cancelled : Bool} {worker who : Option Nat}
    {signal : Signal} {url token : String} {q : SliceRequest}
    (hq : .called who (.slice url token q)
      ∈ s.events w cancelled worker stage (Engine.effective cancelled stage signal)) :
    ∃ e, e.baseUrl = url ∧ w.Gives s.resolver s.target.accessToken
      (Engine.effective cancelled stage signal) e := by
  obtain ⟨i, job, pool, c, t, payload, e, rfl, -, -, -, hurl, hgives⟩ :=
    Run.Setup.slice_of_events hq
  obtain ⟨d, o, -, -, -, rfl, -, -⟩ := h.course
  exact ⟨e, hurl, hgives⟩

/-! ## A session that was cancelled before -/

/-- A run at this stage, whose session was cancelled, calls for nothing any more. -/
inductive Stage.Held : Stage → Prop
  | entering : Held .entering
  | starting : Held .starting
  | settling : Held (.settling (.error .cancelled))
  | ended (result : Except UploadFault Commit) : Held (.ended result)

/-- The event is no call, and leaves the store as it is. -/
def Event.isIdle (x : Event) : Bool := !x.isCall && !x.usesStore

namespace Stage.Held

variable {s : Run.Setup} {w : World} {stage : Stage}

theorem effective (h : stage.Held) (sig : Signal) : Engine.effective true stage sig = .go := by
  cases h <;> rfl

theorem noSending (h : stage.Held) : Run.Setup.NoSending stage := by
  cases h <;> exact fun _ _ => Stage.noConfusion

theorem main (h : stage.Held) (hw : w.isCancelled s.handle = true) :
    (s.main w true stage .go).stage.Held := by
  cases h with
  | entering =>
    show (s.enter w).stage.Held
    unfold Run.Setup.enter
    split
    · exact .entering
    · split
      · exact .starting
      · exact .ended _
  | starting =>
    show (s.start w).stage.Held
    simp only [Run.Setup.start, hw, if_true]
    exact .settling
  | settling => exact .ended _
  | ended result => exact .ended result

theorem events (h : stage.Held) : ∀ x ∈ s.events w true none stage .go, x.isIdle = true := by
  intro x hx
  have hcall : ∀ c, x = .called none c → False := by
    rintro c rfl
    rw [Run.Setup.events, List.mem_append, List.mem_append] at hx
    rcases hx with (hx | hx) | hx
    · obtain ⟨_, _, _, -, -, heq⟩ := Run.Setup.mem_answers hx
      cases heq
    · exact Run.Setup.not_called_of_deeds hx
    · obtain ⟨call, hmem, -⟩ := List.mem_map.mp hx
      cases Run.Setup.asks_main hmem <;> cases h
  cases Run.Setup.arises_of_events hx with
  | called c => exact absurd rfl (hcall c)
  | claimed => cases h
  | saved => cases h
  | dropped => cases h
  | _ => rfl

/-- No step of a task leads away. -/
theorem turn (h : stage.Held) (hw : w.isCancelled s.handle = true) (worker : Option Nat) :
    (s.turn w true worker stage .go).stage.Held ∧
      ∀ x ∈ s.events w true worker stage .go, x.isIdle = true := by
  cases worker with
  | none => exact ⟨h.main hw, h.events⟩
  | some i =>
    obtain ⟨hsame, hnone⟩ : (s.turn w true (some i) stage .go).stage = stage ∧
        s.events w true (some i) stage .go = [] := Run.Setup.worker_elsewhere h.noSending i
    rw [hsame, hnone]
    exact ⟨h, fun x hx => absurd hx List.not_mem_nil⟩

end Stage.Held

namespace History

variable {h : History} {handle k : Nat}

/-- The session is cancelled, and its run calls for nothing any more. -/
structure Holds (h : History) (handle k : Nat) : Prop where
  cancelled : h.engine.world.isCancelled handle = true
  held : ∀ r, h.engine.runs[k]? = some r → r.handle = handle →
    r.stage.Held ∧ ∀ x ∈ h.of k, x.isIdle = true

theorem holds_of_silent (hin : h.InStep) (hnil : h.of k = [])
    (hcancelled : h.engine.world.isCancelled handle = true) : h.Holds handle k where
  cancelled := hcancelled
  held r hr _ := by
    rw [entering_of_silent hin hr hnil, hnil]
    exact ⟨.entering, fun x hx => absurd hx List.not_mem_nil⟩

theorem Holds.next (hholds : h.Holds handle k) (hin : h.InStep) (a : Action) :
    (h.next a).Holds handle k where
  cancelled := (h.engine.later_act a).isCancelled hholds.cancelled
  held r' hr' hhandle := by
    cases hr : h.engine.runs[k]? with
    | none =>
      obtain ⟨hstage, hnil⟩ := begun_next hin a hr hr'
      rw [hstage, hnil]
      exact ⟨.entering, fun x hx => absurd hx List.not_mem_nil⟩
    | some r =>
      rcases next_cases h a hr with ⟨hsame, hof⟩ | ⟨worker, sig, s, rfl, hs⟩
      · obtain rfl : r = r' := Option.some.inj (hsame.symm.trans hr')
        rw [hof]
        exact hholds.held r hr hhandle
      · obtain ⟨-, hrun, hof⟩ := next_signal (t := ⟨k, worker⟩) hr hs sig
        obtain rfl := Option.some.inj (hrun.symm.trans hr')
        obtain ⟨hheld, hidle⟩ := hholds.held r hr hhandle
        have hc : h.engine.world.isCancelled r.handle = true := by
          rw [show r.handle = handle from hhandle]
          exact hholds.cancelled
        have hw : (h.engine.world.cancelAll Signal.go.cancels).1.isCancelled s.handle = true := by
          rw [Engine.setup?_handle hs]
          exact (World.later_cancelAll _ _).isCancelled hc
        obtain ⟨hstage, hnew⟩ := hheld.turn hw worker
        rw [hof, hc, hheld.effective]
        refine ⟨hstage, fun x hx => ?_⟩
        exact (List.mem_append.mp hx).elim (hidle x) (hnew x)

theorem Holds.after (hholds : h.Holds handle k) (hin : h.InStep) (as : List Action) :
    (h.after as).Holds handle k :=
  induct (P := fun h' => h'.Holds handle k) hholds
    (fun done a hdone => hdone.next (hin.after done) a) as

/-- Whenever a task of the run sends a part, the resolver gives the host in the same step. -/
def Hosted (first : History) (as : List Action) (k : Nat) (s : Run.Setup) : Prop :=
  ∀ done more worker sig, as = done ++ .signal ⟨k, worker⟩ sig :: more →
    ∀ who url token q,
      .called who (.slice url token q) ∈ (first.after done).engine.events ⟨k, worker⟩ sig →
      ∃ e sig', (sig' = sig ∨ sig' = .go) ∧ e.baseUrl = url ∧
        ((first.after done).engine.world.cancelAll sig'.cancels).1.Gives s.resolver
          s.target.accessToken sig' e

/-- If the session is cancelled before the run takes its first step, the run calls for nothing, and
no step of its tasks changes the store. -/
def HeldBack (first : History) (as : List Action) (k : Nat) (s : Run.Setup) : Prop :=
  ∀ early late, as = early ++ late → (first.after early).of k = [] →
    (first.after early).engine.world.isCancelled s.handle = true →
    (∀ x ∈ (first.after as).of k, x.isCall = false) ∧
    ∀ done more worker sig, as = done ++ .signal ⟨k, worker⟩ sig :: more →
      ((first.after done).next (.signal ⟨k, worker⟩ sig)).engine.world.store
        = (first.after done).engine.world.store

theorem hosted (w : World) (as : List Action) {k : Nat} {s : Run.Setup}
    (hs : ((start w).after as).setup? k = some s) : Hosted (start w) as k s := by
  intro done more worker sig has who url token q hq
  have hin : ((start w).after done).InStep := inStep w done
  generalize hh : (start w).after done = h at hq hin ⊢
  rcases h.engine.signal_cases ⟨k, worker⟩ sig with ⟨-, hnone⟩ | ⟨r, s', hr, hs'⟩
  · rw [hnone] at hq
    cases hq
  · -- what the run goes by then is what it goes by in the end
    have hsame : s' = s := by
      have hsetup : h.setup? k = some s' := by
        rw [setup?, hr]
        exact hs'
      have hlater := setup?_after hsetup (.signal ⟨k, worker⟩ sig :: more)
      rw [← hh, ← after_append, ← has, hs] at hlater
      exact (Option.some.inj hlater).symm
    subst hsame
    obtain ⟨off, htrace, -⟩ := (hin.follows k r hr).trace hs'
    rw [Engine.events_eq sig hr hs'] at hq
    obtain ⟨e, hurl, hgives⟩ := htrace.gives hq
    refine ⟨e, _, ?_, hurl, hgives⟩
    unfold Engine.effective
    split
    · exact .inr rfl
    · exact .inl rfl

theorem heldBack (w : World) (as : List Action) {k : Nat} {s : Run.Setup}
    (hs : ((start w).after as).setup? k = some s) : HeldBack (start w) as k s := by
  rintro early late rfl hnil hcancelled
  have hidle : ∀ x ∈ ((start w).after (early ++ late)).of k, x.isIdle = true := by
    have hholds := (holds_of_silent (inStep w early) hnil hcancelled).after (inStep w early) late
    rw [← after_append] at hholds
    obtain ⟨r, hr, hs⟩ := Option.bind_eq_some_iff.mp hs
    exact (hholds.held r hr (Engine.setup?_handle hs).symm).2
  have hparts : ∀ x ∈ ((start w).after (early ++ late)).of k,
      x.isCall = false ∧ x.usesStore = false := by
    intro x hx
    have hboth := hidle x hx
    simpa [Event.isIdle] using hboth
  refine ⟨fun x hx => (hparts x hx).1, fun done more worker sig has => ?_⟩
  have hnew : ∀ x ∈ ((start w).after done).engine.events ⟨k, worker⟩ sig, x.usesStore = false := by
    intro x hx
    refine (hparts x ?_).2
    have hnext := of_next_signal ((start w).after done) ⟨k, worker⟩ sig k
    rw [if_pos rfl] at hnext
    have hmore := of_after (((start w).after done).next (.signal ⟨k, worker⟩ sig)) more k
    rw [hnext] at hmore
    rw [has, after_append]
    exact hmore.subset (List.mem_append_right _ hx)
  rw [store_next_signal, Run.Setup.onStore_of_unused hnew]

/-- The calls of every run are in order, whatever the server answers, in whatever order tasks take
their steps and whenever the session is cancelled. -/
theorem calls_in_order (w : World) (as : List Action) (k : Nat) (s : Run.Setup)
    (hs : ((start w).after as).setup? k = some s) :
    InOrder s (((start w).after as).of k) ∧ Hosted (start w) as k s ∧
      HeldBack (start w) as k s := by
  obtain ⟨r, hr, hs'⟩ := Option.bind_eq_some_iff.mp hs
  obtain ⟨off, htrace, -⟩ := trace w as hr hs'
  exact ⟨htrace.inOrder, hosted w as hs, heldBack w as hs⟩

/-- A run that announces its upload once and sends each of its two parts once. -/
theorem calls_in_order_committed :
    let evs := ((start Sample.Pair.world).after Sample.Pair.committed).of 0
    ((start Sample.Pair.world).after Sample.Pair.committed).setup? 0 = some Sample.Pair.setup ∧
      evs.countP Event.announces = 1 ∧ (sentOf 0 evs).length = 1 ∧ (sentOf 1 evs).length = 1 ∧
      InOrder Sample.Pair.setup evs ∧
      Hosted (start Sample.Pair.world) Sample.Pair.committed 0 Sample.Pair.setup ∧
      HeldBack (start Sample.Pair.world) Sample.Pair.committed 0 Sample.Pair.setup := by
  intro evs
  -- what the run goes by is settled by the first three actions
  have hs := setup?_after (h := (start Sample.Pair.world).after (Sample.Pair.committed.take 3))
    (k := 0) (s := Sample.Pair.setup) rfl (Sample.Pair.committed.drop 3)
  rw [← after_append, List.take_append_drop] at hs
  have hcounts : evs.countP Event.announces = 1 ∧ (sentOf 0 evs).length = 1 ∧
      (sentOf 1 evs).length = 1 := by decide +kernel
  obtain ⟨hann, hfirst, hsecond⟩ := hcounts
  exact ⟨hs, hann, hfirst, hsecond, calls_in_order Sample.Pair.world Sample.Pair.committed 0 _ hs⟩

end History

end ResumableUpload.Session
