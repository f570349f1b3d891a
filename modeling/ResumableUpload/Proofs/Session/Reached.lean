import ResumableUpload.Proofs.Session.Evidence

/-!
# How far a run has come

Whatever its stage and however it ended, what has happened in a run has one of few shapes: the run
was not let in (`Outside`), or it has come as far as `Run.Setup.Reached` says. Facts about all runs
need a look at these shapes only.

All that happens in a run that has digested its file is in keeping with one file and one way of
coming by an identifier (`Run.Setup.Proper`).
-/

namespace ResumableUpload.Session

/-- The run has not begun, or it did not find its session ready and was told so. -/
def Outside (stage : Stage) (evs : List Event) : Prop :=
  (stage = .entering ∧ evs = []) ∨ ∃ found detail, found ≠ .created ∧ evs = [.entered found] ∧
    stage = .ended (.error (.invalidState detail))

namespace Run.Setup

variable {s : Setup} {d : Digest.FileDigests} {o : Origin} {evs : List Event} {off : Bool}
  {stage : Stage}

/-- What may happen between the report of the workers and the request that joins the parts. -/
inductive Weighs (s : Setup) (d : Digest.FileDigests) : Event → Prop
  | closed (cancelled : Bool) : Weighs s d (.closed cancelled)
  | saved (r : Resume.Record) : Weighs s d (.saved (s.key d) r)
  | checked (cancelled : Bool) : Weighs s d (.checked cancelled)

/-- What may happen after the request that joins the parts. -/
inductive Settles (s : Setup) (d : Digest.FileDigests) (o : Origin) : Event → Prop
  | answered (r : Reply) : Settles s d o (.answered none (s.create d o) r)
  | dropped : Settles s d o (.dropped (s.key d))

theorem Settles.ne_called {x : Event} (h : s.Settles d o x) (who : Option Nat) (c : Call) :
    x ≠ .called who c := by
  cases h <;> exact Event.noConfusion

/-- How far a run has come that was let in. -/
inductive Reached (s : Setup) : List Event → Prop
  | unopened {evs : List Event} : s.Unopened evs → Reached s evs
  | rapid {d : Digest.FileDigests} {files : Files} {taken : Option Resume.Record}
      {tries : List Event} {r : PrecreateReply} : s.Sought d files taken tries →
      Reached s
        (s.prologue files d taken ++ tries ++ [.answered none (s.precreate d) (.precreate r)])
  | located {d : Digest.FileDigests} {o : Origin} {located work weighing : List Event} :
      s.Located d o located → (∀ x ∈ work, Works (o.job s d) x) →
      (∀ x ∈ weighing, s.Weighs d x) → Reached s (located ++ work ++ weighing)
  | joining {d : Digest.FileDigests} {o : Origin} {joining settling : List Event} :
      s.Joining d o joining → (∀ x ∈ settling, s.Settles d o x) → Reached s (joining ++ settling)

theorem Located.reached (h : s.Located d o evs) : s.Reached evs := by
  have hnone : s.Reached (evs ++ [] ++ []) :=
    .located h (fun x hx => absurd hx List.not_mem_nil) fun x hx => absurd hx List.not_mem_nil
  rwa [List.append_nil, List.append_nil] at hnone

theorem Located.reached_work {work : List Event} (h : s.Located d o evs)
    (hwork : ∀ x ∈ work, Works (o.job s d) x) : s.Reached (evs ++ work) := by
  have hnone : s.Reached (evs ++ work ++ []) :=
    .located h hwork fun x hx => absurd hx List.not_mem_nil
  rwa [List.append_nil] at hnone

theorem Finished.reached {more : List Event} (h : s.Finished d o evs)
    (hmore : ∀ x ∈ more, s.Weighs d x) : s.Reached (evs ++ more) := by
  obtain ⟨hlocated, hcomplete⟩ := h
  rw [List.append_assoc]
  apply Reached.located hlocated hcomplete.works
  intro x hx
  rcases List.mem_append.mp hx with hx | hx
  · rw [List.mem_singleton.mp hx]
    exact .closed false
  · exact hmore x hx

theorem Joining.reached (h : s.Joining d o evs) : s.Reached evs := by
  have hnone : s.Reached (evs ++ []) := .joining h fun x hx => absurd hx List.not_mem_nil
  rwa [List.append_nil] at hnone

theorem Outcome.reached {result : Except UploadFault Commit} (h : s.Outcome result evs) :
    s.Reached evs := by
  cases h with
  | unopened _ hunopened => exact .unopened hunopened
  | rapid hsought _ _ => exact .rapid hsought
  | stranded _ hlocated => exact hlocated.reached
  | kept w hlocated hworked =>
    obtain ⟨pool, hworking, -⟩ := hworked
    apply Reached.located hlocated hworking.works
    intro x hx
    rw [List.mem_cons, List.mem_singleton] at hx
    rcases hx with rfl | rfl
    · exact .closed true
    · exact .saved _
  | failed hlocated hworked _ =>
    obtain ⟨pool, hworking, -⟩ := hworked
    apply Reached.located hlocated hworking.works
    intro x hx
    rw [List.mem_singleton.mp hx]
    exact .closed false
  | withdrawn hfinished =>
    apply hfinished.reached
    intro x hx
    rw [List.mem_singleton.mp hx]
    exact .checked true
  | unjoined f hjoining hanswers =>
    apply Reached.joining hjoining
    intro x hx
    rcases hanswers with rfl | ⟨fault, rfl⟩
    · cases hx
    · rw [List.mem_singleton.mp hx]
      exact .answered _
  | joined hjoining _ =>
    apply Reached.joining hjoining
    intro x hx
    rw [List.mem_cons, List.mem_singleton] at hx
    rcases hx with rfl | rfl
    · exact .answered _
    · exact .dropped

theorem Broken.reached (h : s.Broken evs) : s.Reached evs := by
  cases h with
  | announcing hunopened => exact .unopened hunopened
  | locating hlocated => exact hlocated.reached
  | joining text hjoining =>
    apply Reached.joining hjoining
    intro x hx
    rw [List.mem_singleton.mp hx]
    exact .answered _

/-- A run was not let in, or it has one of few shapes. -/
theorem Course.reached (h : s.Course off stage evs) : Outside stage evs ∨ s.Reached evs := by
  cases stage with
  | entering => exact .inl (.inl ⟨rfl, h⟩)
  | starting =>
    rw [show evs = [.entered .created] from h]
    exact .inr (.unopened .begun)
  | hashing plan =>
    rw [h.2]
    exact .inr (.unopened .begun)
  | claiming plan d =>
    obtain ⟨-, files, hd, rfl⟩ := h
    exact .inr (.unopened (.digested hd))
  | announcing plan d retry =>
    obtain ⟨-, files, taken, tries, hsought, rfl⟩ := h
    exact .inr (.unopened (.sought hsought))
  | opening job =>
    obtain ⟨d, o, hopened, -⟩ := h
    exact .inr hopened.located.reached
  | locating job caller =>
    obtain ⟨d, o, hlocated, -⟩ := h
    exact .inr hlocated.reached
  | sending job pool =>
    obtain ⟨d, o, located, work, hlocated, rfl, hworking, rfl⟩ := h
    exact .inr (hlocated.reached_work hworking.works)
  | closing job report =>
    obtain ⟨d, o, located, work, hlocated, rfl, ⟨pool, hworking, -⟩, rfl⟩ := h
    exact .inr (hlocated.reached_work hworking.works)
  | checking job =>
    obtain ⟨d, o, hfinished, -⟩ := h
    have hreached : s.Reached (evs ++ []) :=
      hfinished.reached fun x hx => absurd hx List.not_mem_nil
    rw [List.append_nil] at hreached
    exact .inr hreached
  | finalizing job =>
    obtain ⟨d, o, hjoining, -⟩ := h
    exact .inr hjoining.reached
  | settling result => exact .inr (Outcome.reached h)
  | ended result =>
    rcases h with houtcome | ⟨found, detail, hfound, hevs, hresult⟩
    · exact .inr houtcome.reached
    · exact .inl (.inr ⟨found, detail, hfound, hevs, by rw [hresult]⟩)
  | crashed report => exact .inr (Broken.reached h)

/-! ## Before the parts are joined -/

/-- The parts were not joined. -/
def Unjoined (evs : List Event) : Prop := ∀ x ∈ evs, x.isCreate = false

theorem Unjoined.append {a b : List Event} (ha : Unjoined a) (hb : Unjoined b) :
    Unjoined (a ++ b) :=
  fun x hx => (List.mem_append.mp hx).elim (ha x) (hb x)

theorem Unjoined.countP (h : Unjoined evs) : evs.countP Event.isCreate = 0 := by
  apply List.countP_eq_zero.mpr
  intro x hx
  rw [h x hx]
  exact Bool.noConfusion

theorem unjoined_singleton {x : Event} (hx : x.isCreate = false) : Unjoined [x] := by
  intro y hy
  rw [List.mem_singleton.mp hy]
  exact hx

theorem Unopened.unjoined (h : s.Unopened evs) : Unjoined evs := by
  cases h with
  | begun => exact unjoined_singleton rfl
  | digested _ => exact (unjoined_singleton rfl).append (unjoined_singleton rfl)
  | sought hsought => exact fun x hx => (hsought.early x hx).not_create

theorem Located.unjoined (h : s.Located d o evs) : Unjoined evs :=
  fun x hx => (h.early x hx).not_create

theorem Finished.unjoined (h : s.Finished d o evs) : Unjoined evs := by
  obtain ⟨hlocated, hcomplete⟩ := h
  refine (hlocated.unjoined.append ?_).append (unjoined_singleton rfl)
  intro x hx
  exact not_create_of_works (hcomplete.works x hx)

/-! ## What is in keeping with an identifier -/

/-- What may happen in a run that comes by its identifier in the given way. -/
inductive Happens (s : Setup) (d : Digest.FileDigests) : Origin → Event → Prop
  | entered {o : Origin} : Happens s d o (.entered .created)
  | digested {o : Origin} (files : Files) : Happens s d o (.digested files d)
  | taken {r : Resume.Record} :
      s.fits s.plan d r = true → Happens s d (.taken r) (.claimed (s.key d) (some r))
  | unfit {taken : Option Resume.Record} {r : PrecreateReply} :
      taken.filter (s.fits s.plan d) = none → Happens s d (.issued r) (.claimed (s.key d) taken)
  | announced (r : PrecreateReply) : Happens s d (.issued r) (.called none (s.precreate d))
  | vain {r : Reply} (reply : PrecreateReply) : (∀ reply, r ≠ .precreate reply) →
      Happens s d (.issued reply) (.answered none (s.precreate d) r)
  | issued (r : PrecreateReply) :
      Happens s d (.issued r) (.answered none (s.precreate d) (.precreate r))
  | asked {o : Origin} (token : String) : Happens s d o (.called none (.locate token))
  | works {o : Origin} {x : Event} : Works (o.job s d) x → Happens s d o x
  | weighs {o : Origin} {x : Event} : s.Weighs d x → Happens s d o x
  | joins {o : Origin} : Happens s d o (.called none (s.create d o))
  | settles {o : Origin} {x : Event} : s.Settles d o x → Happens s d o x

theorem happens_prologue {files : Files} {taken : Option Resume.Record}
    (htaken : s.Happens d o (.claimed (s.key d) taken)) :
    ∀ x ∈ s.prologue files d taken, s.Happens d o x := by
  intro x hx
  rw [prologue, List.mem_cons, List.mem_cons, List.mem_singleton] at hx
  rcases hx with rfl | rfl | rfl
  · exact .entered
  · exact .digested files
  · exact htaken

theorem Sought.happens {files : Files} {taken : Option Resume.Record} {tries : List Event}
    (h : s.Sought d files taken tries) (r : PrecreateReply) :
    ∀ x ∈ s.prologue files d taken ++ tries, s.Happens d (.issued r) x := by
  intro x hx
  rcases List.mem_append.mp hx with hx | hx
  · exact happens_prologue (.unfit h.unfit) x hx
  · rcases h.vain x hx with rfl | ⟨reply, hreply, rfl⟩
    · exact .announced r
    · exact .vain r hreply

theorem Sought.happens_answered {files : Files} {taken : Option Resume.Record}
    {tries : List Event} (h : s.Sought d files taken tries) (r : PrecreateReply) :
    ∀ x ∈ s.prologue files d taken ++ tries ++ [.answered none (s.precreate d) (.precreate r)],
      s.Happens d (.issued r) x := by
  intro x hx
  rcases List.mem_append.mp hx with hx | hx
  · exact h.happens r x hx
  · rw [List.mem_singleton.mp hx]
    exact .issued r

theorem Located.happens (h : s.Located d o evs) : ∀ x ∈ evs, s.Happens d o x := by
  obtain ⟨hopened, hquest⟩ := h
  intro x hx
  rcases List.mem_append.mp hx with hx | hx
  · cases hopened with
    | taken _ hfits => exact happens_prologue (.taken hfits) x hx
    | issued hsought _ => exact hsought.happens_answered _ x hx
  · obtain ⟨token, rfl⟩ := hquest x hx
    exact .asked token

/-- The run has digested its file, and all that happens in it is in keeping with the digests and
with one way of coming by an identifier. -/
structure Proper (s : Setup) (d : Digest.FileDigests) (o : Origin) (evs : List Event) : Prop where
  digests : ∃ files, s.Digests files d ∧ .digested files d ∈ evs
  happens : ∀ x ∈ evs, s.Happens d o x

/-- The run has not digested its file. -/
def Undigested (evs : List Event) : Prop := evs = [] ∨ ∃ found, evs = [.entered found]

theorem Proper.append {more : List Event} (h : s.Proper d o evs)
    (hmore : ∀ x ∈ more, s.Happens d o x) : s.Proper d o (evs ++ more) where
  digests := by
    obtain ⟨files, hd, hmem⟩ := h.digests
    exact ⟨files, hd, List.mem_append_left _ hmem⟩
  happens x hx := (List.mem_append.mp hx).elim (h.happens x) (hmore x)

theorem Located.proper (h : s.Located d o evs) : s.Proper d o evs := ⟨h.digested, h.happens⟩

theorem Located.proper_work {work : List Event} (h : s.Located d o evs)
    (hwork : ∀ x ∈ work, Works (o.job s d) x) : s.Proper d o (evs ++ work) :=
  h.proper.append fun x hx => .works (hwork x hx)

theorem Finished.proper (h : s.Finished d o evs) : s.Proper d o evs := by
  obtain ⟨hlocated, hcomplete⟩ := h
  apply (hlocated.proper_work hcomplete.works).append
  intro x hx
  rw [List.mem_singleton.mp hx]
  exact .weighs (.closed false)

theorem Joining.proper (h : s.Joining d o evs) : s.Proper d o evs := by
  obtain ⟨hfinished⟩ := h
  apply hfinished.proper.append
  intro x hx
  rw [List.mem_cons, List.mem_singleton] at hx
  rcases hx with rfl | rfl
  · exact .weighs (.checked false)
  · exact .joins

/-- Nothing is known of the identifier before there is one: any answer could still give it. -/
theorem Unopened.proper (h : s.Unopened evs) (r : PrecreateReply) :
    Undigested evs ∨ ∃ d, s.Proper d (.issued r) evs := by
  cases h with
  | begun => exact .inl (.inr ⟨.created, rfl⟩)
  | @digested files d hd =>
    refine .inr ⟨d, ⟨files, hd, by simp⟩, fun x hx => ?_⟩
    rw [List.mem_cons, List.mem_singleton] at hx
    rcases hx with rfl | rfl
    · exact .entered
    · exact .digested files
  | @sought d files taken tries hsought =>
    exact .inr ⟨d, ⟨files, hsought.digests, by simp [prologue]⟩, hsought.happens r⟩

theorem Reached.proper (h : s.Reached evs) : Undigested evs ∨ ∃ d o, s.Proper d o evs := by
  cases h with
  | unopened hunopened =>
    rcases hunopened.proper { errno := 0 } with hnone | ⟨d, hproper⟩
    · exact .inl hnone
    · exact .inr ⟨d, _, hproper⟩
  | @rapid d files taken tries r hsought =>
    exact .inr ⟨d, .issued r, ⟨files, hsought.digests, by simp [prologue]⟩,
      hsought.happens_answered r⟩
  | located hlocated hworks hweighs =>
    exact .inr ⟨_, _, (hlocated.proper_work hworks).append fun x hx => .weighs (hweighs x hx)⟩
  | joining hjoining hsettles =>
    exact .inr ⟨_, _, hjoining.proper.append fun x hx => .settles (hsettles x hx)⟩

/-- Once a run has digested its file, all its events are in keeping with one way of coming by an
identifier. -/
theorem Course.proper (h : s.Course off stage evs) :
    Undigested evs ∨ ∃ d o, s.Proper d o evs := by
  rcases h.reached with (⟨-, hnil⟩ | ⟨found, _, -, hevs, -⟩) | hreached
  · exact .inl (.inl hnil)
  · exact .inl (.inr ⟨found, hevs⟩)
  · exact hreached.proper

/-- A run has one file and comes by one identifier. -/
theorem Proper.unique {d' : Digest.FileDigests} {o' : Origin} (h : s.Proper d o evs)
    (hdigested : ∃ files, .digested files d' ∈ evs) (horigin : o'.ComesFrom s d' evs) :
    d' = d ∧ o' = o := by
  obtain ⟨files, hmem⟩ := hdigested
  have hd : d' = d := by
    cases h.happens _ hmem with
    | digested _ => rfl
    | works hworks => cases hworks
    | weighs hweighs => cases hweighs
    | settles hsettles => cases hsettles
  subst hd
  refine ⟨rfl, ?_⟩
  cases o' with
  | taken r =>
    cases h.happens _ horigin.1 with
    | taken _ => rfl
    | unfit hunfit =>
      rw [Option.filter_some_pos horigin.2] at hunfit
      cases hunfit
    | works hworks => cases hworks
    | weighs hweighs => cases hweighs
    | settles hsettles => cases hsettles
  | issued r =>
    cases h.happens _ horigin.2.1 with
    | vain _ hvain => exact absurd rfl (hvain r)
    | issued _ => rfl
    | works hworks => cases hworks
    | weighs hweighs => cases hweighs
    | settles hsettles => cases hsettles

/-- No part is sent but those that are wanted. -/
theorem Proper.sends (h : s.Proper d o evs) {who : Option Nat} {url token : String}
    {q : SliceRequest} (hq : .called who (.slice url token q) ∈ evs) :
    ∃ c payload, s.Wants o c ∧ q = s.sliceRequest o c payload := by
  cases h.happens _ hq with
  | works hworks =>
    cases hworks with
    | called i hpending hsends =>
      cases hsends with
      | slice url payload => exact ⟨_, payload, mem_pending_job.mp hpending, rfl⟩
  | weighs hweighs => cases hweighs
  | settles hsettles => cases hsettles

/-- A run that has no identifier shows none. -/
theorem Unopened.not_comesFrom (h : s.Unopened evs) (hdigested : ∃ files, .digested files d ∈ evs) :
    ¬ o.ComesFrom s d evs := by
  intro horigin
  -- as any answer could still give the identifier, two that differ would have to be one
  rcases h.proper { errno := 0 } with hnone | ⟨d₀, hzero⟩
  · obtain ⟨files, hmem⟩ := hdigested
    rcases hnone with rfl | ⟨found, rfl⟩
    · cases hmem
    · cases List.mem_singleton.mp hmem
  · obtain ⟨rfl, rfl⟩ := hzero.unique hdigested horigin
    rcases h.proper { errno := 1 } with hnone | ⟨d₁, hone⟩
    · obtain ⟨files, hmem⟩ := hdigested
      rcases hnone with rfl | ⟨found, rfl⟩
      · cases hmem
      · cases List.mem_singleton.mp hmem
    · cases (hone.unique hdigested horigin).2

end Run.Setup

end ResumableUpload.Session
