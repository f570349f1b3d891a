import ResumableUpload.Proofs.Digest.Whole
import ResumableUpload.Proofs.Resume.Restored
import ResumableUpload.Proofs.Session.Content
import ResumableUpload.Proofs.Session.Handover

/-!
# A run's own record

All that a run does to the store it does under one key, that of the file it has digested
(`Run.Setup.Course.own`). So it leaves the records under all other keys as they were, and none under
its own if it ends with a commit (`History.Alone.spares`). The store that it leaves can be saved and
loaded if the one that it found could be (`History.Alone.tidy`), since the records that it saves are
of the sizes of its upload (`History.saved_fits`).
-/

namespace ResumableUpload.Session

namespace Event

variable {x : Event} {key : String}

theorem onRecord_of_ne (h : x.key? ≠ some key) (kept : Option Resume.Record) :
    x.onRecord key kept = kept := by
  cases x with
  | claimed k taken => exact if_neg fun hk => h (congrArg some hk)
  | saved k r => exact if_neg fun hk => h (congrArg some hk)
  | dropped k => exact if_neg fun hk => h (congrArg some hk)
  | _ => rfl

theorem foldl_onRecord_of_ne {evs : List Event} (h : ∀ x ∈ evs, x.key? ≠ some key)
    (kept : Option Resume.Record) : evs.foldl (onRecord key) kept = kept := by
  induction evs generalizing kept with
  | nil => rfl
  | cons x rest ih =>
    rw [List.foldl_cons, onRecord_of_ne (h x List.mem_cons_self),
      ih fun y hy => h y (List.mem_cons_of_mem x hy)]

theorem onStore_of_none (h : x.key? = none) (store : Resume.Store) : x.onStore store = store := by
  cases x with
  | claimed k taken => cases h
  | saved k r => cases h
  | dropped k => cases h
  | _ => rfl

theorem foldl_onStore_of_none {evs : List Event} (h : ∀ x ∈ evs, x.key? = none)
    (store : Resume.Store) : evs.foldl onStore store = store := by
  induction evs generalizing store with
  | nil => rfl
  | cons x rest ih =>
    rw [List.foldl_cons, onStore_of_none (h x List.mem_cons_self),
      ih fun y hy => h y (List.mem_cons_of_mem x hy)]

/-- What is done to a store that can be saved and loaded leaves one that can. -/
theorem tidy_foldl {evs : List Event} (hfits : ∀ key r, .saved key r ∈ evs → r.Fits)
    {store : Resume.Store} (h : store.Tidy) : (evs.foldl onStore store).Tidy := by
  induction evs generalizing store with
  | nil => exact h
  | cons x rest ih =>
    refine ih (fun key r hr => hfits key r (List.mem_cons_of_mem x hr)) ?_
    cases x with
    | claimed k taken => exact h.erase k
    | saved k r => exact h.insert k (hfits k r List.mem_cons_self)
    | dropped k => exact h.erase k
    | _ => exact h

end Event

namespace Run.Setup

variable {s : Setup} {d : Digest.FileDigests} {o : Origin} {evs : List Event} {off : Bool}
  {stage : Stage} {key : String}

theorem Happens.own {x : Event} (h : s.Happens d o x) (hkey : x.key? = some key) :
    key = s.key d := by
  cases h with
  | taken _ => exact (Option.some.inj hkey).symm
  | unfit _ => exact (Option.some.inj hkey).symm
  | works hworks => cases hworks <;> cases hkey
  | weighs hweighs =>
    cases hweighs with
    | saved r => exact (Option.some.inj hkey).symm
    | _ => cases hkey
  | settles hsettles =>
    cases hsettles with
    | dropped => exact (Option.some.inj hkey).symm
    | _ => cases hkey
  | _ => cases hkey

/-- A run uses the store under the key of the file it has digested, or not at all. -/
theorem Course.own (h : s.Course off stage evs) :
    (∀ x ∈ evs, x.key? = none) ∨ ∃ files d, s.Digests files d ∧ .digested files d ∈ evs ∧
      ∀ x ∈ evs, ∀ key, x.key? = some key → key = s.key d := by
  rcases h.proper with hnone | ⟨d, o, hproper⟩
  · refine .inl fun x hx => ?_
    rcases hnone with rfl | ⟨found, rfl⟩
    · cases hx
    · rw [List.mem_singleton.mp hx]
      rfl
  · obtain ⟨files, hd, hmem⟩ := hproper.digests
    exact .inr ⟨files, d, hd, hmem, fun x hx key hkey => (hproper.happens x hx).own hkey⟩

/-- What is digested is the file in the parts of the upload. -/
theorem Course.digests {files : Files} (h : s.Course off stage evs)
    (hd : .digested files d ∈ evs) : ∃ files, s.Digests files d ∧ .digested files d ∈ evs := by
  rcases h.proper with hnone | ⟨d', o, hproper⟩
  · rcases hnone with rfl | ⟨found, rfl⟩
    · cases hd
    · cases List.mem_singleton.mp hd
  · have hsame : d = d' := by
      cases hproper.happens _ hd with
      | digested => rfl
      | works hworks => cases hworks
      | weighs hweighs => cases hweighs
      | settles hsettles => cases hsettles
    subst hsame
    exact hproper.digests

/-- A run that ends with a commit has digested its file and leaves no record of it. -/
theorem Outcome.leavesNone {c : Commit} (h : s.Outcome (.ok c) evs) :
    ∃ files d, .digested files d ∈ evs ∧ s.Digests files d ∧
      ∀ kept, evs.foldl (Event.onRecord (s.key d)) kept = none := by
  cases h with
  | @rapid d files taken tries r _ hsought _ _ =>
    have hclaimed : .claimed (s.key d) taken ∈ s.prologue files d taken ++ tries
        ++ [.answered none (s.precreate d) (.precreate r)] := by simp [prologue]
    refine ⟨files, d, by simp [prologue], hsought.digests,
      fun _ => foldl_onRecord_claimed hclaimed fun r hr => ?_⟩
    rcases List.mem_append.mp hr with hr | hr
    · exact (hsought.early _ hr).not_saved
    · cases List.mem_singleton.mp hr
  | @joined d o joining r _ hjoining _ =>
    obtain ⟨files, hd, hmem⟩ := hjoining.proper.digests
    refine ⟨files, d, List.mem_append_left _ hmem, hd, fun kept => ?_⟩
    rw [List.foldl_append]
    exact if_pos rfl

end Run.Setup

/-! ## The records that are saved -/

/-- The sizes of an upload fit their words. -/
structure Run.Setup.Fits (s : Run.Setup) : Prop where
  totalSize : s.target.totalSize < 2 ^ 64
  partSize : s.plan.partSize < 2 ^ 64

/-- The time fits its word. -/
def TimeFits (now : Int) : Prop := -(2 ^ 63 : Int) ≤ now ∧ now < 2 ^ 63

/-- The clock shows a time that fits its word. -/
def World.ClockFits (w : World) : Prop := TimeFits w.clock

/-- If the clock is set, it is to a time that fits its word. -/
def Action.ClockFits : Action → Prop
  | .setClock now => TimeFits now
  | _ => True

theorem Run.Setup.count_plan_le (s : Run.Setup) : s.plan.count ≤ max 1 s.target.totalSize := by
  have hpos := s.settings.sizing.partSize_pos s.target.totalSize
  have hpieces : piecesOf s.target.totalSize _ ≤ s.target.totalSize := piecesOf_le hpos
  rw [plan, Sizing.plan, Plan.count_cut hpos]
  omega

/-- What tells of an upload whose sizes fit has sizes that fit. -/
theorem Run.Setup.Tells.recordFits {s : Run.Setup} {d : Digest.FileDigests} {o : Origin}
    {evs : List Event} {r : Resume.Record} (h : s.Tells d o evs r) (hs : s.Fits)
    (hsaved : TimeFits r.savedAt) : r.Fits where
  partSize := h.partSize ▸ hs.partSize
  totalSize := h.totalSize ▸ hs.totalSize
  pending n hn := by
    obtain ⟨c, hwants, rfl, -⟩ := (h.pending n).mp hn
    have hlt := s.numbered_plan.index_lt hwants.1
    have hcount := s.count_plan_le
    have htotal := hs.totalSize
    omega
  savedAt := hsaved

/-- The records that a run saves fit if the sizes of its upload do and the clock always does. -/
theorem TraceIn.savedFits {s : Run.Setup} {off : Bool} {stage : Stage} {evs : List Event}
    {key : String} {r : Resume.Record} (h : TraceIn World.ClockFits s off stage evs) (hs : s.Fits)
    (hsaved : .saved key r ∈ evs) : r.Fits := by
  induction h with
  | start => cases hsaved
  | turn w cancelled worker signal hclock htrace _ _ ih =>
    rcases List.mem_append.mp hsaved with hold | hnew
    · exact ih hold
    · obtain ⟨job, report, hstage, rfl, rfl⟩ := Run.Setup.saved_of_events hnew
      have hcourse := htrace.trace.course
      rw [hstage] at hcourse
      obtain ⟨d, o, located, work, hlocated, rfl, hworked, -⟩ := hcourse
      exact (hworked.tells w hlocated fun _ _ _ => List.not_mem_nil).recordFits hs hclock

namespace History

/-- What a run leaves of the records that it found. -/
structure Spares (h h' : History) (k : Nat) (s : Run.Setup) : Prop where
  /-- Records under other keys than that of its file stay as they are. -/
  others : ∀ key, (∀ files d, .digested files d ∈ h'.of k → s.key d ≠ key) →
    h'.engine.world.store.find? key = h.engine.world.store.find? key
  /-- Nothing happens to the store before the file is digested. -/
  undigested : (∀ files d, .digested files d ∉ h'.of k) →
    h'.engine.world.store = h.engine.world.store
  /-- A commit leaves no record of the file. -/
  committed : ∀ c, h'.engine.ending? k = some (.result (.ok c)) →
    ∃ files d, .digested files d ∈ h'.of k ∧ s.Digests files d ∧
      h'.engine.world.store.find? (s.key d) = none

variable {h : History} {as : List Action} {k : Nat}

/-- What is done while a run has the store to itself is done by the run. -/
theorem Alone.mem_of (halone : h.Alone as k) {entries : List Entry}
    (hjournal : (h.after as).journal = h.journal ++ entries) {x : Entry} (hx : x ∈ entries)
    (huses : x.event.usesStore = true) : x.event ∈ (h.after as).of k := by
  have hdrop : x ∈ (h.after as).journal.drop h.journal.length := by
    rwa [hjournal, List.drop_left]
  have hrun : x.run = k := by
    by_contra hne
    have hno := halone.others x hdrop hne
    rw [huses] at hno
    cases hno
  subst hrun
  exact mem_of.mpr (hjournal ▸ List.mem_append_right _ hx)

theorem usesStore_of_key? {x : Event} {key : String} (hkey : x.key? = some key) :
    x.usesStore = true := by
  cases x with
  | claimed k taken => rfl
  | saved k r => rfl
  | dropped k => rfl
  | _ => cases hkey

/-- A run that has the store to itself leaves one that can be saved and loaded, if it found one and
if the numbers of the records that it saves fit their words. -/
theorem Alone.tidy (halone : h.Alone as k)
    (hfits : ∀ key r, .saved key r ∈ (h.after as).of k → r.Fits)
    (htidy : h.engine.world.store.Tidy) : (h.after as).engine.world.store.Tidy := by
  obtain ⟨entries, hjournal, hstore⟩ := store_after h as halone.reload
  rw [hstore]
  refine Event.tidy_foldl (fun key r hr => ?_) htidy
  obtain ⟨x, hx, heq⟩ := List.mem_map.mp hr
  exact hfits key r (heq ▸ halone.mem_of hjournal hx (by rw [heq]; rfl))

theorem clockFits_next (h : History) {a : Action} (ha : a.ClockFits)
    (hclock : h.engine.world.ClockFits) : (h.next a).engine.world.ClockFits := by
  have hsame : ∀ w, h.engine.world.SameAround w → w.ClockFits := fun w hw => by
    rw [World.ClockFits, hw.clock]
    exact hclock
  cases a with
  | signal t sig => exact hsame _ (around_signal h t sig)
  | setClock now => exact ha
  | addSharingUploader settings other =>
    show (h.engine.addSharingUploader settings other).1.world.ClockFits
    unfold Engine.addSharingUploader
    split <;> exact hclock
  | cancel handle => exact hsame _ (World.around_withHandle _ _ _)
  | invalidate resolver => exact hsame _ (World.same_withResolver _ _ _).around
  | age resolver nanos => exact hsame _ (World.same_withResolver _ _ _).around
  | reload path =>
    show (h.engine.world.reload path).ClockFits
    unfold World.reload
    split
    · exact hclock
    · split <;> exact hclock
  | _ => exact hclock

theorem clockFits_after (h : History) (as : List Action) (has : ∀ a ∈ as, a.ClockFits)
    (hclock : h.engine.world.ClockFits) : (h.after as).engine.world.ClockFits := by
  induction as generalizing h with
  | nil => exact hclock
  | cons a rest ih =>
    exact ih (h.next a) (fun b hb => has b (List.mem_cons_of_mem a hb))
      (clockFits_next h (has a List.mem_cons_self) hclock)

/-- A run whose sizes fit saves records whose numbers fit, while the clock fits. -/
theorem saved_fits (w : World) (as : List Action) {s : Run.Setup}
    (hs : ((start w).after as).setup? k = some s) (hfits : s.Fits) (hclock : w.ClockFits)
    (has : ∀ a ∈ as, a.ClockFits) {key : String} {r : Resume.Record}
    (hsaved : .saved key r ∈ ((start w).after as).of k) : r.Fits := by
  have hmeets : Meets World.ClockFits (start w) as k := by
    rintro done more worker sig rfl cancels
    rw [World.ClockFits, (World.around_cancelAll _ cancels).clock]
    exact clockFits_after (start w) done (fun a ha => has a (List.mem_append_left _ ha)) hclock
  obtain ⟨run, hrun, hs⟩ := Option.bind_eq_some_iff.mp hs
  obtain ⟨off, htrace, -⟩ := followsIn w as hmeets run s hrun hs
  exact htrace.savedFits hfits hsaved

/-- A file that stays as it is while a run uploads it gives the run its key. -/
theorem key_of_unchanged (w : World) {s : Run.Setup} (hs : ((start w).after as).setup? k = some s)
    {content : ByteArray} (hfile : Unchanged (start w) as k s.target.localPath content)
    (hsize : content.size = s.target.totalSize) {files : Files} {d : Digest.FileDigests}
    (hd : .digested files d ∈ ((start w).after as).of k) :
    s.key d = Resume.key s.target.remotePath (Digest.md5 content) := by
  obtain ⟨r, hr, hs⟩ := Option.bind_eq_some_iff.mp hs
  obtain ⟨off, htrace, -⟩ := followsIn w as hfile.meets r s hr hs
  obtain ⟨files, hdigests, hmem⟩ := htrace.trace.course.digests hd
  obtain ⟨writable, hfind⟩ := htrace.digested hmem
  have hplan : Digest.ofFile files s.target.localPath (s.settings.sizing.plan content.size)
      = .ok d := hsize ▸ hdigests
  rw [Run.Setup.key, Digest.contentMd5_ofFile s.settings.sizing hfind hplan]

/-- Every run of a history uses the store under the key of its file, or not at all. -/
theorem own (w : World) (as : List Action) {s : Run.Setup}
    (hs : ((start w).after as).setup? k = some s) :
    (∀ x ∈ ((start w).after as).of k, x.key? = none) ∨ ∃ files d,
      .digested files d ∈ ((start w).after as).of k ∧
        ∀ x ∈ ((start w).after as).of k, ∀ key, x.key? = some key → key = s.key d := by
  obtain ⟨r, hr, hs⟩ := Option.bind_eq_some_iff.mp hs
  obtain ⟨off, htrace, -⟩ := trace w as hr hs
  rcases htrace.course.own with hnone | ⟨files, d, -, hdigested, hall⟩
  · exact .inl hnone
  · exact .inr ⟨files, d, hdigested, hall⟩

/-- While a run has the store to itself, records stay as they are under all keys but that of its
file. -/
theorem Alone.spares_others {w : World} {first rest : List Action} {s : Run.Setup}
    (halone : ((start w).after first).Alone rest k)
    (hs : (((start w).after first).after rest).setup? k = some s) {key : String}
    (hkey : ∀ files d, .digested files d ∈ (((start w).after first).after rest).of k →
      s.key d ≠ key) :
    (((start w).after first).after rest).engine.world.store.find? key
      = ((start w).after first).engine.world.store.find? key := by
  rw [← after_append] at hs hkey
  obtain ⟨more, hmore, hstore⟩ := halone.find? key
  rw [← after_append] at hmore
  rw [hstore]
  refine Event.foldl_onRecord_of_ne (fun x hx heq => ?_) _
  have hmem : x ∈ ((start w).after (first ++ rest)).of k := hmore ▸ List.mem_append_right _ hx
  rcases own w (first ++ rest) hs with hnone | ⟨files, d, hdigested, hall⟩
  · rw [hnone x hmem] at heq
    cases heq
  · exact hkey files d hdigested (hall x hmem key heq).symm

/-- For the length of one step of its task or of a worker, a run has the store to itself. -/
theorem alone_signal (h : History) (k : Nat) (worker : Option Nat) (sig : Signal) :
    h.Alone [.signal ⟨k, worker⟩ sig] k where
  reload path hmem := nomatch List.mem_singleton.mp hmem
  others x hx hne := by
    have hentries : (h.after [.signal ⟨k, worker⟩ sig]).journal.drop h.journal.length
        = (h.engine.events ⟨k, worker⟩ sig).map (⟨k, ·⟩) := List.drop_left
    rw [hentries] at hx
    obtain ⟨_, -, rfl⟩ := List.mem_map.mp hx
    exact absurd rfl hne

/-- If the store was loaded, it can be saved and loaded after a run that has had it to itself. -/
theorem Alone.load_save {w : World} {first rest : List Action} {s : Run.Setup}
    (halone : ((start w).after first).Alone rest k)
    (hs : (((start w).after first).after rest).setup? k = some s) (hfits : s.Fits)
    (hclock : w.ClockFits) (hclocks : ∀ a ∈ first ++ rest, a.ClockFits) {before : Files}
    {path : String} {lines : List LogLine}
    (hload : Resume.Store.load before path
      = .ok (((start w).after first).engine.world.store, lines)) {files files' : Files}
    (hsave : (((start w).after first).after rest).engine.world.store.save files path
      = (files', none)) :
    ∃ lines, Resume.Store.load files' path
      = .ok ((((start w).after first).after rest).engine.world.store, lines) := by
  refine Resume.Store.load_save ?_ hsave
  refine halone.tidy (fun key r hsaved => ?_) (Resume.Store.tidy_of_load hload)
  rw [← after_append] at hs hsaved
  exact saved_fits w _ hs hfits hclock hclocks hsaved

/-- A run that has the store to itself leaves it as it is before it has digested its file. -/
theorem Alone.store_of_undigested {w : World} {first rest : List Action} {s : Run.Setup}
    (halone : ((start w).after first).Alone rest k)
    (hs : (((start w).after first).after rest).setup? k = some s)
    (hno : ∀ files d, .digested files d ∉ (((start w).after first).after rest).of k) :
    (((start w).after first).after rest).engine.world.store
      = ((start w).after first).engine.world.store := by
  obtain ⟨entries, hjournal, hstore⟩ := store_after _ rest halone.reload
  rw [hstore]
  refine Event.foldl_onStore_of_none (fun e he => ?_) _
  obtain ⟨x, hx, rfl⟩ := List.mem_map.mp he
  cases hkey : x.event.key? with
  | none => rfl
  | some key =>
    have hmem := halone.mem_of hjournal hx (usesStore_of_key? hkey)
    rw [← after_append] at hs hmem hno
    rcases own w (first ++ rest) hs with hnone | ⟨files, d, hdigested, -⟩
    · rw [hnone _ hmem] at hkey
      cases hkey
    · exact absurd hdigested (hno files d)

/-- A run that has had the store to itself leaves no record of its file if it ends with a commit. -/
theorem Alone.none_of_committed {w : World} {first rest : List Action} {s : Run.Setup}
    (halone : ((start w).after first).Alone rest k)
    (hs : (((start w).after first).after rest).setup? k = some s)
    (hbegun : ((start w).after first).of k = []) {c : Commit}
    (hend : (((start w).after first).after rest).engine.ending? k = some (.result (.ok c))) :
    ∃ files d, .digested files d ∈ (((start w).after first).after rest).of k ∧
      s.Digests files d ∧
      (((start w).after first).after rest).engine.world.store.find? (s.key d) = none := by
  rw [← after_append] at hend
  obtain ⟨s', off, hs', -, hcourse⟩ := outcome w (first ++ rest) hend
  rw [after_append] at hs' hcourse
  obtain rfl : s' = s := Option.some.inj (hs'.symm.trans hs)
  rcases hcourse with houtcome | ⟨_, _, -, -, hresult⟩
  · obtain ⟨files, d, hdigested, hd, hnone⟩ := houtcome.leavesNone
    obtain ⟨more, hmore, hstore⟩ := halone.find? (s'.key d)
    rw [hbegun, List.nil_append] at hmore
    refine ⟨files, d, hdigested, hd, ?_⟩
    rw [hstore, ← hmore]
    exact hnone _
  · cases hresult

/-- A run that has the store to itself touches no record but that of its file. -/
theorem Alone.spares {w : World} {first rest : List Action} {s : Run.Setup}
    (halone : ((start w).after first).Alone rest k)
    (hs : (((start w).after first).after rest).setup? k = some s)
    (hbegun : ((start w).after first).of k = []) :
    Spares ((start w).after first) (((start w).after first).after rest) k s where
  others _ hkey := halone.spares_others hs hkey
  undigested hno := halone.store_of_undigested hs hno
  committed _ hend := halone.none_of_committed hs hbegun hend

end History

end ResumableUpload.Session
