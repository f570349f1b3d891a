import ResumableUpload.Proofs.Session.Commit
import ResumableUpload.Proofs.Session.Ledger

/-!
# What a cancelled run keeps

A run takes the resume record of its file out of the store before it goes on with the upload. If it
is cancelled, a record that says how far it has come (`Run.Setup.Tells`) is put back when the run
looks at what its workers report, and only then: a run that is cancelled while it looks for a host,
or at its last look at the token, leaves nothing in the store (`History.kept_or_lost`).
-/

namespace ResumableUpload.Session

section decidable

/-- Bytes are compared in this way whatever else is imported. -/
local instance decidableEqBytes : DecidableEq ByteArray := ByteArray.instDecidableEq

deriving instance DecidableEq for Node, Files, SliceRequest, Call, Reply, Event, Entry, Run.Setup

end decidable

namespace Sample

/-- What the run goes by. -/
def setup : Run.Setup := ⟨0, target, { useDynamicUploadApi := false }, 0⟩

/-- The digests of the file. -/
def digests : Digest.FileDigests :=
  ⟨"55a54008ad1ba589aa210d2629c1df41", "55a54008ad1ba589aa210d2629c1df41",
    ["55a54008ad1ba589aa210d2629c1df41"]⟩

/-- The session is cancelled when the run has the identifier and has yet to look for a host. -/
def cancelledOpening : List Action := opened ++ [.cancel 0, go, go]

/-- What happens in a run that has the identifier and has yet to look for a host. -/
def openedEvents : List Event :=
  setup.prologue world.files digests none ++ [.called none (setup.precreate digests),
    .answered none (setup.precreate digests) (.precreate { errno := 0, uploadId := "U" })]

end Sample

namespace Run.Setup

variable {s : Setup} {d : Digest.FileDigests} {o : Origin} {evs : List Event}

/-! ## What a record tells -/

/-- The record says how far a run has come: which parts were wanted and are not answered. -/
structure Tells (s : Setup) (d : Digest.FileDigests) (o : Origin) (evs : List Event)
    (r : Resume.Record) : Prop where
  uploadId : r.uploadId = o.uploadId
  partSize : r.partSize = s.plan.partSize
  totalSize : r.totalSize = s.target.totalSize
  blockList : r.blockList = d.blockList
  increasing : r.pending.Pairwise (· < ·)
  pending : ∀ n, n ∈ r.pending ↔ ∃ c, s.Wants o c ∧ c.index = n ∧ ¬ s.Answered o evs c

variable {off : Bool} {report : PoolReport} {located work tail : List Event}

/-- All parts that were answered were answered to the workers of the run. -/
theorem answered_iff (hlocated : s.Located d o located)
    (hworked : Worked off (o.job s d) report work)
    (htail : ∀ i c r, .answered (some i) c r ∉ tail) {c : Chunk} (hc : s.Wants o c) :
    s.Answered o (located ++ work ++ tail) c ↔ Acknowledged (o.job s d) work c.index := by
  constructor
  · rintro ⟨i, url, payload, r, hmem⟩
    rw [List.mem_append, List.mem_append] at hmem
    rcases hmem with (hmem | hmem) | hmem
    · cases hlocated.early _ hmem
    · exact ⟨i, url, payload, c, r, rfl, hmem⟩
    · exact absurd hmem (htail i _ _)
  · intro hack
    obtain ⟨pool, hworking, -⟩ := hworked
    have hn : (o.job s d).plan.Numbered := o.numbered_plan s.numbered_plan
    have hpending := Plan.mem_chunks_of_mem_pending (mem_pending_job (d := d).mpr hc)
    obtain ⟨i, url, payload, r, hmem⟩ := answered_of_acknowledged hn hworking.works hpending hack
    exact ⟨i, url, payload, r, List.mem_append_left _ (List.mem_append_right _ hmem)⟩

/-- The record that a cancelled run saves says how far the run has come. -/
theorem Worked.tells (w : World) (hlocated : s.Located d o located)
    (hworked : Worked off (o.job s d) report work)
    (htail : ∀ i c r, .answered (some i) c r ∉ tail) :
    s.Tells d o (located ++ work ++ tail)
      (s.record w { o.job s d with plan := marked (o.job s d).plan report }) := by
  have hn : (o.job s d).plan.Numbered := o.numbered_plan s.numbered_plan
  have hmarked : (marked (o.job s d).plan report).Numbered := by
    rw [marked_eq_markAll]
    exact hn.markAll _
  refine ⟨rfl, ?_, rfl, rfl, hmarked.pairwise_pending, fun n => ?_⟩
  · show (marked (o.job s d).plan report).partSize = s.plan.partSize
    rw [marked_eq_markAll, (Plan.sizes_markAll _ _).2]
    exact o.partSize_plan s.plan
  · show n ∈ (marked (o.job s d).plan report).pending.map Chunk.index ↔ _
    rw [List.mem_map]
    constructor
    · rintro ⟨c, hc, rfl⟩
      obtain ⟨hpending, hack⟩ := (hworked.pending_marked hn).mp hc
      have hwants := mem_pending_job.mp hpending
      refine ⟨c, hwants, rfl, fun hans => ?_⟩
      exact hack ((answered_iff hlocated hworked htail hwants).mp hans)
    · rintro ⟨c, hwants, rfl, hans⟩
      refine ⟨c, (hworked.pending_marked hn).mpr ⟨mem_pending_job.mpr hwants, fun hack => ?_⟩, rfl⟩
      exact hans ((answered_iff hlocated hworked htail hwants).mpr hack)

/-! ## How a cancelled run ends -/

/-- What a cancelled run with an identifier leaves behind. -/
inductive Left (s : Setup) (d : Digest.FileDigests) (o : Origin) : List Event → Prop
  -- it has put a record back that says how far it has come
  | kept {evs : List Event} {r : Resume.Record} : .closed true ∈ evs →
      s.Tells d o (evs ++ [.saved (s.key d) r]) r → Left s d o (evs ++ [.saved (s.key d) r])
  -- it has put no record back
  | lost {evs : List Event} : .closed true ∉ evs → (∀ key r, .saved key r ∉ evs) → Left s d o evs

theorem Early.not_closed {b : Bool} : ¬ s.Early d (.closed b) := by
  intro h
  cases h

theorem Early.not_saved {key : String} {r : Resume.Record} : ¬ s.Early d (.saved key r) := by
  intro h
  cases h

theorem Located.left (h : s.Located d o evs) : s.Left d o evs :=
  .lost (fun hmem => (h.early _ hmem).not_closed) fun _ _ hmem => (h.early _ hmem).not_saved

theorem Finished.left (h : s.Finished d o evs) : s.Left d o (evs ++ [.checked true]) := by
  obtain ⟨hlocated, hcomplete⟩ := h
  refine .lost (fun hmem => ?_) fun key r hmem => ?_
  · rw [List.mem_append, List.mem_append, List.mem_append] at hmem
    rcases hmem with ((hmem | hmem) | hmem) | hmem
    · exact (hlocated.early _ hmem).not_closed
    · cases hcomplete.works _ hmem
    · cases List.mem_singleton.mp hmem
    · cases List.mem_singleton.mp hmem
  · rw [List.mem_append, List.mem_append, List.mem_append] at hmem
    rcases hmem with ((hmem | hmem) | hmem) | hmem
    · exact (hlocated.early _ hmem).not_saved
    · cases hcomplete.works _ hmem
    · cases List.mem_singleton.mp hmem
    · cases List.mem_singleton.mp hmem

/-- A run that had come by an identifier and was cancelled before it joined the parts. -/
theorem Outcome.left (h : s.Outcome (.error .cancelled) evs)
    (hdigested : ∃ files, .digested files d ∈ evs) (horigin : o.ComesFrom s d evs)
    (hunjoined : Unjoined evs) : s.Left d o evs := by
  cases h with
  | unopened _ hunopened => exact absurd horigin (hunopened.not_comesFrom hdigested)
  | stranded _ hlocated =>
    obtain ⟨rfl, rfl⟩ := hlocated.proper.unique hdigested horigin
    exact hlocated.left
  | @kept d' o' located work report w hlocated hworked =>
    have hproper : s.Proper d' o' (located ++ work ++ [.closed true, .saved (s.key d')
        (s.record w { o'.job s d' with plan := marked (o'.job s d').plan report })]) := by
      obtain ⟨pool, hworking, -⟩ := hworked
      apply (hlocated.proper_work hworking.works).append
      intro x hx
      rw [List.mem_cons, List.mem_singleton] at hx
      rcases hx with rfl | rfl
      · exact .weighs (.closed true)
      · exact .weighs (.saved _)
    obtain ⟨rfl, rfl⟩ := hproper.unique hdigested horigin
    rw [List.append_cons]
    refine .kept (List.mem_append_right _ List.mem_cons_self) ?_
    rw [← List.append_cons]
    exact hworked.tells w hlocated fun i c r hmem => by simp at hmem
  | failed _ _ hf => exact absurd rfl hf
  | @withdrawn d' o' finished hfinished =>
    have hproper : s.Proper d' o' (finished ++ [.checked true]) := by
      apply hfinished.proper.append
      intro x hx
      rw [List.mem_singleton.mp hx]
      exact .weighs (.checked true)
    obtain ⟨rfl, rfl⟩ := hproper.unique hdigested horigin
    exact hfinished.left
  | @unjoined d' o' joining answers f hjoining _ =>
    have hnone : Unjoined joining := fun x hx => hunjoined x (List.mem_append_left _ hx)
    have honce := hjoining.joinedOnce.once
    rw [hnone.countP] at honce
    cases honce

end Run.Setup

namespace History

/-- For the length of some actions a run has the store to itself: no other run uses it, and it does
not go through a file. -/
structure Alone (h : History) (as : List Action) (run : Nat) : Prop where
  reload : ∀ path, .reload path ∉ as
  others : ∀ x ∈ (h.after as).journal.drop h.journal.length,
    x.run ≠ run → x.event.usesStore = false

/-- A run that has the store to itself makes of it what its own events say. -/
theorem Alone.find? {h : History} {as : List Action} {k : Nat} (halone : h.Alone as k)
    (key : String) :
    ∃ more, (h.after as).of k = h.of k ++ more ∧
      (h.after as).engine.world.store.find? key
        = more.foldl (Event.onRecord key) (h.engine.world.store.find? key) := by
  obtain ⟨entries, hjournal, hstore⟩ := store_after h as halone.reload
  have hothers : ∀ x ∈ entries, x.run ≠ k → x.event.usesStore = false := by
    intro x hx
    refine halone.others x ?_
    rwa [hjournal, List.drop_left]
  refine ⟨entries.filterMap fun x => if x.run = k then some x.event else none, ?_, ?_⟩
  · rw [of, of, hjournal, List.filterMap_append]
  · rw [hstore, find?_foldl, foldl_onRecord_of key k entries _ hothers]

/-- When a run that has come by an identifier is cancelled before it joins the parts, and no other
uses the store meanwhile, then a record of how far it has come is kept exactly if the run was found
cancelled when it looked at what its workers report. Otherwise nothing is kept: what the run had
taken out of the store is lost. -/
theorem kept_or_lost (w : World) (first rest : List Action) (k : Nat) (s : Run.Setup)
    (d : Digest.FileDigests) (o : Origin)
    (hs : (((start w).after first).after rest).setup? k = some s)
    (hfirst : ∀ key taken, .claimed key taken ∉ ((start w).after first).of k)
    (halone : ((start w).after first).Alone rest k)
    (hdigested : ∃ files, .digested files d ∈ (((start w).after first).after rest).of k)
    (horigin : o.ComesFrom s d ((((start w).after first).after rest).of k))
    (hunjoined : ∀ x ∈ (((start w).after first).after rest).of k, x.isCreate = false)
    (hend : (((start w).after first).after rest).engine.ending? k
      = some (.result (.error .cancelled))) :
    let h := ((start w).after first).after rest
    let kept := h.engine.world.store.find? (s.key d)
    ((∃ r, kept = some r ∧ s.Tells d o (h.of k) r) ↔ .closed true ∈ h.of k) ∧
      (.closed true ∉ h.of k → kept = none) := by
  obtain ⟨more, hmore, hstore⟩ := halone.find? (s.key d)
  rw [← after_append] at *
  obtain ⟨s', off, hs', -, hcourse⟩ := outcome w (first ++ rest) hend
  have heq : s' = s := Option.some.inj (hs'.symm.trans hs)
  subst heq
  intro h kept
  -- the record was taken after the first actions, so what was in the store then does not matter
  have hclaimed : ∃ taken, .claimed (s'.key d) taken ∈ more := by
    have hmem : ∃ taken, .claimed (s'.key d) taken ∈ h.of k := by
      cases o with
      | taken r => exact ⟨some r, horigin.1⟩
      | issued r =>
        obtain ⟨⟨taken, hmem, -⟩, -⟩ := horigin
        exact ⟨taken, hmem⟩
    obtain ⟨taken, hmem⟩ := hmem
    rw [hmore] at hmem
    exact ⟨taken, (List.mem_append.mp hmem).resolve_left (hfirst _ taken)⟩
  obtain ⟨taken, htaken⟩ := hclaimed
  have hleft : s'.Left d o (h.of k) := by
    rcases hcourse with houtcome | ⟨_, _, -, -, hresult⟩
    · exact houtcome.left hdigested horigin hunjoined
    · cases hresult
  generalize hevs : h.of k = evs at *
  cases hleft with
  | @kept evs r hclosed htells =>
    have hlast : kept = some r := by
      have hsplit := List.dropLast_concat_getLast (List.ne_nil_of_mem htaken)
      rw [← hsplit, ← List.append_assoc, List.append_singleton_inj] at hmore
      show h.engine.world.store.find? (s'.key d) = some r
      rw [hstore, ← hsplit, ← hmore.2]
      exact foldl_onRecord_saved _ r _
    have hmem : .closed true ∈ evs ++ [.saved (s'.key d) r] := List.mem_append_left _ hclosed
    exact ⟨⟨fun _ => hmem, fun _ => ⟨r, hlast, htells⟩⟩, fun hno => absurd hmem hno⟩
  | lost hclosed hsaved =>
    have hnone : kept = none := by
      show h.engine.world.store.find? (s'.key d) = none
      rw [hstore]
      refine foldl_onRecord_claimed htaken fun r hr => hsaved (s'.key d) r ?_
      rw [hmore]
      exact List.mem_append_right _ hr
    refine ⟨⟨?_, fun hmem => absurd hmem hclosed⟩, fun _ => hnone⟩
    rintro ⟨r, hr, -⟩
    rw [hnone] at hr
    cases hr

/-- A run that is cancelled before it has found a host: its identifier is lost. -/
theorem kept_or_lost_opening :
    (((start Sample.world).after []).after Sample.cancelledOpening).engine.ending? 0
        = some (.result (.error .cancelled)) ∧
      (((start Sample.world).after []).after Sample.cancelledOpening).engine.world.store.find?
        (Sample.setup.key Sample.digests) = none := by
  have hreload : ∀ path, .reload path ∉ Sample.cancelledOpening := by
    simp [Sample.cancelledOpening, Sample.opened, Sample.go, Sample.reply]
  -- the history is worked out once; all that is asked of its events is read off the journal
  obtain ⟨hend, hs, hjournal⟩ :
      (((start Sample.world).after []).after Sample.cancelledOpening).engine.ending? 0
        = some (.result (.error .cancelled)) ∧
      (((start Sample.world).after []).after Sample.cancelledOpening).setup? 0
        = some Sample.setup ∧
      (((start Sample.world).after []).after Sample.cancelledOpening).journal
        = Sample.openedEvents.map (⟨0, ·⟩) := by decide +kernel
  have hevs : (((start Sample.world).after []).after Sample.cancelledOpening).of 0
      = Sample.openedEvents := by
    rw [of, hjournal, List.filterMap_map]
    exact List.filterMap_some
  have hothers : ∀ x ∈ Sample.openedEvents.map (Entry.mk 0), x.run ≠ 0 →
      x.event.usesStore = false := by
    intro x hx hrun
    obtain ⟨e, -, rfl⟩ := List.mem_map.mp hx
    exact absurd rfl hrun
  have hclosed : .closed true ∉ Sample.openedEvents := by
    simp [Sample.openedEvents, Run.Setup.prologue]
  have hunjoined : ∀ x ∈ Sample.openedEvents, x.isCreate = false := by
    simp [Sample.openedEvents, Run.Setup.prologue, Event.isCreate, Run.Setup.precreate]
  refine ⟨hend, (kept_or_lost Sample.world [] Sample.cancelledOpening 0 Sample.setup Sample.digests
    (.issued { errno := 0, uploadId := "U" }) hs (fun key taken hmem => List.not_mem_nil hmem)
    ⟨hreload, ?_⟩ ?_ ?_ ?_ hend).2 ?_⟩
  · rw [hjournal]
    exact hothers
  · rw [hevs]
    exact ⟨Sample.world.files, by simp [Sample.openedEvents, Run.Setup.prologue]⟩
  · rw [hevs]
    exact ⟨⟨none, by simp [Sample.openedEvents, Run.Setup.prologue], rfl⟩,
      by simp [Sample.openedEvents], rfl⟩
  · rwa [hevs]
  · rwa [hevs]

end History

end ResumableUpload.Session
