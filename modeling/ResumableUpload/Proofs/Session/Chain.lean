import ResumableUpload.Proofs.Resume.Saved
import ResumableUpload.Proofs.Session.Kept

/-!
# Runs that go on where others were cancelled

A record in the store is as good as the upload it comes from: every part that it does not list as
pending was answered under its identifier by the server, or was not asked for when the identifier
was issued (`Sound`). That is so however many cancelled runs led to it, each going on with the
record of the one before, and whether or not the store went through a file in between
(`History.records`). A run that goes on with a record sends what the record lists and asks for the
file to be joined as any run would (`Run.Setup.Course.proper`).
-/

namespace ResumableUpload.Session

/-! ## Sound records -/

/-- The journal shows why a part need not be sent: it was sent under the identifier and answered, or
the answer that issued the identifier did not ask for it. -/
def Accounted (journal : List Entry) (path uploadId : String) (n : Nat) : Prop :=
  (∃ run i url token q reply,
    ⟨run, .answered (some i) (.slice url token q) (.slice reply)⟩ ∈ journal ∧
      q.path = path ∧ q.uploadId = uploadId ∧ q.partseq = n) ∨
  ∃ run token q reply, ⟨run, .answered none (.precreate token q) (.precreate reply)⟩ ∈ journal ∧
    q.path = path ∧ reply.isRapid = false ∧ reply.uploadId = uploadId ∧ reply.blockList ≠ [] ∧
      n ∉ reply.blockList

/-- A record for a file on the server that tells the truth. -/
structure Sound (journal : List Entry) (path : String) (r : Resume.Record) : Prop where
  bounded : ∀ n ∈ r.pending, n < (Plan.cut r.totalSize r.partSize).count
  increasing : r.pending.Pairwise (· < ·)
  accounted : ∀ n, n < (Plan.cut r.totalSize r.partSize).count → n ∉ r.pending →
    Accounted journal path r.uploadId n

/-- The record tells the truth about the file that its key names. -/
def SoundUnder (journal : List Entry) (key : String) (r : Resume.Record) : Prop :=
  ∃ path md5, md5.length = 32 ∧ key = Resume.key path md5 ∧ Sound journal path r

variable {journal : List Entry} {path uploadId key : String} {r : Resume.Record} {n : Nat}

theorem Accounted.append (h : Accounted journal path uploadId n) (more : List Entry) :
    Accounted (journal ++ more) path uploadId n := by
  rcases h with ⟨run, i, url, token, q, reply, hmem, hrest⟩ | ⟨run, token, q, reply, hmem, hrest⟩
  · exact .inl ⟨run, i, url, token, q, reply, List.mem_append_left more hmem, hrest⟩
  · exact .inr ⟨run, token, q, reply, List.mem_append_left more hmem, hrest⟩

theorem SoundUnder.append (h : SoundUnder journal key r) (more : List Entry) :
    SoundUnder (journal ++ more) key r := by
  obtain ⟨path, md5, hlength, hkey, hbounded, hincreasing, haccounted⟩ := h
  refine ⟨path, md5, hlength, hkey, hbounded, hincreasing, fun n hn hno => ?_⟩
  exact (haccounted n hn hno).append more

namespace Run.Setup

variable {s : Setup} {d : Digest.FileDigests} {o : Origin} {evs : List Event} {off : Bool}
  {stage : Stage} {w : World} {cancelled : Bool} {worker : Option Nat} {sig : Signal}

/-- A record that fits the plan of a run is for the same parts. -/
theorem cut_eq_plan (hpart : r.partSize = s.plan.partSize)
    (htotal : r.totalSize = s.target.totalSize) :
    Plan.cut r.totalSize r.partSize = s.plan := by
  have hplan : s.plan.partSize = s.settings.sizing.partSize s.target.totalSize :=
    Plan.partSize_cut _ _
  rw [hpart, htotal, hplan]
  rfl

/-- The events of a run stand in the journal. -/
def InJournal (journal : List Entry) (k : Nat) (evs : List Event) : Prop :=
  ∀ x ∈ evs, ⟨k, x⟩ ∈ journal

/-- What a run saves is sound if what it took was. -/
theorem Tells.sound {k : Nat} (h : s.Tells d o evs r) (hjournal : InJournal journal k evs)
    (hdigested : ∃ files, s.Digests files d) (horigin : o.ComesFrom s d evs)
    (htaken : ∀ old, o = .taken old → SoundUnder journal (s.key d) old) :
    SoundUnder journal (s.key d) r := by
  obtain ⟨files, hd⟩ := hdigested
  have hlength : d.contentMd5.length = 32 := Digest.length_contentMd5 hd
  have hcut := cut_eq_plan h.partSize h.totalSize
  refine ⟨s.target.remotePath, d.contentMd5, hlength, rfl, fun n hn => ?_, h.increasing, ?_⟩
  · obtain ⟨c, hwants, rfl, -⟩ := (h.pending n).mp hn
    rw [hcut]
    exact s.numbered_plan.index_lt hwants.1
  · intro n hn hno
    rw [hcut] at hn
    rw [h.uploadId]
    obtain ⟨c, hc, rfl⟩ := s.numbered_plan.exists_index hn
    by_cases hwants : c.index ∈ o.wanted s.plan.count
    · -- a part that was wanted and is not pending was answered in this run
      have hans : s.Answered o evs c := by
        by_cases hans : s.Answered o evs c
        · exact hans
        · exact absurd ((h.pending c.index).mpr ⟨c, ⟨hc, hwants⟩, rfl, hans⟩) hno
      obtain ⟨i, url, payload, reply, hmem⟩ := hans
      exact .inl ⟨k, i, url, _, _, reply, hjournal _ hmem, rfl, rfl, rfl⟩
    · cases o with
      | taken old =>
        obtain ⟨path, md5, hlength', hkey, hold⟩ := htaken old rfl
        have hpath : s.target.remotePath = path :=
          Resume.path_of_key (hlength.trans hlength'.symm) hkey
        have hfits := horigin.2
        simp only [fits, Bool.and_eq_true, beq_iff_eq] at hfits
        have hcut' := cut_eq_plan hfits.1.1 hfits.1.2
        rw [hpath]
        exact hold.accounted c.index (by rwa [hcut']) hwants
      | issued reply =>
        have hblocks : reply.blockList ≠ [] ∧ c.index ∉ reply.blockList := by
          simp only [Origin.wanted] at hwants
          split at hwants
          · exact absurd (List.mem_range.mpr hn) hwants
          · next hne => exact ⟨by simpa using hne, hwants⟩
        exact .inr ⟨k, _, _, reply, hjournal _ horigin.2.1, rfl, horigin.2.2, rfl, hblocks⟩

/-! ## Steps that use the store -/

theorem claimed_of_events {taken : Option Resume.Record}
    (h : .claimed key taken ∈ s.events w cancelled worker stage sig) :
    taken = w.store.find? key := by
  cases arises_of_events h with
  | claimed _ _ => rfl

/-- A record is saved when a run looks at what its workers report. -/
theorem saved_of_events (h : .saved key r ∈ s.events w cancelled worker stage sig) :
    ∃ job report, stage = .closing job report ∧ key = s.key job.digests ∧
      r = s.record w { job with plan := marked job.plan report } := by
  cases arises_of_events h with
  | saved job report => exact ⟨job, report, rfl, rfl, rfl⟩

/-! ## What a run that goes on with a record calls -/

/-- A run that goes on with a record calls for nothing but hosts, the parts that the record lists,
and the joining of the parts under its identifier. -/
theorem Course.resumed (h : s.Course off stage evs) (hdigested : ∃ files, .digested files d ∈ evs)
    (hclaimed : .claimed (s.key d) (some r) ∈ evs) (hfits : s.fits s.plan d r = true) :
    s.Proper d (.taken r) evs := by
  rcases h.proper with hnone | ⟨d', o', hproper⟩
  · obtain ⟨files, hmem⟩ := hdigested
    rcases hnone with rfl | ⟨found, rfl⟩
    · cases hmem
    · cases List.mem_singleton.mp hmem
  · have horigin : (Origin.taken r).ComesFrom s d evs := ⟨hclaimed, hfits⟩
    obtain ⟨rfl, rfl⟩ := hproper.unique hdigested horigin
    exact hproper

/-- The request that joins the parts of a file, as it is asked for by any run. -/
def joining (s : Setup) (node : Node) (uploadId : String) : CreateRequest where
  path := s.target.remotePath
  size := s.target.totalSize
  uploadId := uploadId
  chunkCount := s.plan.count
  blockList := s.plan.chunks.map fun c => Digest.md5 (c.bytes node.content)

/-- A run that joins the parts asks for the file that it has digested. -/
theorem Proper.joins (h : s.Proper d o evs) {who : Option Nat} {token : String} {q : CreateRequest}
    (hq : .called who (.create token q) ∈ evs) :
    q.uploadId = o.uploadId ∧ ∃ files node, .digested files d ∈ evs ∧
      files.find s.target.localPath = .ok node ∧ q = s.joining node o.uploadId := by
  obtain ⟨files, hd, hmem⟩ := h.digests
  obtain ⟨node, hnode, hblocks⟩ := Digest.blockList_ofFile hd
  generalize hc : Call.create token q = c at hq
  cases h.happens _ hq with
  | joins =>
    rw [create_eq] at hc
    injection hc with _ hq
    subst hq
    refine ⟨rfl, files, node, hmem, hnode, ?_⟩
    rw [joining, hblocks]
  | works hworks =>
    subst hc
    cases hworks with
    | called i _ hsends => cases hsends
  | weighs hweighs => cases hweighs
  | settles hsettles => cases hsettles
  | _ => cases hc

/-- A run that goes on with a record announces nothing. -/
theorem Proper.not_precreate (h : s.Proper d (.taken r) evs) {who : Option Nat} {token : String}
    {q : PrecreateRequest} : .called who (.precreate token q) ∉ evs := by
  intro hq
  cases h.happens _ hq with
  | works hworks =>
    cases hworks with
    | called i _ hsends => cases hsends
  | weighs hweighs => cases hweighs
  | settles hsettles => cases hsettles

end Run.Setup

/-! ## The store -/

theorem mem_of_find? {store : Resume.Store} (h : store.find? key = some r) :
    (key, r) ∈ store.entries := by
  obtain ⟨e, he, rfl⟩ := Option.map_eq_some_iff.mp h
  have hkey : e.1 = key := by simpa using List.find?_some he
  rw [← hkey]
  exact List.mem_of_find?_eq_some he

/-- A record comes into the store by being saved. -/
theorem mem_foldl_onStore {evs : List Event} {store : Resume.Store} {e : String × Resume.Record}
    (h : e ∈ (evs.foldl Event.onStore store).entries) :
    e ∈ store.entries ∨ .saved e.1 e.2 ∈ evs := by
  induction evs generalizing store with
  | nil => exact .inl h
  | cons x rest ih =>
    rcases ih h with hmem | hmem
    · cases x with
      | claimed k taken => exact .inl (List.mem_filter.mp hmem).1
      | dropped k => exact .inl (List.mem_filter.mp hmem).1
      | saved k r =>
        rcases List.mem_append.mp hmem with hmem | hmem
        · exact .inl (List.mem_filter.mp hmem).1
        · rw [List.mem_singleton.mp hmem]
          exact .inr List.mem_cons_self
      | _ => exact .inl hmem
    · exact .inr (List.mem_cons_of_mem x hmem)

theorem World.mem_reload {w : World} {path : String} {e : String × Resume.Record}
    (h : e ∈ (w.reload path).store.entries) : e ∈ w.store.entries := by
  unfold World.reload at h
  split at h
  · exact h
  · next hsave =>
    split at h
    · next hload => exact Resume.Store.mem_of_load hsave hload h
    · exact h

namespace History

variable {h : History}

/-- Something holds of every record in the store, and of every one that was taken out of it. -/
structure Vouched (P : List Entry → String → Resume.Record → Prop) (h : History) : Prop where
  stored : ∀ e ∈ h.engine.world.store.entries, P h.journal e.1 e.2
  taken : ∀ run key r, ⟨run, .claimed key (some r)⟩ ∈ h.journal → P h.journal key r

/-- What a run saves shows how far it has come, and how it came by its identifier. -/
theorem tells_of_saved (hin : h.InStep) {k : Nat} {run : Run} {s : Run.Setup} {w : World}
    {cancelled : Bool} {worker : Option Nat} {sig : Signal} (hr : h.engine.runs[k]? = some run)
    (hs : Engine.setup? h.engine.world run.handle = some s)
    (hsaved : .saved key r ∈ s.events w cancelled worker run.stage sig) :
    ∃ d o, (∃ files, s.Digests files d) ∧ key = s.key d ∧ s.Tells d o (h.of k) r ∧
      o.ComesFrom s d (h.of k) := by
  obtain ⟨job, report, hstage, rfl, rfl⟩ := Run.Setup.saved_of_events hsaved
  obtain ⟨off, htrace, -⟩ := (hin.follows k run hr).trace hs
  have hcourse := htrace.course
  rw [hstage] at hcourse
  obtain ⟨d, o, located, work, hlocated, rfl, hworked, hevs⟩ := hcourse
  have htells := hworked.tells w hlocated (fun _ _ _ => List.not_mem_nil)
  rw [List.append_nil, ← hevs] at htells
  obtain ⟨files, hd, -⟩ := hlocated.digested
  refine ⟨d, o, ⟨files, hd⟩, rfl, htells, ?_⟩
  rw [hevs]
  exact hlocated.comesFrom.append work

/-- Something that holds of a record whatever happens later. -/
def Lasting (P : List Entry → String → Resume.Record → Prop) : Prop :=
  ∀ {journal key r}, P journal key r → ∀ more, P (journal ++ more) key r

variable {P : List Entry → String → Resume.Record → Prop}

/-- A signal puts no records into the store but those that a run saves. -/
theorem Vouched.next_signal (hvouched : h.Vouched P) (hlasting : Lasting P) (t : Task)
    (sig : Signal)
    (hsaved : ∀ key r, .saved key r ∈ h.engine.events t sig → P h.journal key r) :
    (h.next (.signal t sig)).Vouched P := by
  have hjournal : (h.next (.signal t sig)).journal
      = h.journal ++ (h.engine.events t sig).map (⟨t.run, ·⟩) := rfl
  have hstore := store_next_signal h t sig
  constructor
  · intro e he
    rw [hstore] at he
    rw [hjournal]
    apply hlasting
    rcases mem_foldl_onStore he with hold | hnew
    · exact hvouched.stored e hold
    · exact hsaved e.1 e.2 hnew
  · intro k key r hmem
    rw [hjournal] at hmem ⊢
    apply hlasting
    rcases List.mem_append.mp hmem with hold | hnew
    · exact hvouched.taken k key r hold
    · obtain ⟨x, hx, heq⟩ := List.mem_map.mp hnew
      injection heq with _ heq
      subst heq
      rcases h.engine.signal_cases t sig with ⟨-, hnone⟩ | ⟨run, s, hr, hs⟩
      · rw [hnone] at hx
        cases hx
      · rw [Engine.events_eq sig hr hs] at hx
        have hfind := Run.Setup.claimed_of_events hx
        rw [World.store_cancelAll] at hfind
        exact hvouched.stored (key, r) (mem_of_find? hfind.symm)

/-- Nothing else puts records into the store. -/
theorem Vouched.next_other (hvouched : h.Vouched P) {a : Action}
    (hother : ∀ t sig, a ≠ .signal t sig) : (h.next a).Vouched P := by
  have hstore : ∀ e ∈ (h.next a).engine.world.store.entries,
      e ∈ h.engine.world.store.entries := by
    intro e he
    by_cases hreload : ∃ path, a = .reload path
    · obtain ⟨path, rfl⟩ := hreload
      exact World.mem_reload he
    · rwa [store_next_other h hother fun path heq => hreload ⟨path, heq⟩] at he
  constructor
  · intro e he
    rw [journal_next_other h hother]
    exact hvouched.stored e (hstore e he)
  · intro k key r hmem
    rw [journal_next_other h hother] at hmem ⊢
    exact hvouched.taken k key r hmem

/-- What holds of the records in the store at the start, and of each that a run saves if it held of
those that were taken before, holds of all records ever. -/
theorem vouched (w : World) (hstart : ∀ e ∈ w.store.entries, P [] e.1 e.2) (hlasting : Lasting P)
    (hsaved : ∀ {h : History} {k d o key r} {s : Run.Setup}, h.Vouched P →
      (∃ files, s.Digests files d) → key = s.key d → s.Tells d o (h.of k) r →
      o.ComesFrom s d (h.of k) → P h.journal key r)
    (as : List Action) : ((start w).after as).Vouched P := by
  refine induct (P := Vouched P) ⟨hstart, fun _ _ _ hmem => absurd hmem List.not_mem_nil⟩ ?_ as
  intro done a hvouched
  by_cases ha : ∃ t sig, a = .signal t sig
  · obtain ⟨t, sig, rfl⟩ := ha
    refine hvouched.next_signal hlasting t sig fun key r hnew => ?_
    rcases ((start w).after done).engine.signal_cases t sig with ⟨-, hnone⟩ | ⟨run, s, hr, hs⟩
    · rw [hnone] at hnew
      cases hnew
    · rw [Engine.events_eq sig hr hs] at hnew
      obtain ⟨d, o, hd, hkey, htells, horigin⟩ := tells_of_saved (inStep w done) hr hs hnew
      exact hsaved hvouched hd hkey htells horigin
  · exact hvouched.next_other fun t sig heq => ha ⟨t, sig, heq⟩

/-- Every record in the store is sound, and so is every one that was taken out of it. -/
structure Records (h : History) : Prop where
  stored : ∀ e ∈ h.engine.world.store.entries, SoundUnder h.journal e.1 e.2
  taken : ∀ run key r, ⟨run, .claimed key (some r)⟩ ∈ h.journal → SoundUnder h.journal key r

theorem records (w : World) (as : List Action) :
    ((start { w with store := {} }).after as).Records := by
  have hvouched := vouched (P := SoundUnder) { w with store := {} }
    (fun e he => absurd he List.not_mem_nil) SoundUnder.append ?_ as
  · exact ⟨hvouched.stored, hvouched.taken⟩
  · intro h k d o key r s hvouched hdigested hkey htells horigin
    subst hkey
    refine htells.sound (fun x hx => mem_of.mp hx) hdigested horigin fun old ho => ?_
    subst ho
    exact hvouched.taken k _ old (mem_of.mp horigin.1)

/-- Resuming is sound over chains of runs that start with an empty store, whether or not the store
goes through a file between them. Every record in the store is sound. A run that goes on with a
record has taken a sound one; it announces nothing, sends parts that the record lists, and joins the
parts under its identifier. Every run that joins the parts, resumed or not, asks for the same file:
the identifier apart, the request is settled by the target, the settings and the bytes. -/
theorem resume_sound (w : World) (as : List Action) :
    let h := (start { w with store := {} }).after as
    (∀ key r, (key, r) ∈ h.engine.world.store.entries → SoundUnder h.journal key r) ∧
    (∀ k s d r, h.setup? k = some s → (∃ files, .digested files d ∈ h.of k) →
      .claimed (s.key d) (some r) ∈ h.of k → s.fits s.plan d r = true →
      SoundUnder h.journal (s.key d) r ∧
      (∀ who token q, .called who (.precreate token q) ∉ h.of k) ∧
      (∀ who url token q, .called who (.slice url token q) ∈ h.of k →
        ∃ c payload, c ∈ s.plan.chunks ∧ c.index ∈ r.pending ∧
          q = s.sliceRequest (.taken r) c payload) ∧
      ∀ who token q, .called who (.create token q) ∈ h.of k → q.uploadId = r.uploadId) ∧
    ∀ k s, h.setup? k = some s → ∀ who token q, .called who (.create token q) ∈ h.of k →
      ∃ files d node, .digested files d ∈ h.of k ∧ files.find s.target.localPath = .ok node ∧
        q = s.joining node q.uploadId := by
  intro h
  have hrecords : h.Records := records w as
  have hcourse : ∀ k s, h.setup? k = some s → ∃ stage off, s.Course off stage (h.of k) := by
    intro k s hs
    obtain ⟨run, hr, hs⟩ := Option.bind_eq_some_iff.mp hs
    obtain ⟨off, htrace, -⟩ := trace { w with store := {} } as hr hs
    exact ⟨run.stage, off, htrace.course⟩
  refine ⟨fun key r hmem => hrecords.stored (key, r) hmem, ?_, ?_⟩
  · intro k s d r hs hdigested hclaimed hfits
    obtain ⟨stage, off, hrun⟩ := hcourse k s hs
    have hproper := hrun.resumed hdigested hclaimed hfits
    refine ⟨hrecords.taken k _ r (mem_of.mp hclaimed), ?_, ?_, ?_⟩
    · intro who token q
      exact hproper.not_precreate
    · intro who url token q hq
      obtain ⟨c, payload, hwants, heq⟩ := hproper.sends hq
      exact ⟨c, payload, hwants.1, hwants.2, heq⟩
    · intro who token q hq
      exact (hproper.joins hq).1
  · intro k s hs who token q hq
    obtain ⟨stage, off, hrun⟩ := hcourse k s hs
    rcases hrun.proper with hnone | ⟨d, o, hproper⟩
    · rcases hnone with hnil | ⟨found, hone⟩
      · rw [hnil] at hq
        cases hq
      · rw [hone] at hq
        cases List.mem_singleton.mp hq
    · obtain ⟨hid, files, node, hmem, hnode, heq⟩ := hproper.joins hq
      exact ⟨files, d, node, hmem, hnode, by rw [hid]; exact heq⟩

end History

end ResumableUpload.Session
