import ResumableUpload.Proofs.Digest.Reading
import ResumableUpload.Proofs.Plan.Partition
import ResumableUpload.Proofs.Session.Attempts
import ResumableUpload.Proofs.Session.Kept
import ResumableUpload.Proofs.Session.Lifecycle

/-!
# What is sent is the file

A run reads its file in two ways, at different times. If the file does not change in between, what
it sends and what it announces are the file all the same (`TraceIn.faithful`): each part is read
when a worker takes it up, and what was read is kept for all attempts (`TraceIn.filled`). For this
the trace of a run is known with the worlds that its steps find (`TraceIn`, `History.followsIn`).
-/

namespace ResumableUpload.Session

/-! ## Worlds with a property -/

/-- A trace of a run all of whose steps find worlds with the property `Q`. -/
inductive TraceIn (Q : World → Prop) (s : Run.Setup) : Bool → Stage → List Event → Prop
  | start : TraceIn Q s false .entering []
  | turn {off : Bool} {stage : Stage} {evs : List Event} (w : World) (cancelled : Bool)
      (worker : Option Nat) (signal : Signal) :
      Q w → TraceIn Q s off stage evs → (off = true → cancelled = true) →
      (cancelled = true → w.isCancelled s.handle = true) →
      TraceIn Q s (w.isCancelled s.handle)
        (s.turn w cancelled worker stage (Engine.effective cancelled stage signal)).stage
        (evs ++ s.events w cancelled worker stage (Engine.effective cancelled stage signal))

theorem TraceIn.trace {Q : World → Prop} {s : Run.Setup} {off : Bool} {stage : Stage}
    {evs : List Event} (h : TraceIn Q s off stage evs) : Trace s off stage evs := by
  induction h with
  | start => exact .start
  | turn w cancelled worker signal _ _ hoff hcancelled ih =>
    exact ih.turn w cancelled worker signal hoff hcancelled

namespace History

/-- The steps of the tasks of a run find worlds with the property `Q`, whichever sessions are
cancelled on the way. -/
def Meets (Q : World → Prop) (first : History) (as : List Action) (k : Nat) : Prop :=
  ∀ done more worker sig, as = done ++ .signal ⟨k, worker⟩ sig :: more →
    ∀ cancels, Q ((first.after done).engine.world.cancelAll cancels).1

theorem Meets.init {Q : World → Prop} {first : History} {as : List Action} {a : Action} {k : Nat}
    (h : Meets Q first (as ++ [a]) k) : Meets Q first as k := by
  intro done more worker sig has
  exact h done (more ++ [a]) worker sig (by rw [has, List.append_assoc, List.cons_append])

/-- The run goes through a trace in worlds with the property. -/
def FollowsIn (Q : World → Prop) (h : History) (k : Nat) : Prop :=
  ∀ r s, h.engine.runs[k]? = some r → Engine.setup? h.engine.world r.handle = some s →
    ∃ off, TraceIn Q s off r.stage (h.of k) ∧
      (off = true → h.engine.world.isCancelled r.handle = true)

variable {Q : World → Prop} {h : History} {k : Nat}

theorem FollowsIn.next (hfollows : FollowsIn Q h k) (hin : h.InStep) (a : Action)
    (hQ : ∀ worker sig, a = .signal ⟨k, worker⟩ sig →
      ∀ cancels, Q (h.engine.world.cancelAll cancels).1) : FollowsIn Q (h.next a) k := by
  intro r' s hr' hs
  have hlater := h.engine.later_act a
  cases hr : h.engine.runs[k]? with
  | none =>
    obtain ⟨hstage, hnil⟩ := begun_next hin a hr hr'
    rw [hstage, hnil]
    exact ⟨false, .start, Bool.noConfusion⟩
  | some r =>
    rcases next_cases h a hr with ⟨hsame, hof⟩ | ⟨worker, sig, s', rfl, hs'⟩
    · obtain rfl : r = r' := Option.some.inj (hsame.symm.trans hr')
      rw [hof]
      cases hold : Engine.setup? h.engine.world r.handle with
      | none =>
        rcases hin.follows k r hr with ⟨hstage, hnil⟩ | ⟨s', _, hs', -⟩
        · rw [hstage, hnil]
          exact ⟨false, .start, Bool.noConfusion⟩
        · cases hold.symm.trans hs'
      | some s' =>
        obtain rfl : s' = s := Option.some.inj ((hlater.setup? hold).symm.trans hs)
        obtain ⟨off, htrace, hoff⟩ := hfollows r s' hr hold
        exact ⟨off, htrace, fun ho => hlater.isCancelled (hoff ho)⟩
    · obtain ⟨hworld, hrun, hof⟩ := next_signal (t := ⟨k, worker⟩) hr hs' sig
      obtain rfl := Option.some.inj (hrun.symm.trans hr')
      obtain rfl : s' = s := Option.some.inj ((hlater.setup? hs').symm.trans hs)
      obtain ⟨off, htrace, hoff⟩ := hfollows r s' hr hs'
      have hhandle := Engine.setup?_handle hs'
      rw [hof]
      refine ⟨_, htrace.turn _ _ worker sig (hQ worker sig rfl _) hoff fun hc => ?_, fun hc => ?_⟩
      · rw [hhandle]
        exact (World.later_cancelAll _ _).isCancelled hc
      · rw [hworld]
        rw [hhandle] at hc
        exact (s'.later_turn _ _ worker r.stage _).isCancelled hc

/-- The events of a run are those of a trace in the worlds that its tasks find. -/
theorem followsIn (w : World) (as : List Action) (hQ : Meets Q (start w) as k) :
    FollowsIn Q ((start w).after as) k := by
  induction as using List.reverseRecOn with
  | nil => exact fun r s hr => nomatch hr
  | append_singleton as a ih =>
    rw [after_concat]
    refine (ih hQ.init).next (inStep w as) a fun worker sig ha => ?_
    exact hQ as [] worker sig (by rw [ha])

end History

/-! ## Files that stay as they are -/

namespace World

/-- The path leads to a file with this content. -/
def HasFile (path : String) (content : ByteArray) (w : World) : Prop :=
  ∃ writable, w.files.find path = .ok (.file content writable)

/-- Neither the files nor the clock differ: what is around the sessions is the same. -/
structure SameAround (w w' : World) : Prop where
  files : w'.files = w.files
  clock : w'.clock = w.clock

theorem SameAround.refl (w : World) : w.SameAround w := ⟨rfl, rfl⟩

theorem SameAround.trans {w w' w'' : World} (a : w.SameAround w') (b : w'.SameAround w'') :
    w.SameAround w'' := ⟨b.files.trans a.files, b.clock.trans a.clock⟩

theorem SameButResolvers.around {w w' : World} (h : w.SameButResolvers w') : w.SameAround w' :=
  ⟨h.files, h.clock⟩

theorem around_withHandle (w : World) (i : Nat) (change : Handle → Handle × List LogLine) :
    w.SameAround (w.withHandle i change).1 := by
  unfold withHandle
  split
  · exact .refl w
  · exact ⟨rfl, rfl⟩

theorem around_cancelAll (w : World) (is : List Nat) : w.SameAround (w.cancelAll is).1 := by
  induction is generalizing w with
  | nil => exact .refl w
  | cons i rest ih => exact (w.around_withHandle i Handle.cancel).trans (ih (w.cancel i).1)

end World

/-- A run reads files, and changes none; nor does it set the clock. -/
theorem Run.Setup.around_turn (s : Run.Setup) (w : World) (cancelled : Bool) (worker : Option Nat)
    (stage : Stage) (signal : Signal) :
    w.SameAround (s.turn w cancelled worker stage signal).world := by
  cases worker with
  | some i => exact (s.same_worker w cancelled i stage signal).around
  | none =>
    have hsteps := s.steps_main w cancelled stage signal
    show w.SameAround (s.main w cancelled stage signal).world
    generalize (s.main w cancelled stage signal).world = w' at hsteps ⊢
    generalize (s.main w cancelled stage signal).stage = next at hsteps
    cases hsteps with
    | opens _ => exact w.around_withHandle _ _
    | joins => exact w.around_withHandle _ _
    | ends _ => exact w.around_withHandle _ _
    | looks hsame _ => exact hsame.around
    | finds _ hsame => exact hsame.around
    | _ => exact ⟨rfl, rfl⟩

/-- The action leaves all files as they are. -/
def Action.leavesFiles : Action → Bool
  | .edit _ | .reload _ => false
  | _ => true

namespace History

/-- The tasks of the run find the file with one content in all their steps. -/
def Unchanged (first : History) (as : List Action) (k : Nat) (path : String)
    (content : ByteArray) : Prop :=
  ∀ done more worker sig, as = done ++ .signal ⟨k, worker⟩ sig :: more →
    (first.after done).engine.world.HasFile path content

variable {h : History} {k : Nat} {path : String} {content : ByteArray}

theorem Unchanged.meets {first : History} {as : List Action}
    (h : Unchanged first as k path content) : Meets (World.HasFile path content) first as k := by
  intro done more worker sig has cancels
  obtain ⟨writable, hfind⟩ := h done more worker sig has
  refine ⟨writable, ?_⟩
  rw [(World.around_cancelAll _ cancels).files]
  exact hfind

/-- A step of a task changes nothing around the sessions. -/
theorem around_signal (h : History) (t : Task) (sig : Signal) :
    h.engine.world.SameAround (h.next (.signal t sig)).engine.world := by
  rcases h.engine.signal_cases t sig with ⟨hsame, -⟩ | ⟨r, s, hr, hs⟩
  · have heng : (h.next (.signal t sig)).engine = h.engine := hsame
    rw [heng]
    exact .refl _
  · have heng : (h.next (.signal t sig)).engine = _ := Engine.signal_eq sig hr hs
    rw [heng]
    exact (World.around_cancelAll _ _).trans (s.around_turn _ _ t.worker r.stage _)

theorem files_next (h : History) {a : Action} (ha : a.leavesFiles = true) :
    (h.next a).engine.world.files = h.engine.world.files := by
  cases a with
  | signal t sig => exact (around_signal h t sig).files
  | edit files => cases ha
  | reload path => cases ha
  | addSharingUploader settings other =>
    show (h.engine.addSharingUploader settings other).1.world.files = _
    unfold Engine.addSharingUploader
    split <;> rfl
  | cancel handle => exact (World.around_withHandle _ _ _).files
  | invalidate resolver => exact (World.same_withResolver _ _ _).files
  | age resolver nanos => exact (World.same_withResolver _ _ _).files
  | _ => rfl

theorem files_after (h : History) (as : List Action) (has : ∀ a ∈ as, a.leavesFiles = true) :
    (h.after as).engine.world.files = h.engine.world.files := by
  induction as generalizing h with
  | nil => rfl
  | cons a rest ih =>
    refine (ih (h.next a) fun b hb => has b (List.mem_cons_of_mem a hb)).trans ?_
    exact files_next h (has a List.mem_cons_self)

/-- What no one edits is not changed. -/
theorem unchanged_of_leavesFiles {w : World} {as : List Action} (hfile : w.HasFile path content)
    (has : ∀ a ∈ as, a.leavesFiles = true) (k : Nat) :
    Unchanged (start w) as k path content := by
  rintro done more worker sig rfl
  obtain ⟨writable, hfind⟩ := hfile
  refine ⟨writable, ?_⟩
  rw [files_after (start w) done fun a ha => has a (List.mem_append_left _ ha)]
  exact hfind

end History

/-! ## What is read of the parts -/

/-- What was read of the part are its bytes. -/
def Transfer.Filled (content : ByteArray) (c : Chunk) (t : Transfer) : Prop :=
  ∀ payload, t.payload? = some payload → payload = c.bytes content ∧ payload.size = c.size

theorem Transfer.Goes.filled {job : Job} {c : Chunk} {cancelled : Bool} {w : World}
    {sig : Signal} {t t' : Transfer} {calls : List Call} {content : ByteArray}
    (h : Goes job c cancelled w sig t (.more t') calls)
    (hfile : w.HasFile job.target.localPath content) (ht : t.Filled content c) :
    t'.Filled content c := by
  cases h with
  | reads hread =>
    intro payload hpayload
    obtain ⟨writable, hfind⟩ := hfile
    cases hpayload
    exact Digest.readChunk_ok hfind hread
  | _ => exact ht

namespace Run.Setup

/-- The request sends the bytes of a part of the plan. -/
def Conveys (s : Setup) (content : ByteArray) (q : SliceRequest) : Prop :=
  ∃ c ∈ s.plan.chunks, q.partseq = c.index ∧ q.offset = c.offset ∧ q.payload = c.bytes content ∧
    q.payload.size = c.size

end Run.Setup

section reading

variable {s : Run.Setup} {content : ByteArray} {off : Bool} {stage : Stage} {evs : List Event}

/-- Whatever is read of a part are its bytes. -/
theorem TraceIn.filled (h : TraceIn (World.HasFile s.target.localPath content) s off stage evs)
    {job : Job} {pool : Pool Transfer} {i : Nat} {c : Chunk} {t : Transfer}
    (hstage : stage = .sending job pool) (hi : pool.workers[i]? = some (.uploading c t)) :
    t.Filled content c := by
  induction h generalizing job pool i c t with
  | start => cases hstage
  | @turn off stage evs w cancelled worker signal hfile htrace _ _ ih =>
    rcases Run.Setup.uploading_turn hstage hi with rfl | ⟨pool', t', rfl, hi', heq | ⟨-, hr, -⟩⟩
    · exact nofun
    · rw [heq]
      exact ih rfl hi'
    · have hgoes := Transfer.goes_step job c (w.isCancelled s.handle) w t'
        (Engine.effective cancelled (.sending job pool') signal)
      rw [hr] at hgoes
      refine hgoes.filled ?_ (ih rfl hi')
      obtain ⟨d, o, -, -, -, rfl, -, -⟩ := htrace.trace.course
      exact hfile

/-- Every part that is sent is sent with its bytes. -/
theorem TraceIn.conveys (h : TraceIn (World.HasFile s.target.localPath content) s off stage evs)
    {who : Option Nat} {url token : String} {q : SliceRequest}
    (hq : .called who (.slice url token q) ∈ evs) : s.Conveys content q := by
  induction h with
  | start => cases hq
  | @turn off stage evs w cancelled worker signal hfile htrace _ _ ih =>
    rcases List.mem_append.mp hq with hq | hq
    · exact ih hq
    · obtain ⟨i, job, pool, c, t, payload, e, rfl, hi, hpayload, rfl, -, -⟩ :=
        Run.Setup.slice_of_events hq
      obtain ⟨hbytes, hsize⟩ := htrace.filled rfl hi payload hpayload
      obtain ⟨d, o, _, _, -, rfl, hworking, -⟩ := htrace.trace.course
      have hwants := Run.Setup.mem_pending_job.mp (hworking.held _ (List.mem_of_getElem? hi) c rfl)
      exact ⟨c, hwants.1, rfl, rfl, hbytes, hsize⟩

/-- The file is digested as it is. -/
theorem TraceIn.digested (h : TraceIn (World.HasFile s.target.localPath content) s off stage evs)
    {files : Files} {d : Digest.FileDigests} (hd : .digested files d ∈ evs) :
    ∃ writable, files.find s.target.localPath = .ok (.file content writable) := by
  induction h with
  | start => cases hd
  | @turn off stage evs w cancelled worker signal hfile _ _ _ ih =>
    rcases List.mem_append.mp hd with hd | hd
    · exact ih hd
    · generalize Engine.effective cancelled stage signal = sig at hd
      cases Run.Setup.arises_of_events hd with
      | digested plan d => exact hfile

end reading

/-! ## What is announced of the file -/

namespace Run.Setup

variable {s : Setup} {d : Digest.FileDigests} {o : Origin} {evs : List Event} {who : Option Nat}
  {token : String}

/-- The digests of the parts. -/
def blocks (s : Setup) (content : ByteArray) : List String :=
  s.plan.chunks.map fun c => Digest.md5 (c.bytes content)

theorem Proper.announced (h : s.Proper d o evs) {q : PrecreateRequest}
    (hq : .called who (.precreate token q) ∈ evs) : q.blockList = d.blockList := by
  cases h.happens _ hq with
  | announced => rfl
  | works hworks =>
    cases hworks with
    | called i _ hsends => cases hsends
  | weighs hweighs => cases hweighs
  | settles hsettles => cases hsettles

theorem Proper.joined (h : s.Proper d o evs) {q : CreateRequest}
    (hq : .called who (.create token q) ∈ evs) : q.blockList = d.blockList := by
  cases h.happens _ hq with
  | joins => rfl
  | works hworks =>
    cases hworks with
    | called i _ hsends => cases hsends
  | weighs hweighs => cases hweighs
  | settles hsettles => cases hsettles

end Run.Setup

/-- What a run sends and announces is the file. -/
structure Faithful (s : Run.Setup) (content : ByteArray) (evs : List Event) : Prop where
  /-- Each part is sent with its bytes, and the digest of these is in the list. -/
  parts : ∀ who url token q, .called who (.slice url token q) ∈ evs → s.Conveys content q ∧
    (s.blocks content)[q.partseq]? = some (Digest.md5 q.payload) ∧
    Digest.IsLowerHex (Digest.md5 q.payload)
  announced : ∀ who token q, .called who (.precreate token q) ∈ evs →
    q.blockList = s.blocks content
  joined : ∀ who token q, .called who (.create token q) ∈ evs → q.blockList = s.blocks content

section faithful

variable {s : Run.Setup} {content : ByteArray} {off : Bool} {stage : Stage} {evs : List Event}

theorem Run.Setup.Conveys.chunk {q : SliceRequest} (h : s.Conveys content q) :
    ∃ c, s.plan.chunks[q.partseq]? = some c ∧ q.payload = c.bytes content := by
  obtain ⟨c, hc, hindex, -, hpayload, -⟩ := h
  obtain ⟨i, hi⟩ := List.getElem?_of_mem hc
  rw [hindex, s.numbered_plan.index_eq hi]
  exact ⟨c, hi, hpayload⟩

theorem Run.Setup.Conveys.block {q : SliceRequest} (h : s.Conveys content q) :
    (s.blocks content)[q.partseq]? = some (Digest.md5 q.payload) := by
  obtain ⟨c, hi, hpayload⟩ := h.chunk
  rw [Run.Setup.blocks, List.getElem?_map, hi, hpayload]
  rfl

theorem Run.Setup.Proper.blockList {d : Digest.FileDigests} {o : Origin}
    (hproper : s.Proper d o evs)
    (h : TraceIn (World.HasFile s.target.localPath content) s off stage evs) :
    d.blockList = s.blocks content := by
  obtain ⟨files, hdigests, hmem⟩ := hproper.digests
  obtain ⟨writable, hfind⟩ := h.digested hmem
  obtain ⟨node, hnode, hblocks⟩ := Digest.blockList_ofFile hdigests
  cases hfind.symm.trans hnode
  exact hblocks

/-- Whatever a run sends and announces is the file. -/
theorem TraceIn.faithful
    (h : TraceIn (World.HasFile s.target.localPath content) s off stage evs) :
    Faithful s content evs := by
  have hproper : (∀ who c, .called who c ∉ evs) ∨ ∃ d o, s.Proper d o evs := by
    rcases h.trace.course.proper with (rfl | ⟨found, rfl⟩) | hproper
    · exact .inl fun who c hc => nomatch hc
    · exact .inl fun who c hc => nomatch List.mem_singleton.mp hc
    · exact .inr hproper
  refine ⟨fun who url token q hq => ?_, fun who token q hq => ?_, fun who token q hq => ?_⟩
  · have hconveys := h.conveys hq
    exact ⟨hconveys, hconveys.block, Digest.isLowerHex_md5 _⟩
  · rcases hproper with hnone | ⟨d, o, hproper⟩
    · exact absurd hq (hnone _ _)
    · rw [hproper.announced hq, hproper.blockList h]
  · rcases hproper with hnone | ⟨d, o, hproper⟩
    · exact absurd hq (hnone _ _)
    · rw [hproper.joined hq, hproper.blockList h]

/-- Requests for all parts, in the order of the parts, have the bytes of the file. -/
theorem Faithful.payloads (h : Faithful s content evs)
    (hsize : s.target.totalSize ≤ content.size) {qs : List SliceRequest}
    (hsent : ∀ q ∈ qs, ∃ who url token, .called who (.slice url token q) ∈ evs)
    (hall : qs.map SliceRequest.partseq = List.range s.plan.count) :
    (qs.map SliceRequest.payload).foldr (· ++ ·) .empty
      = content.extract 0 s.target.totalSize := by
  have hpayloads : qs.map SliceRequest.payload = s.plan.chunks.map fun c => c.bytes content := by
    apply List.ext_getElem?
    intro i
    rw [List.getElem?_map, List.getElem?_map]
    have hi : (qs.map SliceRequest.partseq)[i]? = (List.range s.plan.count)[i]? := by rw [hall]
    rw [List.getElem?_map] at hi
    cases hq : qs[i]? with
    | none =>
      rw [hq] at hi
      have hle : s.plan.chunks.length ≤ i := by
        have hnone := List.getElem?_eq_none_iff.mp hi.symm
        rwa [List.length_range] at hnone
      rw [List.getElem?_eq_none hle]
      rfl
    | some q =>
      obtain ⟨who, url, token, hmem⟩ := hsent q (List.mem_of_getElem? hq)
      obtain ⟨c, hc, hpayload⟩ := (h.parts who url token q hmem).1.chunk
      have hindex : q.partseq = i := by
        rw [hq, Option.map_some] at hi
        obtain ⟨hlt, hget⟩ := List.getElem?_eq_some_iff.mp hi.symm
        rw [← hget, List.getElem_range]
      rw [← hindex, hc, Option.map_some, Option.map_some, hpayload]
  rw [hpayloads]
  exact (s.settings.sizing.tiles_plan s.target.totalSize).joined hsize

/-- Neither reader refuses the file: it is digested, and each of its parts is read. -/
theorem Run.Setup.readable (s : Run.Setup) (hsize : s.target.totalSize ≤ content.size)
    (hbound : s.target.totalSize < Digest.offsetBound) {files : Files} {writable : Bool}
    (hfind : files.find s.target.localPath = .ok (.file content writable)) :
    (∃ d, s.Digests files d) ∧ ∀ c ∈ s.plan.chunks,
      Digest.readChunk files s.target.localPath c.offset c.size = .ok (c.bytes content) := by
  have hwithin : ∀ c ∈ s.plan.chunks, c.Within content.size := by
    intro c hc
    have hstop := ((s.settings.sizing.tiles_plan s.target.totalSize).within c hc).2
    exact ⟨by omega, by omega, by omega⟩
  exact ⟨Digest.ofFile_of_within hfind hwithin,
    fun c hc => Digest.readChunk_of_within hfind (hwithin c hc)⟩

end faithful

namespace History

/-- What a run sends of a file that does not change is the file: each part is sent with its bytes,
each is announced with their digest, and all parts together are the file, however many there are,
in whatever order they are sent and however often. -/
theorem content_intact (w : World) (as : List Action) (k : Nat) (s : Run.Setup)
    (content : ByteArray) (hs : ((start w).after as).setup? k = some s)
    (hfile : Unchanged (start w) as k s.target.localPath content)
    (hsize : s.target.totalSize ≤ content.size)
    (hbound : s.target.totalSize < Digest.offsetBound) :
    Faithful s content (((start w).after as).of k) ∧
    (∀ qs : List SliceRequest,
      (∀ q ∈ qs, ∃ who url token, .called who (.slice url token q) ∈ ((start w).after as).of k) →
      qs.map SliceRequest.partseq = List.range s.plan.count →
      (qs.map SliceRequest.payload).foldr (· ++ ·) .empty
        = content.extract 0 s.target.totalSize) ∧
    ∀ files writable, files.find s.target.localPath = .ok (.file content writable) →
      (∃ d, s.Digests files d) ∧ ∀ c ∈ s.plan.chunks,
        Digest.readChunk files s.target.localPath c.offset c.size = .ok (c.bytes content) := by
  obtain ⟨r, hr, hs'⟩ := Option.bind_eq_some_iff.mp hs
  obtain ⟨off, htrace, -⟩ := followsIn w as hfile.meets r s hr hs'
  have hfaithful := htrace.faithful
  exact ⟨hfaithful, fun qs hsent hall => hfaithful.payloads hsize hsent hall,
    fun files writable hfind => s.readable hsize hbound hfind⟩

/-- A file of two bytes that is sent byte by byte, the second one first. -/
theorem content_intact_committed :
    let evs := ((start Sample.Pair.world).after Sample.Pair.committed).of 0
    Faithful Sample.Pair.setup ⟨#[1, 2]⟩ evs ∧
      (sentOf 0 evs ++ sentOf 1 evs).map SliceRequest.partseq = [0, 1] ∧
      ((sentOf 0 evs ++ sentOf 1 evs).map SliceRequest.payload).foldr (· ++ ·) .empty
        = (⟨#[1, 2]⟩ : ByteArray).extract 0 2 := by
  intro evs
  have hs : ((start Sample.Pair.world).after Sample.Pair.committed).setup? 0
      = some Sample.Pair.setup := by decide +kernel
  have hfile : Sample.Pair.world.HasFile Sample.Pair.setup.target.localPath ⟨#[1, 2]⟩ := ⟨true, rfl⟩
  have hcalm : ∀ a ∈ Sample.Pair.committed, a.leavesFiles = true :=
    List.all_eq_true.mp (by decide : Sample.Pair.committed.all Action.leavesFiles = true)
  have hparts : (sentOf 0 evs ++ sentOf 1 evs).map SliceRequest.partseq = [0, 1] := by
    decide +kernel
  obtain ⟨hfaithful, hjoined, -⟩ := content_intact Sample.Pair.world Sample.Pair.committed 0
    Sample.Pair.setup ⟨#[1, 2]⟩ hs (unchanged_of_leavesFiles hfile hcalm 0) (by decide) (by decide)
  refine ⟨hfaithful, hparts, hjoined _ (fun q hq => ?_) hparts⟩
  exact (List.mem_append.mp hq).elim mem_sentOf mem_sentOf

end History

end ResumableUpload.Session
