import ResumableUpload.Proofs.Session.History

/-!
# What steps leave alone

A session keeps its target and its uploader, stays cancelled once it is, and is never `created`
again; uploaders stay. So the world only moves forward (`World.Later`), whatever a task does
(`later_turn`), and what a run goes by is settled once it is known (`World.Later.setup?`).

The store changes only where the journal says so: the store after a step is what the events of the
step make of it (`store_turn`).
-/

namespace ResumableUpload.Session

/-! ## Moving forward -/

/-- A session has moved forward. -/
structure Handle.Becomes (h h' : Handle) : Prop where
  target : h'.target = h.target
  uploader : h'.uploader = h.uploader
  cancelled : h.cancelled = true → h'.cancelled = true
  begun : h.state ≠ .created → h'.state ≠ .created

theorem Handle.Becomes.refl (h : Handle) : h.Becomes h := ⟨rfl, rfl, fun hc => hc, fun hs => hs⟩

theorem Handle.Becomes.trans {h h' h'' : Handle} (a : h.Becomes h') (b : h'.Becomes h'') :
    h.Becomes h'' where
  target := b.target.trans a.target
  uploader := b.uploader.trans a.uploader
  cancelled hc := b.cancelled (a.cancelled hc)
  begun hs := b.begun (a.begun hs)

theorem Handle.becomes_cancel (h : Handle) : h.Becomes h.cancel.1 := by
  unfold Handle.cancel
  split
  · exact .refl h
  · exact ⟨rfl, rfl, fun _ => rfl, fun hs => hs⟩

theorem Handle.becomes_advance (h : Handle) {next : State} (hn : next ≠ .created) :
    h.Becomes (h.advance next).1 := by
  unfold Handle.advance
  split
  · exact .refl h
  · exact ⟨rfl, rfl, fun hc => hc, fun _ => hn⟩

namespace World

/-- A world has moved forward. -/
structure Later (w w' : World) : Prop where
  handles : ∀ (i : Nat) (h : Handle), w.handles[i]? = some h →
    ∃ h', w'.handles[i]? = some h' ∧ h.Becomes h'
  uploaders : ∀ (i : Nat) (u : Uploader), w.uploaders[i]? = some u → w'.uploaders[i]? = some u

variable {w w' w'' : World}

theorem Later.refl (w : World) : w.Later w := ⟨fun _ h hh => ⟨h, hh, .refl h⟩, fun _ _ h => h⟩

theorem Later.trans (a : w.Later w') (b : w'.Later w'') : w.Later w'' where
  handles i h hh := by
    obtain ⟨h', hh', hb⟩ := a.handles i h hh
    obtain ⟨h'', hh'', hb'⟩ := b.handles i h' hh'
    exact ⟨h'', hh'', hb.trans hb'⟩
  uploaders i u hu := b.uploaders i u (a.uploaders i u hu)

/-- Sessions and uploaders are all that matters. -/
theorem Later.of_eq (hh : w'.handles = w.handles) (hu : w'.uploaders = w.uploaders) :
    w.Later w' := by
  refine ⟨fun i h hi => ⟨h, ?_, .refl h⟩, fun i u hi => ?_⟩
  · rw [hh, hi]
  · rw [hu, hi]

theorem later_set {i : Nat} {h h' : Handle} (hi : w.handles[i]? = some h) (hb : h.Becomes h') :
    w.Later { w with handles := w.handles.set i h' } := by
  refine ⟨fun j k hj => ?_, fun _ _ hu => hu⟩
  rw [List.getElem?_set]
  by_cases hij : i = j
  · subst hij
    have hlt : i < w.handles.length := (List.getElem?_eq_some_iff.mp hi).1
    have hk : h = k := Option.some.inj (hi.symm.trans hj)
    rw [if_pos rfl, if_pos hlt]
    exact ⟨h', rfl, hk ▸ hb⟩
  · rw [if_neg hij]
    exact ⟨k, hj, .refl k⟩

theorem later_withHandle (w : World) (i : Nat) {change : Handle → Handle × List LogLine}
    (hc : ∀ h : Handle, h.Becomes (change h).1) : w.Later (w.withHandle i change).1 := by
  unfold withHandle
  split
  · exact .refl w
  · next h hi => exact later_set hi (hc h)

theorem later_cancel (w : World) (i : Nat) : w.Later (w.cancel i).1 :=
  later_withHandle w i Handle.becomes_cancel

theorem later_cancelAll (w : World) (is : List Nat) : w.Later (w.cancelAll is).1 := by
  induction is generalizing w with
  | nil => exact .refl w
  | cons i rest ih => exact (later_cancel w i).trans (ih (w.cancel i).1)

theorem later_advance (w : World) (i : Nat) {next : State} (hn : next ≠ .created) :
    w.Later (w.advance i next).1 :=
  later_withHandle w i fun h => h.becomes_advance hn

theorem Later.isCancelled (a : w.Later w') {i : Nat} (h : w.isCancelled i = true) :
    w'.isCancelled i = true := by
  unfold World.isCancelled at h ⊢
  cases hi : w.handles[i]? with
  | none => rw [hi] at h; cases h
  | some k =>
    rw [hi] at h
    obtain ⟨k', hk', hb⟩ := a.handles i k hi
    rw [hk']
    exact hb.cancelled h

/-! ## What resolvers and sessions leave alone -/

@[simp] theorem store_withHandle (w : World) (i : Nat) (f : Handle → Handle × List LogLine) :
    (w.withHandle i f).1.store = w.store := by
  unfold withHandle; split <;> rfl

@[simp] theorem store_advance (w : World) (i : Nat) (next : State) :
    (w.advance i next).1.store = w.store := store_withHandle w i _

@[simp] theorem store_cancel (w : World) (i : Nat) : (w.cancel i).1.store = w.store :=
  store_withHandle w i _

@[simp] theorem store_cancelAll (w : World) (is : List Nat) :
    (w.cancelAll is).1.store = w.store := by
  induction is generalizing w with
  | nil => rfl
  | cons i rest ih => exact (ih (w.cancel i).1).trans (store_cancel w i)

/-- Two worlds differ in their resolvers at most. -/
structure SameButResolvers (w w' : World) : Prop where
  files : w'.files = w.files
  store : w'.store = w.store
  uploaders : w'.uploaders = w.uploaders
  handles : w'.handles = w.handles
  clock : w'.clock = w.clock

theorem SameButResolvers.refl (w : World) : w.SameButResolvers w := ⟨rfl, rfl, rfl, rfl, rfl⟩

theorem SameButResolvers.trans (a : w.SameButResolvers w') (b : w'.SameButResolvers w'') :
    w.SameButResolvers w'' where
  files := b.files.trans a.files
  store := b.store.trans a.store
  uploaders := b.uploaders.trans a.uploaders
  handles := b.handles.trans a.handles
  clock := b.clock.trans a.clock

theorem SameButResolvers.later (a : w.SameButResolvers w') : w.Later w' :=
  .of_eq a.handles a.uploaders

theorem same_setResolver (w : World) (i : Nat) (r : Resolver) :
    w.SameButResolvers (w.setResolver i r) := ⟨rfl, rfl, rfl, rfl, rfl⟩

theorem same_withResolver (w : World) (i : Nat) (f : Resolver → Resolver × List LogLine) :
    w.SameButResolvers (w.withResolver i f).1 := by
  unfold withResolver
  split
  · exact .refl w
  · exact same_setResolver w i _

theorem same_ask (w : World) (i : Nat) (token : String) (c : Caller) :
    w.SameButResolvers (w.ask i token c).world := by
  unfold ask
  split
  · exact .refl w
  · exact same_setResolver w i _

theorem same_endLookup (w : World) (i l : Nat) (r : LookupReply) :
    w.SameButResolvers (w.endLookup i l r).1 := by
  cases r with
  | outcome o => exact same_withResolver w i _
  | crash text => exact same_withResolver w i _

end World

/-! ## Steps of a part -/

namespace Transfer

variable (job : Job) (c : Chunk)

theorem world_resolved (payload : ByteArray) (n : Nat) (r : World.Resolved) :
    (resolved job c payload n r).world = r.world := by
  unfold resolved
  split <;> rfl

theorem same_replied (payload : ByteArray) (n : Nat) (e : Endpoint) (w : World) (r : Reply) :
    w.SameButResolvers (replied job c payload n e w r).world := by
  unfold replied
  split
  · exact World.same_withResolver w job.resolver fun resolver => (resolver.reportSuccess, [])
  · next f =>
    dsimp only
    split
    · exact World.same_withResolver w job.resolver fun resolver => resolver.reportFailure e
    · exact .refl w
  · exact .refl w
  · exact .refl w

/-- The upload of a part changes nothing but resolvers. -/
theorem same_step (cancelled : Bool) (w : World) (t : Transfer) (s : Signal) :
    w.SameButResolvers (step job c cancelled w t s).world := by
  unfold step
  split
  · split <;> exact .refl w
  · exact .refl w
  · rw [world_resolved]
    exact World.same_ask w job.resolver _ _
  · next payload n l reply cancels =>
    have hend : w.SameButResolvers (w.endLookup job.resolver l reply).1 :=
      World.same_endLookup w job.resolver l reply
    cases reply with
    | outcome o =>
      show w.SameButResolvers (resolved job c payload n _).world
      rw [world_resolved]
      exact hend.trans (World.same_ask _ job.resolver _ _)
    | crash text => exact hend
  · exact same_replied job c _ _ _ w _
  · exact .refl w
  · exact .refl w
  · exact .refl w

end Transfer

/-! ## Steps of a run -/

namespace Run.Setup

variable (s : Setup)

/-- Not a stage at which parts are sent. -/
def NoSending (stage : Stage) : Prop := ∀ job pool, stage ≠ .sending job pool

/-- What a step of the task of a run can do: the world and the stage that it leads to. -/
inductive Steps (s : Setup) (w : World) : Stage → Signal → World → Stage → Prop
  -- nothing happens
  | idle {stage : Stage} {sig : Signal} :
      s.deeds w stage sig stage = [] → Steps s w stage sig w stage
  | enters {hd : Handle} : w.handles[s.handle]? = some hd → hd.state = .created →
      Steps s w .entering .go
        { w with handles := w.handles.set s.handle { hd with state := .preparing } } .starting
  | refused {hd : Handle} : w.handles[s.handle]? = some hd → hd.state ≠ .created →
      Steps s w .entering .go w (.ended (.error (.invalidState hd.runAgainFault)))
  | cuts : Steps s w .starting .go w (.hashing s.plan)
  | digests {plan : Plan} {d : Digest.FileDigests} :
      Digest.ofFile w.files s.target.localPath plan = .ok d →
      Steps s w (.hashing plan) .go w (.claiming plan d)
  | claims {plan : Plan} {d : Digest.FileDigests} {next : Stage} : NoSending next →
      Steps s w (.claiming plan d) .go { w with store := w.store.erase (s.key d) } next
  | announces {plan : Plan} {d : Digest.FileDigests} {stage : Retry.Stage} {sig : Signal}
      {next : Stage} : NoSending next → Steps s w (.announcing plan d stage) sig w next
  | opens {job : Job} {next : Stage} : NoSending next →
      Steps s w (.opening job) .go (w.advance s.handle .uploading).1 next
  -- a host is looked for, or the search has failed
  | looks {job : Job} {c : Caller} {sig : Signal} {w' : World} {next : Stage} :
      w.SameButResolvers w' → NoSending next → Steps s w (.locating job c) sig w' next
  | finds {job : Job} {c : Caller} {sig : Signal} {w' : World} (threads : Nat) :
      w.SameButResolvers w' →
      Steps s w (.locating job c) sig w' (.sending job (.start threads job.plan.pending))
  -- a worker that fell is noticed
  | collects {job : Job} {pool : Pool Transfer} :
      Steps s w (.sending job pool) .go w (.sending job pool.collect.1)
  | leaves {job : Job} {pool : Pool Transfer} :
      Steps s w (.sending job pool) .go w (.closing job pool.result)
  | saves {job : Job} {report : PoolReport} :
      (w.isCancelled s.handle || !report.interrupted.isEmpty) = true →
      Steps s w (.closing job report) .go
        { w with
          store := w.store.insert (s.key job.digests)
            (s.record w { job with plan := marked job.plan report }) }
        (.settling (.error .cancelled))
  | checks {job : Job} {report : PoolReport} :
      ¬ (w.isCancelled s.handle || !report.interrupted.isEmpty) = true →
      Steps s w (.closing job report) .go w
        (.checking { job with plan := marked job.plan report })
  | joins {job : Job} :
      Steps s w (.checking job) .go (w.advance s.handle .finalizing).1 (.finalizing job)
  | commits {job : Job} {r : CreateReply} {cancels : List Nat}
      (result : Except UploadFault Commit) :
      Steps s w (.finalizing job) (.reply (.create r) cancels)
        { w with store := w.store.erase (s.key job.digests) } (.settling result)
  -- the run fails or is cancelled, and leaves the store as it is
  | fails {stage : Stage} {sig : Signal} (f : UploadFault) :
      (∀ x ∈ s.deeds w stage sig (.settling (.error f)), x.usesStore = false) →
      Steps s w stage sig w (.settling (.error f))
  | crashes {stage : Stage} {sig : Signal} (report : String) :
      s.deeds w stage sig (.crashed report) = [] → Steps s w stage sig w (.crashed report)
  | ends {result : Except UploadFault Commit} {state : State} : state ≠ .created →
      Steps s w (.settling result) .go (w.advance s.handle state).1 (.ended result)

/-- The world stays as it is, and no parts are sent. -/
def Calm (w : World) (turn : Turn) : Prop := turn.world = w ∧ NoSending turn.stage

theorem calm_announced (w : World) (plan : Plan) (d : Digest.FileDigests) (r : PrecreateReply) :
    Calm w (s.announced w plan d r) := by
  unfold announced
  split <;> exact ⟨rfl, fun _ _ => Stage.noConfusion⟩

theorem calm_ofAnnouncement (w : World) (plan : Plan) (d : Digest.FileDigests)
    (l : Retry.Loop PrecreateReply) : Calm w (s.ofAnnouncement w plan d l) := by
  unfold ofAnnouncement
  split
  · exact ⟨rfl, fun _ _ => Stage.noConfusion⟩
  · exact ⟨rfl, fun _ _ => Stage.noConfusion⟩
  · exact ⟨rfl, fun _ _ => Stage.noConfusion⟩
  · exact calm_announced s w plan d _
  · exact ⟨rfl, fun _ _ => Stage.noConfusion⟩

theorem calm_announce (w : World) (plan : Plan) (d : Digest.FileDigests) (stage : Retry.Stage)
    (cancelled : Bool) (signal : Retry.Signal PrecreateReply) :
    Calm w (s.announce w plan d stage cancelled signal) := by
  unfold announce
  generalize (Retry.Loop.active stage).step s.announcement 0 cancelled signal = next
  obtain ⟨loop, lines⟩ := next
  dsimp only
  split
  · exact ⟨rfl, fun _ _ => Stage.noConfusion⟩
  · exact calm_ofAnnouncement s w plan d loop

variable {s}

theorem Calm.steps {w : World} {plan : Plan} {d : Digest.FileDigests} {stage : Retry.Stage}
    {sig : Signal} {turn : Turn} (h : Calm w turn) :
    s.Steps w (.announcing plan d stage) sig turn.world turn.stage := by
  rw [h.1]
  exact .announces h.2

theorem steps_announcing (s : Setup) (w : World) (cancelled : Bool) (plan : Plan)
    (d : Digest.FileDigests) (stage : Retry.Stage) (sig : Signal) :
    s.Steps w (.announcing plan d stage) sig
      (s.main w cancelled (.announcing plan d stage) sig).world
      (s.main w cancelled (.announcing plan d stage) sig).stage := by
  cases sig with
  | go => exact (calm_announce s w plan d stage cancelled _).steps
  | wake => exact (calm_announce s w plan d stage cancelled _).steps
  | limit => exact (calm_announce s w plan d stage cancelled _).steps
  | lookup r cancels => exact .idle rfl
  | reply r cancels =>
    cases r with
    | precreate r => exact (calm_announce s w plan d stage cancelled _).steps
    | fault f => exact (calm_announce s w plan d stage cancelled _).steps
    | crash text =>
      cases stage with
      | attempting n => exact .crashes _ rfl
      | _ => exact .idle rfl
    | slice r => exact .idle rfl
    | create r => exact .idle rfl

theorem steps_located {w : World} {job : Job} {c : Caller} {sig : Signal} {r : World.Resolved}
    (h : w.SameButResolvers r.world) :
    s.Steps w (.locating job c) sig (s.located job r).world (s.located job r).stage := by
  unfold located
  split
  · exact .looks h fun _ _ => Stage.noConfusion
  · exact .looks h fun _ _ => Stage.noConfusion
  · exact .looks h fun _ _ => Stage.noConfusion
  · exact .finds _ h

theorem steps_locating (s : Setup) (w : World) (cancelled : Bool) (job : Job) (c : Caller)
    (sig : Signal) :
    s.Steps w (.locating job c) sig (s.main w cancelled (.locating job c) sig).world
      (s.main w cancelled (.locating job c) sig).stage := by
  have hask : ∀ (w' : World) (c' : Caller), w.SameButResolvers w' →
      w.SameButResolvers (w'.ask s.resolver s.target.accessToken c').world :=
    fun w' c' h => h.trans (World.same_ask w' s.resolver _ c')
  cases c with
  | waiting l =>
    cases sig with
    | go =>
      simp only [main]
      split
      · exact .looks (.refl w) fun _ _ => Stage.noConfusion
      · exact steps_located (hask w _ (.refl w))
    | lookup reply cancels =>
      have hend := World.same_endLookup w s.resolver l reply
      cases reply with
      | outcome o => exact steps_located (hask _ _ hend)
      | crash text => exact .looks hend fun _ _ => Stage.noConfusion
    | _ => exact .idle rfl
  | entering =>
    cases sig with
    | go => exact steps_located (hask w _ (.refl w))
    | _ => exact .idle rfl
  | missed =>
    cases sig with
    | go => exact steps_located (hask w _ (.refl w))
    | _ => exact .idle rfl

theorem steps_closing (s : Setup) (w : World) (job : Job) (report : PoolReport) :
    s.Steps w (.closing job report) .go (s.close w job report).world
      (s.close w job report).stage := by
  by_cases hcond : (w.isCancelled s.handle || !report.interrupted.isEmpty) = true
  · rw [close, if_pos hcond]
    exact .saves hcond
  · have hfails : ∀ f, s.Steps w (.closing job report) .go w (.settling (.error f)) := by
      intro f
      apply Steps.fails
      intro x hx
      simp only [deeds, if_neg hcond] at hx
      rw [List.mem_singleton.mp hx]
      rfl
    rw [close, if_neg hcond]
    dsimp only
    split
    · exact hfails _
    · exact hfails _
    · split
      · exact .checks hcond
      · exact hfails _

/-- The task of a run takes no other steps. -/
theorem steps_main (s : Setup) (w : World) (cancelled : Bool) (stage : Stage) (sig : Signal) :
    s.Steps w stage sig (s.main w cancelled stage sig).world
      (s.main w cancelled stage sig).stage := by
  cases stage with
  | announcing plan d stage => exact steps_announcing s w cancelled plan d stage sig
  | locating job c => exact steps_locating s w cancelled job c sig
  | entering =>
    cases sig with
    | go =>
      cases hhd : w.handles[s.handle]? with
      | none =>
        simp only [main, enter, hhd]
        exact .idle (by simp only [deeds, hhd, Option.toList_none, List.map_nil])
      | some hd =>
        by_cases hc : hd.state = .created
        · simp only [main, enter, hhd, if_pos hc]
          exact .enters hhd hc
        · simp only [main, enter, hhd, if_neg hc]
          exact .refused hhd hc
    | _ => exact .idle rfl
  | starting =>
    cases sig with
    | go =>
      simp only [main, start]
      split
      · exact .fails _ fun x hx => absurd hx List.not_mem_nil
      · exact .cuts
    | _ => exact .idle rfl
  | hashing plan =>
    cases sig with
    | go =>
      simp only [main]
      split
      · exact .fails _ fun x hx => absurd hx List.not_mem_nil
      · unfold hash
        split
        · exact .fails _ fun x hx => absurd hx List.not_mem_nil
        · next d hd => exact .digests hd
    | _ => exact .idle rfl
  | claiming plan d =>
    cases sig with
    | go =>
      simp only [main, claim]
      split <;> exact .claims fun _ _ => Stage.noConfusion
    | _ => exact .idle rfl
  | opening job =>
    cases sig with
    | go =>
      simp only [main, beginLocating]
      split <;> exact .opens fun _ _ => Stage.noConfusion
    | _ => exact .idle rfl
  | sending job pool =>
    cases sig with
    | go =>
      simp only [main, attend]
      split
      · exact .collects
      · split
        · exact .leaves
        · exact .idle rfl
    | _ => exact .idle rfl
  | closing job report =>
    cases sig with
    | go => exact steps_closing s w job report
    | _ => exact .idle rfl
  | checking job =>
    cases sig with
    | go =>
      simp only [main, finalize]
      split
      · apply Steps.fails
        intro x hx
        rw [List.mem_singleton.mp hx]
        rfl
      · exact .joins
    | _ => exact .idle rfl
  | finalizing job =>
    cases sig with
    | reply r cancels =>
      cases r with
      | create r => exact .commits _
      | fault f => exact .fails _ fun x hx => absurd hx List.not_mem_nil
      | crash text => exact .crashes _ rfl
      | precreate r => exact .idle rfl
      | slice r => exact .idle rfl
    | limit => exact .fails _ fun x hx => absurd hx List.not_mem_nil
    | _ => exact .idle rfl
  | settling result =>
    cases sig with
    | go =>
      simp only [main, conclude]
      split <;> exact .ends State.noConfusion
    | _ => exact .idle rfl
  | ended result => cases sig <;> exact .idle rfl
  | crashed report => cases sig <;> exact .idle rfl

variable (s)

/-- A worker changes nothing but resolvers. -/
theorem same_worker (w : World) (cancelled : Bool) (i : Nat) (stage : Stage) (signal : Signal) :
    w.SameButResolvers (s.worker w cancelled i stage signal).world := by
  unfold worker
  split
  · next job pool =>
    split
    · next c t hi =>
      split
      · exact .refl w
      · have hstep := Transfer.same_step job c (w.isCancelled s.handle) w t signal
        cases hresult : (t.step job c (w.isCancelled s.handle) w signal).result with
        | more _ => simpa only [hresult] using hstep
        | done _ => simpa only [hresult] using hstep
        | crash _ => simpa only [hresult] using hstep
    · split <;> exact .refl w
  · exact .refl w

/-- Whatever the task of a run does, the world moves forward. -/
theorem Steps.later {s : Setup} {w w' : World} {stage next : Stage} {sig : Signal}
    (h : s.Steps w stage sig w' next) : w.Later w' := by
  cases h with
  | enters hhd _ => exact World.later_set hhd ⟨rfl, rfl, fun hc => hc, fun _ => State.noConfusion⟩
  | claims _ => exact .of_eq rfl rfl
  | opens _ => exact World.later_advance w s.handle State.noConfusion
  | looks hsame _ => exact hsame.later
  | finds _ hsame => exact hsame.later
  | saves _ => exact .of_eq rfl rfl
  | joins => exact World.later_advance w s.handle State.noConfusion
  | commits _ => exact .of_eq rfl rfl
  | ends hstate => exact World.later_advance w s.handle hstate
  | _ => exact .refl w

theorem later_turn (w : World) (cancelled : Bool) (worker : Option Nat) (stage : Stage)
    (signal : Signal) : w.Later (s.turn w cancelled worker stage signal).world := by
  cases worker with
  | none => exact (steps_main s w cancelled stage signal).later
  | some i => exact (same_worker s w cancelled i stage signal).later

/-! ### The store -/

theorem onStore_of_unused {evs : List Event} (h : ∀ x ∈ evs, x.usesStore = false)
    (store : Resume.Store) : evs.foldl Event.onStore store = store := by
  induction evs with
  | nil => rfl
  | cons x rest ih =>
    have hx : x.onStore store = store := by
      cases x with
      | claimed k r => cases h _ List.mem_cons_self
      | saved k r => cases h _ List.mem_cons_self
      | dropped k => cases h _ List.mem_cons_self
      | _ => rfl
    rw [List.foldl_cons, hx]
    exact ih fun y hy => h y (List.mem_cons_of_mem x hy)

theorem onStore_answers (worker : Option Nat) (stage : Stage) (signal : Signal)
    (store : Resume.Store) :
    (s.answers worker stage signal).foldl Event.onStore store = store := by
  unfold answers
  split
  · split <;> rfl
  · rfl

theorem onStore_calls (worker : Option Nat) (calls : List Call) (store : Resume.Store) :
    (calls.map (Event.called worker)).foldl Event.onStore store = store := by
  apply onStore_of_unused
  intro x hx
  obtain ⟨c, -, rfl⟩ := List.mem_map.mp hx
  rfl

theorem onStore_upsets (s : Setup) (w : World) (i : Nat) (stage next : Stage) :
    (upsets i stage next).foldl Event.onStore w.store = w.store := by
  apply onStore_of_unused
  intro x hx
  have harises : s.Arises w (some i) stage .go x := arises_of_upsets hx
  cases harises <;> rfl

theorem Steps.store {s : Setup} {w w' : World} {stage next : Stage} {sig : Signal}
    (h : s.Steps w stage sig w' next) :
    w'.store = (s.deeds w stage sig next).foldl Event.onStore w.store := by
  cases h with
  | idle hdeeds => rw [hdeeds]; rfl
  | enters hhd _ => simp only [deeds, hhd]; rfl
  | refused hhd _ => simp only [deeds, hhd]; rfl
  | announces _ => cases sig <;> rfl
  | opens _ => exact World.store_advance w s.handle .uploading
  | looks hsame _ => rw [hsame.store]; cases sig <;> rfl
  | finds _ hsame => rw [hsame.store]; cases sig <;> rfl
  | saves hcond => simp only [deeds, if_pos hcond]; rfl
  | checks hcond => simp only [deeds, if_neg hcond]; rfl
  | joins => exact World.store_advance w s.handle .finalizing
  | fails _ hunused => exact (onStore_of_unused hunused w.store).symm
  | crashes _ hdeeds => rw [hdeeds]; rfl
  | ends _ => exact World.store_advance w s.handle _
  | _ => rfl

/-- The store after a step is what the events of the step make of it. -/
theorem store_turn (w : World) (cancelled : Bool) (worker : Option Nat) (stage : Stage)
    (signal : Signal) :
    (s.turn w cancelled worker stage signal).world.store
      = (s.events w cancelled worker stage signal).foldl Event.onStore w.store := by
  rw [events, List.foldl_append, List.foldl_append, onStore_calls, onStore_answers]
  cases worker with
  | none => exact (steps_main s w cancelled stage signal).store
  | some i =>
    have hsame := (same_worker s w cancelled i stage signal).store
    exact hsame.trans (onStore_upsets s w i _ _).symm

end Run.Setup

/-! ## What a run goes by -/

/-- What a run goes by is settled once it is known. -/
theorem World.Later.setup? {w w' : World} (a : w.Later w') {i : Nat} {s : Run.Setup}
    (h : Engine.setup? w i = some s) : Engine.setup? w' i = some s := by
  simp only [Engine.setup?, Option.bind_eq_bind, Option.bind_eq_some_iff, Option.pure_def,
    Option.some.injEq] at h ⊢
  obtain ⟨k, hk, u, hu, rfl⟩ := h
  obtain ⟨k', hk', hb⟩ := a.handles i k hk
  refine ⟨k', hk', u, ?_, ?_⟩
  · rw [hb.uploader]
    exact a.uploaders _ u hu
  · rw [hb.target]

/-! ## Actions -/

theorem World.later_append_handles (w : World) (hs : List Handle) :
    w.Later { w with handles := w.handles ++ hs } := by
  refine ⟨fun i h hi => ⟨h, ?_, .refl h⟩, fun _ _ hu => hu⟩
  exact (List.getElem?_append_left (List.getElem?_eq_some_iff.mp hi).1).trans hi

theorem World.later_append_uploaders (w : World) (rs : List Resolver) (us : List Uploader) :
    w.Later { w with resolvers := rs, uploaders := w.uploaders ++ us } := by
  refine ⟨fun i h hi => ⟨h, hi, .refl h⟩, fun i u hi => ?_⟩
  exact (List.getElem?_append_left (List.getElem?_eq_some_iff.mp hi).1).trans hi

theorem World.later_reload (w : World) (path : String) : w.Later (w.reload path) := by
  unfold World.reload
  split
  · exact .of_eq rfl rfl
  · split <;> exact .of_eq rfl rfl

namespace Engine

variable (e : Engine)

theorem later_signal (t : Task) (s : Signal) : e.world.Later (e.signal t s).1.world := by
  unfold signal
  split
  · exact .refl _
  · next r hr =>
    split
    · exact .refl _
    · next setup hs =>
      have hcancels := World.later_cancelAll e.world
        (effective (e.world.isCancelled r.handle) r.stage s).cancels
      exact hcancels.trans (setup.later_turn _ _ t.worker r.stage _)

/-- Whatever happens, the world moves forward. -/
theorem later_act (a : Action) : e.world.Later (e.act a).world := by
  cases a with
  | signal t s => exact later_signal e t s
  | addUploader settings => exact World.later_append_uploaders _ _ _
  | addSharingUploader settings other =>
    simp only [act, addSharingUploader]
    split
    · exact World.later_append_uploaders _ _ _
    · exact World.later_append_uploaders e.world e.world.resolvers _
  | start name uploader target => exact World.later_append_handles _ _
  | run handle => exact .refl _
  | cancel handle => exact World.later_cancel _ _
  | edit files => exact .of_eq rfl rfl
  | setClock now => exact .of_eq rfl rfl
  | invalidate resolver => exact (World.same_withResolver _ resolver _).later
  | age resolver nanos => exact (World.same_withResolver _ resolver _).later
  | reload path => exact World.later_reload _ path

end Engine

end ResumableUpload.Session
