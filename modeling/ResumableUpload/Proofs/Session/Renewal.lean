import ResumableUpload.Proofs.Session.Hunting
import ResumableUpload.Proofs.Session.Lifecycle

/-!
# When a run changes its host

A resolver that one run uses changes by the steps of this run; others make it or let time pass for
it, and that is all (`Idles`). So a run with one worker and its resolver go together all the time
(`History.Solo.hunt`), as long as the session is not cancelled, lookups find hosts that stay fresh,
and no attempt is cut off.

This tells when the run changes its host, from the answers to its parts alone
(`History.renewed_after`): with every third fault of the connection since a part was sent well, and
at no other time.
-/

namespace ResumableUpload.Session

/-! ## What others do -/

/-- What becomes of a resolver by the things in which the run that uses it has no part. -/
inductive Idles : Option Resolver → Option Resolver → Prop
  | same (held : Option Resolver) : Idles held held
  | made (settings : EndpointSettings) : Idles none (some (.start settings))
  -- time passes
  | ages (r : Resolver) (nanos : Nat) : Idles (some r) (some { r with now := r.now + nanos })

variable {held held' : Option Resolver} {doing : Option Attempt} {x : Score}

/-- A run and its resolver go together as before when some time has passed. -/
theorem Hunt.ages {r : Resolver} (h : Hunt (some r) doing x) (nanos : Nat) :
    Hunt (some { r with now := r.now + nanos }) doing x := by
  cases h with
  | due hheld hsuits hdue =>
    obtain ⟨hsound, hcache, hinflight, hfailures⟩ := hheld r rfl
    apply Hunt.due _ hsuits hdue
    intro r' hr'
    rw [← Option.some.inj hr']
    exact ⟨hsound.move (.age nanos), hcache, hinflight, hfailures⟩
  | made hseeks hstage hdue =>
    obtain ⟨hsound, hcache, hinflight, hlatest, hfailures⟩ := hseeks
    exact .made ⟨hsound.move (.age nanos), hcache, hinflight, hlatest, hfailures⟩ hstage hdue
  | asking hseeks hstage hasked =>
    obtain ⟨hsound, hcache, hinflight, hlatest, hfailures⟩ := hseeks
    exact .asking ⟨hsound.move (.age nanos), hcache, hinflight, hlatest, hfailures⟩ hstage hasked
  | kept hkeeps hcount hsuits hmet =>
    obtain ⟨hsound, hcache, hinflight, hfound, hlatest⟩ := hkeeps
    exact .kept ⟨hsound.move (.age nanos), hcache, hinflight, hfound, hlatest⟩ hcount hsuits hmet

/-- What others do keeps a run and its resolver together, and drops no host. -/
theorem Hunt.idles (h : Hunt held doing x) (hidles : Idles held held') :
    Comes held x held' doing x := by
  cases hidles with
  | same => exact h.comes_keeping rfl rfl
  | ages r nanos => exact (h.ages nanos).comes_keeping rfl rfl
  | made settings =>
    cases h with
    | due _ hsuits hdue =>
      have hunt : Hunt (some (.start settings)) doing x := by
        apply Hunt.due _ hsuits hdue
        intro r hr
        rw [← Option.some.inj hr]
        exact Resolver.isFree_start settings
      exact hunt.comes_keeping rfl rfl

/-! ## What has counted -/

/-- The server has been asked for a host, and has not answered. -/
def isAsked (held : Option Resolver) : Bool :=
  held.any fun r => r.inflight.any fun l => l.stage == .asking

theorem isAsked_eq_false {r : Resolver} (hinflight : r.inflight = none) :
    isAsked (some r) = false := by
  rw [isAsked, Option.any_some, hinflight, Option.any_none]

theorem isAsked_seeks {r : Resolver} {l : Lookup} (h : r.Seeks l) :
    isAsked (some r) = (l.stage == .asking) := by
  rw [isAsked, Option.any_some, h.inflight, Option.any_some]

theorem Hunt.counted (h : Hunt held doing x) {r : Resolver} (hr : held = some r) :
    r.failures = x.count := by
  cases h with
  | due hheld _ hdue => exact (hheld r hr).failures.trans hdue.count.symm
  | made hseeks _ hdue =>
    obtain rfl := Option.some.inj hr
    exact hseeks.failures.trans hdue.count.symm
  | asking hseeks _ hasked =>
    obtain rfl := Option.some.inj hr
    exact hseeks.failures.trans hasked.count.symm
  | kept _ hcount _ _ =>
    obtain rfl := Option.some.inj hr
    exact hcount

/-- The server is asked once for the first host and once for each that was dropped. -/
theorem Hunt.located_asking (h : Hunt held doing x) (hasked : isAsked held = true) :
    x.located = 1 + x.drops ∧ ∃ l, doing = some (.resolving (.waiting l)) := by
  cases h with
  | due hheld _ _ =>
    cases held with
    | none => cases hasked
    | some r =>
      rw [isAsked_eq_false (hheld r rfl).inflight] at hasked
      cases hasked
  | made hseeks hstage _ =>
    rw [isAsked_seeks hseeks, hstage] at hasked
    cases hasked
  | asking _ _ hasked => exact ⟨hasked.located.trans (Nat.add_comm _ 1), _, rfl⟩
  | kept hkeeps _ _ _ =>
    rw [isAsked_eq_false hkeeps.inflight] at hasked
    cases hasked

theorem Score.IsDue.located_quiet (h : x.IsDue) :
    (x.located = 0 ∧ x.attempts = 0) ∨ x.located = 1 + x.renewed := by
  rw [h.located]
  rcases h.renewed with ⟨hdrops, -, hattempts⟩ | hdrops
  · exact .inl ⟨hdrops, hattempts⟩
  · exact .inr (hdrops.trans (Nat.add_comm _ 1))

/-- When no answer is awaited, no host was asked for that no attempt has used since. -/
theorem Hunt.located_quiet (h : Hunt held doing x) (hquiet : isAsked held = false) :
    (x.located = 0 ∧ x.attempts = 0) ∨ x.located = 1 + x.renewed := by
  cases h with
  | due _ _ hdue => exact hdue.located_quiet
  | made _ _ hdue => exact hdue.located_quiet
  | asking hseeks hstage _ =>
    rw [isAsked_seeks hseeks, hstage] at hquiet
    cases hquiet
  | kept _ _ _ hmet =>
    right
    rw [hmet.located, hmet.renewed]
    exact Nat.add_comm _ 1

theorem Score.located_le_after (x : Score) (ms : List Mark) : x.located ≤ (x.after ms).located := by
  induction ms generalizing x with
  | nil => exact Nat.le_refl _
  | cons m ms ih =>
    apply Nat.le_trans _ (ih (x.take m))
    cases m with
    | located => exact Nat.le_succ _
    | sent url => exact Nat.le_refl _
    | answered r =>
      cases r with
      | fault f =>
        simp only [Score.take]
        split
        · split <;> exact Nat.le_refl _
        · exact Nat.le_refl _
      | _ => exact Nat.le_refl _

/-- The workers of a run start with the step that ends its search for a host. -/
theorem Run.Setup.locating_of_sending (s : Run.Setup) (w : World) (worker : Option Nat)
    {stage : Stage} {sig : Signal} (hno : stage.isSending = false)
    (hsends : (s.turn w false worker stage sig).stage.isSending = true) :
    (∃ job c, stage = .locating job c) ∧
      (s.turn w false worker stage sig).stage.attempt? = none := by
  cases worker with
  | some i =>
    have hsame : (s.turn w false (some i) stage sig).stage = stage := by
      apply (worker_elsewhere _ i).1
      rintro job pool rfl
      cases hno
    rw [hsame, hno] at hsends
    cases hsends
  | none =>
    have hsteps := s.steps_main w false stage sig
    have hquiet : ∀ {next : Stage}, NoSending next → next.isSending = false := by
      intro next hnever
      cases next with
      | sending job pool => exact absurd rfl (hnever job pool)
      | _ => rfl
    show (∃ job c, stage = .locating job c) ∧ (s.main w false stage sig).stage.attempt? = none
    replace hsends : (s.main w false stage sig).stage.isSending = true := hsends
    generalize (s.main w false stage sig).world = w', (s.main w false stage sig).stage = next
      at hsteps hsends ⊢
    cases hsteps with
    | finds threads _ => exact ⟨⟨_, _, rfl⟩, attempt?_start _ threads _⟩
    | idle _ =>
      rw [hno] at hsends
      cases hsends
    | claims hnever | announces hnever | opens hnever | looks _ hnever =>
      rw [hquiet hnever] at hsends
      cases hsends
    | collects | leaves => cases hno
    | _ => cases hsends

/-- While a run sends parts it uses the resolver that it goes by. -/
theorem Trace.resolver {s : Run.Setup} {off : Bool} {stage : Stage} {evs : List Event}
    (h : Trace s off stage evs) {job : Job} {pool : Pool Transfer}
    (hstage : stage = .sending job pool) : job.resolver = s.resolver := by
  subst hstage
  obtain ⟨d, o, -, -, -, rfl, -, -⟩ := h.course
  rfl

/-- Before its workers start nothing counts for a run but that it asks for a host. -/
theorem Run.Setup.Early.mark? {s : Run.Setup} {d : Digest.FileDigests} {e : Event}
    (h : s.Early d e) : e.mark? = none ∨ e.mark? = some .located := by
  cases h with
  | asked token => exact .inr rfl
  | _ => exact .inl rfl

theorem Score.drops_after_located {ms : List Mark} (h : ∀ m ∈ ms, m = .located) (x : Score) :
    (x.after ms).drops = x.drops := by
  induction ms generalizing x with
  | nil => rfl
  | cons m ms ih =>
    have hrest := ih (fun m' hm' => h m' (List.mem_cons_of_mem m hm')) (x.take m)
    rw [h m List.mem_cons_self] at hrest ⊢
    exact hrest

theorem Run.Setup.drops_of_early {s : Run.Setup} {d : Digest.FileDigests} {evs : List Event}
    (h : ∀ e ∈ evs, s.Early d e) : (Score.after {} (Mark.among evs)).drops = 0 := by
  apply Score.drops_after_located
  intro m hm
  obtain ⟨e, he, hmark⟩ := List.mem_filterMap.mp hm
  rcases (h e he).mark? with hnone | hlocated
  · cases hnone.symm.trans hmark
  · exact (Option.some.inj (hlocated.symm.trans hmark)).symm

namespace History

variable {h : History} {i k : Nat}

def resolver? (h : History) (i : Nat) : Option Resolver := h.engine.world.resolvers[i]?

/-- A signal to a task touches no resolver but that of its run. -/
theorem resolver?_signal (hin : h.InStep) {t : Task} {r : Run} {s : Run.Setup}
    (hr : h.engine.runs[t.run]? = some r)
    (hs : Engine.setup? h.engine.world r.handle = some s) (sig : Signal) (hne : s.resolver ≠ i) :
    (h.next (.signal t sig)).resolver? i = h.resolver? i := by
  obtain ⟨off, htrace, -⟩ := (hin.follows t.run r hr).trace hs
  let cancelled := h.engine.world.isCancelled r.handle
  let sig' := Engine.effective cancelled r.stage sig
  let w := (h.engine.world.cancelAll sig'.cancels).1
  have hcancels : w.resolvers = h.engine.world.resolvers :=
    h.engine.world.resolvers_cancelAll sig'.cancels
  have htouched :
      w.TouchedAt (s.turn w cancelled t.worker r.stage sig').world s.resolver := by
    cases t.worker with
    | none => exact s.touchedAt_main w cancelled r.stage sig'
    | some j =>
      exact s.touchedAt_worker w cancelled j sig' fun job pool hstage => htrace.resolver hstage
  rw [resolver?, resolver?, (next_signal hr hs sig).1, ← hcancels]
  exact htouched.getElem?_ne hne

theorem idles_of_eq {rs rs' : List Resolver} (h : rs' = rs) (i : Nat) : Idles rs[i]? rs'[i]? := by
  rw [h]
  exact .same _

theorem idles_of_added (rs : List Resolver) (settings : EndpointSettings) (i : Nat) :
    Idles rs[i]? (rs ++ [.start settings])[i]? := by
  rcases Nat.lt_trichotomy i rs.length with hlt | rfl | hgt
  · rw [List.getElem?_append_left hlt]
    exact .same _
  · rw [List.getElem?_concat_length, List.getElem?_eq_none (Nat.le_refl _)]
    exact .made settings
  · rw [List.getElem?_eq_none (Nat.le_of_lt hgt), List.getElem?_eq_none]
    · exact .same none
    · rw [List.length_append, List.length_singleton]
      exact hgt

/-- What is no signal to a task leaves a resolver alone, if it does not drop its host. -/
theorem idles_other (h : History) {a : Action} (ha : ∀ t sig, a ≠ .signal t sig)
    (hno : a ≠ .invalidate i) : Idles (h.resolver? i) ((h.next a).resolver? i) := by
  cases a with
  | signal t sig => exact absurd rfl (ha t sig)
  | addUploader settings =>
    exact idles_of_added h.engine.world.resolvers settings.endpointSettings i
  | addSharingUploader settings other =>
    cases hother : h.engine.world.uploaders[other]? with
    | none =>
      simp only [next, Engine.act, Engine.addSharingUploader, hother]
      exact idles_of_added h.engine.world.resolvers settings.endpointSettings i
    | some u =>
      simp only [next, Engine.act, Engine.addSharingUploader, hother]
      exact .same _
  | cancel handle =>
    exact idles_of_eq (h.engine.world.resolvers_withHandle handle Handle.cancel) i
  | invalidate j =>
    have hmoved : h.engine.world.TouchedAt (h.next (.invalidate j)).engine.world j :=
      ⟨[.invalidate], h.engine.world.resolvers_withResolver j fun _ => rfl⟩
    rw [resolver?, resolver?, hmoved.getElem?_ne fun heq => hno (congrArg Action.invalidate heq)]
    exact .same _
  | age j nanos =>
    have hmoved : (h.next (.age j nanos)).engine.world.resolvers
        = h.engine.world.moved j [.age nanos] :=
      h.engine.world.resolvers_withResolver j fun _ => rfl
    by_cases hj : j = i
    · subst hj
      rw [resolver?, resolver?, hmoved, World.getElem?_moved]
      cases h.engine.world.resolvers[j]? with
      | none => exact .same none
      | some r => exact .ages r nanos
    · have htouched : h.engine.world.TouchedAt (h.next (.age j nanos)).engine.world j := ⟨_, hmoved⟩
      rw [resolver?, resolver?, htouched.getElem?_ne hj]
      exact .same _
  | reload path =>
    apply idles_of_eq _ i
    simp only [next, Engine.act, Engine.withWorld, World.reload]
    split
    · rfl
    · split <;> rfl
  | _ => exact .same _

/-! ## What the run does -/

/-- What a run is about with a host. -/
def attempt? (h : History) (k : Nat) : Option Attempt :=
  (h.engine.runs[k]?).bind fun r => r.stage.attempt?

/-- What has counted for the host of a run. -/
def score (h : History) (k : Nat) : Score := Score.after {} (Mark.among (h.of k))

/-- The run sends parts. -/
def isSending (h : History) (k : Nat) : Bool :=
  (h.engine.runs[k]?).any fun r => r.stage.isSending

theorem isSending_eq {r : Run} (hr : h.engine.runs[k]? = some r) :
    h.isSending k = r.stage.isSending := by
  rw [isSending, hr]
  rfl

theorem located_le_after (h : History) (more : List Action) (k : Nat) :
    (h.score k).located ≤ ((h.after more).score k).located := by
  obtain ⟨later, hof⟩ := of_after h more k
  rw [score, score, ← hof, Mark.among_append, Score.after_append]
  exact Score.located_le_after _ _

theorem attempt?_eq {r : Run} (hr : h.engine.runs[k]? = some r) :
    h.attempt? k = r.stage.attempt? := by
  rw [attempt?, hr]
  rfl

theorem score_next_signal (h : History) (t : Task) (sig : Signal) :
    (h.next (.signal t sig)).score t.run
      = (h.score t.run).after (Mark.among (h.engine.events t sig)) := by
  rw [score, of_next_signal, if_pos rfl, Mark.among_append, Score.after_append, score]

/-- Before a run sends parts nothing was dropped. -/
theorem drops_of_locating (hin : h.InStep) {r : Run} {s : Run.Setup}
    (hr : h.engine.runs[k]? = some r) (hs : Engine.setup? h.engine.world r.handle = some s)
    (hlocating : r.stage.isLocating = true) : (h.score k).drops = 0 := by
  obtain ⟨off, htrace, -⟩ := (hin.follows k r hr).trace hs
  generalize hstage : r.stage = stage at htrace hlocating
  cases stage with
  | locating job c =>
    obtain ⟨d, o, hlocated, -⟩ := htrace.course
    exact Run.Setup.drops_of_early hlocated.early
  | _ => cases hlocating

variable {handle : Nat} {stage : Stage} {s : Run.Setup} {worker : Option Nat} {sig : Signal}

/-- A step of a run with one worker at most, and what it does about the host. -/
theorem deals_next (hin : h.InStep) (hrun : h.engine.runs[k]? = some ⟨handle, stage⟩)
    (hs : Engine.setup? h.engine.world handle = some s)
    (hoff : (h.next (.signal ⟨k, worker⟩ sig)).engine.world.isCancelled handle = false)
    (hfinds : sig.finds = true) (hlimit : worker.isSome = true → sig.isLimit = false)
    (hsingle : ∀ job pool, stage = .sending job pool → pool.workers.length ≤ 1) :
    Deals stage.isLocating (h.resolver? s.resolver) (h.attempt? k)
      (Mark.among (h.engine.events ⟨k, worker⟩ sig))
      ((h.next (.signal ⟨k, worker⟩ sig)).resolver? s.resolver)
      ((h.next (.signal ⟨k, worker⟩ sig)).attempt? k) := by
  obtain ⟨hfree, hrun', -⟩ := next_signal_free hrun hs sig hoff
  obtain ⟨off, htrace, -⟩ := (hin.follows k _ hrun).trace hs
  have hlone : ∀ job pool, stage = .sending job pool → s.IsLone job pool := by
    rintro job pool hstage
    exact ⟨htrace.resolver hstage, hsingle job pool hstage,
      (Trace.staffed (hstage ▸ htrace) job pool rfl).fallen⟩
  have hdeals := s.deals_turn hlone hfree hfinds worker hlimit
  have hworld := (next_signal (t := ⟨k, worker⟩) hrun hs sig).1
  have hevents := Engine.events_eq (t := ⟨k, worker⟩) sig hrun hs
  rw [not_cancelled_before _ hoff] at hworld hevents
  rw [attempt?_eq hrun, attempt?_eq hrun', resolver?, resolver?, hworld, hevents]
  rw [h.engine.world.resolvers_cancelAll sig.cancels] at hdeals
  exact hdeals

/-- The step of a run that starts its workers. -/
theorem asked_next (hin : h.InStep) {r : Run} (hr : h.engine.runs[k]? = some r)
    (hs : Engine.setup? h.engine.world r.handle = some s)
    (hoff : (h.next (.signal ⟨k, worker⟩ sig)).engine.world.isCancelled r.handle = false)
    (hunt : Hunt (h.resolver? i) (h.attempt? k) (h.score k))
    (hserves : ∀ r, h.resolver? i = some r → r.Serves)
    (hdeals : Deals r.stage.isLocating (h.resolver? i) (h.attempt? k)
      (Mark.among (h.engine.events ⟨k, worker⟩ sig))
      ((h.next (.signal ⟨k, worker⟩ sig)).resolver? i)
      ((h.next (.signal ⟨k, worker⟩ sig)).attempt? k))
    (hno : h.isSending k = false)
    (hsends : (h.next (.signal ⟨k, worker⟩ sig)).isSending k = true) :
    0 < ((h.next (.signal ⟨k, worker⟩ sig)).score k).located := by
  obtain ⟨-, hrun, -⟩ := next_signal_free hr hs sig hoff
  rw [isSending_eq hr] at hno
  rw [isSending_eq hrun] at hsends
  obtain ⟨⟨job, c, hstage⟩, hnone⟩ := s.locating_of_sending _ worker hno hsends
  have hdoing : h.attempt? k = some (.resolving c) := by
    rw [attempt?_eq hr, hstage]
    rfl
  rw [attempt?_eq hrun, hnone, hdoing] at hdeals
  rw [hdoing] at hunt
  rw [score_next_signal h ⟨k, worker⟩ sig]
  exact hunt.located_pos hserves (drops_of_locating hin hr hs) hdeals

/-- Nothing but a step of its own changes what a run is about, and what counts for its host. -/
theorem unmoved_next (hin : h.InStep) (a : Action)
    (hother : ¬ ∃ worker sig r s, a = .signal ⟨k, worker⟩ sig ∧ h.engine.runs[k]? = some r ∧
      Engine.setup? h.engine.world r.handle = some s) :
    (h.next a).attempt? k = h.attempt? k ∧ (h.next a).score k = h.score k ∧
      (h.next a).isSending k = h.isSending k := by
  cases hr : h.engine.runs[k]? with
  | some r =>
    rcases next_cases h a hr with ⟨hsame, hof⟩ | ⟨worker, sig, s, ha, hs⟩
    · rw [attempt?_eq hr, attempt?_eq hsame, isSending_eq hr, isSending_eq hsame, score, score, hof]
      exact ⟨rfl, rfl, rfl⟩
    · exact absurd ⟨worker, sig, r, s, ha, hr, hs⟩ hother
  | none =>
    have hnone : h.of k = [] := hin.absent k hr
    rw [score, score, hnone, attempt?, attempt?, isSending, isSending, hr]
    cases hr' : (h.next a).engine.runs[k]? with
    | none =>
      rw [(hin.next a).absent k hr']
      exact ⟨rfl, rfl, rfl⟩
    | some r' =>
      obtain ⟨hstage, hnil⟩ := begun_next hin a hr hr'
      rw [hnil, Option.bind_some, Option.any_some, hstage]
      exact ⟨rfl, rfl, rfl⟩

/-- An event of a run comes with a step of its own. -/
theorem step_of_entry {a : Action} {x : Event} (hx : ⟨k, x⟩ ∈ h.entries a) :
    ∃ worker sig r s, a = .signal ⟨k, worker⟩ sig ∧ h.engine.runs[k]? = some r ∧
      Engine.setup? h.engine.world r.handle = some s ∧ x ∈ h.engine.events ⟨k, worker⟩ sig := by
  cases a with
  | signal t sig =>
    obtain ⟨y, hy, heq⟩ := List.mem_map.mp hx
    injection heq with hrun hevent
    subst hrun hevent
    rcases h.engine.signal_cases t sig with ⟨-, hnone⟩ | ⟨r, s, hr, hs⟩
    · rw [hnone] at hy
      cases hy
    · exact ⟨t.worker, sig, r, s, rfl, hr, hs, hy⟩
  | _ => cases hx

end History

/-! ## The whole run -/

/-- How many workers send parts at a stage. -/
def Stage.workerCount : Stage → Nat
  | .sending _ pool => pool.workers.length
  | _ => 0

/-- The action lets all lookups of run `k` find hosts and cuts none of its attempts off, and it does
not drop the host of resolver `i` by hand. -/
def Action.isSmooth (k i : Nat) : Action → Bool
  | .signal t sig => t.run != k || (sig.finds && (t.worker.isNone || !sig.isLimit))
  | .invalidate j => j != i
  | _ => true

namespace Sample

/-- A lookup ends that has found a host. -/
def finds (worker : Option Nat) (url : String) : Action :=
  .signal ⟨0, worker⟩ (.lookup (.outcome (.servers [url])) [])

/-- The host does not take the part. -/
def unreached : Action :=
  .signal ⟨0, some 0⟩ (.reply (.fault (.plain .network "connection refused")) [])

/-- The worker begins its next attempt. -/
def again : List Action := [.signal ⟨0, some 0⟩ .wake, work, work]

/-- A run finds a host, which its worker does not reach in three attempts. -/
def failing : List Action :=
  [.addUploader {}, .start "s" 0 target, .run 0, go, go, go, go, go,
    reply (.precreate { errno := 0, uploadId := "U" }), go, go, go, go, finds none "https://a",
    work, work, work, work, work, work, work, unreached] ++ again ++ [unreached] ++ again
    ++ [unreached]

/-- The worker asks for another host. -/
def asking : List Action := failing ++ again ++ [work, work]

end Sample

namespace History

/-- What has counted so far for the host of run `k`, which uses resolver `i`. -/
structure Level (h : History) (k i : Nat) : Prop where
  -- the faults of the connection since a part was sent well, or a host was dropped
  counted : ∀ r, h.resolver? i = some r → r.failures = (h.score k).count
  -- a lookup under way is for the host that is due, and the run waits for it
  asking : isAsked (h.resolver? i) = true → (h.score k).located = 1 + (h.score k).drops ∧
    ∃ l, h.attempt? k = some (.resolving (.waiting l))
  -- otherwise every lookup but the first took the place of a host that was dropped
  located : isAsked (h.resolver? i) = false →
    ((h.score k).located = 0 ∧ (h.score k).attempts = 0) ∨
      (h.score k).located = 1 + (h.score k).renewed

/-- What an action means for the host of run `k`, which uses resolver `i`. -/
structure Renews (h : History) (a : Action) (k i : Nat) : Prop where
  -- the kept host is dropped when the third fault of the connection has come, and only then
  drops : (keptBy (h.resolver? i)).isSome = true ∧ keptBy ((h.next a).resolver? i) = none ↔
    (h.score k).drops < ((h.next a).score k).drops
  -- a part is sent to the host that the latest lookup has found
  sends : ∀ worker url token req, ⟨k, .called worker (.slice url token req)⟩ ∈ h.entries a →
    ∃ r e l, (h.next a).resolver? i = some r ∧ r.cache = some e ∧ e.baseUrl = url ∧
      r.result? l = some (.ok e) ∧ l + 1 = r.nextLookup

/-- Run `k` has one worker at most and a resolver of its own, its session is not cancelled, and its
lookups and attempts go smoothly. -/
structure Solo (w : World) (as : List Action) (k : Nat) (s : Run.Setup) : Prop where
  setup : ((start w).after as).setup? k = some s
  -- the resolver is new, and no other run uses it
  unused : ∀ r, w.resolvers[s.resolver]? = some r → ∃ settings, r = .start settings
  own : ∀ j s', ((start w).after as).setup? j = some s' → s'.resolver = s.resolver → j = k
  calm : ((start w).after as).engine.world.isCancelled s.handle = false
  smooth : ∀ a ∈ as, a.isSmooth k s.resolver = true
  serves : ∀ done, done <+: as → ∀ r,
    ((start w).after done).resolver? s.resolver = some r → r.Serves
  single : ∀ done, done <+: as → ∀ r,
    ((start w).after done).engine.runs[k]? = some r → r.stage.workerCount ≤ 1

variable {h : History} {k i : Nat}

theorem isCancelled_after {handle : Nat} (hc : h.engine.world.isCancelled handle = true)
    (as : List Action) : (h.after as).engine.world.isCancelled handle = true :=
  induct (P := fun h' => h'.engine.world.isCancelled handle = true) hc
    (fun done a ih => ((h.after done).engine.later_act a).isCancelled ih) as

theorem Level.of_hunt (hunt : Hunt (h.resolver? i) (h.attempt? k) (h.score k)) : h.Level k i :=
  ⟨fun _ hr => hunt.counted hr, hunt.located_asking, hunt.located_quiet⟩

variable {w : World} {as done : List Action} {s : Run.Setup}

theorem lt_of_setup? {j : Nat} {s : Run.Setup} (hs : h.setup? j = some s) :
    j < h.engine.runs.length := by
  obtain ⟨r, hr, -⟩ := Option.bind_eq_some_iff.mp hs
  exact (List.getElem?_eq_some_iff.mp hr).1

/-- What a step of the run goes by. -/
theorem Solo.setup_eq (hsolo : Solo w as k s) (hdone : done <+: as) {r : Run} {s' : Run.Setup}
    (hr : ((start w).after done).engine.runs[k]? = some r)
    (hs : Engine.setup? ((start w).after done).engine.world r.handle = some s') : s' = s := by
  obtain ⟨rest, rfl⟩ := hdone
  have hbefore : ((start w).after done).setup? k = some s' := by
    rw [setup?, hr]
    exact hs
  have hend := setup?_after hbefore rest
  rw [← after_append] at hend
  exact Option.some.inj (hend.symm.trans hsolo.setup)

theorem Solo.off (hsolo : Solo w as k s) (hdone : done <+: as) :
    ((start w).after done).engine.world.isCancelled s.handle = false := by
  obtain ⟨rest, rfl⟩ := hdone
  apply Bool.eq_false_iff.mpr
  intro hc
  have hend := isCancelled_after hc rest
  rw [← after_append, hsolo.calm] at hend
  cases hend

theorem Solo.own_before (hsolo : Solo w as k s) (hdone : done <+: as) {j : Nat} {s' : Run.Setup}
    (hs : ((start w).after done).setup? j = some s') (hresolver : s'.resolver = s.resolver) :
    j = k := by
  obtain ⟨rest, rfl⟩ := hdone
  have hend := setup?_after hs rest
  rw [← after_append] at hend
  exact hsolo.own j s' hend hresolver

/-- What the run has no part in leaves its resolver alone. -/
theorem Solo.idles (hsolo : Solo w as k s) (hdone : done <+: as) {a : Action}
    (hsmooth : a.isSmooth k s.resolver = true)
    (hother : ¬ ∃ worker sig r s', a = .signal ⟨k, worker⟩ sig ∧
      ((start w).after done).engine.runs[k]? = some r ∧
      Engine.setup? ((start w).after done).engine.world r.handle = some s') :
    Idles (((start w).after done).resolver? s.resolver)
      ((((start w).after done).next a).resolver? s.resolver) := by
  by_cases ha : ∃ t sig, a = .signal t sig
  · obtain ⟨t, sig, rfl⟩ := ha
    rcases ((start w).after done).engine.signal_cases t sig with ⟨hsame, -⟩ | ⟨r, s', hr, hs⟩
    · have heng : (((start w).after done).next (.signal t sig)).engine
          = ((start w).after done).engine := hsame
      rw [resolver?, resolver?, heng]
      exact .same _
    · have hne : s'.resolver ≠ s.resolver := by
        intro heq
        have hsetup : ((start w).after done).setup? t.run = some s' := by
          rw [setup?, hr]
          exact hs
        obtain rfl := hsolo.own_before hdone hsetup heq
        exact hother ⟨t.worker, sig, r, s', rfl, hr, hs⟩
      rw [resolver?_signal (inStep w done) hr hs sig hne]
      exact .same _
  · apply idles_other
    · exact fun t sig heq => ha ⟨t, sig, heq⟩
    · rintro rfl
      rw [Action.isSmooth, bne_self_eq_false] at hsmooth
      cases hsmooth

/-- A step of the run does one of few things about the host. -/
theorem Solo.deals {worker : Option Nat} {sig : Signal}
    (hsolo : Solo w as k s) (hdone : done ++ [.signal ⟨k, worker⟩ sig] <+: as) {r : Run}
    (hr : ((start w).after done).engine.runs[k]? = some r)
    (hs : Engine.setup? ((start w).after done).engine.world r.handle = some s) :
    let h := (start w).after done
    let h' := h.next (.signal ⟨k, worker⟩ sig)
    Deals r.stage.isLocating (h.resolver? s.resolver) (h.attempt? k)
      (Mark.among (h.engine.events ⟨k, worker⟩ sig)) (h'.resolver? s.resolver) (h'.attempt? k) := by
  intro h h'
  have hbefore : done <+: as := (List.prefix_append done _).trans hdone
  have hsmooth := hsolo.smooth (.signal ⟨k, worker⟩ sig)
    (hdone.subset (List.mem_append_right done List.mem_cons_self))
  rw [Action.isSmooth, bne_self_eq_false, Bool.false_or, Bool.and_eq_true, Bool.or_eq_true,
    Bool.not_eq_true'] at hsmooth
  obtain ⟨hfinds, hlimit⟩ := hsmooth
  have hoff := hsolo.off hdone
  rw [after_concat, Engine.setup?_handle hs] at hoff
  apply deals_next (inStep w done) hr hs hoff hfinds
  · intro hworker
    apply hlimit.resolve_left
    cases worker with
    | none => cases hworker
    | some j => exact Bool.false_ne_true
  · rintro job pool hstage
    have hsingle := hsolo.single done hbefore r hr
    rwa [hstage] at hsingle

/-- Every action keeps the run and its resolver together. -/
theorem Solo.comes (hsolo : Solo w as k s) {a : Action} (hdone : done ++ [a] <+: as) :
    let h := (start w).after done
    let h' := h.next a
    Hunt (h.resolver? s.resolver) (h.attempt? k) (h.score k) →
    Comes (h.resolver? s.resolver) (h.score k) (h'.resolver? s.resolver) (h'.attempt? k)
      (h'.score k) := by
  intro h h' hunt
  have hbefore : done <+: as := (List.prefix_append done [a]).trans hdone
  have hin : h.InStep := inStep w done
  by_cases hown : ∃ worker sig r s', a = .signal ⟨k, worker⟩ sig ∧ h.engine.runs[k]? = some r ∧
      Engine.setup? h.engine.world r.handle = some s'
  · -- the run takes a step
    obtain ⟨worker, sig, r, s', rfl, hr, hs⟩ := hown
    obtain rfl := hsolo.setup_eq hbefore hr hs
    rw [score_next_signal h ⟨k, worker⟩ sig]
    apply hunt.deals (hsolo.serves done hbefore) (drops_of_locating hin hr hs)
    exact hsolo.deals hdone hr hs
  · -- others do something, or time passes
    obtain ⟨hdoing, hscore, -⟩ := unmoved_next hin a hown
    have hsmooth := hsolo.smooth a (hdone.subset (List.mem_append_right done List.mem_cons_self))
    rw [hdoing, hscore]
    exact hunt.idles (hsolo.idles hbefore hsmooth hown)

/-- All the time the run and its resolver go together. -/
theorem Solo.hunt (hsolo : Solo w as k s) (hdone : done <+: as) :
    let h := (start w).after done
    Hunt (h.resolver? s.resolver) (h.attempt? k) (h.score k) := by
  induction done using List.reverseRecOn with
  | nil =>
    apply Hunt.due _ .none ⟨rfl, rfl, .inl ⟨rfl, rfl, rfl⟩⟩
    intro r hr
    obtain ⟨settings, rfl⟩ := hsolo.unused r hr
    exact Resolver.isFree_start settings
  | append_singleton done a ih =>
    have hbefore : done <+: as := (List.prefix_append done [a]).trans hdone
    rw [after_concat]
    exact (hsolo.comes hdone (ih hbefore)).hunt

/-- When the run sends parts the server has been asked for a host. -/
theorem Solo.asked (hsolo : Solo w as k s) (hdone : done <+: as)
    (hsends : ((start w).after done).isSending k = true) :
    0 < (((start w).after done).score k).located := by
  induction done using List.reverseRecOn with
  | nil => cases hsends
  | append_singleton done a ih =>
    have hbefore : done <+: as := (List.prefix_append done [a]).trans hdone
    have hoff := hsolo.off hdone
    rw [after_concat] at hsends hoff ⊢
    by_cases hown : ∃ worker sig r s', a = .signal ⟨k, worker⟩ sig ∧
        ((start w).after done).engine.runs[k]? = some r ∧
        Engine.setup? ((start w).after done).engine.world r.handle = some s'
    · obtain ⟨worker, sig, r, s', rfl, hr, hs⟩ := hown
      obtain rfl := hsolo.setup_eq hbefore hr hs
      rw [Engine.setup?_handle hs] at hoff
      cases hold : ((start w).after done).isSending k with
      | true =>
        have hmore := located_le_after ((start w).after done) [.signal ⟨k, worker⟩ sig] k
        exact Nat.lt_of_lt_of_le (ih hbefore hold) hmore
      | false =>
        exact asked_next (inStep w done) hr hs hoff (hsolo.hunt hbefore)
          (hsolo.serves done hbefore) (hsolo.deals hdone hr hs) hold hsends
    · obtain ⟨-, hscore, hsame⟩ := unmoved_next (inStep w done) a hown
      rw [hsame] at hsends
      rw [hscore]
      exact ih hbefore hsends

theorem Solo.renews (hsolo : Solo w as k s) {a : Action} (hdone : done ++ [a] <+: as) :
    ((start w).after done).Renews a k s.resolver := by
  have hbefore : done <+: as := (List.prefix_append done [a]).trans hdone
  have hcomes := hsolo.comes hdone (hsolo.hunt hbefore)
  refine ⟨hcomes.drops, fun worker url token req hentry => ?_⟩
  obtain ⟨worker', sig, r, s', rfl, hr, hs, hevent⟩ := step_of_entry hentry
  obtain rfl := hsolo.setup_eq hbefore hr hs
  have hmark : .sent url ∈ Mark.among (((start w).after done).engine.events ⟨k, worker'⟩ sig) :=
    List.mem_filterMap.mpr ⟨_, hevent, rfl⟩
  obtain ⟨e, hdoing, hurl⟩ := (hsolo.deals hdone hr hs).of_sent hmark
  have hunt := hcomes.hunt
  rw [hdoing] at hunt
  obtain ⟨r', l, hr', hkeeps⟩ := hunt.of_sending
  exact ⟨r', e, l, hr', hkeeps.cache, hurl, hkeeps.found, hkeeps.latest⟩

/-- How a run with one worker changes its host, if it alone uses its resolver, its session is not
cancelled, all lookups find hosts which stay fresh, and no attempt is cut off. Faults of the
connection are counted, whatever other faults come between them, over all parts until a part is sent
well. With the third of them the kept host is dropped and the count begins again, and a host is
dropped in no other way. Every part is sent to the host that the latest lookup has found. A run that
has got to send parts has asked the server for a host once, and once more for every drop that is
followed by a further attempt. -/
theorem renewed_after (hsolo : Solo w as k s) :
    (∀ done, done <+: as → ((start w).after done).Level k s.resolver) ∧
      (∀ done a, done ++ [a] <+: as → ((start w).after done).Renews a k s.resolver) ∧
      ∀ done more, done ++ more <+: as → ((start w).after done).isSending k = true →
        let h := (start w).after (done ++ more)
        isAsked (h.resolver? s.resolver) = false →
          (h.score k).located = 1 + (h.score k).renewed := by
  refine ⟨fun _ hdone => .of_hunt (hsolo.hunt hdone), fun _ _ hdone => hsolo.renews hdone, ?_⟩
  intro done more hmore hsends h hquiet
  have hasked := hsolo.asked ((List.prefix_append done more).trans hmore) hsends
  have hstill := located_le_after ((start w).after done) more k
  rw [← after_append] at hstill
  apply ((hsolo.hunt hmore).located_quiet hquiet).resolve_left
  rintro ⟨hnever, -⟩
  rw [hnever] at hstill
  exact absurd hasked (Nat.not_lt_of_le hstill)

open Sample in
/-- A session that works alone, whose host fails three times. -/
theorem solo_renewing : ∃ s, s.resolver = 0 ∧
    Solo world (asking ++ [finds (some 0) "https://b"]) 0 s := by
  let as := asking ++ [finds (some 0) "https://b"]
  have hone : ((start world).after as).engine.runs.length = 1 := by decide +kernel
  have hsetup : (((start world).after as).setup? 0).map (fun s => (s.handle, s.resolver))
      = some (0, 0) := by decide +kernel
  obtain ⟨s, hs, heq⟩ := Option.map_eq_some_iff.mp hsetup
  injection heq with hhandle hresolver
  refine ⟨s, hresolver, hs, ?_, ?_, ?_, ?_, ?_, ?_⟩
  · rw [hresolver]
    exact nofun
  · intro j s' hs' _
    have hlt := lt_of_setup? hs'
    rw [hone] at hlt
    exact Nat.lt_one_iff.mp hlt
  · rw [hhandle]
    decide +kernel
  · rw [hresolver]
    decide +kernel
  · have hall : as.inits.all (fun done => (((start world).after done).resolver? 0).all
        fun r => r.settings.dynamic && r.cache.all fun e => e.isFresh r.now) = true := by
      decide +kernel
    intro done hdone r hr
    rw [hresolver] at hr
    have hserves := List.all_eq_true.mp hall done ((List.mem_inits _ _).mpr hdone)
    rw [hr, Option.all_some, Bool.and_eq_true] at hserves
    refine ⟨hserves.1, fun e he => ?_⟩
    rw [he] at hserves
    exact hserves.2
  · have hall : as.inits.all (fun done => (((start world).after done).engine.runs[0]?).all
        fun r => r.stage.workerCount ≤ 1) = true := by
      decide +kernel
    intro done hdone r hr
    have hsingle := List.all_eq_true.mp hall done ((List.mem_inits _ _).mpr hdone)
    rw [hr] at hsingle
    exact of_decide_eq_true hsingle

/-- After three faults of the connection the host is dropped, and the fourth attempt goes to another
one, for which the server was asked. -/
theorem renewed_after_three_faults :
    let failed := (start Sample.world).after Sample.failing
    let asked := (start Sample.world).after Sample.asking
    let renewed := (start Sample.world).after (Sample.asking ++ [Sample.finds (some 0) "https://b"])
    failed.score 0 = { drops := 1, attempts := 3, located := 1 } ∧ failed.Level 0 0 ∧
      keptBy (failed.resolver? 0) = none ∧ asked.Renews (Sample.finds (some 0) "https://b") 0 0 ∧
      renewed.score 0 = { drops := 1, renewed := 1, attempts := 4, located := 2 } ∧
      (renewed.score 0).located = 1 + (renewed.score 0).renewed := by
  intro failed asked renewed
  obtain ⟨s, hresolver, hsolo⟩ := solo_renewing
  obtain ⟨hlevel, hrenews, hlocated⟩ := renewed_after hsolo
  rw [hresolver] at hlevel hrenews hlocated
  refine ⟨by decide +kernel, hlevel Sample.failing ?_, ?_, ?_, by decide +kernel, ?_⟩
  · rw [Sample.asking, List.append_assoc, List.append_assoc]
    exact List.prefix_append _ _
  · have hnone : (keptBy (failed.resolver? 0)).isNone = true := by decide +kernel
    exact Option.isNone_iff_eq_none.mp hnone
  · exact hrenews Sample.asking _ (List.prefix_refl _)
  · exact hlocated Sample.asking _ (List.prefix_refl _) (by decide +kernel) (by decide +kernel)

end History

end ResumableUpload.Session
