import ResumableUpload.Proofs.Session.Blame

/-!
# A worker and a host that fails

A worker that alone uses a resolver sends part after part to the kept host. The resolver drops the
host after three failures that it hears of, and the next attempt looks for another; failures that it
does not hear of, those of attempts cut off at their limit, change nothing, however many there are
(`blames_answered`).
-/

namespace ResumableUpload.Session

namespace Transfer

variable {job : Job} {c : Chunk} {w : World}

/-! ## A worker of its own -/

/-- A failure of an attempt by the connection. -/
inductive Strike
  | answered (f : CallFault) (connection : f.kind.isConnectionClass = true)
  -- the attempt is cut off at its limit
  | late

namespace Strike

/-- What reaches the upload. -/
def signal : Strike → Signal
  | answered f _ => .reply (.fault f) []
  | late => .limit

/-- How often the resolver hears of the failure. -/
def heard : Strike → Nat
  | answered .. => 1
  | late => 0

/-- What the resolver hears of the failure of an attempt with a host. -/
def reports (e : Endpoint) : Strike → List Resolver.Move
  | answered .. => [.fail e]
  | late => []

end Strike

/-- Something that happens while one worker alone uses a resolver. -/
inductive Happening
  | passes (nanos : Nat)
  | gets (s : Signal)

/-- What happens to the upload of a part by a worker that is not cancelled and that alone uses its
resolver. -/
def lone (job : Job) (c : Chunk) : World × Transfer → Happening → World × Transfer
  | (w, t), .passes nanos =>
    ((w.withResolver job.resolver fun r => ({ r with now := r.now + nanos }, [])).1, t)
  | (w, t), .gets s =>
    let turn := t.step job c false w s
    match turn.result with
    | .more t' => (turn.world, t')
    | _ => (turn.world, t)

/-- Time passes, and an attempt with the kept host fails. -/
def round (x : Nat × Strike) : List Happening :=
  [.passes x.1, .gets .go, .gets .go, .gets x.2.signal, .gets .wake]

/-- How often the resolver hears of failures. -/
def heardIn : List (Nat × Strike) → Nat
  | [] => 0
  | x :: xs => x.2.heard + heardIn xs

/-- The time that passes. -/
def spent : List (Nat × Strike) → Nat
  | [] => 0
  | x :: xs => x.1 + spent xs

theorem heardIn_append (xs ys : List (Nat × Strike)) :
    heardIn (xs ++ ys) = heardIn xs + heardIn ys := by
  induction xs with
  | nil => exact (Nat.zero_add _).symm
  | cons x xs ih =>
    show x.2.heard + heardIn (xs ++ ys) = x.2.heard + heardIn xs + heardIn ys
    rw [ih, Nat.add_assoc]

theorem spent_append (xs ys : List (Nat × Strike)) : spent (xs ++ ys) = spent xs + spent ys := by
  induction xs with
  | nil => exact (Nat.zero_add _).symm
  | cons x xs ih =>
    show x.1 + spent (xs ++ ys) = x.1 + spent xs + spent ys
    rw [ih, Nat.add_assoc]

variable {payload : ByteArray} {n : Nat} {r : Resolver} {e : Endpoint}

/-- The resolver of the upload has found a host. -/
structure Keeps (job : Job) (w : World) (r : Resolver) (e : Endpoint) : Prop where
  here : w.resolvers[job.resolver]? = some r
  dynamic : r.settings.dynamic = true
  kept : r.cache = some e

/-- A fault of the connection is tried again while retries are left. -/
theorem result_conclude_strike {o : Retry.Outcome String} {f : CallFault}
    (hf : o.fault? (operation job c) = some f) (hconnection : f.kind.isConnectionClass = true)
    (hn : n < job.policy.maxRetries) (w : World) :
    ∃ wait, (conclude job c payload n w o).result = .more (pausing payload n wait) := by
  have hretriable : f.isRetriable = true := FaultKind.isConnectionClass_retriable hconnection
  show ∃ wait, (ofLoop job c payload ((Retry.Loop.active (.attempting n)).step (operation job c) 0
    false (.outcome o)).1).1 = _
  rcases Retry.Loop.step_cases (operation job c) 0 false (.attempting n) (.outcome o) with
    ⟨hcancelled, -⟩ | ⟨-, hgoes⟩
  · cases hcancelled
  · generalize ((Retry.Loop.active (.attempting n)).step (operation job c) 0 false
      (.outcome o)).1 = loop at hgoes
    cases hgoes with
    | succeeds => cases hf
    | fails _ _ f' hf' hno =>
      rw [Option.some.inj (hf.symm.trans hf'), hno] at hretriable
      cases hretriable
    | tires _ _ _ _ _ hle => exact absurd hn (Nat.not_lt_of_le hle)
    | pauses _ _ f' => exact ⟨_, rfl⟩
    | stays _ _ hno => cases hno

theorem resolver_of_moved {w w' : World} {i : Nat} {ms : List Resolver.Move}
    (h : w'.resolvers = w.moved i ms) (hr : w.resolvers[i]? = some r) :
    w'.resolvers[i]? = some (r.after ms) := by
  rw [h, World.moved, List.getElem?_modify, hr]
  show some (if i = i then r.after ms else r) = _
  rw [if_pos rfl]

/-- A host that is fresh was fresh before. -/
theorem isFresh_of_le {a b : Nat} (hle : a ≤ b) (h : e.isFresh b = true) : e.isFresh a = true := by
  simp only [Endpoint.isFresh, decide_eq_true_eq] at h ⊢
  omega

theorem cached_of_fresh (hcache : r.cache = some e) (h : e.isFresh r.now = true) :
    r.cached = some e := by
  rw [Resolver.cached, hcache, Option.filter_some, if_pos h]

/-- An attempt begins and finds the kept host. -/
theorem lone_begins (c : Chunk) (payload : ByteArray) (n : Nat)
    (hr : w.resolvers[job.resolver]? = some r)
    (hdynamic : r.settings.dynamic = true) (hcached : r.cached = some e) :
    ∃ w', [Happening.gets .go, .gets .go].foldl (lone job c) (w, ready payload n)
        = (w', attempting payload n (.sending e)) ∧ w'.resolvers[job.resolver]? = some r := by
  have henter : r.ask job.target.accessToken .entering = ⟨.done (.ok e), r, [], none⟩ := by
    show r.enter = _
    simp only [Resolver.enter, hdynamic, hcached, Bool.not_true, Bool.false_eq_true, if_false]
  have hask : w.ask job.resolver job.target.accessToken .entering
      = ⟨w.setResolver job.resolver r, .done (.ok e), []⟩ := by
    simp only [World.ask, hr, henter]
    rfl
  refine ⟨w.setResolver job.resolver r, ?_, ?_⟩
  · show lone job c (w, attempting payload n (.resolving .entering)) (.gets .go) = _
    simp only [lone, step, hask, resolved]
  · have hlt := (List.getElem?_eq_some_iff.mp hr).1
    exact List.getElem?_set_self hlt

/-- An attempt fails, and the next one comes. -/
theorem lone_fails (c : Chunk) (payload : ByteArray) (e : Endpoint)
    (hr : w.resolvers[job.resolver]? = some r) (hn : n < job.policy.maxRetries)
    (x : Strike) :
    ∃ w', [Happening.gets x.signal, .gets .wake].foldl (lone job c)
        (w, attempting payload n (.sending e)) = (w', ready payload (n + 1)) ∧
      w'.resolvers[job.resolver]? = some (r.after (x.reports e)) := by
  have hresult : ∃ wait, ((attempting payload n (.sending e)).step job c false w x.signal).result
      = .more (pausing payload n wait) := by
    cases x with
    | answered f hf => exact result_conclude_strike (o := .fault f) rfl hf hn w
    | late => exact result_conclude_strike (o := .late) rfl rfl hn w
  have hcontacts : (attempting payload n (.sending e)).contacts job x.signal = x.reports e := by
    cases x with
    | answered f hf => exact if_pos hf
    | late => rfl
  have hresolvers := resolvers_step job c false w (attempting payload n (.sending e)) x.signal
  rw [hcontacts] at hresolvers
  obtain ⟨wait, hmore⟩ := hresult
  refine ⟨_, ?_, resolver_of_moved hresolvers hr⟩
  show lone job c (lone job c (w, attempting payload n (.sending e)) (.gets x.signal)) (.gets .wake)
    = _
  simp only [lone, hmore]
  rfl

/-- The resolver after some time and a failure that does not fill its count. -/
theorem after_few {nanos : Nat} {x : Strike} (h : r.failures + x.heard < staleThreshold) :
    ({ r with now := r.now + nanos } : Resolver).after (x.reports e)
      = { r with now := r.now + nanos, failures := r.failures + x.heard } := by
  cases x with
  | answered f hf =>
    have hfew : r.failures + 1 < staleThreshold := h
    show (Resolver.reportFailure _ e).1 = _
    simp only [Resolver.reportFailure, hfew, if_true]
    rfl
  | late => rfl

/-- The resolver after some time and the failure of the kept host that fills its count. -/
theorem after_full (r : Resolver) {nanos : Nat} {x : Strike} (hcache : r.cache = some e)
    (hfew : r.failures < staleThreshold) (h : ¬ r.failures + x.heard < staleThreshold) :
    ({ r with now := r.now + nanos } : Resolver).after (x.reports e)
      = { r with now := r.now + nanos, cache := none, failures := 0 } := by
  cases x with
  | answered f hf =>
    have hmany : ¬ r.failures + 1 < staleThreshold := h
    have hsame : r.cache.any (Resolver.isSame · e) = true := by
      rw [hcache]
      simp only [Option.any_some, Resolver.isSame, beq_self_eq_true, Bool.and_self]
    show (Resolver.reportFailure _ e).1 = _
    simp only [Resolver.reportFailure, hmany, hsame, if_false, if_true]
  | late => exact absurd hfew h

/-- Time passes, an attempt with the kept host fails, and the next one comes. -/
theorem lone_round (c : Chunk) (payload : ByteArray) (hkeeps : Keeps job w r e) (x : Nat × Strike)
    (hfresh : e.isFresh (r.now + x.1) = true) (hn : n < job.policy.maxRetries) :
    ∃ w', (round x).foldl (lone job c) (w, ready payload n) = (w', ready payload (n + 1)) ∧
      w'.resolvers[job.resolver]?
        = some (({ r with now := r.now + x.1 } : Resolver).after (x.2.reports e)) := by
  have hmoved :
      (w.withResolver job.resolver fun r => ({ r with now := r.now + x.1 }, [])).1.resolvers
        = w.moved job.resolver [.age x.1] := w.resolvers_withResolver job.resolver fun _ => rfl
  have hcached : ({ r with now := r.now + x.1 } : Resolver).cached = some e :=
    cached_of_fresh hkeeps.kept hfresh
  obtain ⟨w₁, hbegins, hr₁⟩ :=
    lone_begins c payload n (resolver_of_moved hmoved hkeeps.here) hkeeps.dynamic hcached
  obtain ⟨w₂, hfails, hr₂⟩ := lone_fails c payload e hr₁ hn x.2
  refine ⟨w₂, ?_, hr₂⟩
  show [Happening.gets x.2.signal, .gets .wake].foldl (lone job c)
    ([Happening.gets .go, .gets .go].foldl (lone job c)
      (lone job c (w, ready payload n) (.passes x.1))) = _
  rw [← hfails, ← hbegins]
  rfl

/-- As long as the count of the resolver is not full, the host is kept. -/
theorem lone_rounds (c : Chunk) (payload : ByteArray) (hkeeps : Keeps job w r e)
    (xs : List (Nat × Strike))
    (hfresh : e.isFresh (r.now + spent xs) = true) (hn : n + xs.length ≤ job.policy.maxRetries)
    (hfew : r.failures + heardIn xs < staleThreshold) :
    ∃ w', (xs.flatMap round).foldl (lone job c) (w, ready payload n)
        = (w', ready payload (n + xs.length)) ∧
      w'.resolvers[job.resolver]?
        = some { r with now := r.now + spent xs, failures := r.failures + heardIn xs } := by
  induction xs generalizing w r n with
  | nil => exact ⟨w, rfl, hkeeps.here⟩
  | cons x xs ih =>
    rw [List.length_cons] at hn
    rw [heardIn, ← Nat.add_assoc] at hfew
    rw [spent, ← Nat.add_assoc] at hfresh
    obtain ⟨w₁, hround, hr₁⟩ := lone_round c payload hkeeps x
      (isFresh_of_le (Nat.le_add_right _ _) hfresh) (n := n) (by omega)
    rw [after_few (Nat.lt_of_le_of_lt (Nat.le_add_right _ _) hfew)] at hr₁
    obtain ⟨w', hrounds, hr'⟩ := ih ⟨hr₁, hkeeps.dynamic, hkeeps.kept⟩ hfresh (n := n + 1)
      (by omega) hfew
    refine ⟨w', ?_, ?_⟩
    · rw [List.flatMap_cons, List.foldl_append, hround, hrounds, List.length_cons]
      congr 2
      omega
    · rw [hr', heardIn, spent, Nat.add_assoc, Nat.add_assoc]

/-- An attempt comes as far as it can without an answer from outside. -/
def attempt : List Happening := [.gets .go, .gets .go, .gets .go]

theorem lone_attempt_kept (c : Chunk) (payload : ByteArray) (n : Nat)
    (hr : w.resolvers[job.resolver]? = some r)
    (hdynamic : r.settings.dynamic = true) (hcached : r.cached = some e) :
    (attempt.foldl (lone job c) (w, ready payload n)).2 = attempting payload n (.sending e) := by
  obtain ⟨w', hbegins, -⟩ := lone_begins c payload n hr hdynamic hcached
  show (lone job c ([Happening.gets .go, .gets .go].foldl (lone job c) (w, ready payload n))
    (.gets .go)).2 = _
  rw [hbegins]
  rfl

theorem lone_attempt_lost (c : Chunk) (payload : ByteArray) (n : Nat)
    (hr : w.resolvers[job.resolver]? = some r)
    (hdynamic : r.settings.dynamic = true) (hcached : r.cached = none) (hfree : r.inflight = none) :
    (attempt.foldl (lone job c) (w, ready payload n)).2
      = attempting payload n (.resolving (.waiting r.nextLookup)) := by
  have henter : r.ask job.target.accessToken .entering = ⟨.pending .missed, r, [], none⟩ := by
    show r.enter = _
    simp only [Resolver.enter, hdynamic, hcached, Bool.not_true, Bool.false_eq_true, if_false]
  have hjoin : (r.ask job.target.accessToken .missed).resolution
      = .pending (.waiting r.nextLookup) := by
    show (r.join _).resolution = _
    simp only [Resolver.join, hcached, hfree]
  have hask : w.ask job.resolver job.target.accessToken .entering
      = ⟨w.setResolver job.resolver r, .pending .missed, []⟩ := by
    simp only [World.ask, hr, henter]
    rfl
  have hlt := (List.getElem?_eq_some_iff.mp hr).1
  have hkept : (w.setResolver job.resolver r).resolvers[job.resolver]? = some r :=
    List.getElem?_set_self hlt
  have hlookup : ((w.setResolver job.resolver r).ask job.resolver job.target.accessToken
      .missed).resolution = .pending (.waiting r.nextLookup) := by
    simp only [World.ask, hkept, hjoin]
  show (lone job c (lone job c (w, attempting payload n (.resolving .entering)) (.gets .go))
    (.gets .go)).2 = _
  simp only [lone, step, hask, resolved, hlookup]

/-- After attempts that failed, the next one goes to the kept host as long as the count of the
resolver is not full, and looks for another as soon as it is. -/
theorem lone_goes_on (hkeeps : Keeps job w r e) (hfree : r.inflight = none)
    (xs : List (Nat × Strike)) (last : Nat × Strike)
    (hfresh : e.isFresh (r.now + spent (xs ++ [last])) = true)
    (hn : n + xs.length < job.policy.maxRetries)
    (hfew : r.failures + heardIn xs < staleThreshold) :
    (((xs ++ [last]).flatMap round ++ attempt).foldl (lone job c) (w, ready payload n)).2
      = attempting payload (n + xs.length + 1)
        (if r.failures + heardIn (xs ++ [last]) < staleThreshold then .sending e
          else .resolving (.waiting r.nextLookup)) := by
  have hheard : heardIn (xs ++ [last]) = heardIn xs + last.2.heard := heardIn_append xs [last]
  have hspent : spent (xs ++ [last]) = spent xs + last.1 := spent_append xs [last]
  rw [hspent, ← Nat.add_assoc] at hfresh
  rw [hheard, ← Nat.add_assoc]
  obtain ⟨w₁, hrounds, hr₁⟩ := lone_rounds c payload hkeeps xs
    (isFresh_of_le (Nat.le_add_right _ _) hfresh) (Nat.le_of_lt hn) hfew
  obtain ⟨w₂, hround, hr₂⟩ := lone_round c payload ⟨hr₁, hkeeps.dynamic, hkeeps.kept⟩ last
    hfresh hn
  rw [List.flatMap_append, List.foldl_append, List.foldl_append, hrounds, List.flatMap_singleton,
    hround]
  split
  · next hstill =>
    rw [after_few hstill] at hr₂
    exact lone_attempt_kept c payload _ hr₂ hkeeps.dynamic (cached_of_fresh hkeeps.kept hfresh)
  · next hfull =>
    rw [after_full { r with now := r.now + spent xs, failures := r.failures + heardIn xs }
      hkeeps.kept hfew hfull] at hr₂
    have hlooks := lone_attempt_lost c payload (n + xs.length + 1) hr₂ hkeeps.dynamic rfl hfree
    exact hlooks

/-- The upload of a part does nothing to its resolver but what its contacts say. Of its attempts,
each one that was answered with a fault of the connection counts against its host, once; one that
was cut off at its limit does not. So a worker that alone uses a resolver has another host looked
for after three failures of the first kind, and sends to the same host again after any number of the
second. -/
theorem blames_answered (job : Job) (c : Chunk) :
    (∀ cancelled w t s, (step job c cancelled w t s).world.resolvers
      = w.moved job.resolver (t.contacts job s)) ∧
    (∀ bs, let trail := journey job c .reading bs
      trail.blamed = (trail.tried.filter
          fun x => x.isStrike (operation job c) && !x.isLate).map Tried.host ∧
        (trail.tried.map Tried.number).Pairwise (· < ·)) ∧
    ∀ (w : World) (payload : ByteArray) (n : Nat) (r : Resolver) (e : Endpoint)
      (xs : List (Nat × Strike)) (last : Nat × Strike),
      Keeps job w r e → r.inflight = none → e.isFresh (r.now + spent (xs ++ [last])) = true →
      n + xs.length < job.policy.maxRetries → r.failures + heardIn xs < staleThreshold →
      (((xs ++ [last]).flatMap round ++ attempt).foldl (lone job c) (w, ready payload n)).2
        = attempting payload (n + xs.length + 1)
          (if r.failures + heardIn (xs ++ [last]) < staleThreshold then .sending e
            else .resolving (.waiting r.nextLookup)) :=
  ⟨resolvers_step job c,
    fun bs => ⟨journey_blamed job c .reading bs, (journey_counted job c .reading bs).1⟩,
    fun _ _ _ _ _ xs last hkeeps hfree hfresh hn hfew =>
      lone_goes_on hkeeps hfree xs last hfresh hn hfew⟩

namespace Sample

def host : Endpoint := ⟨"https://c.pcs.baidu.com", 0, .ofSeconds 3600, .dynamic⟩

/-- A resolver that has found a host. -/
def resolver : Resolver := { settings := {}, cache := some host, nextLookup := 1 }

def world : World where
  resolvers := [resolver]

def upload : Job where
  target := Session.Sample.target
  policy := {}
  resolver := 0
  plan := ⟨1, 1, [⟨0, 0, 1, false⟩]⟩
  digests := ⟨"", "", []⟩
  uploadId := "U"

def part : Chunk := ⟨0, 0, 1, false⟩

def unreachable : Strike := .answered (.plain .network "connection refused") rfl

end Sample

/-- Three attempts that the host did not answer, and it is tried again; three that were refused, and
another is looked for. -/
theorem blames_answered_thrice :
    (((List.replicate 3 (0, .late)).flatMap round ++ attempt).foldl (lone Sample.upload Sample.part)
        (Sample.world, ready ⟨#[1]⟩ 0)).2 = attempting ⟨#[1]⟩ 3 (.sending Sample.host) ∧
      (((List.replicate 3 (0, Sample.unreachable)).flatMap round ++ attempt).foldl
        (lone Sample.upload Sample.part) (Sample.world, ready ⟨#[1]⟩ 0)).2
        = attempting ⟨#[1]⟩ 3 (.resolving (.waiting 1)) := by
  have hkeeps : Keeps Sample.upload Sample.world Sample.resolver Sample.host := ⟨rfl, rfl, rfl⟩
  have hnext := (blames_answered Sample.upload Sample.part).2.2 Sample.world ⟨#[1]⟩ 0
    Sample.resolver Sample.host
  constructor
  · exact hnext [(0, .late), (0, .late)] (0, .late) hkeeps rfl (by decide) (by decide) (by decide)
  · exact hnext [(0, Sample.unreachable), (0, Sample.unreachable)] (0, Sample.unreachable) hkeeps
      rfl (by decide) (by decide) (by decide)

end Transfer

end ResumableUpload.Session
