import ResumableUpload.Proofs.Endpoint.Provenance
import ResumableUpload.Proofs.Session.Dealings
import ResumableUpload.Proofs.Session.Evidence
import ResumableUpload.Proofs.Session.Lone

/-!
# How a run comes by another host

What the answers to the parts of a run come to is a `Score`: a part that was sent well sets the
count to nothing, a fault of the connection adds to it, and the third one is a drop. It also tells
how often parts were sent and the server was asked for a host.

A run that alone uses a resolver and the resolver are in one of a few situations, and the score
shows which (`Hunt`): a host is due, a lookup was made for it, the server was asked, or the host was
found and is kept. Whatever the run does about its host leads from one of them to another, and the
kept host is dropped with the third fault of the connection and in no other way (`Hunt.deals`).
-/

namespace ResumableUpload

open Session

namespace Resolver

variable {r : Resolver} {e : Endpoint} {l : Lookup} {token : String}

/-! ## A resolver that one run uses -/

/-- No host is kept, and none is looked for. -/
structure IsFree (r : Resolver) : Prop where
  sound : r.Sound
  cache : r.cache = none
  inflight : r.inflight = none
  failures : r.failures = 0

/-- No host is kept, and this lookup is to find one. -/
structure Seeks (r : Resolver) (l : Lookup) : Prop where
  sound : r.Sound
  cache : r.cache = none
  inflight : r.inflight = some l
  latest : l.id + 1 = r.nextLookup
  failures : r.failures = 0

/-- The host is kept that the latest lookup, the one with this number, has found. -/
structure Keeps (r : Resolver) (e : Endpoint) (l : Nat) : Prop where
  sound : r.Sound
  cache : r.cache = some e
  inflight : r.inflight = none
  found : r.result? l = some (.ok e)
  latest : l + 1 = r.nextLookup

/-- The resolver asks the server, and the host that it keeps is fresh. -/
structure Serves (r : Resolver) : Prop where
  dynamic : r.settings.dynamic = true
  lasting : ∀ e, r.cache = some e → e.isFresh r.now = true

theorem isFree_start (settings : EndpointSettings) : (start settings).IsFree :=
  ⟨sound_start settings, rfl, rfl, rfl⟩

theorem IsFree.enter (h : r.IsFree) (hserves : r.Serves) (token : String) :
    r.ask token .entering = ⟨.pending .missed, r, [], none⟩ := by
  show r.enter = _
  simp only [Resolver.enter, hserves.dynamic, cached, h.cache, Option.filter_none, Bool.not_true,
    Bool.false_eq_true, if_false]

theorem IsFree.join (h : r.IsFree) (token : String) :
    (r.ask token .missed).resolution = .pending (.waiting r.nextLookup) ∧
      (r.ask token .missed).located = none ∧
      (r.ask token .missed).resolver.Seeks ⟨r.nextLookup, token, .created⟩ := by
  have hsound := h.sound.move (.ask token .missed)
  have hjoin : r.ask token .missed = ⟨.pending (.waiting r.nextLookup),
      { r with inflight := some ⟨r.nextLookup, token, .created⟩, nextLookup := r.nextLookup + 1 },
      [], none⟩ := by
    show r.join token = _
    simp only [Resolver.join, cached, h.cache, h.inflight, Option.filter_none]
  rw [show r.move (.ask token .missed) = (r.ask token .missed).resolver from rfl] at hsound
  rw [hjoin] at hsound ⊢
  exact ⟨rfl, rfl, hsound, h.cache, rfl, rfl, h.failures⟩

/-- The server is asked for a lookup that nobody has waited for yet. -/
theorem Seeks.attend_created (h : r.Seeks l) (hstage : l.stage = .created) (token : String) :
    r.ask token (.waiting l.id) = ⟨.pending (.waiting l.id),
        { r with inflight := some { l with stage := .asking } }, [], some l⟩ ∧
      ({ r with inflight := some { l with stage := .asking } } : Resolver).Seeks
        { l with stage := .asking } := by
  have hsound := h.sound.move (.ask token (.waiting l.id))
  have hattend : r.ask token (.waiting l.id) = ⟨.pending (.waiting l.id),
      { r with inflight := some { l with stage := .asking } }, [], some l⟩ := by
    show r.attend l.id = _
    simp only [Resolver.attend, (h.sound.made h.inflight).2, h.inflight, hstage, if_true]
  rw [show r.move (.ask token (.waiting l.id)) = (r.ask token (.waiting l.id)).resolver from rfl,
    hattend] at hsound
  exact ⟨hattend, hsound, h.cache, rfl, h.latest, h.failures⟩

theorem Seeks.attend_asking (h : r.Seeks l) (hstage : l.stage = .asking) (token : String) :
    r.ask token (.waiting l.id) = ⟨.pending (.waiting l.id), r, [], none⟩ := by
  show r.attend l.id = _
  simp only [Resolver.attend, (h.sound.made h.inflight).2, h.inflight, hstage, if_true]

/-- A lookup that the server was not asked for does not end. -/
theorem Seeks.conclude_created (h : r.Seeks l) (hstage : l.stage = .created) (o : LookupOutcome) :
    r.move (.conclude l.id o) = r := by
  show (r.conclude l.id o).1 = r
  simp only [Resolver.conclude, h.inflight, hstage, and_false, if_false, reduceCtorEq]

theorem found_of_finds {o : LookupOutcome} (h : o.finds = true) (s : EndpointSettings) :
    ∃ url, found s o = .ok url := by
  cases o with
  | servers addresses =>
    obtain ⟨url, hurl⟩ := Option.isSome_iff_exists.mp
      ((List.find?_isSome (p := LocateReply.isSecure)).mpr (List.any_eq_true.mp h))
    exact ⟨url, by simp only [found, hurl]⟩
  | _ => cases h

/-- The lookup ends with a host. -/
theorem Seeks.conclude_asking (h : r.Seeks l) (hstage : l.stage = .asking) {o : LookupOutcome}
    (ho : o.finds = true) :
    ∃ e, (r.move (.conclude l.id o)).Keeps e l.id ∧ (r.move (.conclude l.id o)).failures = 0 := by
  have hsound := h.sound.move (.conclude l.id o)
  obtain ⟨url, hurl⟩ := found_of_finds ho r.settings
  have hends : r.move (.conclude l.id o) = { r with
      cache := some ⟨url, r.now + 1, r.settings.ttl, .dynamic⟩
      inflight := none
      failures := 0
      now := r.now + 1
      results := (l.id, .ok ⟨url, r.now + 1, r.settings.ttl, .dynamic⟩) :: r.results } := by
    show (r.conclude l.id o).1 = _
    simp only [Resolver.conclude, h.inflight, hstage, and_self, if_true, conclusion, hurl, obtain]
  rw [hends] at hsound ⊢
  refine ⟨_, ⟨hsound, rfl, rfl, ?_, h.latest⟩, rfl⟩
  rw [result?_cons rfl, if_pos rfl]

/-- A caller gets the kept host. -/
theorem Keeps.ask {c : Caller} {k : Nat} (h : r.Keeps e k) (hserves : r.Serves)
    (hc : c = .entering ∨ c = .missed) (token : String) :
    r.ask token c = ⟨.done (.ok e), r, [], none⟩ := by
  have hfresh := hserves.lasting e h.cache
  have hcached : r.cached = some e := Transfer.cached_of_fresh h.cache hfresh
  rcases hc with rfl | rfl
  · show r.enter = _
    simp only [Resolver.enter, hserves.dynamic, hcached, Bool.not_true, Bool.false_eq_true,
      if_false]
  · show r.join token = _
    simp only [Resolver.join, hcached]

/-- A caller gets the result of the lookup that it waits for. -/
theorem Keeps.attend {k : Nat} (h : r.Keeps e k) (token : String) :
    r.ask token (.waiting k) = ⟨.done (.ok e), r, [], none⟩ := by
  show r.attend k = _
  simp only [Resolver.attend, h.found]

end Resolver

namespace Session

/-! ## What the answers come to -/

/-- What has counted for the host of a run so far. -/
structure Score where
  /-- Faults of the connection since the last part that was sent well, or the last drop. -/
  count : Nat := 0
  /-- How often the third such fault has come. -/
  drops : Nat := 0
  /-- How many of the drops are followed by a further attempt. -/
  renewed : Nat := 0
  /-- How often a part was sent. -/
  attempts : Nat := 0
  /-- How often the server was asked for a host. -/
  located : Nat := 0
  deriving DecidableEq

namespace Score

/-- The score after one thing more that counts. The third fault of the connection begins a new
count; other faults change nothing. -/
def take (x : Score) : Mark → Score
  | .located => { x with located := x.located + 1 }
  | .sent _ => { x with attempts := x.attempts + 1, renewed := x.drops }
  | .answered (.slice _) => { x with count := 0 }
  | .answered (.fault f) =>
    if f.kind.isConnectionClass then
      if x.count + 1 = 3 then { x with count := 0, drops := x.drops + 1 }
      else { x with count := x.count + 1 }
    else x
  | .answered _ => x

/-- The score after some more that counts. -/
def after (x : Score) (ms : List Mark) : Score := ms.foldl take x

theorem after_append (x : Score) (ms more : List Mark) :
    x.after (ms ++ more) = (x.after ms).after more := List.foldl_append

/-- A host is due: the first one, or one in the place of that which was dropped last. -/
structure IsDue (x : Score) : Prop where
  count : x.count = 0
  located : x.located = x.drops
  renewed : (x.drops = 0 ∧ x.renewed = 0 ∧ x.attempts = 0) ∨ x.drops = x.renewed + 1

/-- The server has been asked for the host that is due. -/
structure IsAsked (x : Score) : Prop where
  count : x.count = 0
  located : x.located = x.drops + 1
  renewed : x.renewed ≤ x.drops

/-- A host was found and is in use. -/
structure IsMet (x : Score) : Prop where
  located : x.located = x.drops + 1
  renewed : x.renewed = x.drops

variable {x : Score}

theorem IsDue.take_located (h : x.IsDue) : (x.take .located).IsAsked := by
  refine ⟨h.count, congrArg (· + 1) h.located, ?_⟩
  show x.renewed ≤ x.drops
  have hrenewed := h.renewed
  omega

/-- Where nothing was dropped, the first host is the one to use. -/
theorem IsAsked.met (h : x.IsAsked) (hfirst : x.drops = 0) : x.IsMet := by
  refine ⟨h.located, ?_⟩
  have hrenewed := h.renewed
  omega

end Score

/-! ## A run and its resolver -/

/-- What a run can be about while this host is kept, if one is, and no lookup is awaited. -/
inductive Suits (kept : Option Endpoint) : Option Attempt → Prop
  | none : Suits kept none
  | entering : Suits kept (some (.resolving .entering))
  | missed : Suits kept (some (.resolving .missed))
  | sending {e : Endpoint} : kept = some e → Suits kept (some (.sending e))

/-- How a resolver, the run that alone uses it, and what has counted so far go together. -/
inductive Hunt : Option Resolver → Option Attempt → Score → Prop
  -- a host is due; without a resolver, no lookup can be made
  | due {held : Option Resolver} {doing : Option Attempt} {x : Score} :
      (∀ r, held = some r → r.IsFree) → Suits none doing → x.IsDue → Hunt held doing x
  -- a lookup was made for it
  | made {r : Resolver} {l : Lookup} {x : Score} : r.Seeks l → l.stage = .created → x.IsDue →
      Hunt (some r) (some (.resolving (.waiting l.id))) x
  | asking {r : Resolver} {l : Lookup} {x : Score} : r.Seeks l → l.stage = .asking → x.IsAsked →
      Hunt (some r) (some (.resolving (.waiting l.id))) x
  | kept {r : Resolver} {e : Endpoint} {l : Nat} {doing : Option Attempt} {x : Score} :
      r.Keeps e l → r.failures = x.count → Suits (some e) doing → x.IsMet →
      Hunt (some r) doing x

/-- The host that is kept, if there is a resolver and it keeps one. -/
def keptBy (held : Option Resolver) : Option Endpoint := held.bind Resolver.cache

/-- What something that happens leads to: the resolver, the run and what counts go together still,
and the kept host is dropped when the third fault has come, and only then. -/
structure Comes (held : Option Resolver) (x : Score) (held' : Option Resolver)
    (doing' : Option Attempt) (x' : Score) : Prop where
  hunt : Hunt held' doing' x'
  drops : (keptBy held).isSome = true ∧ keptBy held' = none ↔ x.drops < x'.drops

/-- What the answer of a resolver leads to. A run that is not to ask again, and has nothing to send
yet, has a host for which the server was asked. -/
structure Resolves (held : Option Resolver) (x : Score) (held' : Option Resolver)
    (doing' : Option Attempt) (x' : Score) : Prop where
  comes : Comes held x held' doing' x'
  asked : doing' = none → 0 < x'.located

variable {held held' : Option Resolver} {doing doing' : Option Attempt} {x x' : Score}
  {r : Resolver} {e : Endpoint} {l : Nat} {first : Bool} {marks : List Mark}

/-- Nothing is kept before, and nothing is dropped. -/
theorem Hunt.comes_unkept (h : Hunt held' doing' x') (hnone : keptBy held = none)
    (hdrops : x'.drops = x.drops) : Comes held x held' doing' x' := by
  refine ⟨h, ?_⟩
  rw [hnone, hdrops]
  simp

/-- A host is kept afterwards, and nothing is dropped. -/
theorem Hunt.comes_keeping (h : Hunt held' doing' x') (hkept : keptBy held' = keptBy held)
    (hdrops : x'.drops = x.drops) : Comes held x held' doing' x' := by
  refine ⟨h, ?_⟩
  rw [hkept, hdrops]
  cases keptBy held <;> simp

theorem Resolves.waits {c : Caller} (h : Comes held x held' (some (.resolving c)) x') :
    Resolves held x held' (some (.resolving c)) x' :=
  ⟨h, fun hnone => absurd hnone (Option.some_ne_none _)⟩

theorem Meets.cases {c : Caller} {met : Resolver} (h : Meets held c (some met)) :
    ∃ r, held = some r ∧ (met = r ∨
      ∃ l o, c = .waiting l ∧ o.finds = true ∧ met = r.move (.conclude l o)) := by
  generalize hmet : some met = met? at h
  cases h with
  | stands => exact ⟨met, hmet.symm, .inl rfl⟩
  | ends l ho =>
    obtain ⟨r, hr, hmoved⟩ := Option.map_eq_some_iff.mp hmet.symm
    exact ⟨r, hr, .inr ⟨l, _, rfl, ho, hmoved.symm⟩⟩

/-- A run that has the host that is kept. -/
theorem Hunt.ofHost (hkeeps : r.Keeps e l) (hcount : r.failures = x.count)
    (hmet : x.located = x.drops + 1) (hfirst : first = true → x.renewed = x.drops)
    (hensues : Ensues first (.done (.ok e)) marks doing) :
    Hunt (some r) doing (x.after marks) ∧ (x.after marks).drops = x.drops ∧
      0 < (x.after marks).located := by
  have hlocated : 0 < x.located := by
    rw [hmet]
    exact Nat.succ_pos _
  cases hensues with
  | opens _ hf => exact ⟨.kept hkeeps hcount .none ⟨hmet, hfirst hf⟩, rfl, hlocated⟩
  | sends _ _ => exact ⟨.kept hkeeps hcount (.sending rfl) ⟨hmet, rfl⟩, rfl, hlocated⟩
  | lacks hfails => cases hfails

section

variable {met : Resolver} {token : String} {c : Caller}

/-- A run asks while the server is asked, and gets the host when the lookup ends. -/
theorem Hunt.asks_asked {lookup : Lookup} (hseeks : r.Seeks lookup)
    (hstage : lookup.stage = .asking) (hasked : x.IsAsked)
    (hmet : met = r ∨ ∃ o, o.finds = true ∧ met = r.move (.conclude lookup.id o))
    (hensues : Ensues first (met.ask token (.waiting lookup.id)).resolution marks doing)
    (hfirst : first = true → x.drops = 0) :
    let answer := met.ask token (.waiting lookup.id)
    Resolves (some r) x (some answer.resolver) doing
      (x.after (answer.located.toList.map (fun _ => .located) ++ marks)) := by
  intro answer
  rcases hmet with rfl | ⟨o, ho, rfl⟩
  · rw [show answer = _ from hseeks.attend_asking hstage token]
    rw [hseeks.attend_asking hstage token] at hensues
    cases hensues with
    | waits =>
      have hunt := Hunt.asking hseeks hstage hasked
      exact .waits (hunt.comes_unkept hseeks.cache rfl)
    | lacks hfails => cases hfails
  · obtain ⟨e, hkeeps, hfailures⟩ := hseeks.conclude_asking hstage ho
    rw [show answer = _ from hkeeps.attend token]
    rw [hkeeps.attend token] at hensues
    obtain ⟨hunt, hdrops, hlocated⟩ := Hunt.ofHost hkeeps (hfailures.trans hasked.count.symm)
      hasked.located (fun hf => (hasked.met (hfirst hf)).renewed) hensues
    exact ⟨hunt.comes_unkept hseeks.cache hdrops, fun _ => hlocated⟩

/-- A run asks its resolver, which the end of a lookup may have changed before. -/
theorem Hunt.asks (h : Hunt (some r) (some (.resolving c)) x) (hserves : r.Serves)
    (hmet : met = r ∨ ∃ l o, c = .waiting l ∧ o.finds = true ∧ met = r.move (.conclude l o))
    (hensues : Ensues first (met.ask token c).resolution marks doing)
    (hfirst : first = true → x.drops = 0) :
    Resolves (some r) x (some (met.ask token c).resolver) doing
      (x.after ((met.ask token c).located.toList.map (fun _ => .located) ++ marks)) := by
  -- the resolver has changed only for a run that waits for a lookup
  have hstill : (∀ l, c ≠ .waiting l) → met = r := by
    intro hc
    rcases hmet with hsame | ⟨l, o, heq, -, -⟩
    · exact hsame
    · exact absurd heq (hc l)
  cases h with
  | due hheld hsuits hdue =>
    have hfree := hheld r rfl
    have hnone : keptBy (some r) = none := hfree.cache
    cases hsuits with
    | entering =>
      obtain rfl := hstill (fun _ => Caller.noConfusion)
      rw [hfree.enter hserves] at hensues ⊢
      cases hensues with
      | waits => exact .waits (Hunt.comes_unkept (.due hheld .missed hdue) hnone rfl)
      | lacks hfails => cases hfails
    | missed =>
      obtain rfl := hstill (fun _ => Caller.noConfusion)
      obtain ⟨hresolution, hlocated, hseeks⟩ := hfree.join token
      rw [hresolution] at hensues
      rw [hlocated]
      cases hensues with
      | waits => exact .waits (Hunt.comes_unkept (.made hseeks rfl hdue) hnone rfl)
      | lacks hfails => cases hfails
  | made hseeks hstage hdue =>
    obtain rfl : met = r := by
      rcases hmet with hsame | ⟨l, o, hc, -, hends⟩
      · exact hsame
      · obtain rfl := Caller.waiting.inj hc
        exact hends.trans (hseeks.conclude_created hstage o)
    obtain ⟨hattend, hasked⟩ := hseeks.attend_created hstage token
    rw [hattend] at hensues ⊢
    cases hensues with
    | waits =>
      have hunt := Hunt.asking hasked rfl hdue.take_located
      exact .waits (hunt.comes_unkept hseeks.cache rfl)
    | lacks hfails => cases hfails
  | asking hseeks hstage hasked =>
    apply Hunt.asks_asked hseeks hstage hasked _ hensues hfirst
    rcases hmet with hsame | ⟨l, o, hc, ho, hends⟩
    · exact .inl hsame
    · obtain rfl := Caller.waiting.inj hc
      exact .inr ⟨o, ho, hends⟩
  | kept hkeeps hcount hsuits hmet' =>
    have hcaller : c = .entering ∨ c = .missed := by
      cases hsuits with
      | entering => exact .inl rfl
      | missed => exact .inr rfl
    obtain rfl : met = r := by
      apply hstill
      rintro l rfl
      rcases hcaller with hc | hc <;> cases hc
    rw [hkeeps.ask hserves hcaller token] at hensues ⊢
    obtain ⟨hunt, hdrops, hlocated⟩ :=
      Hunt.ofHost hkeeps hcount hmet'.located (fun _ => hmet'.renewed) hensues
    exact ⟨hunt.comes_keeping rfl hdrops, fun _ => hlocated⟩

end

/-- Another fault of the connection, and it is the third in a row or not. -/
theorem Hunt.fails (hkeeps : r.Keeps e l) (hcount : r.failures = x.count) (hmet : x.IsMet)
    {f : CallFault} (hf : f.kind.isConnectionClass = true) :
    Comes (some r) x (some (r.move (.fail e))) none (x.take (.answered (.fault f))) := by
  have hsound := hkeeps.sound.move (.fail e)
  have hfew : r.failures < 3 := hkeeps.sound.few
  by_cases hthird : x.count + 1 = 3
  · have hmany : ¬ r.failures + 1 < staleThreshold := by
      rw [hcount, hthird]
      decide
    have hdrops : r.move (.fail e) = { r with cache := none, failures := 0 } := by
      show (r.reportFailure e).1 = _
      simp only [Resolver.reportFailure, hmany, if_false, hkeeps.cache, Option.any_some,
        Resolver.isSame, beq_self_eq_true, Bool.and_self, if_true]
    have hscore : x.take (.answered (.fault f)) = { x with count := 0, drops := x.drops + 1 } := by
      simp only [Score.take, hf, hthird, if_true]
    rw [hdrops] at hsound ⊢
    rw [hscore]
    constructor
    · apply Hunt.due ?_ .none ⟨rfl, hmet.located, .inr (congrArg (· + 1) hmet.renewed.symm)⟩
      intro r' hr'
      rw [← Option.some.inj hr']
      exact ⟨hsound, rfl, hkeeps.inflight, rfl⟩
    · simp [keptBy, hkeeps.cache]
  · have hless : r.failures + 1 < staleThreshold := by
      show r.failures + 1 < 3
      omega
    have hcounts : r.move (.fail e) = { r with failures := r.failures + 1 } := by
      show (r.reportFailure e).1 = _
      simp only [Resolver.reportFailure, hless, if_true]
    have hscore : x.take (.answered (.fault f)) = { x with count := x.count + 1 } := by
      simp only [Score.take, hf, hthird, if_true, if_false]
    rw [hcounts] at hsound ⊢
    rw [hscore]
    have hunt := Hunt.kept
      ⟨hsound, hkeeps.cache, hkeeps.inflight, hkeeps.found, hkeeps.latest⟩
      (x := { x with count := x.count + 1 }) (congrArg (· + 1) hcount) .none
      ⟨hmet.located, hmet.renewed⟩
    exact hunt.comes_keeping rfl rfl

/-- The resolver hears how the host of a run did. -/
theorem Hunt.hears (h : Hunt held (some (.sending e)) x) (reply : Reply) :
    Comes held x (held.map (·.after (reply.reports e))) none (x.after [.answered reply]) := by
  cases h with
  | due _ hsuits _ => cases hsuits with
    | sending hkept => cases hkept
  | @kept r kept l _ _ hkeeps hcount hsuits hmet =>
    cases hsuits with
    | sending hkept =>
      obtain rfl := Option.some.inj hkept
      have hsame : Comes (some r) x (some r) none x :=
        Hunt.comes_keeping (.kept hkeeps hcount .none hmet) rfl rfl
      cases reply with
      | slice reply =>
        have hsound := hkeeps.sound.move .succeed
        have hunt := Hunt.kept
          ⟨hsound, hkeeps.cache, hkeeps.inflight, hkeeps.found, hkeeps.latest⟩
          (x := { x with count := 0 }) rfl .none ⟨hmet.located, hmet.renewed⟩
        exact hunt.comes_keeping rfl rfl
      | fault f =>
        by_cases hf : f.kind.isConnectionClass = true
        · have hreports : (Reply.fault f).reports kept = [.fail kept] := if_pos hf
          rw [hreports]
          exact Hunt.fails hkeeps hcount hmet hf
        · have hreports : (Reply.fault f).reports kept = [] := if_neg hf
          have hscore : x.after [.answered (.fault f)] = x := if_neg hf
          rw [hreports, hscore]
          exact hsame
      | _ => exact hsame

/-- Whatever a step of the run does about its host, it keeps things together. -/
theorem Hunt.deals (h : Hunt held doing x) (hserves : ∀ r, held = some r → r.Serves)
    (hfirst : first = true → x.drops = 0) (hdeals : Deals first held doing marks held' doing') :
    Comes held x held' doing' (x.after marks) := by
  cases hdeals with
  | rests => exact h.comes_keeping rfl rfl
  | begins =>
    apply Hunt.comes_keeping _ rfl rfl
    cases h with
    | due hheld _ hdue => exact .due hheld .entering hdue
    | kept hkeeps hcount _ hmet => exact .kept hkeeps hcount .entering hmet
  | asks hmeets hensues =>
    obtain ⟨r, rfl, hmet⟩ := hmeets.cases
    exact (h.asks (hserves r rfl) hmet hensues hfirst).comes
  | hears _ reply => exact h.hears reply

/-- When the search for a host is over, the server has been asked. -/
theorem Hunt.located_pos {c : Caller} (h : Hunt held (some (.resolving c)) x)
    (hserves : ∀ r, held = some r → r.Serves) (hfirst : first = true → x.drops = 0)
    (hdeals : Deals first held (some (.resolving c)) marks held' none) :
    0 < (x.after marks).located := by
  cases hdeals with
  | asks hmeets hensues =>
    obtain ⟨r, rfl, hmet⟩ := hmeets.cases
    exact (h.asks (hserves r rfl) hmet hensues hfirst).asked rfl

/-- A part that is sent goes to the host that the run has from then on. -/
theorem Deals.of_sent {url : String} (h : Deals first held doing marks held' doing')
    (hsent : .sent url ∈ marks) : ∃ e, doing' = some (.sending e) ∧ e.baseUrl = url := by
  cases h with
  | rests => cases hsent
  | begins => cases hsent
  | @asks met token c _ _ _ hensues =>
    rcases List.mem_append.mp hsent with hlocated | hsent
    · obtain ⟨l, -, heq⟩ := List.mem_map.mp hlocated
      cases heq
    · generalize (met.ask token c).resolution = answer at hensues
      cases hensues with
      | sends e _ =>
        obtain rfl := Mark.sent.inj (List.mem_singleton.mp hsent)
        exact ⟨e, rfl, rfl⟩
      | _ => cases hsent
  | hears =>
    cases List.mem_singleton.mp hsent

theorem Hunt.of_sending (h : Hunt held (some (.sending e)) x) :
    ∃ r l, held = some r ∧ r.Keeps e l := by
  cases h with
  | due _ hsuits _ => cases hsuits with
    | sending hkept => cases hkept
  | kept hkeeps _ hsuits _ => cases hsuits with
    | sending hkept =>
      obtain rfl := Option.some.inj hkept
      exact ⟨_, _, rfl, hkeeps⟩

end Session

end ResumableUpload
