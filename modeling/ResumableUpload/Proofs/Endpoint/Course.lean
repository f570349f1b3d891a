import ResumableUpload.Endpoint.Resolver

/-!
# The course of a resolver

What happens at a resolver happens move by move (`Resolver.Move`): a caller takes a step, a lookup
ends, a host is reported on, time passes. Who makes the moves and in what order is left open; a
course of the resolver is any list of moves (`Resolver.after`).

What a move does is said once: `Resolver.Change` lists it, and every move does one of the things
listed (`change_move`). Whatever the course, the holder has exactly the lookup that was made and has
not ended, and the count of failures stays below the threshold (`Sound.after`).
-/

namespace ResumableUpload.Resolver

/-- Something that happens at a resolver between two moments at which anything else may come in
between. -/
inductive Move
  -- a caller takes a step
  | ask (token : String) (c : Caller)
  | conclude (lookup : Nat) (o : LookupOutcome)
  -- the lookup stops abnormally
  | poison (lookup : Nat)
  | invalidate
  | fail (e : Endpoint)
  | succeed
  -- time passes
  | age (nanos : Nat)

/-- The resolver after a move. -/
def move (r : Resolver) : Move → Resolver
  | .ask token c => (r.ask token c).resolver
  | .conclude lookup o => (r.conclude lookup o).1
  | .poison lookup => r.poison lookup
  | .invalidate => r.invalidate.1
  | .fail e => (r.reportFailure e).1
  | .succeed => r.reportSuccess
  | .age nanos => { r with now := r.now + nanos }

/-- The resolver after some moves. -/
def after (r : Resolver) (ms : List Move) : Resolver := ms.foldl move r

/-- The resolver before anything happens. -/
def start (settings : EndpointSettings) : Resolver := { settings := settings }

variable {r r' : Resolver} {m : Move}

theorem after_append (r : Resolver) (ms more : List Move) :
    r.after (ms ++ more) = (r.after ms).after more := List.foldl_append

/-! ## What a move does -/

/-- What a move can do. -/
inductive Change (r : Resolver) : Move → Resolver → Prop
  -- nothing, but time may pass
  | goes {m : Move} {now : Nat} : r.now ≤ now → (∀ e, m ≠ .fail e) → m ≠ .succeed →
      Change r m { r with now := now }
  -- a lookup is made by a caller that finds neither a fresh host nor a lookup under way
  | creates (token : String) : r.cached = none → r.inflight = none →
      Change r (.ask token .missed)
        { r with inflight := some ⟨r.nextLookup, token, .created⟩, nextLookup := r.nextLookup + 1 }
  | asks {l : Lookup} (token : String) : r.inflight = some l → l.stage = .created →
      r.result? l.id = none →
      Change r (.ask token (.waiting l.id)) { r with inflight := some { l with stage := .asking } }
  | poisons {l : Lookup} : r.inflight = some l →
      Change r (.poison l.id) { r with inflight := some { l with stage := .poisoned } }
  | finds {l : Lookup} (o : LookupOutcome) {e : Endpoint} : r.inflight = some l →
      l.stage = .asking → r.now < e.obtainedAt →
      Change r (.conclude l.id o) { r with
        cache := some e
        inflight := none
        failures := 0
        now := e.obtainedAt
        results := (l.id, .ok e) :: r.results }
  | misses {l : Lookup} (o : LookupOutcome) (detail : String) : r.inflight = some l →
      l.stage = .asking →
      Change r (.conclude l.id o)
        { r with inflight := none, results := (l.id, .error detail) :: r.results }
  | invalidates : Change r .invalidate { r with cache := none, failures := 0 }
  | counts {e : Endpoint} : r.failures + 1 < staleThreshold →
      Change r (.fail e) { r with failures := r.failures + 1 }
  -- a failure too many: the kept host is dropped if it is the one reported
  | drops {e : Endpoint} : staleThreshold ≤ r.failures + 1 → r.cache.any (isSame · e) = true →
      Change r (.fail e) { r with cache := none, failures := 0 }
  | spares {e : Endpoint} : staleThreshold ≤ r.failures + 1 → r.cache.any (isSame · e) = false →
      Change r (.fail e) { r with failures := 0 }
  | succeeds : Change r .succeed { r with failures := 0 }

theorem change_ask (r : Resolver) (token : String) (c : Caller) :
    r.Change (.ask token c) (r.ask token c).resolver := by
  have hstays : r.Change (.ask token c) r := .goes (Nat.le_refl _) nofun nofun
  cases c with
  | entering =>
    show r.Change _ r.enter.resolver
    unfold enter
    split
    · exact .goes (Nat.le_succ r.now) nofun nofun
    · split <;> exact hstays
  | missed =>
    show r.Change _ (r.join token).resolver
    unfold join
    split
    · exact hstays
    · exact hstays
    · next hcached hinflight => exact .creates token hcached hinflight
  | waiting lookup =>
    show r.Change _ (r.attend lookup).resolver
    unfold attend
    split
    · exact hstays
    · next l hnone hinflight =>
      split
      · next hl =>
        subst hl
        split
        · next hcreated => exact .asks token hinflight hcreated hnone
        · exact hstays
        · exact hstays
      · exact hstays
    · exact hstays

/-- A lookup ends with a host that was not there before, or with a reason why there is none. -/
theorem conclusion_cases (r : Resolver) (o : LookupOutcome) :
    (∃ e lines, r.conclusion o = (.ok e, { r with now := e.obtainedAt }, lines) ∧
      r.now < e.obtainedAt) ∨
    ∃ detail lines, r.conclusion o = (.error detail, r, lines) := by
  unfold conclusion
  split
  · exact .inl ⟨_, _, rfl, Nat.lt_succ_self _⟩
  · split
    · exact .inl ⟨_, _, rfl, Nat.lt_succ_self _⟩
    · exact .inr ⟨_, _, rfl⟩

theorem change_conclude (r : Resolver) (lookup : Nat) (o : LookupOutcome) :
    r.Change (.conclude lookup o) (r.conclude lookup o).1 := by
  have hstays : r.Change (.conclude lookup o) r := .goes (Nat.le_refl _) nofun nofun
  unfold conclude
  split
  · exact hstays
  · next l hinflight =>
    split
    · next hl =>
      rw [← hl.1]
      obtain ⟨e, lines, hok, hnow⟩ | ⟨detail, lines, herror⟩ := r.conclusion_cases o
      · rw [hok]
        exact .finds o hinflight hl.2 hnow
      · rw [herror]
        exact .misses o detail hinflight hl.2
    · exact hstays

theorem change_poison (r : Resolver) (lookup : Nat) :
    r.Change (.poison lookup) (r.poison lookup) := by
  have hstays : r.Change (.poison lookup) r := .goes (Nat.le_refl _) nofun nofun
  cases hinflight : r.inflight with
  | none =>
    have hsame : r.poison lookup = r := by rw [poison, hinflight, Option.map_none, ← hinflight]
    rw [hsame]
    exact hstays
  | some l =>
    rw [poison, hinflight, Option.map_some]
    split
    · next hl =>
      rw [← hl]
      exact .poisons hinflight
    · rw [← hinflight]
      exact hstays

theorem change_fail (r : Resolver) (e : Endpoint) : r.Change (.fail e) (r.reportFailure e).1 := by
  unfold reportFailure
  dsimp only
  split
  · next hfew => exact .counts hfew
  · next hmany =>
    split
    · next hsame => exact .drops (Nat.le_of_not_lt hmany) hsame
    · next hother => exact .spares (Nat.le_of_not_lt hmany) (Bool.eq_false_iff.mpr hother)

/-- Every move does one of the things listed. -/
theorem change_move (r : Resolver) (m : Move) : r.Change m (r.move m) := by
  cases m with
  | ask token c => exact change_ask r token c
  | conclude lookup o => exact change_conclude r lookup o
  | poison lookup => exact change_poison r lookup
  | invalidate => exact .invalidates
  | fail e => exact change_fail r e
  | succeed => exact .succeeds
  | age nanos => exact .goes (Nat.le_add_right r.now nanos) nofun nofun

/-! ## Lookups that have ended -/

theorem result?_cons {k : Nat} {x : Except String Endpoint} (h : r'.results = (k, x) :: r.results)
    (l : Nat) : r'.result? l = if k = l then some x else r.result? l := by
  rw [result?, h, List.find?_cons]
  by_cases hk : k = l
  · simp only [hk, beq_self_eq_true, if_true, Option.map_some]
  · simp only [beq_eq_false_iff_ne.mpr hk, hk, if_false, result?]

/-! ## Invariants -/

/-- What holds of a resolver whatever has happened to it. -/
structure Sound (r : Resolver) : Prop where
  few : r.failures < staleThreshold
  -- the holder has the lookup that was made and has not ended
  holder : ∀ l, r.inflight.map Lookup.id = some l ↔ l < r.nextLookup ∧ r.result? l = none
  -- a lookup that was not made has not ended
  unmade : ∀ l, r.nextLookup ≤ l → r.result? l = none
  past : ∀ e, r.cache = some e → e.obtainedAt ≤ r.now

theorem sound_start (settings : EndpointSettings) : (start settings).Sound where
  few := Nat.zero_lt_succ 2
  holder l := ⟨nofun, fun h => absurd h.1 (Nat.not_lt_zero l)⟩
  unmade _ _ := rfl
  past _ := nofun

/-- The lookup in the holder is the only one that was made and has not ended. -/
theorem Sound.unended (h : r.Sound) {l k : Nat} (hl : l < r.nextLookup ∧ r.result? l = none)
    (hk : k < r.nextLookup ∧ r.result? k = none) : l = k :=
  Option.some.inj (((h.holder l).mpr hl).symm.trans ((h.holder k).mpr hk))

theorem Sound.made (h : r.Sound) {l : Lookup} (hinflight : r.inflight = some l) :
    l.id < r.nextLookup ∧ r.result? l.id = none :=
  (h.holder l.id).mp (congrArg (Option.map Lookup.id) hinflight)

/-- When the lookup in the holder ends, no lookup is left that has not ended. -/
theorem Sound.result?_of_ends (h : r.Sound) {l : Lookup} {x : Except String Endpoint}
    (hinflight : r.inflight = some l) (hresults : r'.results = (l.id, x) :: r.results) {k : Nat}
    (hk : k < r.nextLookup) : r'.result? k ≠ none := by
  intro hnone
  rw [result?_cons hresults] at hnone
  split at hnone
  · cases hnone
  · next hne => exact hne (h.unended (h.made hinflight) ⟨hk, hnone⟩)

/-- A lookup that ends leaves the holder empty. -/
theorem Sound.ends (h : r.Sound) {l : Lookup} {x : Except String Endpoint}
    (hinflight : r.inflight = some l) (hfree : r'.inflight = none)
    (hnext : r'.nextLookup = r.nextLookup) (hresults : r'.results = (l.id, x) :: r.results)
    (hfew : r'.failures < staleThreshold) (hpast : ∀ e, r'.cache = some e → e.obtainedAt ≤ r'.now) :
    r'.Sound where
  few := hfew
  holder k := by
    rw [hfree, hnext]
    exact ⟨nofun, fun hk => absurd hk.2 (h.result?_of_ends hinflight hresults hk.1)⟩
  unmade k hk := by
    have hlt := (h.made hinflight).1
    rw [hnext] at hk
    rw [result?_cons hresults, if_neg (by omega)]
    exact h.unmade k hk
  past := hpast

/-- A lookup that is made is the one that has not ended. -/
theorem Sound.creates (h : r.Sound) (token : String) (hinflight : r.inflight = none) :
    { r with
      inflight := some ⟨r.nextLookup, token, .created⟩
      nextLookup := r.nextLookup + 1 }.Sound where
  few := h.few
  holder k := by
    show some r.nextLookup = some k ↔ k < r.nextLookup + 1 ∧ r.result? k = none
    constructor
    · intro heq
      rw [← Option.some.inj heq]
      exact ⟨Nat.lt_succ_self _, h.unmade _ (Nat.le_refl _)⟩
    · rintro ⟨hlt, hnone⟩
      rcases Nat.lt_succ_iff_lt_or_eq.mp hlt with hlt | rfl
      · have hholder := (h.holder k).mpr ⟨hlt, hnone⟩
        rw [hinflight] at hholder
        cases hholder
      · rfl
  unmade k hk := h.unmade k (Nat.le_of_succ_le hk)
  past := h.past

/-- A lookup that comes to another stage stays in the holder. -/
theorem Sound.staged (h : r.Sound) {l : Lookup} (hinflight : r.inflight = some l)
    (stage : LookupStage) : { r with inflight := some { l with stage := stage } }.Sound where
  few := h.few
  holder k := by
    have hholder := h.holder k
    rw [hinflight] at hholder
    exact hholder
  unmade := h.unmade
  past := h.past

theorem Sound.change (h : r.Sound) (hc : r.Change m r') : r'.Sound := by
  cases hc with
  | goes hnow =>
    exact ⟨h.few, h.holder, h.unmade, fun e he => Nat.le_trans (h.past e he) hnow⟩
  | creates token _ hinflight => exact h.creates token hinflight
  | asks token hinflight => exact h.staged hinflight .asking
  | poisons hinflight => exact h.staged hinflight .poisoned
  | finds o hinflight =>
    refine h.ends hinflight rfl rfl rfl (Nat.zero_lt_succ 2) fun e he => ?_
    exact Nat.le_of_eq (congrArg Endpoint.obtainedAt (Option.some.inj he).symm)
  | misses o detail hinflight => exact h.ends hinflight rfl rfl rfl h.few h.past
  | invalidates => exact ⟨Nat.zero_lt_succ 2, h.holder, h.unmade, nofun⟩
  | counts hfew => exact ⟨hfew, h.holder, h.unmade, h.past⟩
  | drops => exact ⟨Nat.zero_lt_succ 2, h.holder, h.unmade, nofun⟩
  | spares => exact ⟨Nat.zero_lt_succ 2, h.holder, h.unmade, h.past⟩
  | succeeds => exact ⟨Nat.zero_lt_succ 2, h.holder, h.unmade, h.past⟩

theorem Sound.move (h : r.Sound) (m : Move) : (r.move m).Sound := h.change (change_move r m)

theorem Sound.after (h : r.Sound) (ms : List Move) : (r.after ms).Sound := by
  induction ms generalizing r with
  | nil => exact h
  | cons m ms ih => exact ih (h.move m)

/-! ## Lookups in a course -/

/-- How a lookup ended stays known. -/
theorem Sound.result?_move (h : r.Sound) (m : Move) {l : Nat} {x : Except String Endpoint}
    (hl : r.result? l = some x) : (r.move m).result? l = some x := by
  have hends : ∀ {k : Lookup} {y : Except String Endpoint} {r' : Resolver},
      r.inflight = some k → r'.results = (k.id, y) :: r.results → r'.result? l = some x := by
    intro k y r' hinflight hresults
    rw [result?_cons hresults, if_neg]
    · exact hl
    · rintro rfl
      rw [(h.made hinflight).2] at hl
      cases hl
  have hchange := change_move r m
  generalize r.move m = r' at hchange ⊢
  cases hchange with
  | finds o hinflight => exact hends hinflight rfl
  | misses o detail hinflight => exact hends hinflight rfl
  | _ => exact hl

theorem nextLookup_le_move (r : Resolver) (m : Move) : r.nextLookup ≤ (r.move m).nextLookup := by
  have hchange := change_move r m
  generalize r.move m = r' at hchange ⊢
  cases hchange with
  | creates => exact Nat.le_succ _
  | _ => exact Nat.le_refl _

/-- A lookup is made only by a caller that finds neither a fresh host nor a lookup under way. -/
theorem creates_of_ne (h : (r.move m).nextLookup ≠ r.nextLookup) :
    (∃ token, m = .ask token .missed) ∧ r.cached = none ∧ r.inflight = none := by
  have hchange := change_move r m
  generalize r.move m = r' at hchange h
  cases hchange with
  | creates token hcached hinflight => exact ⟨⟨token, rfl⟩, hcached, hinflight⟩
  | _ => exact absurd rfl h

/-- When a lookup ends the holder is empty. -/
theorem inflight_of_ends {l : Nat} (hl : r.result? l = none)
    (h : (r.move m).result? l ≠ none) : (r.move m).inflight = none := by
  have hchange := change_move r m
  generalize r.move m = r' at hchange h ⊢
  cases hchange with
  | finds => rfl
  | misses => rfl
  | _ => exact absurd hl h

theorem settings_move (r : Resolver) (m : Move) : (r.move m).settings = r.settings := by
  have hchange := change_move r m
  generalize r.move m = r' at hchange ⊢
  cases hchange <;> rfl

end ResumableUpload.Resolver
