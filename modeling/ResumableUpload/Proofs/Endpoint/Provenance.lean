import ResumableUpload.Proofs.Endpoint.Flight

/-!
# Where a kept host comes from

A host is kept because a lookup gave it, and how that lookup ended tells which host it is: the first
secure address that the server named, or the fallback address where that is allowed (`Gives`). Every
result in the course of a scene is that of a lookup for which the server was asked and which has
ended (`Ended`); so is every host that is kept, and every error that a caller is told (`Sourced`).

What takes a kept host away is listed by the moves of the resolver: it is given up, it is reported
by its address and the moment at which it was obtained, or a newer lookup gives another. Each of
these starts the count of failures again, and the count never reaches three between two moves
(`Scene.tracked_after`). Where hosts are not asked for at all, nothing is kept and every caller gets
the fallback address for good.
-/

namespace ResumableUpload

namespace Resolver

variable {r r' : Resolver} {m : Move}

/-! ## What a lookup gives -/

/-- What a lookup gives that ends in a certain way. -/
inductive Gives (s : EndpointSettings) (o : LookupOutcome) : Except String Endpoint → Prop
  /-- The first secure address that the server named. -/
  | found {addresses : List String} {e : Endpoint} : o = .servers addresses →
      addresses.find? LocateReply.isSecure = some e.baseUrl → e.ttl = s.ttl →
      e.source = .dynamic → Gives s o (.ok e)
  /-- The fallback address, for a minute at most, if it may be used. -/
  | falls {detail : String} {e : Endpoint} : Resolver.found s o = .error detail →
      s.allowFallback = true → e.baseUrl = s.fallbackUrl →
      e.ttl = s.ttl.shorter (.ofSeconds 60) → e.source = .fallback → Gives s o (.ok e)
  /-- The reason why there is no address. -/
  | fails {detail : String} : Resolver.found s o = .error detail → s.allowFallback = false →
      Gives s o (.error detail)

/-- An address that is found is the first secure one. -/
theorem servers_of_found {s : EndpointSettings} {o : LookupOutcome} {url : String}
    (h : found s o = .ok url) :
    ∃ addresses, o = .servers addresses ∧ addresses.find? LocateReply.isSecure = some url := by
  cases o with
  | servers addresses =>
    refine ⟨addresses, rfl, ?_⟩
    unfold found at h
    cases hfind : addresses.find? LocateReply.isSecure with
    | none => simp [hfind] at h
    | some first =>
      simp only [hfind, Except.ok.injEq] at h
      rw [h]
  | fault f => cases h
  | late => cases h

/-- The result of a lookup that ends. -/
theorem gives_conclusion (r : Resolver) (o : LookupOutcome) :
    (∃ e lines, Gives r.settings o (.ok e) ∧ e.obtainedAt = r.now + 1 ∧
      r.conclusion o = (.ok e, { r with now := r.now + 1 }, lines)) ∨
    ∃ detail lines, Gives r.settings o (.error detail) ∧
      r.conclusion o = (.error detail, r, lines) := by
  unfold conclusion
  split
  · next url hurl =>
    obtain ⟨addresses, ho, hfind⟩ := servers_of_found hurl
    exact .inl ⟨_, _, .found ho hfind rfl rfl, rfl, rfl⟩
  · next detail hdetail =>
    split
    · next hallow => exact .inl ⟨_, _, .falls hdetail hallow rfl rfl rfl, rfl, rfl⟩
    · next hforbid =>
      refine .inr ⟨detail, _, .fails hdetail ?_, rfl⟩
      simpa using hforbid

/-- What becomes of a resolver when a lookup is to end. -/
inductive Ends (r : Resolver) (l : Nat) (o : LookupOutcome) : Resolver → Prop
  -- the lookup is not under way, or the server was not asked for it yet
  | idle : Ends r l o r
  | keeps {e : Endpoint} : r.isAsking l = true → r.inflight.map Lookup.id = some l →
      Gives r.settings o (.ok e) → e.obtainedAt = r.now + 1 →
      Ends r l o { r with
        cache := some e
        inflight := none
        failures := 0
        now := r.now + 1
        results := (l, .ok e) :: r.results }
  | misses {detail : String} : r.isAsking l = true → r.inflight.map Lookup.id = some l →
      Gives r.settings o (.error detail) →
      Ends r l o { r with inflight := none, results := (l, .error detail) :: r.results }

theorem ends_conclude (r : Resolver) (l : Nat) (o : LookupOutcome) :
    r.Ends l o (r.move (.conclude l o)) := by
  show r.Ends l o (r.conclude l o).1
  unfold conclude
  cases hinflight : r.inflight with
  | none => exact .idle
  | some k =>
    dsimp only
    by_cases hk : k.id = l ∧ k.stage = .asking
    · have hasking : r.isAsking l = true := by simp [isAsking, hinflight, hk]
      have hid : r.inflight.map Lookup.id = some l := by rw [hinflight, Option.map_some, hk.1]
      rw [if_pos hk]
      obtain ⟨e, lines, hgives, hnow, heq⟩ | ⟨detail, lines, hgives, heq⟩ := gives_conclusion r o
      · rw [heq]
        exact .keeps hasking hid hgives hnow
      · rw [heq]
        exact .misses hasking hid hgives
    · rw [if_neg hk]
      exact .idle

/-- A lookup is to end. -/
def Move.isEnd : Move → Bool
  | .conclude .. => true
  | _ => false

/-- A caller takes a step. -/
def Move.isStep : Move → Bool
  | .ask .. => true
  | _ => false

/-- Only the end of a lookup gives a result or a host; what else happens can take the host away. -/
theorem results_move (h : m.isEnd = false) :
    (r.move m).results = r.results ∧
      ((r.move m).cache = r.cache ∨ (r.move m).cache = none) := by
  have hchange := change_move r m
  generalize r.move m = r' at hchange ⊢
  cases hchange with
  | finds => cases h
  | misses => cases h
  | invalidates => exact ⟨rfl, .inr rfl⟩
  | drops => exact ⟨rfl, .inr rfl⟩
  | _ => exact ⟨rfl, .inl rfl⟩

/-! ## The lookup in the holder is the newest -/

/-- The lookup in the holder, if there is one, was made last. -/
def Newest (r : Resolver) : Prop := ∀ l, r.inflight = some l → l.id + 1 = r.nextLookup

theorem Newest.change (h : r.Newest) (hc : r.Change m r') : r'.Newest := by
  intro l hl
  cases hc with
  | creates =>
    rw [← Option.some.inj hl]
  | @asks held _ hinflight =>
    rw [← Option.some.inj hl]
    exact h held hinflight
  | @poisons held hinflight =>
    rw [← Option.some.inj hl]
    exact h held hinflight
  | finds => cases hl
  | misses => cases hl
  | _ => exact h l hl

/-- A lookup that has ended was made before the one in the holder. -/
theorem Newest.lt (h : r.Newest) (hr : r.Sound) {l k : Nat} {x : Except String Endpoint}
    (hl : r.inflight.map Lookup.id = some l) (hk : r.result? k = some x) : k < l := by
  obtain ⟨held, hheld, rfl⟩ := Option.map_eq_some_iff.mp hl
  have hnext : held.id + 1 = r.nextLookup := h held hheld
  have hmade : k < r.nextLookup := by
    apply Nat.lt_of_not_le
    intro hle
    rw [hr.unmade k hle] at hk
    cases hk
  have hne : k ≠ held.id := by
    rintro rfl
    rw [(hr.made hheld).2] at hk
    cases hk
  omega

/-! ## What takes a kept host away -/

/-- The count starts again whenever the kept host changes. -/
theorem failures_of_cache_ne (h : (r.move m).cache ≠ r.cache) : (r.move m).failures = 0 := by
  have hchange := change_move r m
  generalize r.move m = r' at hchange h ⊢
  cases hchange with
  | finds => rfl
  | invalidates => rfl
  | drops => rfl
  | _ => exact absurd rfl h

/-- Why a kept host is kept no longer. -/
inductive Removed (r : Resolver) (e : Endpoint) (r' : Resolver) : Move → Prop
  | invalidated : Removed r e r' .invalidate
  | reported {e' : Endpoint} : e'.baseUrl = e.baseUrl → e'.obtainedAt = e.obtainedAt →
      Removed r e r' (.fail e')
  -- lookup `l` is newer than that of the host
  | replaced {l : Nat} {o : LookupOutcome} {e' : Endpoint} : r'.cache = some e' →
      r'.result? l = some (.ok e') → e.obtainedAt < e'.obtainedAt →
      (∀ k, r.result? k = some (.ok e) → k < l) → Removed r e r' (.conclude l o)

theorem removed_of_ne (hr : r.Sound) (hnewest : r.Newest) {e : Endpoint} (he : r.cache = some e)
    (h : (r.move m).cache ≠ some e) : Removed r e (r.move m) m := by
  have hchange := change_move r m
  generalize r.move m = r' at hchange h ⊢
  cases hchange with
  | @finds l o e' hinflight _ hnow =>
    refine .replaced rfl ?_ (Nat.lt_of_le_of_lt (hr.past e he) hnow) fun k hk => ?_
    · rw [result?_cons rfl, if_pos rfl]
    · exact hnewest.lt hr (congrArg (Option.map Lookup.id) hinflight) hk
  | invalidates => exact .invalidated
  | @drops e' _ hsame =>
    rw [he, Option.any_some, isSame, Bool.and_eq_true, beq_iff_eq, beq_iff_eq] at hsame
    exact .reported hsame.1.symm hsame.2.symm
  | _ => exact absurd he h

end Resolver

namespace Scene

variable {s : Scene} {settings : EndpointSettings} {past : List Move} {m : Move}

theorem after_append (s : Scene) (ms more : List Move) :
    s.after (ms ++ more) = (s.after ms).after more := List.foldl_append

/-! ## Sources -/

/-- In the course of some moves a lookup has ended for which the server had been asked. -/
def Ended (settings : EndpointSettings) (ms : List Move) (l : Nat) (o : LookupOutcome) : Prop :=
  ∃ before later, ms = before ++ .ends l o :: later ∧
    ((start settings).after before).resolver.isAsking l = true

example : Ended {} sharedMoves 0 .late :=
  ⟨sharedMoves.take 11, sharedMoves.drop 12, rfl, rfl⟩

theorem Ended.append {l : Nat} {o : LookupOutcome} (h : Ended settings past l o)
    (more : List Move) : Ended settings (past ++ more) l o := by
  obtain ⟨before, later, rfl, hasking⟩ := h
  exact ⟨before, later ++ more, by rw [List.append_assoc, List.cons_append], hasking⟩

/-- What is known, and what a caller was told, has come of lookups that have ended. -/
structure Sourced (settings : EndpointSettings) (past : List Move) (s : Scene) : Prop where
  here : s = (start settings).after past
  same : s.resolver.settings = settings
  sound : s.resolver.Sound
  newest : s.resolver.Newest
  results : ∀ l x, s.resolver.result? l = some x →
    ∃ o, Ended settings past l o ∧ Resolver.Gives settings o x
  cache : ∀ e, s.resolver.cache = some e → ∃ l, s.resolver.result? l = some (.ok e)
  attached : ∀ p ∈ s.parties, Attached s.resolver p
  -- without a lookup nobody is told an error
  served : ∀ x, .served x none ∈ s.parties → ∃ e, x = .ok e

theorem sourced_start (settings : EndpointSettings) : Sourced settings [] (start settings) where
  here := rfl
  same := rfl
  sound := Resolver.sound_start settings
  newest _ := nofun
  results _ _ := nofun
  cache _ := nofun
  attached _ hp := absurd hp List.not_mem_nil
  served _ hp := absurd hp List.not_mem_nil

/-- What happens at the resolver and is no end of a lookup leaves all sources as they were. -/
theorem Sourced.quiet (h : Sourced settings past s) (m : Move) {rm : Resolver.Move}
    (hrm : rm.isEnd = false) :
    (∀ l x, (s.resolver.move rm).result? l = some x →
      ∃ o, Ended settings (past ++ [m]) l o ∧ Resolver.Gives settings o x) ∧
    ∀ e, (s.resolver.move rm).cache = some e →
      ∃ l, (s.resolver.move rm).result? l = some (.ok e) := by
  obtain ⟨hresults, hcache⟩ := Resolver.results_move (r := s.resolver) hrm
  have hsame : ∀ l, (s.resolver.move rm).result? l = s.resolver.result? l := by
    intro l
    rw [Resolver.result?, Resolver.result?, hresults]
  refine ⟨fun l x hx => ?_, fun e he => ?_⟩
  · obtain ⟨o, hended, hgives⟩ := h.results l x (hsame l ▸ hx)
    exact ⟨o, hended.append _, hgives⟩
  rcases hcache with hkept | hnone
  · obtain ⟨l, hl⟩ := h.cache e (hkept ▸ he)
    exact ⟨l, (hsame l).trans hl⟩
  · rw [hnone] at he
    cases he

/-- The end of a lookup is the source of its result, and of the host that it gives. -/
theorem Sourced.ends (h : Sourced settings past s) (l : Nat) (o : LookupOutcome) :
    (∀ k x, (s.resolver.move (.conclude l o)).result? k = some x →
      ∃ o', Ended settings (past ++ [.ends l o]) k o' ∧ Resolver.Gives settings o' x) ∧
    ∀ e, (s.resolver.move (.conclude l o)).cache = some e →
      ∃ k, (s.resolver.move (.conclude l o)).result? k = some (.ok e) := by
  have hold : ∀ k x, s.resolver.result? k = some x →
      ∃ o', Ended settings (past ++ [.ends l o]) k o' ∧ Resolver.Gives settings o' x := by
    intro k x hx
    obtain ⟨o', hended, hgives⟩ := h.results k x hx
    exact ⟨o', hended.append _, hgives⟩
  have hnow : s.resolver.isAsking l = true → Ended settings (past ++ [.ends l o]) l o :=
    fun hasking => ⟨past, [], rfl, h.here ▸ hasking⟩
  -- a result more: the lookup itself, or one that had ended before
  have hmore : ∀ {y : Except String Endpoint} {r' : Resolver}, s.resolver.isAsking l = true →
      Resolver.Gives s.resolver.settings o y → r'.results = (l, y) :: s.resolver.results →
      ∀ k x, r'.result? k = some x →
        ∃ o', Ended settings (past ++ [.ends l o]) k o' ∧ Resolver.Gives settings o' x := by
    intro y r' hasking hgives hresults k x hx
    rw [Resolver.result?_cons hresults] at hx
    split at hx
    · next hk =>
      subst hk
      rw [h.same, Option.some.inj hx] at hgives
      exact ⟨o, hnow hasking, hgives⟩
    · exact hold k x hx
  have hends := s.resolver.ends_conclude l o
  generalize s.resolver.move (.conclude l o) = r' at hends ⊢
  cases hends with
  | idle => exact ⟨hold, h.cache⟩
  | @keeps e hasking _ hgives =>
    refine ⟨hmore hasking hgives rfl, fun e' he' => ⟨l, ?_⟩⟩
    rw [Resolver.result?_cons rfl, if_pos rfl, Option.some.inj he']
  | misses hasking hid hgives =>
    refine ⟨hmore hasking hgives rfl, fun e he => ?_⟩
    obtain ⟨k, hk⟩ := h.cache e he
    refine ⟨k, ?_⟩
    rw [Resolver.result?_cons rfl, if_neg]
    · exact hk
    · exact Nat.ne_of_gt (h.newest.lt h.sound hid hk)

/-- Without a lookup a caller is told nothing but a kept host, or the one set for good. -/
theorem served_ask {r : Resolver} {token : String} {c : Caller} {x : Except String Endpoint}
    (h : (r.ask token c).resolution.party token c = .served x none) : ∃ e, x = .ok e := by
  have hdone : ∀ {res : Resolution}, res.party token c = .served x none → res = .done x := by
    intro res hres
    cases res with
    | pending c' => cases hres
    | done y =>
      injection hres with hxy
      rw [hxy]
    | poisoned => cases hres
  have hask := hdone h
  cases c with
  | entering =>
    change r.enter.resolution = _ at hask
    unfold Resolver.enter at hask
    split at hask
    · exact ⟨_, (Resolution.done.inj hask).symm⟩
    · split at hask
      · exact ⟨_, (Resolution.done.inj hask).symm⟩
      · cases hask
  | missed =>
    change (r.join token).resolution = _ at hask
    unfold Resolver.join at hask
    split at hask
    · exact ⟨_, (Resolution.done.inj hask).symm⟩
    · cases hask
    · cases hask
  | waiting l =>
    rw [hask] at h
    cases h

/-- A move of the resolver that has sources leads to a scene that has them. -/
theorem Sourced.next (h : Sourced settings past s) (rm : Resolver.Move)
    (hresolver : (s.move m).resolver = s.resolver.move rm)
    (hsources : (∀ l x, (s.resolver.move rm).result? l = some x →
        ∃ o, Ended settings (past ++ [m]) l o ∧ Resolver.Gives settings o x) ∧
      ∀ e, (s.resolver.move rm).cache = some e →
        ∃ l, (s.resolver.move rm).result? l = some (.ok e))
    (hattached : ∀ p ∈ (s.move m).parties, p ∈ s.parties ∨ Attached (s.resolver.move rm) p)
    (hserved : ∀ x, .served x none ∈ (s.move m).parties → ∃ e, x = .ok e) :
    Sourced settings (past ++ [m]) (s.move m) where
  here := by
    rw [after_append, ← h.here]
    rfl
  same := by rw [hresolver, Resolver.settings_move, h.same]
  sound := hresolver ▸ h.sound.move rm
  newest := hresolver ▸ h.newest.change (s.resolver.change_move rm)
  results := hresolver ▸ hsources.1
  cache := hresolver ▸ hsources.2
  attached p hp := by
    rw [hresolver]
    rcases hattached p hp with hold | hnew
    · exact (h.attached p hold).later h.sound rm
    · exact hnew
  served := hserved

theorem Sourced.go (h : Sourced settings past s) (i : Nat) :
    Sourced settings (past ++ [.goes i]) (s.move (.goes i)) := by
  have hidle : s.go i = s → Sourced settings (past ++ [.goes i]) (s.move (.goes i)) := by
    intro hsame
    have hmove : s.move (.goes i) = s := hsame
    apply h.next (.age 0)
    · rw [hmove]
      rfl
    · exact h.quiet _ rfl
    · intro p hp
      exact .inl (hmove ▸ hp)
    · intro x hx
      exact h.served x (hmove ▸ hx)
  cases hi : s.parties[i]? with
  | none => exact hidle (by simp only [Scene.go, hi])
  | some p =>
    cases p with
    | asking token c =>
      have hparties : (s.move (.goes i)).parties
          = s.parties.set i ((s.resolver.ask token c).resolution.party token c) := by
        show (s.go i).parties = _
        simp only [Scene.go, hi]
      apply h.next (.ask token c)
      · exact resolver_go hi
      · exact h.quiet _ rfl
      · intro p hp
        rw [hparties] at hp
        rcases List.mem_or_eq_of_mem_set hp with hold | rfl
        · exact .inl hold
        · exact .inr ((h.attached _ (List.mem_of_getElem? hi)).ask h.sound)
      · intro x hx
        rw [hparties] at hx
        rcases List.mem_or_eq_of_mem_set hx with hold | heq
        · exact h.served x hold
        · exact served_ask heq.symm
    | served => exact hidle (by simp only [Scene.go, hi])
    | gone => exact hidle (by simp only [Scene.go, hi])

theorem Sourced.move (h : Sourced settings past s) (m : Move) :
    Sourced settings (past ++ [m]) (s.move m) := by
  cases m with
  | comes token =>
    apply h.next (.age 0) rfl (h.quiet _ rfl)
    · intro p hp
      rcases List.mem_append.mp hp with hold | hnew
      · exact .inl hold
      · rw [List.mem_singleton.mp hnew]
        exact .inr (attached_entering _ token)
    · intro x hx
      rcases List.mem_append.mp hx with hold | hnew
      · exact h.served x hold
      · cases List.mem_singleton.mp hnew
  | goes i => exact h.go i
  | leaves i =>
    apply h.next (.age 0) rfl (h.quiet _ rfl)
    · intro p hp
      rcases List.mem_or_eq_of_mem_set hp with hold | rfl
      · exact .inl hold
      · exact .inr (attached_gone _)
    · intro x hx
      rcases List.mem_or_eq_of_mem_set hx with hold | heq
      · exact h.served x hold
      · cases heq
  | ends l o => exact h.next (.conclude l o) rfl (h.ends l o) (fun p hp => .inl hp) h.served
  | invalidates => exact h.next .invalidate rfl (h.quiet _ rfl) (fun p hp => .inl hp) h.served
  | fails e => exact h.next (.fail e) rfl (h.quiet _ rfl) (fun p hp => .inl hp) h.served
  | succeeds => exact h.next .succeed rfl (h.quiet _ rfl) (fun p hp => .inl hp) h.served
  | ages nanos => exact h.next (.age nanos) rfl (h.quiet _ rfl) (fun p hp => .inl hp) h.served

theorem Sourced.after (h : Sourced settings past s) (ms : List Move) :
    Sourced settings (past ++ ms) (s.after ms) := by
  induction ms generalizing past s with
  | nil =>
    rw [List.append_nil]
    exact h
  | cons m ms ih =>
    have hrest := ih (h.move m)
    rw [List.append_assoc, List.singleton_append] at hrest
    exact hrest

/-! ## Hosts that are set for good -/

/-- The host that every caller gets where hosts are not asked for. -/
def static (settings : EndpointSettings) (moment : Nat) : Endpoint :=
  ⟨settings.fallbackUrl, moment, .longest, .static⟩

/-- What holds of a scene where hosts are not asked for. -/
structure Unasked (settings : EndpointSettings) (s : Scene) : Prop where
  same : s.resolver.settings = settings
  cache : s.resolver.cache = none
  inflight : s.resolver.inflight = none
  calls : s.calls = []
  parties : ∀ p ∈ s.parties, (∃ token, p = .asking token .entering) ∨
    (∃ moment, p = .served (.ok (static settings moment)) none) ∨ p = .gone

theorem unasked_start (settings : EndpointSettings) : Unasked settings (start settings) :=
  ⟨rfl, rfl, rfl, rfl, fun _ hp => absurd hp List.not_mem_nil⟩

/-- What happens at the resolver without a caller makes no lookup and keeps no host. -/
theorem Unasked.withResolver (h : Unasked settings s) (rm : Resolver.Move)
    (hrm : rm.isStep = false) : Unasked settings (s.withResolver rm) := by
  have hsame : (s.resolver.move rm).cache = none ∧ (s.resolver.move rm).inflight = none := by
    have hchange := s.resolver.change_move rm
    have hcache := h.cache
    have hinflight := h.inflight
    generalize s.resolver.move rm = r' at hchange ⊢
    cases hchange with
    | creates => cases hrm
    | asks _ hheld => rw [hinflight] at hheld; cases hheld
    | poisons hheld => rw [hinflight] at hheld; cases hheld
    | finds _ hheld => rw [hinflight] at hheld; cases hheld
    | misses _ _ hheld => rw [hinflight] at hheld; cases hheld
    | invalidates => exact ⟨rfl, hinflight⟩
    | drops => exact ⟨rfl, hinflight⟩
    | _ => exact ⟨hcache, hinflight⟩
  exact {
    same := (s.resolver.settings_move rm).trans h.same
    cache := hsame.1
    inflight := hsame.2
    calls := h.calls
    parties := h.parties }

/-- A caller gets the fallback address at once. -/
theorem ask_static {r : Resolver} (h : r.settings.dynamic = false) (token : String) :
    r.ask token .entering = ⟨.done (.ok (static r.settings (r.now + 1))),
      { r with now := r.now + 1 }, [], none⟩ := by
  show r.enter = _
  simp only [Resolver.enter, h, Bool.not_false, if_true]
  rfl

theorem Unasked.go_eq (h : Unasked settings s) (hstatic : settings.dynamic = false) {i : Nat}
    {token : String} {c : Caller} (hi : s.parties[i]? = some (.asking token c)) :
    s.move (.goes i) = { s with
      resolver := { s.resolver with now := s.resolver.now + 1 }
      parties := s.parties.set i
        (.served (.ok (static settings (s.resolver.now + 1))) none) } := by
  obtain ⟨_, heq⟩ | ⟨_, heq⟩ | heq := h.parties _ (List.mem_of_getElem? hi)
  · injection heq with _ hc
    subst hc
    have hask := ask_static (r := s.resolver) (h.same ▸ hstatic) token
    show s.go i = _
    simp only [Scene.go, hi, hask, h.same]
    simp [Resolution.party, Caller.lookup?]
  · cases heq
  · cases heq

theorem Unasked.move (h : Unasked settings s) (hstatic : settings.dynamic = false) (m : Move) :
    Unasked settings (s.move m) := by
  cases m with
  | comes token =>
    refine { h with parties := fun p hp => ?_ }
    rcases List.mem_append.mp hp with hold | hnew
    · exact h.parties p hold
    · exact .inl ⟨token, List.mem_singleton.mp hnew⟩
  | goes i =>
    cases hi : s.parties[i]? with
    | none =>
      have hsame : s.move (.goes i) = s := by
        show s.go i = s
        simp only [Scene.go, hi]
      rwa [hsame]
    | some p =>
      cases p with
      | asking token c =>
        rw [h.go_eq hstatic hi]
        refine { h with parties := fun p hp => ?_ }
        rcases List.mem_or_eq_of_mem_set hp with hold | heq
        · exact h.parties p hold
        · exact .inr (.inl ⟨_, heq⟩)
      | _ =>
        have hsame : s.move (.goes i) = s := by
          show s.go i = s
          simp only [Scene.go, hi]
        rwa [hsame]
  | leaves i =>
    refine { h with parties := fun p hp => ?_ }
    rcases List.mem_or_eq_of_mem_set hp with hold | heq
    · exact h.parties p hold
    · exact .inr (.inr heq)
  | ends l o => exact h.withResolver (.conclude l o) rfl
  | invalidates => exact h.withResolver .invalidate rfl
  | fails e => exact h.withResolver (.fail e) rfl
  | succeeds => exact h.withResolver .succeed rfl
  | ages nanos => exact h.withResolver (.age nanos) rfl

theorem Unasked.after (h : Unasked settings s) (hstatic : settings.dynamic = false)
    (ms : List Move) : Unasked settings (s.after ms) := by
  induction ms generalizing s with
  | nil => exact h
  | cons m ms ih => exact ih (h.move hstatic m)

/-- What callers get where hosts are not asked for. -/
structure Constant (settings : EndpointSettings) (s : Scene) : Prop where
  calls : s.calls = []
  cache : s.resolver.cache = none
  told : ∀ x lookup, .served x lookup ∈ s.parties → ∃ moment, x = .ok (static settings moment)
  -- a caller has it at its first step
  tells : ∀ i token c, s.parties[i]? = some (.asking token c) →
    (s.move (.goes i)).parties[i]?
      = some (.served (.ok (static settings (s.resolver.now + 1))) none)

theorem Unasked.constant (h : Unasked settings s) (hstatic : settings.dynamic = false) :
    Constant settings s where
  calls := h.calls
  cache := h.cache
  told x lookup hx := by
    obtain ⟨_, heq⟩ | ⟨moment, heq⟩ | heq := h.parties _ hx
    · cases heq
    · injection heq with hxy
      exact ⟨moment, hxy⟩
    · cases heq
  tells i token c hi := by
    have hlt : i < s.parties.length := (List.getElem?_eq_some_iff.mp hi).1
    rw [h.go_eq hstatic hi]
    exact List.getElem?_set_self hlt

/-! ## The kept host -/

/-- A move takes a kept host away. -/
inductive Removes (s : Scene) (e : Endpoint) : Move → Prop
  | invalidated : s.Removes e .invalidates
  /-- The host is named by its address and the moment at which it was obtained. -/
  | reported {e' : Endpoint} : e'.baseUrl = e.baseUrl → e'.obtainedAt = e.obtainedAt →
      s.Removes e (.fails e')
  /-- A lookup newer than that of the host gives another one. -/
  | replaced {l : Nat} {o : LookupOutcome} {e' : Endpoint} :
      (s.move (.ends l o)).resolver.cache = some e' →
      (s.move (.ends l o)).resolver.result? l = some (.ok e') → e.obtainedAt < e'.obtainedAt →
      (∀ k, s.resolver.result? k = some (.ok e) → k < l) → s.Removes e (.ends l o)

/-- What the resolver keeps, and what callers are told, after some moves. -/
structure Tracked (settings : EndpointSettings) (ms : List Move) (s : Scene) : Prop where
  /-- Where hosts are not asked for, nothing is kept and every caller gets the fallback address. -/
  static : settings.dynamic = false → Constant settings s
  /-- A host is kept because a lookup gave it. -/
  kept : ∀ e, s.resolver.cache = some e → ∃ l o, Ended settings ms l o ∧
    s.resolver.result? l = some (.ok e) ∧ Resolver.Gives settings o (.ok e)
  /-- A caller is told an error if the lookup that it waited for failed. -/
  errors : ∀ detail lookup, .served (.error detail) lookup ∈ s.parties →
    settings.allowFallback = false ∧ ∃ l o, lookup = some l ∧ Ended settings ms l o ∧
      Resolver.found settings o = .error detail
  /-- A lookup that fails leaves the kept host where it is. -/
  failed : ∀ l o detail, settings.allowFallback = false →
    Resolver.found settings o = .error detail →
    (s.move (.ends l o)).resolver.cache = s.resolver.cache
  few : s.resolver.failures ≤ 2
  /-- The count starts again when a host is kept or taken away. -/
  restarts : ∀ m, (s.move m).resolver.cache ≠ s.resolver.cache →
    (s.move m).resolver.failures = 0
  /-- A kept host stays until it is given up, reported, or replaced. -/
  stays : ∀ m e, s.resolver.cache = some e → (s.move m).resolver.cache ≠ some e →
    s.Removes e m

/-- An error that a caller was told is that of its lookup. -/
theorem Sourced.errors (h : Sourced settings past s) {detail : String} {lookup : Option Nat}
    (hp : .served (.error detail) lookup ∈ s.parties) :
    settings.allowFallback = false ∧ ∃ l o, lookup = some l ∧ Ended settings past l o ∧
      Resolver.found settings o = .error detail := by
  cases lookup with
  | none =>
    obtain ⟨e, he⟩ := h.served _ hp
    cases he
  | some l =>
    obtain ⟨o, hended, hgives⟩ := h.results l _ ((h.attached _ hp).served _ l rfl)
    cases hgives with
    | fails hfound hforbid => exact ⟨hforbid, l, o, rfl, hended, hfound⟩

theorem Sourced.failed (h : Sourced settings past s) (l : Nat) {o : LookupOutcome}
    {detail : String} (hforbid : settings.allowFallback = false)
    (hfound : Resolver.found settings o = .error detail) :
    (s.move (.ends l o)).resolver.cache = s.resolver.cache := by
  show (s.resolver.move (.conclude l o)).cache = _
  have hends := s.resolver.ends_conclude l o
  generalize s.resolver.move (.conclude l o) = r' at hends ⊢
  cases hends with
  | idle => rfl
  | misses => rfl
  | keeps _ _ hgives =>
    rw [h.same] at hgives
    cases hgives with
    | found ho hfind =>
      subst ho
      simp [Resolver.found, hfind] at hfound
    | falls _ hallow =>
      rw [hforbid] at hallow
      cases hallow

/-- A caller that takes a step leaves the kept host where it is. -/
theorem cache_go (s : Scene) (i : Nat) : (s.go i).resolver.cache = s.resolver.cache := by
  unfold Scene.go
  split
  · next token c _ =>
    show (s.resolver.ask token c).resolver.cache = _
    have hchange := s.resolver.change_ask token c
    generalize (s.resolver.ask token c).resolver = r' at hchange ⊢
    cases hchange <;> rfl
  · rfl

theorem Sourced.removes (h : Sourced settings past s) (m : Move) {e : Endpoint}
    (he : s.resolver.cache = some e) (hm : (s.move m).resolver.cache ≠ some e) :
    s.Removes e m := by
  have hremoved : ∀ rm : Resolver.Move, (s.resolver.move rm).cache ≠ some e →
      Resolver.Removed s.resolver e (s.resolver.move rm) rm :=
    fun rm hne => Resolver.removed_of_ne h.sound h.newest he hne
  cases m with
  | comes token => exact absurd he hm
  | leaves i => exact absurd he hm
  | goes i => exact absurd ((s.cache_go i).trans he) hm
  | ends l o =>
    cases hremoved (.conclude l o) hm with
    | replaced hcache hresult hlater hnewer => exact .replaced hcache hresult hlater hnewer
  | invalidates => exact .invalidated
  | fails e' =>
    cases hremoved (.fail e') hm with
    | reported hurl hmoment => exact .reported hurl hmoment
  | succeeds => nomatch hremoved .succeed hm
  | ages nanos => nomatch hremoved (.age nanos) hm

/-- Whatever callers do and however lookups end, in any order with everything else that happens at
the resolver: a kept host is one that a lookup gave, and it stays until something takes it away that
concerns it. -/
theorem tracked_after (settings : EndpointSettings) (ms : List Move) :
    Tracked settings ms ((start settings).after ms) := by
  have h : Sourced settings ms ((start settings).after ms) := (sourced_start settings).after ms
  refine {
    static := fun hstatic => ((unasked_start settings).after hstatic ms).constant hstatic
    kept := fun e he => ?_
    errors := fun detail lookup hp => h.errors hp
    failed := fun l o detail hforbid hfound => h.failed l hforbid hfound
    few := Nat.le_of_lt_succ h.sound.few
    restarts := fun m hm => ?_
    stays := fun m e he hm => h.removes m he hm }
  · obtain ⟨l, hl⟩ := h.cache e he
    obtain ⟨o, hended, hgives⟩ := h.results l _ hl
    exact ⟨l, o, hended, hl, hgives⟩
  · rcases Scene.resolver_move _ m with hsame | ⟨rm, hmove, -⟩
    · rw [hsame] at hm
      exact absurd rfl hm
    · rw [hmove] at hm ⊢
      exact Resolver.failures_of_cache_ne hm

end Scene

end ResumableUpload
