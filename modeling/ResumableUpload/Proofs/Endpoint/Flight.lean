import ResumableUpload.Proofs.Endpoint.Course

/-!
# One lookup at a time

Any number of callers share a resolver; they come, take their steps and give up whenever they like,
while hosts are reported on, lookups end and time passes (`Scene.Move`). A lookup ends with an
answer, a fault or late, at any moment after the server was asked; lookups that stop abnormally are
left out.

However the moves come in between one another, the server is asked for one lookup at a time, all
callers of a lookup get its result, and a lookup that has ended is out of the way
(`Scene.single_flight`).
-/

namespace ResumableUpload

/-- The lookup that a caller waits for. -/
def Caller.lookup? : Caller → Option Nat
  | .waiting l => some l
  | _ => none

/-- A caller of a resolver, until it has its answer and afterwards. -/
inductive Party
  | asking (token : String) (c : Caller)
  -- it has its answer, which is that of a lookup if one is named
  | served (result : Except String Endpoint) (lookup : Option Nat)
  -- it gave up
  | gone

/-- What a caller of a lookup has, given how the lookup ended if it has. -/
def Party.ofLookup (token : String) (l : Nat) : Option (Except String Endpoint) → Party
  | none => .asking token (.waiting l)
  | some x => .served x (some l)

/-- What a caller has that looks for a fresh host first. -/
def Party.ofCached (token : String) : Option Endpoint → Party
  | none => .asking token .missed
  | some e => .served (.ok e) none

/-- What a step makes of a caller. -/
def Resolution.party (token : String) (c : Caller) : Resolution → Party
  | .pending c' => .asking token c'
  | .done result => .served result c.lookup?
  | .poisoned => .gone

/-- A resolver and its callers. -/
structure Scene where
  resolver : Resolver
  parties : List Party := []
  /-- The lookups for which the server was asked, in order. -/
  calls : List Nat := []

namespace Scene

/-- Something that happens between two moments at which anything else may come in between. -/
inductive Move
  | comes (token : String)
  -- caller `i` takes a step
  | goes (i : Nat)
  | leaves (i : Nat)
  -- a lookup ends
  | ends (lookup : Nat) (o : LookupOutcome)
  | invalidates
  | fails (e : Endpoint)
  | succeeds
  | ages (nanos : Nat)

def withResolver (s : Scene) (m : Resolver.Move) : Scene :=
  { s with resolver := s.resolver.move m }

/-- The scene after a step of caller `i`. -/
def go (s : Scene) (i : Nat) : Scene :=
  match s.parties[i]? with
  | some (.asking token c) =>
    let a := s.resolver.ask token c
    { resolver := a.resolver
      parties := s.parties.set i (a.resolution.party token c)
      calls := s.calls ++ a.located.toList.map Lookup.id }
  | _ => s

/-- The scene after a move. -/
def move (s : Scene) : Move → Scene
  | .comes token => { s with parties := s.parties ++ [.asking token .entering] }
  | .goes i => s.go i
  | .leaves i => { s with parties := s.parties.set i .gone }
  | .ends lookup o => s.withResolver (.conclude lookup o)
  | .invalidates => s.withResolver .invalidate
  | .fails e => s.withResolver (.fail e)
  | .succeeds => s.withResolver .succeed
  | .ages nanos => s.withResolver (.age nanos)

/-- The scene after some moves. -/
def after (s : Scene) (ms : List Move) : Scene := ms.foldl move s

/-- The scene before anybody comes. -/
def start (settings : EndpointSettings) : Scene := ⟨.start settings, [], []⟩

/-- A lookup that has not ended. -/
def isUnderWay (s : Scene) (lookup : Nat) : Bool := (s.resolver.result? lookup).isNone

variable {s : Scene}

/-! ## Callers and lookups -/

/-- What a caller has to do with lookups: it waits for one that was made, or it was given the result
of one. -/
structure Attached (r : Resolver) (p : Party) : Prop where
  waits : ∀ token l, p = .asking token (.waiting l) → l < r.nextLookup
  served : ∀ x l, p = .served x (some l) → r.result? l = some x

theorem Attached.later {r : Resolver} {p : Party} (h : Attached r p) (hr : r.Sound)
    (m : Resolver.Move) : Attached (r.move m) p where
  waits token l hp := Nat.lt_of_lt_of_le (h.waits token l hp) (r.nextLookup_le_move m)
  served x l hp := hr.result?_move m (h.served x l hp)

theorem attached_entering (r : Resolver) (token : String) :
    Attached r (.asking token .entering) := ⟨nofun, nofun⟩

theorem attached_gone (r : Resolver) : Attached r .gone := ⟨nofun, nofun⟩

theorem attached_served {r : Resolver} {x : Except String Endpoint} {lookup : Option Nat}
    (h : ∀ l, lookup = some l → r.result? l = some x) : Attached r (.served x lookup) := by
  refine ⟨nofun, fun y l hp => ?_⟩
  injection hp with hxy hl
  subst hxy
  exact h l hl

theorem attached_waiting {r : Resolver} {l : Nat} (token : String) (h : l < r.nextLookup) :
    Attached r (.asking token (.waiting l)) := by
  refine ⟨fun _ k hp => ?_, nofun⟩
  injection hp with _ hc
  injection hc with hl
  exact hl ▸ h

/-- A step attaches a caller to the lookup in the holder, or gives it the result of its lookup. -/
theorem Attached.ask {r : Resolver} {token : String} {c : Caller}
    (h : Attached r (.asking token c)) (hr : r.Sound) :
    Attached (r.ask token c).resolver ((r.ask token c).resolution.party token c) := by
  cases c with
  | entering =>
    show Attached r.enter.resolver (r.enter.resolution.party token .entering)
    unfold Resolver.enter
    split
    · exact attached_served nofun
    · split
      · exact attached_served nofun
      · exact ⟨nofun, nofun⟩
  | missed =>
    show Attached (r.join token).resolver ((r.join token).resolution.party token .missed)
    unfold Resolver.join
    split
    · exact attached_served nofun
    · next l _ hinflight => exact attached_waiting token (hr.made hinflight).1
    · exact attached_waiting token (Nat.lt_succ_self r.nextLookup)
  | waiting lookup =>
    have hlookup := h.waits token lookup rfl
    have hwaits : ∀ {r' : Resolver}, r'.nextLookup = r.nextLookup →
        Attached r' (.asking token (.waiting lookup)) :=
      fun hnext => attached_waiting token (hnext ▸ hlookup)
    show Attached (r.attend lookup).resolver
      ((r.attend lookup).resolution.party token (.waiting lookup))
    unfold Resolver.attend
    split
    · next x _ hx =>
      refine attached_served fun l hl => ?_
      rw [← Option.some.inj hl]
      exact hx
    · split
      · split
        · exact hwaits rfl
        · exact hwaits rfl
        · exact attached_gone r
      · exact hwaits rfl
    · exact hwaits rfl

/-- The server is asked for the lookup in the holder, if nobody has asked yet. -/
theorem located_ask {r : Resolver} {token : String} {c : Caller} {l : Lookup}
    (h : (r.ask token c).located = some l) :
    r.inflight = some l ∧ l.stage = .created ∧
      (r.ask token c).resolver.inflight = some { l with stage := .asking } := by
  cases c with
  | entering =>
    have hnone : r.enter.located = none := by
      unfold Resolver.enter
      split
      · rfl
      · split <;> rfl
    rw [show (r.ask token .entering).located = r.enter.located from rfl, hnone] at h
    cases h
  | missed =>
    have hnone : (r.join token).located = none := by
      unfold Resolver.join
      split <;> rfl
    rw [show (r.ask token .missed).located = (r.join token).located from rfl, hnone] at h
    cases h
  | waiting lookup =>
    change (r.attend lookup).located = some l at h
    show r.inflight = some l ∧ l.stage = .created ∧ (r.attend lookup).resolver.inflight = _
    unfold Resolver.attend at h ⊢
    split at h
    · cases h
    · next k hnone hinflight =>
      split at h
      · next hk =>
        split at h
        · next hcreated =>
          injection h with hkl
          subst hkl
          simp only [hinflight, hk, if_true, hcreated, and_self]
        · cases h
        · cases h
      · cases h
    · cases h

/-- A call of the server is for the lookup in the holder, and nobody had asked before. -/
theorem located_of_mem {r : Resolver} {token : String} {c : Caller} {id : Nat}
    (h : id ∈ (r.ask token c).located.toList.map Lookup.id) :
    ∃ l, l.id = id ∧ r.inflight = some l ∧ l.stage = .created ∧
      (r.ask token c).resolver.inflight = some { l with stage := .asking } := by
  obtain ⟨l, hl, hid⟩ := List.mem_map.mp h
  exact ⟨l, hid, located_ask (Option.mem_toList.mp hl)⟩

/-! ## The invariant -/

/-- What holds of a scene whatever has happened. -/
structure Kept (s : Scene) : Prop where
  dynamic : s.resolver.settings.dynamic = true
  sound : s.resolver.Sound
  attached : ∀ p ∈ s.parties, Attached s.resolver p
  made : ∀ l ∈ s.calls, l < s.resolver.nextLookup
  once : s.calls.Nodup
  quiet : ∀ l, s.resolver.inflight = some l → l.stage = .created → l.id ∉ s.calls
  clean : ∀ l, s.resolver.inflight = some l → l.stage ≠ .poisoned

theorem kept_start {settings : EndpointSettings} (h : settings.dynamic = true) :
    (start settings).Kept where
  dynamic := h
  sound := Resolver.sound_start settings
  attached _ hp := absurd hp List.not_mem_nil
  made _ hl := absurd hl List.not_mem_nil
  once := List.nodup_nil
  quiet _ := nofun
  clean _ := nofun

/-- What happens at the resolver without a caller leaves the lookup in the holder, or ends it. -/
theorem Kept.withResolver (h : s.Kept) {m : Resolver.Move} (hask : ∀ token c, m ≠ .ask token c)
    (hpoison : ∀ l, m ≠ .poison l) : (s.withResolver m).Kept := by
  have hinflight : (s.resolver.move m).inflight = s.resolver.inflight ∨
      (s.resolver.move m).inflight = none := by
    have hchange := s.resolver.change_move m
    generalize s.resolver.move m = r' at hchange ⊢
    cases hchange with
    | creates token => exact absurd rfl (hask token .missed)
    | asks token => exact absurd rfl (hask token _)
    | poisons => exact absurd rfl (hpoison _)
    | finds => exact .inr rfl
    | misses => exact .inr rfl
    | _ => exact .inl rfl
  have hstays : ∀ l, (s.resolver.move m).inflight = some l → s.resolver.inflight = some l := by
    intro l hl
    rcases hinflight with hsame | hnone
    · exact hsame ▸ hl
    · rw [hnone] at hl
      cases hl
  exact {
    dynamic := by
      show (s.resolver.move m).settings.dynamic = true
      rw [Resolver.settings_move, h.dynamic]
    sound := h.sound.move m
    attached := fun p hp => (h.attached p hp).later h.sound m
    made := fun l hl => Nat.lt_of_lt_of_le (h.made l hl) (s.resolver.nextLookup_le_move m)
    once := h.once
    quiet := fun l hl => h.quiet l (hstays l hl)
    clean := fun l hl => h.clean l (hstays l hl) }

/-- The lookup in the holder after a step of a caller is the one from before, was made just now, or
is the one that the server was asked for. -/
theorem inflight_ask {r : Resolver} {token : String} {c : Caller} {l : Lookup}
    (h : (r.ask token c).resolver.inflight = some l) :
    r.inflight = some l ∨ (l.id = r.nextLookup ∧ l.stage = .created) ∨ l.stage = .asking := by
  have hchange := r.change_ask token c
  generalize (r.ask token c).resolver = r' at hchange h
  cases hchange with
  | goes => exact .inl h
  | creates =>
    rw [← Option.some.inj h]
    exact .inr (.inl ⟨rfl, rfl⟩)
  | asks =>
    rw [← Option.some.inj h]
    exact .inr (.inr rfl)

theorem Kept.go (h : s.Kept) (i : Nat) : (s.go i).Kept := by
  unfold Scene.go
  split
  · next token c hi =>
    have hp := h.attached _ (List.mem_of_getElem? hi)
    have hle := s.resolver.nextLookup_le_move (.ask token c)
    refine {
      dynamic := ?_
      sound := h.sound.move (.ask token c)
      attached := fun p hmem => ?_
      made := fun l hl => ?_
      once := ?_
      quiet := fun l hl hcreated hmem => ?_
      clean := fun l hl hpoisoned => ?_ }
    · have hsettings := s.resolver.settings_move (.ask token c)
      exact (congrArg EndpointSettings.dynamic hsettings).trans h.dynamic
    · rcases List.mem_or_eq_of_mem_set hmem with hmem | rfl
      · exact (h.attached p hmem).later h.sound (.ask token c)
      · exact hp.ask h.sound
    · rw [List.mem_append] at hl
      rcases hl with hl | hl
      · exact Nat.lt_of_lt_of_le (h.made l hl) hle
      · obtain ⟨k, rfl, hheld, -⟩ := located_of_mem hl
        exact Nat.lt_of_lt_of_le (h.sound.made hheld).1 hle
    · refine List.nodup_append.mpr ⟨h.once, ?_, ?_⟩
      · cases (s.resolver.ask token c).located with
        | none => exact .nil
        | some k => exact List.nodup_cons.mpr ⟨List.not_mem_nil, .nil⟩
      · rintro a ha b hb rfl
        obtain ⟨k, rfl, hheld, hcreated, -⟩ := located_of_mem hb
        exact h.quiet k hheld hcreated ha
    · rw [List.mem_append] at hmem
      rcases hmem with hmem | hmem
      · rcases inflight_ask hl with hold | ⟨hnew, -⟩ | hasking
        · exact h.quiet l hold hcreated hmem
        · exact absurd (h.made l.id hmem) (by omega)
        · rw [hcreated] at hasking
          cases hasking
      · obtain ⟨k, -, -, -, hasking⟩ := located_of_mem hmem
        rw [← Option.some.inj (hasking.symm.trans hl)] at hcreated
        cases hcreated
    · rcases inflight_ask hl with hold | ⟨-, hcreated⟩ | hasking
      · exact h.clean l hold hpoisoned
      · rw [hcreated] at hpoisoned
        cases hpoisoned
      · rw [hasking] at hpoisoned
        cases hpoisoned
  · exact h

theorem Kept.parties (h : s.Kept) {parties : List Party}
    (hp : ∀ p ∈ parties, Attached s.resolver p) : { s with parties := parties }.Kept :=
  { h with attached := hp }

theorem Kept.move (h : s.Kept) (m : Move) : (s.move m).Kept := by
  cases m with
  | comes token =>
    refine h.parties fun p hp => ?_
    rcases List.mem_append.mp hp with hp | hp
    · exact h.attached p hp
    · rw [List.mem_singleton.mp hp]
      exact attached_entering s.resolver token
  | goes i => exact h.go i
  | leaves i =>
    refine h.parties fun p hp => ?_
    rcases List.mem_or_eq_of_mem_set hp with hp | rfl
    · exact h.attached p hp
    · exact attached_gone s.resolver
  | ends lookup o => exact h.withResolver nofun nofun
  | invalidates => exact h.withResolver nofun nofun
  | fails e => exact h.withResolver nofun nofun
  | succeeds => exact h.withResolver nofun nofun
  | ages nanos => exact h.withResolver nofun nofun

theorem Kept.after (h : s.Kept) (ms : List Move) : (s.after ms).Kept := by
  induction ms generalizing s with
  | nil => exact h
  | cons m ms ih => exact ih (h.move m)

/-! ## One lookup at a time -/

/-- A caller does what its step of `ask` makes of it. -/
theorem party_go {i : Nat} {token : String} {c : Caller}
    (hi : s.parties[i]? = some (.asking token c)) :
    (s.go i).parties[i]? = some ((s.resolver.ask token c).resolution.party token c) := by
  have hlt : i < s.parties.length := (List.getElem?_eq_some_iff.mp hi).1
  simp only [go, hi, List.getElem?_set_self hlt]

theorem resolver_go {i : Nat} {token : String} {c : Caller}
    (hi : s.parties[i]? = some (.asking token c)) :
    (s.go i).resolver = s.resolver.move (.ask token c) := by
  simp only [go, hi]
  rfl

/-- A move leaves the resolver alone, or is a move of the resolver; a caller that takes a step is
asking. -/
theorem resolver_move (s : Scene) (m : Move) :
    (s.move m).resolver = s.resolver ∨
      ∃ rm, (s.move m).resolver = s.resolver.move rm ∧ ∀ token c, rm = .ask token c →
        ∃ i, m = .goes i ∧ s.parties[i]? = some (.asking token c) := by
  cases m with
  | comes token => exact .inl rfl
  | leaves i => exact .inl rfl
  | goes i =>
    show (s.go i).resolver = _ ∨ ∃ rm, (s.go i).resolver = _ ∧ _
    cases hi : s.parties[i]? with
    | none => exact .inl (by simp only [go, hi])
    | some p =>
      cases p with
      | asking token c =>
        refine .inr ⟨.ask token c, resolver_go hi, fun token' c' heq => ⟨i, rfl, ?_⟩⟩
        injection heq with htoken hc
        rw [← htoken, ← hc]
        exact hi
      | served => exact .inl (by simp only [go, hi])
      | gone => exact .inl (by simp only [go, hi])
  | ends lookup o => exact .inr ⟨.conclude lookup o, rfl, nofun⟩
  | invalidates => exact .inr ⟨.invalidate, rfl, nofun⟩
  | fails e => exact .inr ⟨.fail e, rfl, nofun⟩
  | succeeds => exact .inr ⟨.succeed, rfl, nofun⟩
  | ages nanos => exact .inr ⟨.age nanos, rfl, nofun⟩

/-- A caller that waits gets the result of its lookup once there is one, and waits on until then. -/
theorem Kept.go_waiting (h : s.Kept) {i l : Nat} {token : String}
    (hi : s.parties[i]? = some (.asking token (.waiting l))) :
    (s.move (.goes i)).parties[i]? = some (.ofLookup token l (s.resolver.result? l)) := by
  show (s.go i).parties[i]? = _
  rw [party_go hi]
  show some ((s.resolver.attend l).resolution.party token (.waiting l)) = _
  unfold Resolver.attend
  split
  · next x _ hx => simp only [hx]; rfl
  · next k hnone hinflight =>
    simp only [hnone]
    split
    · split
      · rfl
      · rfl
      · next hpoisoned => exact absurd hpoisoned (h.clean k hinflight)
    · rfl
  · next hnone _ => simp only [hnone]; rfl

/-- A caller that comes has a fresh host at once if one is kept. -/
theorem go_entering {i : Nat} {token : String} (hdynamic : s.resolver.settings.dynamic = true)
    (hi : s.parties[i]? = some (.asking token .entering)) :
    (s.move (.goes i)).parties[i]? = some (.ofCached token s.resolver.cached) := by
  show (s.go i).parties[i]? = _
  rw [party_go hi]
  show some (s.resolver.enter.resolution.party token .entering) = _
  simp only [Resolver.enter, hdynamic, Bool.not_true, Bool.false_eq_true, if_false]
  cases s.resolver.cached <;> rfl

/-- With no lookup under way, a caller that looks again has a fresh host, or makes a lookup and
waits for it. -/
theorem go_missed {i : Nat} {token : String} (hinflight : s.resolver.inflight = none)
    (hi : s.parties[i]? = some (.asking token .missed)) :
    (∃ e, s.resolver.cached = some e ∧
      (s.move (.goes i)).parties[i]? = some (.served (.ok e) none)) ∨
    (s.resolver.cached = none ∧
      (s.move (.goes i)).parties[i]? = some (.asking token (.waiting s.resolver.nextLookup)) ∧
      (s.move (.goes i)).resolver.inflight = some ⟨s.resolver.nextLookup, token, .created⟩) := by
  have hparty : (s.move (.goes i)).parties[i]?
      = some ((s.resolver.join token).resolution.party token .missed) := party_go hi
  have hresolver : (s.move (.goes i)).resolver = (s.resolver.join token).resolver := resolver_go hi
  rw [hparty, hresolver, Resolver.join, hinflight]
  cases hcached : s.resolver.cached with
  | some e => exact .inl ⟨e, rfl, rfl⟩
  | none => exact .inr ⟨rfl, rfl, rfl⟩

/-- Lookups are made one at a time and shared. -/
structure SingleFlight (s : Scene) : Prop where
  -- the server is asked once for a lookup, and for one lookup at a time
  once : s.calls.Nodup
  alone : (s.calls.filter s.isUnderWay).length ≤ 1
  -- the holder has a lookup exactly while the lookup was made and has not ended
  holder : ∀ l, s.resolver.inflight.map Lookup.id = some l ↔
    l < s.resolver.nextLookup ∧ s.resolver.result? l = none
  -- a lookup is made only by a caller that finds neither a fresh host nor a lookup under way
  creates : ∀ m, (s.move m).resolver.nextLookup ≠ s.resolver.nextLookup →
    (∃ i token, m = .goes i ∧ s.parties[i]? = some (.asking token .missed)) ∧
      s.resolver.cached = none ∧ s.resolver.inflight = none
  -- callers that wait for a lookup get its result, and they all get the same
  waits : ∀ i token l, s.parties[i]? = some (.asking token (.waiting l)) →
    (s.move (.goes i)).parties[i]? = some (.ofLookup token l (s.resolver.result? l))
  agree : ∀ (i j l : Nat) (x y : Except String Endpoint),
    s.parties[i]? = some (.served x (some l)) →
    s.parties[j]? = some (.served y (some l)) → x = y
  -- a lookup that ends leaves the holder empty, whatever it gives
  frees : ∀ m l, s.resolver.result? l = none → (s.move m).resolver.result? l ≠ none →
    (s.move m).resolver.inflight = none
  -- with the holder empty, a caller gets a fresh host or makes a lookup
  enters : ∀ i token, s.parties[i]? = some (.asking token .entering) →
    (s.move (.goes i)).parties[i]? = some (.ofCached token s.resolver.cached)
  renews : s.resolver.inflight = none → ∀ i token, s.parties[i]? = some (.asking token .missed) →
    (∃ e, s.resolver.cached = some e ∧
      (s.move (.goes i)).parties[i]? = some (.served (.ok e) none)) ∨
    (s.resolver.cached = none ∧
      (s.move (.goes i)).parties[i]? = some (.asking token (.waiting s.resolver.nextLookup)) ∧
      (s.move (.goes i)).resolver.inflight = some ⟨s.resolver.nextLookup, token, .created⟩)

theorem Kept.alone (h : s.Kept) : (s.calls.filter s.isUnderWay).length ≤ 1 := by
  have hnodup : (s.calls.filter s.isUnderWay).Nodup := h.once.filter _
  have hunended : ∀ l ∈ s.calls.filter s.isUnderWay,
      l < s.resolver.nextLookup ∧ s.resolver.result? l = none := by
    intro l hl
    obtain ⟨hmem, hnone⟩ := List.mem_filter.mp hl
    exact ⟨h.made l hmem, Option.isNone_iff_eq_none.mp hnone⟩
  match hcalls : s.calls.filter s.isUnderWay with
  | [] => exact Nat.zero_le 1
  | [_] => exact Nat.le_refl 1
  | a :: b :: rest =>
    rw [hcalls] at hnodup hunended
    have hab : a = b := h.sound.unended (hunended a (by simp)) (hunended b (by simp))
    simp [hab] at hnodup

theorem Kept.singleFlight (h : s.Kept) : s.SingleFlight where
  once := h.once
  alone := h.alone
  holder := h.sound.holder
  creates m hm := by
    rcases s.resolver_move m with hsame | ⟨rm, hmove, hask⟩
    · rw [hsame] at hm
      exact absurd rfl hm
    · rw [hmove] at hm
      obtain ⟨⟨token, htoken⟩, hfree⟩ := Resolver.creates_of_ne hm
      obtain ⟨i, hi, hp⟩ := hask token .missed htoken
      exact ⟨⟨i, token, hi, hp⟩, hfree⟩
  waits _ _ _ hi := h.go_waiting hi
  agree i j l x y hi hj := by
    have hx := (h.attached _ (List.mem_of_getElem? hi)).served x l rfl
    have hy := (h.attached _ (List.mem_of_getElem? hj)).served y l rfl
    exact Option.some.inj (hx.symm.trans hy)
  frees m l hl hends := by
    rcases s.resolver_move m with hsame | ⟨rm, hmove, -⟩
    · rw [hsame] at hends
      exact absurd hl hends
    · rw [hmove] at hends ⊢
      exact Resolver.inflight_of_ends hl hends
  enters _ _ hi := go_entering h.dynamic hi
  renews hinflight _ _ hi := go_missed hinflight hi

/-- Callers that come and go as they like, in any order with everything else that happens at the
resolver, share one lookup at a time. -/
theorem single_flight (settings : EndpointSettings) (h : settings.dynamic = true)
    (ms : List Move) : ((start settings).after ms).SingleFlight :=
  ((kept_start h).after ms).singleFlight

/-- Three callers find no host. The first makes a lookup and the others join it, the first gives up,
and the lookup ends late. -/
def sharedMoves : List Move :=
  [.comes "a", .comes "b", .comes "c", .goes 0, .goes 1, .goes 2, .goes 0, .goes 1, .goes 2,
    .goes 1, .leaves 0, .ends 0 .late, .goes 2, .goes 1]

/-- The callers that stay get the host of the one lookup. -/
theorem single_flight_shared :
    let s := (start {}).after sharedMoves
    let e : Endpoint := ⟨"https://d.pcs.baidu.com", 1, fallbackTtl, .fallback⟩
    s.parties = [.gone, .served (.ok e) (some 0), .served (.ok e) (some 0)] ∧ s.calls = [0] ∧
      s.SingleFlight :=
  ⟨rfl, rfl, single_flight {} rfl sharedMoves⟩

end Scene

end ResumableUpload
