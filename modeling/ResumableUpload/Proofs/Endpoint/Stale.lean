import ResumableUpload.Proofs.Endpoint.Course

/-!
# When a host is dropped

The resolver counts failures whatever host they name, and looks at the name only when the count is
full. So what becomes of the kept host depends on all reports since it was kept or since a success
(`Resolver.recent`): a failure drops it exactly if it names it and comes third among them, or third
after a third one that named another host (`dropped_iff_third`). As long as no report names another
host, that is the third report of the kept one. A report of a host that was replaced can bring the
end of its successor nearer, or put it off (`dropped_early_or_late`).
-/

namespace ResumableUpload.Resolver

variable {r r' : Resolver} {m : Move} {w : List Endpoint}

/-- Another host is kept than before. -/
def installed (r r' : Resolver) : Bool := r'.cache.isSome && r'.cache != r.cache

/-- The hosts that reports named since a success, after a move. -/
def reported (w : List Endpoint) : Move → List Endpoint
  | .fail e => w ++ [e]
  | .succeed => []
  | _ => w

/-- The hosts that reports named since the kept host was kept or since a success, after some
moves. -/
def recent (r : Resolver) (w : List Endpoint) : List Move → List Endpoint
  | [] => w
  | m :: ms => (r.move m).recent (if r.installed (r.move m) then [] else reported w m) ms

/-- What the count of failures has to do with the reports, while a host is kept. -/
structure Counted (r : Resolver) (w : List Endpoint) : Prop where
  count : r.cache ≠ none → r.failures = w.length % staleThreshold
  -- every third report named another host
  spared : ∀ e, r.cache = some e → ∀ i x, w[i]? = some x → i % staleThreshold = 2 →
    isSame e x = false

theorem counted_start (settings : EndpointSettings) : (start settings).Counted [] :=
  ⟨fun _ => rfl, nofun⟩

theorem Counted.of_empty (hcache : r.cache = none) (w : List Endpoint) : r.Counted w := by
  refine ⟨fun h => absurd hcache h, fun e he => ?_⟩
  rw [hcache] at he
  cases he

theorem counted_nil (h : r.failures = 0) : r.Counted [] := ⟨fun _ => h, nofun⟩

/-- A report more, which does not fill the count or names another host than the one kept. -/
theorem Counted.append (h : r.Counted w) {e : Endpoint}
    (hcache : r'.cache = r.cache) (hcount : r'.failures = (r.failures + 1) % staleThreshold)
    (hspared : r.failures + 1 = staleThreshold → r.cache.any (isSame · e) = false) :
    r'.Counted (w ++ [e]) where
  count hkept := by
    rw [hcount, h.count (hcache ▸ hkept), List.length_append, List.length_singleton]
    exact Nat.mod_add_mod w.length staleThreshold 1
  spared k hk i x hi hthird := by
    rw [hcache] at hk
    rcases Nat.lt_or_ge i w.length with hlt | hge
    · rw [List.getElem?_append_left hlt] at hi
      exact h.spared k hk i x hi hthird
    · -- the last report, when the count is full
      rw [List.getElem?_append_right hge] at hi
      obtain ⟨hlast, rfl⟩ : i - w.length = 0 ∧ e = x := by
        cases hd : i - w.length with
        | zero =>
          rw [hd] at hi
          exact ⟨rfl, Option.some.inj hi⟩
        | succ d =>
          rw [hd] at hi
          cases hi
      have hfull : r.failures + 1 = staleThreshold := by
        have hkept : r.cache ≠ none := by rw [hk]; nofun
        have heq : i = w.length := by omega
        rw [h.count hkept, ← heq, hthird]
        rfl
      have hother := hspared hfull
      rw [hk] at hother
      exact hother

theorem reported_of_ne (hfail : ∀ e, m ≠ .fail e) (hsucceed : m ≠ .succeed) :
    reported w m = w := by
  cases m with
  | fail e => exact absurd rfl (hfail e)
  | succeed => exact absurd rfl hsucceed
  | _ => rfl

theorem installed_of_same (h : r'.cache = r.cache) : r.installed r' = false := by
  rw [installed, h, bne_self_eq_false, Bool.and_false]

/-- A host that was obtained only now was not kept before. -/
theorem installed_of_finds (hr : r.Sound) {e : Endpoint} (h : r'.cache = some e)
    (hnow : r.now < e.obtainedAt) : r.installed r' = true := by
  rw [installed, h, Option.isSome_some, Bool.true_and, bne_iff_ne]
  intro heq
  exact absurd (hr.past e heq.symm) (Nat.not_le_of_lt hnow)

theorem Counted.change (h : r.Counted w) (hr : r.Sound) (hc : r.Change m r') :
    r'.Counted (if r.installed r' then [] else reported w m) := by
  have hnoted : r'.cache = r.cache →
      (if r.installed r' then [] else reported w m) = reported w m := by
    intro hcache
    rw [installed_of_same hcache, if_neg Bool.false_ne_true]
  -- what neither reports nor changes the kept host leaves the count alone
  have hstays : r'.cache = r.cache → r'.failures = r.failures → (∀ e, m ≠ .fail e) →
      m ≠ .succeed → r'.Counted (if r.installed r' then [] else reported w m) := by
    intro hcache hfailures hfail hsucceed
    rw [hnoted hcache, reported_of_ne hfail hsucceed]
    refine ⟨fun hkept => ?_, fun e he => h.spared e (hcache ▸ he)⟩
    rw [hfailures]
    exact h.count (hcache ▸ hkept)
  cases hc with
  | goes _ hfail hsucceed => exact hstays rfl rfl hfail hsucceed
  | creates => exact hstays rfl rfl nofun nofun
  | asks => exact hstays rfl rfl nofun nofun
  | poisons => exact hstays rfl rfl nofun nofun
  | misses => exact hstays rfl rfl nofun nofun
  | finds o _ _ hnow =>
    rw [installed_of_finds hr rfl hnow, if_pos rfl]
    exact counted_nil rfl
  | invalidates => exact .of_empty rfl _
  | drops => exact .of_empty rfl _
  | @counts e hfew =>
    rw [hnoted rfl]
    exact h.append rfl (Nat.mod_eq_of_lt hfew).symm fun hfull => absurd hfew (by omega)
  | @spares e hfull hother =>
    have hthird : r.failures + 1 = staleThreshold := Nat.le_antisymm hr.few hfull
    rw [hnoted rfl]
    refine h.append rfl ?_ fun _ => hother
    rw [hthird, Nat.mod_self]
  | succeeds =>
    rw [hnoted rfl]
    exact counted_nil rfl

theorem Counted.after (h : r.Counted w) (hr : r.Sound) (ms : List Move) :
    (r.after ms).Counted (r.recent w ms) := by
  induction ms generalizing r w with
  | nil => exact h
  | cons m ms ih => exact ih (h.change hr (change_move r m)) (hr.move m)

/-- What a report of a failure does to the kept host. -/
theorem cache_fail (r : Resolver) (e : Endpoint) :
    (r.move (.fail e)).cache
      = if staleThreshold ≤ r.failures + 1 ∧ r.cache.any (isSame · e) = true then none
        else r.cache := by
  have hchange := change_move r (.fail e)
  generalize r.move (.fail e) = r' at hchange ⊢
  cases hchange with
  | goes _ hno => exact absurd rfl (hno e)
  | counts hfew => rw [if_neg fun h => absurd h.1 (Nat.not_le_of_lt hfew)]
  | drops hfull hsame => rw [if_pos ⟨hfull, hsame⟩]
  | spares hfull hother =>
    rw [if_neg fun h => ?_]
    rw [hother] at h
    cases h.2

/-- As long as all reports named the kept host, there were less than three. -/
theorem Counted.length_lt (h : r.Counted w) {e : Endpoint} (he : r.cache = some e)
    (hall : ∀ x ∈ w, isSame e x = true) : w.length < staleThreshold := by
  apply Nat.lt_of_not_le
  intro hle
  have hlt : 2 < w.length := hle
  have hother := h.spared e he 2 w[2] (List.getElem?_eq_getElem hlt) rfl
  rw [hall _ (List.getElem_mem hlt)] at hother
  cases hother

/-- A failure drops the kept host if it names it and is the third report since the host was kept or
since a success, or the third one after that, and so on. As long as no report names another host,
this is the third report that names the kept one. -/
theorem dropped_iff_third (settings : EndpointSettings) (ms : List Move) (kept reported : Endpoint)
    (hkept : ((start settings).after ms).cache = some kept) :
    let r := (start settings).after ms
    let w := (start settings).recent [] ms
    (r.move (.fail reported)).cache
        = (if isSame kept reported = true ∧ w.length % staleThreshold = 2 then none
          else some kept) ∧
      ((∀ x ∈ w, isSame kept x = true) →
        ((r.move (.fail reported)).cache = none ↔
          isSame kept reported = true ∧ (w.filter (isSame kept)).length + 1 = staleThreshold)) := by
  intro r w
  have hr : r.Sound := (sound_start settings).after ms
  have hcounted : r.Counted w := (counted_start settings).after (sound_start settings) ms
  have hcount : r.failures = w.length % staleThreshold := by
    apply hcounted.count
    rw [hkept]
    nofun
  have hcache : (r.move (.fail reported)).cache
      = if isSame kept reported = true ∧ w.length % staleThreshold = 2 then none
        else some kept := by
    have hmod : w.length % staleThreshold < 3 := Nat.mod_lt _ (Nat.zero_lt_succ 2)
    have hfull : staleThreshold ≤ r.failures + 1 ↔ w.length % staleThreshold = 2 := by
      rw [hcount]
      show 3 ≤ _ ↔ _
      omega
    rw [cache_fail, hkept, Option.any_some]
    simp only [hfull, and_comm]
  refine ⟨hcache, fun hall => ?_⟩
  have hlt := hcounted.length_lt hkept hall
  rw [hcache, List.filter_eq_self.mpr hall, Nat.mod_eq_of_lt hlt]
  have hlength : w.length = 2 ↔ w.length + 1 = staleThreshold :=
    ⟨fun h => congrArg (· + 1) h, fun h => Nat.succ.inj h⟩
  rw [← hlength]
  split
  · next h => exact ⟨fun _ => h, fun _ => rfl⟩
  · next h => exact ⟨nofun, fun h' => absurd h' h⟩

/-- The moves of a caller that finds no fresh host and waits for lookup `l`, which ends late. -/
def lateResolve (l : Nat) : List Move :=
  [.ask "token" .entering, .ask "token" .missed, .ask "token" (.waiting l), .conclude l .late,
    .ask "token" (.waiting l)]

/-- A host is found, dropped, and found again. -/
def replacing : List Move := lateResolve 0 ++ [.invalidate] ++ lateResolve 1

/-- The fallback host as it was obtained at a moment. -/
def fallbackAt (moment : Nat) : Endpoint :=
  ⟨"https://d.pcs.baidu.com", moment, fallbackTtl, .fallback⟩

/-- Two reports of the host that was replaced, and the next report drops its successor; with a
report of it before the third one, the successor stays. -/
theorem dropped_early_or_late :
    let early := (start {}).after (replacing ++ [.fail (fallbackAt 1), .fail (fallbackAt 1)])
    let late := (start {}).after
      (replacing ++ [.fail (fallbackAt 2), .fail (fallbackAt 2), .fail (fallbackAt 1)])
    early.cache = some (fallbackAt 2) ∧ (early.move (.fail (fallbackAt 2))).cache = none ∧
      late.cache = some (fallbackAt 2) ∧
      (late.move (.fail (fallbackAt 2))).cache = some (fallbackAt 2) :=
  ⟨rfl, rfl, rfl, rfl⟩

/-- The third report drops the host that it names. -/
theorem dropped_iff_third_named :
    let ms := lateResolve 0 ++ [.fail (fallbackAt 1), .fail (fallbackAt 1)]
    ((start {}).after ms).cache = some (fallbackAt 1) ∧
      (((start {}).after ms).move (.fail (fallbackAt 1))).cache = none := by
  intro ms
  have hkept : ((start {}).after ms).cache = some (fallbackAt 1) := rfl
  refine ⟨hkept, ?_⟩
  rw [(dropped_iff_third {} ms (fallbackAt 1) (fallbackAt 1) hkept).1]
  rfl

end ResumableUpload.Resolver
