import ResumableUpload.Proofs.Endpoint.Provenance

/-!
# The hosts that callers may get

A resolver makes up no address. Whatever happens at it, and whatever step a caller takes, the hosts
that it keeps and those that callers get are the fallback address, where the settings allow for it,
or an address that the server named and that is secure (`Resolver.sanctioned_of_done`).
-/

namespace ResumableUpload

namespace EndpointSettings

/-- A host that a caller may get under the settings. -/
inductive Sanctioned (s : EndpointSettings) (e : Endpoint) : Prop
  /-- The server is never asked. -/
  | static : s.dynamic = false → e.source = .static → e.baseUrl = s.fallbackUrl → s.Sanctioned e
  | fallback : s.allowFallback = true → e.source = .fallback → e.baseUrl = s.fallbackUrl →
      s.Sanctioned e
  | dynamic : e.source = .dynamic → LocateReply.isSecure e.baseUrl = true → s.Sanctioned e

end EndpointSettings

namespace Resolver

variable {r : Resolver} {s : EndpointSettings} {e : Endpoint}

/-- A lookup gives no other host. -/
theorem Gives.sanctioned {o : LookupOutcome} (h : Gives s o (.ok e)) : s.Sanctioned e := by
  cases h with
  | found _ hfind _ hsource => exact .dynamic hsource (List.find?_some hfind)
  | falls _ hallow hurl _ hsource => exact .fallback hallow hsource hurl

/-- Callers may get every host that the resolver keeps or that a lookup gave. -/
structure Reputable (s : EndpointSettings) (r : Resolver) : Prop where
  same : r.settings = s
  cache : ∀ e, r.cache = some e → s.Sanctioned e
  results : ∀ l e, (l, .ok e) ∈ r.results → s.Sanctioned e

theorem reputable_start (s : EndpointSettings) : (start s).Reputable s where
  same := rfl
  cache _ := nofun
  results _ _ h := absurd h List.not_mem_nil

theorem Reputable.ends (h : r.Reputable s) (l : Nat) (o : LookupOutcome) :
    (r.move (.conclude l o)).Reputable s := by
  have hends := r.ends_conclude l o
  generalize r.move (.conclude l o) = r' at hends ⊢
  cases hends with
  | idle => exact h
  | @keeps e _ _ hgives =>
    have hnew : s.Sanctioned e := (h.same ▸ hgives).sanctioned
    refine ⟨h.same, fun e' he' => Option.some.inj he' ▸ hnew, fun k e' hmem => ?_⟩
    rcases List.mem_cons.mp hmem with heq | hold
    · injection heq with _ hok
      injection hok with he'
      exact he' ▸ hnew
    · exact h.results k e' hold
  | misses =>
    refine ⟨h.same, h.cache, fun k e' hmem => ?_⟩
    rcases List.mem_cons.mp hmem with heq | hold
    · injection heq with _ hok
      cases hok
    · exact h.results k e' hold

theorem Reputable.move (h : r.Reputable s) (m : Move) : (r.move m).Reputable s := by
  cases hm : m.isEnd with
  | true =>
    cases m with
    | conclude l o => exact h.ends l o
    | _ => cases hm
  | false =>
    obtain ⟨hresults, hcache⟩ := results_move (r := r) hm
    refine ⟨(r.settings_move m).trans h.same, fun e he => ?_, hresults ▸ h.results⟩
    rcases hcache with hkept | hnone
    · exact h.cache e (hkept ▸ he)
    · rw [hnone] at he
      cases he

theorem Reputable.after (h : r.Reputable s) (ms : List Move) : (r.after ms).Reputable s := by
  induction ms generalizing r with
  | nil => exact h
  | cons m ms ih => exact ih (h.move m)

/-! ## What a caller gets -/

theorem Reputable.cached (h : r.Reputable s) (he : r.cached = some e) : s.Sanctioned e :=
  h.cache e (Option.filter_eq_some_iff.mp he).1

theorem Reputable.result? (h : r.Reputable s) {l : Nat} (hl : r.result? l = some (.ok e)) :
    s.Sanctioned e := by
  obtain ⟨⟨k, _⟩, hfind, rfl⟩ := Option.map_eq_some_iff.mp hl
  exact h.results k e (List.mem_of_find?_eq_some hfind)

/-- A caller gets the address set for good, the kept host, or what its lookup gave. -/
theorem Reputable.ask (h : r.Reputable s) {token : String} {c : Caller}
    (hdone : (r.ask token c).resolution = .done (.ok e)) : s.Sanctioned e := by
  cases c with
  | entering =>
    change r.enter.resolution = _ at hdone
    unfold enter at hdone
    split at hdone
    · next hstatic =>
      injection hdone with hok
      injection hok with heq
      subst heq
      rw [Bool.not_eq_true', h.same] at hstatic
      refine .static hstatic rfl ?_
      rw [← h.same]
    · split at hdone
      · next e' hcached =>
        injection hdone with hok
        injection hok with heq
        exact heq ▸ h.cached hcached
      · cases hdone
  | missed =>
    change (r.join token).resolution = _ at hdone
    unfold join at hdone
    split at hdone
    · next e' _ hcached =>
      injection hdone with hok
      injection hok with heq
      exact heq ▸ h.cached hcached
    · cases hdone
    · cases hdone
  | waiting l =>
    change (r.attend l).resolution = _ at hdone
    unfold attend at hdone
    split at hdone
    · next x _ hresult =>
      injection hdone with hok
      exact h.result? (hok ▸ hresult)
    · split at hdone
      · split at hdone <;> cases hdone
      · cases hdone
    · cases hdone

/-- Whatever has happened before, a caller gets no host but those that it may get. -/
theorem sanctioned_of_done (s : EndpointSettings) (ms : List Move) {token : String} {c : Caller}
    (hdone : (((start s).after ms).ask token c).resolution = .done (.ok e)) : s.Sanctioned e :=
  ((reputable_start s).after ms).ask hdone

end Resolver

end ResumableUpload
