import ResumableUpload.Proofs.Session.History

/-!
# Sessions without their secrets

All that sessions hold can be stripped of what is secret in it: of a token its first six characters
are left, of the secret of an application nothing. When a record was saved goes as well, and with it
the time on the clock. What is shared takes the same steps without its secrets as with them, and
says the same.
-/

namespace ResumableUpload

/-! ## What is left -/

/-- What may be seen of a token. -/
def bareToken (token : String) : String := String.ofList (token.toList.take 6)

/-- A lookup without its secrets. -/
def Lookup.bare (l : Lookup) : Lookup := { l with token := bareToken l.token }

/-- A resolver without its secrets. -/
def Resolver.bare (r : Resolver) : Resolver := { r with inflight := r.inflight.map Lookup.bare }

/-- A record, but for when it was saved. -/
def Resume.Record.bare (r : Resume.Record) : Resume.Record := { r with savedAt := 0 }

/-- A store, but for when its records were saved. -/
def Resume.Store.bare (s : Resume.Store) : Resume.Store := ⟨s.entries.map fun e => (e.1, e.2.bare)⟩

namespace Session

/-- Credentials without their secret. -/
def Credentials.bare (c : Credentials) : Credentials := { c with clientSecret := "" }

/-- A target without its secrets. -/
def Target.bare (t : Target) : Target :=
  { t with
    accessToken := bareToken t.accessToken
    credentials := t.credentials.map Credentials.bare }

/-- A session without its secrets. -/
def Handle.bare (h : Handle) : Handle := { h with target := h.target.bare }

/-- A world without its secrets, and without the time. -/
def World.bare (w : World) : World :=
  { w with
    store := w.store.bare
    resolvers := w.resolvers.map Resolver.bare
    handles := w.handles.map Handle.bare
    clock := 0 }

/-- A call without its secrets. -/
def Call.bare : Call → Call
  | .locate token => .locate (bareToken token)
  | .precreate token q => .precreate (bareToken token) q
  | .slice url token q => .slice url (bareToken token) q
  | .create token q => .create (bareToken token) q

/-- A note without its secrets. -/
def Note.bare : Note → Note
  | .call c => .call c.bare
  | .lookup resolver l => .lookup resolver l.bare
  | note => note

/-- What is said with a note. -/
def Note.line? : Note → Option LogLine
  | .line l => some l
  | _ => none

/-- What is said with some notes. -/
def Note.said (notes : List Note) : List LogLine := notes.filterMap Note.line?

end Session

/-! ## What is said -/

namespace Session

theorem Note.map_bare_lines (ls : List LogLine) : (lines ls).map bare = lines ls := by
  rw [lines, List.map_map]
  exact List.map_congr_left fun _ _ => rfl

theorem Note.said_bare (notes : List Note) : said (notes.map bare) = said notes := by
  rw [said, said, List.filterMap_map]
  congr 1
  funext note
  cases note <;> rfl

theorem Note.calls_bare (notes : List Note) :
    calls (notes.map bare) = (calls notes).map Call.bare := by
  rw [calls, calls, List.filterMap_map, List.map_filterMap]
  congr 1
  funext note
  cases note <;> rfl

theorem maskToken_bare (token : String) : maskToken (bareToken token) = maskToken token := by
  simp only [maskToken, bareToken, String.toList_ofList, List.take_take, Nat.min_self]

/-- Credentials are shown without their secret. -/
theorem Credentials.shown_bare (c : Credentials) : c.bare.shown = c.shown := rfl

/-- A target is shown with no more of its token and its credentials than may be seen. -/
theorem Target.shown_eq {token token' : String} {c c' : Option Credentials}
    (htoken : maskToken token = maskToken token')
    (hc : c.map Credentials.shown = c'.map Credentials.shown) (path remote : String) (size : Nat) :
    shown ⟨path, remote, size, token, c⟩ = shown ⟨path, remote, size, token', c'⟩ := by
  cases c with
  | none =>
    obtain rfl : c' = none := by simpa using hc.symm
    unfold shown
    dsimp only
    rw [htoken]
  | some c =>
    obtain ⟨c', rfl, hshown⟩ := Option.map_eq_some_iff.mp hc.symm
    unfold shown
    dsimp only
    rw [htoken, hshown]

theorem Target.shown_bare (t : Target) : t.bare.shown = t.shown := by
  refine shown_eq (maskToken_bare t.accessToken) ?_ t.localPath t.remotePath t.totalSize
  rw [Option.map_map]
  exact congrArg (Option.map · t.credentials) (funext Credentials.shown_bare)

/-- A session is shown without its secrets. -/
theorem Handle.shown_bare (token : Bool → String) (lock : String → String) (h : Handle) :
    h.bare.shown token lock = h.shown token lock := by
  have htarget : h.bare.target.shown = h.target.shown := h.target.shown_bare
  unfold shown
  rw [htarget]
  rfl

theorem Handle.startNotice_bare (h : Handle) : h.bare.startNotice = h.startNotice := by
  simp only [startNotice, bare, Target.bare, maskToken_bare]

end Session

/-! ## Resolvers -/

/-- A step of a caller without its secrets. -/
def Asked.bare (a : Asked) : Asked :=
  { a with resolver := a.resolver.bare, located := a.located.map Lookup.bare }

namespace Resolver

variable (r : Resolver)

theorem enter_bare : r.bare.enter = r.enter.bare := by
  have hsettings : r.bare.settings = r.settings := rfl
  have hcached : r.bare.cached = r.cached := rfl
  unfold enter
  rw [hsettings, hcached]
  split
  · rfl
  · split <;> rfl

theorem join_bare (token : String) : r.bare.join (bareToken token) = (r.join token).bare := by
  have hcached : r.bare.cached = r.cached := rfl
  have hinflight : r.bare.inflight = r.inflight.map Lookup.bare := rfl
  unfold join
  rw [hcached, hinflight]
  cases r.cached with
  | some e => rfl
  | none => cases r.inflight <;> rfl

theorem attend_bare (lookup : Nat) : r.bare.attend lookup = (r.attend lookup).bare := by
  have hresult : r.bare.result? lookup = r.result? lookup := rfl
  have hinflight : r.bare.inflight = r.inflight.map Lookup.bare := rfl
  unfold attend
  rw [hresult, hinflight]
  cases r.result? lookup with
  | some result => rfl
  | none =>
    cases r.inflight with
    | none => rfl
    | some l =>
      by_cases hid : l.id = lookup
      · have hid' : l.bare.id = lookup := hid
        have hstage : l.bare.stage = l.stage := rfl
        simp only [Option.map_some, if_pos hid, if_pos hid', hstage]
        cases l.stage <;> rfl
      · have hid' : l.bare.id ≠ lookup := hid
        simp only [Option.map_some, if_neg hid, if_neg hid']
        rfl

theorem ask_bare (token : String) (c : Caller) :
    r.bare.ask (bareToken token) c = (r.ask token c).bare := by
  cases c with
  | entering => exact r.enter_bare
  | missed => exact r.join_bare token
  | waiting lookup => exact r.attend_bare lookup

theorem conclusion_bare (o : LookupOutcome) :
    r.bare.conclusion o
      = ((r.conclusion o).1, (r.conclusion o).2.1.bare, (r.conclusion o).2.2) := by
  have hsettings : r.bare.settings = r.settings := rfl
  unfold conclusion
  rw [hsettings]
  split
  · rfl
  · split <;> rfl

theorem conclude_bare (lookup : Nat) (o : LookupOutcome) :
    r.bare.conclude lookup o = ((r.conclude lookup o).1.bare, (r.conclude lookup o).2) := by
  have hinflight : r.bare.inflight = r.inflight.map Lookup.bare := rfl
  unfold conclude
  rw [hinflight, conclusion_bare]
  generalize r.conclusion o = end_
  obtain ⟨result, r', lines⟩ := end_
  cases r.inflight with
  | none => rfl
  | some l =>
    by_cases hl : l.id = lookup ∧ l.stage = .asking
    · have hl' : l.bare.id = lookup ∧ l.bare.stage = .asking := hl
      simp only [Option.map_some, if_pos hl, if_pos hl']
      cases result <;> rfl
    · have hl' : ¬ (l.bare.id = lookup ∧ l.bare.stage = .asking) := hl
      simp only [Option.map_some, if_neg hl, if_neg hl']

theorem poison_bare (lookup : Nat) : r.bare.poison lookup = (r.poison lookup).bare := by
  have hlookup : ∀ l : Lookup, (if l.bare.id = lookup then { l.bare with stage := .poisoned }
      else l.bare) = (if l.id = lookup then { l with stage := .poisoned } else l).bare := by
    intro l
    by_cases hid : l.id = lookup
    · rw [if_pos hid, if_pos (show l.bare.id = lookup from hid)]
      rfl
    · rw [if_neg hid, if_neg (show l.bare.id ≠ lookup from hid)]
  unfold poison bare
  simp only [Option.map_map]
  congr 2
  funext l
  exact hlookup l

theorem invalidate_bare : r.bare.invalidate = (r.invalidate.1.bare, r.invalidate.2) := rfl

theorem reportFailure_bare (e : Endpoint) :
    r.bare.reportFailure e = ((r.reportFailure e).1.bare, (r.reportFailure e).2) := by
  have hfailures : r.bare.failures = r.failures := rfl
  have hcache : r.bare.cache = r.cache := rfl
  unfold reportFailure
  rw [hfailures, hcache]
  dsimp only
  split
  · rfl
  · split <;> rfl

end Resolver

/-! ## The store -/

namespace Resume.Store

variable (s : Store) (key : String)

theorem find?_bare : s.bare.find? key = (s.find? key).map Record.bare := by
  simp only [find?, bare, List.find?_map, Option.map_map]
  rfl

theorem erase_bare : s.bare.erase key = (s.erase key).bare := by
  simp only [erase, bare, List.filter_map]
  rfl

theorem insert_bare (r : Record) : s.bare.insert key r.bare = (s.insert key r).bare := by
  rw [insert, erase_bare, insert, bare, bare, List.map_append]
  rfl

end Resume.Store

/-! ## What sessions share -/

namespace Session

namespace Handle

variable (h : Handle)

theorem cancel_bare : h.bare.cancel = (h.cancel.1.bare, h.cancel.2) := by
  have hcancelled : h.bare.cancelled = h.cancelled := rfl
  unfold cancel
  rw [hcancelled]
  split <;> rfl

theorem advance_bare (next : State) :
    h.bare.advance next = ((h.advance next).1.bare, (h.advance next).2) := by
  have hstate : h.bare.state = h.state := rfl
  unfold advance
  rw [hstate]
  split <;> rfl

end Handle

namespace World

variable (w : World)

theorem handle?_bare (i : Nat) : w.bare.handles[i]? = w.handles[i]?.map Handle.bare :=
  List.getElem?_map

theorem isCancelled_bare (i : Nat) : w.bare.isCancelled i = w.isCancelled i := by
  unfold isCancelled
  rw [handle?_bare]
  cases w.handles[i]? <;> rfl

theorem withHandle_bare (i : Nat) {change : Handle → Handle × List LogLine}
    (hchange : ∀ h : Handle, change h.bare = ((change h).1.bare, (change h).2)) :
    w.bare.withHandle i change = ((w.withHandle i change).1.bare, (w.withHandle i change).2) := by
  unfold withHandle
  rw [handle?_bare]
  cases w.handles[i]? with
  | none => rfl
  | some h =>
    simp only [Option.map_some, hchange, bare, List.map_set]

theorem cancel_bare (i : Nat) : w.bare.cancel i = ((w.cancel i).1.bare, (w.cancel i).2) :=
  w.withHandle_bare i Handle.cancel_bare

theorem cancelAll_bare (is : List Nat) :
    w.bare.cancelAll is = ((w.cancelAll is).1.bare, (w.cancelAll is).2) := by
  induction is generalizing w with
  | nil => rfl
  | cons i rest ih => simp only [cancelAll, cancel_bare, ih]

theorem advance_bare (i : Nat) (next : State) :
    w.bare.advance i next = ((w.advance i next).1.bare, (w.advance i next).2) :=
  w.withHandle_bare i fun h => h.advance_bare next

theorem withResolver_bare (i : Nat) {change : Resolver → Resolver × List LogLine}
    (hchange : ∀ r : Resolver, change r.bare = ((change r).1.bare, (change r).2)) :
    w.bare.withResolver i change
      = ((w.withResolver i change).1.bare, (w.withResolver i change).2) := by
  have hresolver : w.bare.resolvers[i]? = w.resolvers[i]?.map Resolver.bare := List.getElem?_map
  unfold withResolver
  rw [hresolver]
  cases w.resolvers[i]? with
  | none => rfl
  | some r => simp only [Option.map_some, hchange, setResolver, bare, List.map_set]

theorem reportSuccess_bare (i : Nat) :
    w.bare.withResolver i (fun r => (r.reportSuccess, []))
      = ((w.withResolver i fun r => (r.reportSuccess, [])).1.bare,
        (w.withResolver i fun r => (r.reportSuccess, [])).2) :=
  w.withResolver_bare i fun _ => rfl

theorem reportFailure_bare (i : Nat) (e : Endpoint) :
    w.bare.withResolver i (fun r => r.reportFailure e)
      = ((w.withResolver i fun r => r.reportFailure e).1.bare,
        (w.withResolver i fun r => r.reportFailure e).2) :=
  w.withResolver_bare i fun r => r.reportFailure_bare e

/-- What a caller has after a step, without its secrets. -/
def Resolved.bare (r : Resolved) : Resolved := ⟨r.world.bare, r.resolution, r.notes.map Note.bare⟩

theorem ask_bare (i : Nat) (token : String) (c : Caller) :
    w.bare.ask i (bareToken token) c = (w.ask i token c).bare := by
  have hresolver : w.bare.resolvers[i]? = w.resolvers[i]?.map Resolver.bare := List.getElem?_map
  unfold ask
  rw [hresolver]
  cases w.resolvers[i]? with
  | none => rfl
  | some r =>
    simp only [Option.map_some, Resolver.ask_bare, Asked.bare, Resolved.bare, setResolver, bare,
      List.map_set, List.map_append, Note.map_bare_lines]
    cases (r.ask token c).located <;> rfl

theorem endLookup_bare (i lookup : Nat) (reply : LookupReply) :
    w.bare.endLookup i lookup reply
      = ((w.endLookup i lookup reply).1.bare, (w.endLookup i lookup reply).2) := by
  cases reply with
  | outcome o => exact w.withResolver_bare i fun r => r.conclude_bare lookup o
  | crash text =>
    simp only [endLookup]
    refine w.withResolver_bare i fun r => ?_
    rw [Resolver.poison_bare]

end World

end Session

end ResumableUpload
