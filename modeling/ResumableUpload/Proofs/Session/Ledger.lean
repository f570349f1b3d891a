import ResumableUpload.Proofs.Session.Once

/-!
# The store as the journal tells it

While the store does not go through a file it is what the events of the journal make of it
(`History.store_after`). Under one key the last event that names the key decides: after a record was
taken or dropped there is none, after one was saved there is that one (`find?_foldl`).
-/

namespace ResumableUpload

namespace Resume.Store

variable {store : Store} {key other : String} {r : Record}

theorem find?_erase_ne (h : key ≠ other) : (store.erase key).find? other = store.find? other := by
  have hsame : (fun e : String × Record => decide ((e.1 != key) = true ∧ (e.1 == other) = true))
      = fun e => e.1 == other := by
    funext e
    by_cases he : e.1 = other
    · subst he
      simp [Ne.symm h]
    · simp [he]
  rw [erase, find?, find?, List.find?_filter, hsame]

theorem find?_insert_self : (store.insert key r).find? key = some r := by
  have hnone : (store.erase key).entries.find? (·.1 == key) = none := by
    have hfind := find?_erase_self store key
    rwa [find?, Option.map_eq_none_iff] at hfind
  rw [insert, find?, List.find?_append, hnone]
  simp

theorem find?_insert_ne (h : key ≠ other) :
    (store.insert key r).find? other = store.find? other := by
  have hrest : (store.erase key).find? other = store.find? other := find?_erase_ne h
  rw [← hrest, insert, find?, find?, List.find?_append]
  simp [h]

end Resume.Store

namespace Session

/-! ## One key -/

/-- What an event makes of the record under a key. -/
def Event.onRecord (key : String) (kept : Option Resume.Record) : Event → Option Resume.Record
  | .claimed k _ | .dropped k => if k = key then none else kept
  | .saved k r => if k = key then some r else kept
  | _ => kept

variable {key : String}

theorem find?_onStore (key : String) (store : Resume.Store) (x : Event) :
    (x.onStore store).find? key = x.onRecord key (store.find? key) := by
  cases x with
  | claimed k taken =>
    by_cases hk : k = key
    · subst hk
      rw [Event.onStore, Event.onRecord, if_pos rfl, Resume.Store.find?_erase_self]
    · rw [Event.onStore, Event.onRecord, if_neg hk, Resume.Store.find?_erase_ne hk]
  | dropped k =>
    by_cases hk : k = key
    · subst hk
      rw [Event.onStore, Event.onRecord, if_pos rfl, Resume.Store.find?_erase_self]
    · rw [Event.onStore, Event.onRecord, if_neg hk, Resume.Store.find?_erase_ne hk]
  | saved k r =>
    by_cases hk : k = key
    · subst hk
      rw [Event.onStore, Event.onRecord, if_pos rfl, Resume.Store.find?_insert_self]
    · rw [Event.onStore, Event.onRecord, if_neg hk, Resume.Store.find?_insert_ne hk]
  | _ => rfl

/-- Under a key the store is what the events make of the record there. -/
theorem find?_foldl (key : String) (evs : List Event) (store : Resume.Store) :
    (evs.foldl Event.onStore store).find? key
      = evs.foldl (Event.onRecord key) (store.find? key) := by
  induction evs generalizing store with
  | nil => rfl
  | cons x rest ih =>
    rw [List.foldl_cons, List.foldl_cons, ih, find?_onStore]

/-- Nothing is kept under a key once its record was taken and none was saved. -/
theorem foldl_onRecord_claimed {evs : List Event} {taken kept : Option Resume.Record}
    (hclaimed : .claimed key taken ∈ evs) (hsaved : ∀ r, .saved key r ∉ evs) :
    evs.foldl (Event.onRecord key) kept = none := by
  -- the record is gone from some event on, and no later event brings one back
  have hnone : ∀ (evs : List Event), (∀ r, .saved key r ∉ evs) →
      evs.foldl (Event.onRecord key) none = none := by
    intro evs hno
    induction evs with
    | nil => rfl
    | cons x rest ih =>
      have hrest : ∀ r, .saved key r ∉ rest := fun r hr => hno r (List.mem_cons_of_mem x hr)
      have hx : x.onRecord key none = none := by
        cases x with
        | saved k r =>
          have hk : k ≠ key := fun hk => hno r (hk ▸ List.mem_cons_self)
          rw [Event.onRecord, if_neg hk]
        | claimed k taken => exact ite_self none
        | dropped k => exact ite_self none
        | _ => rfl
      rw [List.foldl_cons, hx]
      exact ih hrest
  induction evs generalizing kept with
  | nil => cases hclaimed
  | cons x rest ih =>
    have hrest : ∀ r, .saved key r ∉ rest := fun r hr => hsaved r (List.mem_cons_of_mem x hr)
    rw [List.foldl_cons]
    rcases List.mem_cons.mp hclaimed with hx | hin
    · rw [← hx, Event.onRecord, if_pos rfl]
      exact hnone rest hrest
    · exact ih hin hrest

/-- What was saved last is kept. -/
theorem foldl_onRecord_saved (evs : List Event) (r : Resume.Record) (kept : Option Resume.Record) :
    (evs ++ [Event.saved key r]).foldl (Event.onRecord key) kept = some r := by
  rw [List.foldl_append]
  exact if_pos rfl

/-- The record under a key is left alone by all but the entries that use the store. -/
theorem foldl_onRecord_of (key : String) (k : Nat) (entries : List Entry)
    (kept : Option Resume.Record)
    (hothers : ∀ x ∈ entries, x.run ≠ k → x.event.usesStore = false) :
    (entries.map Entry.event).foldl (Event.onRecord key) kept
      = (entries.filterMap fun x => if x.run = k then some x.event else none).foldl
          (Event.onRecord key) kept := by
  induction entries generalizing kept with
  | nil => rfl
  | cons x rest ih =>
    have hrest := ih (x.event.onRecord key kept) fun y hy => hothers y (List.mem_cons_of_mem x hy)
    rw [List.map_cons, List.foldl_cons, hrest]
    by_cases hk : x.run = k
    · rw [List.filterMap_cons, if_pos hk]
      rfl
    · have hidle : x.event.onRecord key kept = kept := by
        have huses := hothers x List.mem_cons_self hk
        cases hx : x.event with
        | claimed k taken =>
          rw [hx] at huses
          cases huses
        | saved k r =>
          rw [hx] at huses
          cases huses
        | dropped k =>
          rw [hx] at huses
          cases huses
        | _ => rfl
      rw [List.filterMap_cons, if_neg hk, hidle]

/-! ## All keys -/

namespace History

variable {h : History}

theorem store_next_signal (h : History) (t : Task) (sig : Signal) :
    (h.next (.signal t sig)).engine.world.store
      = (h.engine.events t sig).foldl Event.onStore h.engine.world.store := by
  rcases h.engine.signal_cases t sig with ⟨hsame, hnone⟩ | ⟨r, s, hr, hs⟩
  · have heng : (h.next (.signal t sig)).engine = h.engine := hsame
    rw [heng, hnone]
    rfl
  · have heng : (h.next (.signal t sig)).engine = _ := Engine.signal_eq sig hr hs
    rw [heng, Engine.events_eq sig hr hs]
    dsimp only
    rw [s.store_turn, World.store_cancelAll]

theorem store_next_other (h : History) {a : Action} (ha : ∀ t sig, a ≠ .signal t sig)
    (hreload : ∀ path, a ≠ .reload path) :
    (h.next a).engine.world.store = h.engine.world.store := by
  cases a with
  | signal t sig => exact absurd rfl (ha t sig)
  | reload path => exact absurd rfl (hreload path)
  | addSharingUploader settings other =>
    show (h.engine.addSharingUploader settings other).1.world.store = _
    unfold Engine.addSharingUploader
    split <;> rfl
  | cancel handle => exact World.store_cancel _ _
  | invalidate resolver => exact (World.same_withResolver _ _ _).store
  | age resolver nanos => exact (World.same_withResolver _ _ _).store
  | _ => rfl

/-- One action makes of the store what its entries in the journal say. -/
theorem store_next (h : History) {a : Action} (hreload : ∀ path, a ≠ .reload path) :
    (h.next a).engine.world.store
      = ((h.entries a).map Entry.event).foldl Event.onStore h.engine.world.store := by
  by_cases ha : ∃ t sig, a = .signal t sig
  · obtain ⟨t, sig, rfl⟩ := ha
    rw [store_next_signal, entries, List.map_map]
    exact congrArg (List.foldl Event.onStore _) (List.map_id _).symm
  · have hother : ∀ t sig, a ≠ .signal t sig := fun t sig heq => ha ⟨t, sig, heq⟩
    have hnil : h.entries a = [] := by
      cases a with
      | signal t sig => exact absurd rfl (hother t sig)
      | _ => rfl
    rw [store_next_other h hother hreload, hnil]
    rfl

/-- While the store does not go through a file, it is what the journal makes of it. -/
theorem store_after (h : History) (as : List Action) (hreload : ∀ path, .reload path ∉ as) :
    ∃ entries, (h.after as).journal = h.journal ++ entries ∧
      (h.after as).engine.world.store
        = (entries.map Entry.event).foldl Event.onStore h.engine.world.store := by
  induction as generalizing h with
  | nil => exact ⟨[], (List.append_nil _).symm, rfl⟩
  | cons a rest ih =>
    obtain ⟨more, hjournal, hstore⟩ :=
      ih (h.next a) fun path hmem => hreload path (List.mem_cons_of_mem a hmem)
    refine ⟨h.entries a ++ more, ?_, ?_⟩
    · show ((h.next a).after rest).journal = _
      rw [hjournal, next, List.append_assoc]
    · show ((h.next a).after rest).engine.world.store = _
      have hone := store_next h (a := a) fun path heq => hreload path (heq ▸ List.mem_cons_self)
      rw [hstore, hone, List.map_append, List.foldl_append]

end History

end Session

end ResumableUpload
