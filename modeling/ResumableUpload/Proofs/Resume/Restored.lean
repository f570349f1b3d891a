import Mathlib.Algebra.Group.Int.Defs
import Mathlib.Algebra.Group.Nat.Defs
import Mathlib.Data.List.Nodup
import ResumableUpload.Plan.Json
import ResumableUpload.Proofs.Resume.Saved

/-!
# What was saved is restored

A record whose numbers fit their words is read back from its JSON (`Record.ofJson?_toJson`), and so
is a plan (`Plan.ofJson?_toJson`). A store has one record under each key, so its JSON gives its
entries back in the order in which they were written, and a store that is saved and loaded has the
same record under every key (`Store.load_save`). Whatever is loaded is such a store
(`Store.tidy_of_load`).
-/

namespace ResumableUpload

namespace Json

theorem natOfBits?_nat {bits n : Nat} (h : n < 2 ^ bits) : natOfBits? bits (nat n) = some n := by
  have hlow : (0 : Int) ≤ n := Int.natCast_nonneg n
  have hhigh : (n : Int) ≤ ((1 <<< bits : Nat) : Int) - 1 := by
    rw [Nat.one_shiftLeft]
    omega
  simp only [natOfBits?, nat, intWithin?, if_pos (And.intro hlow hhigh), Option.map_some]
  rfl

theorem intOfBits?_int {n : Int} (hlow : -(2 ^ 63 : Int) ≤ n) (hhigh : n < 2 ^ 63) :
    intOfBits? 64 (int n) = some n := by
  have hbounds : -((1 <<< (64 - 1) : Nat) : Int) ≤ n ∧ n ≤ ((1 <<< (64 - 1) : Nat) : Int) - 1 := by
    have hpow : ((1 <<< (64 - 1) : Nat) : Int) = 2 ^ 63 := by decide
    rw [hpow]
    omega
  exact if_pos hbounds

theorem natOfBits?_lt {bits n : Nat} {v : Json} (h : natOfBits? bits v = some n) : n < 2 ^ bits := by
  obtain ⟨i, hi, rfl⟩ := Option.map_eq_some_iff.mp h
  unfold intWithin? at hi
  split at hi
  · split at hi
    · next hbounds =>
      cases hi
      rw [Nat.one_shiftLeft] at hbounds
      omega
    · cases hi
  · cases hi

theorem intOfBits?_bounds {n : Int} {v : Json} (h : intOfBits? 64 v = some n) :
    -(2 ^ 63 : Int) ≤ n ∧ n < 2 ^ 63 := by
  have hpow : ((1 <<< (64 - 1) : Nat) : Int) = 2 ^ 63 := by decide
  unfold intOfBits? intWithin? at h
  split at h
  · split at h
    · next hbounds =>
      cases h
      rw [hpow] at hbounds
      omega
    · cases h
  · cases h

variable {α β : Type}

/-- What is read of every item holds of all that is read. -/
theorem forall_of_mapM {P : α → Prop} {read? : β → Option α}
    (h : ∀ v a, read? v = some a → P a) {items : List β} {more : List α}
    (hmore : items.mapM read? = some more) : ∀ a ∈ more, P a := by
  induction items generalizing more with
  | nil =>
    cases hmore
    exact fun _ ha => absurd ha List.not_mem_nil
  | cons v rest ih =>
    rw [List.mapM_cons] at hmore
    obtain ⟨a, ha, hmore⟩ := Option.bind_eq_some_iff.mp hmore
    obtain ⟨others, hothers, hmore⟩ := Option.bind_eq_some_iff.mp hmore
    cases hmore
    intro b hb
    rcases List.mem_cons.mp hb with rfl | hb
    · exact h v b ha
    · exact ih hothers b hb

theorem forall_of_list? {P : α → Prop} {read? : Json → Option α}
    (h : ∀ v a, read? v = some a → P a) {v : Json} {items : List α}
    (hitems : list? read? v = some items) : ∀ a ∈ items, P a := by
  unfold list? at hitems
  split at hitems
  · exact forall_of_mapM h hitems
  · cases hitems

/-- A list is read back if its items are. -/
theorem mapM_map {write : α → β} {read? : β → Option α} {items : List α}
    (h : ∀ a ∈ items, read? (write a) = some a) : (items.map write).mapM read? = some items := by
  induction items with
  | nil => rfl
  | cons a rest ih =>
    rw [List.map_cons, List.mapM_cons, h a List.mem_cons_self,
      ih fun b hb => h b (List.mem_cons_of_mem a hb)]
    rfl

theorem list?_nats {bits : Nat} {items : List Nat} (h : ∀ n ∈ items, n < 2 ^ bits) :
    list? (natOfBits? bits) (nats items) = some items :=
  mapM_map fun n hn => natOfBits?_nat (h n hn)

theorem list?_texts (items : List String) : list? text? (texts items) = some items :=
  mapM_map fun _ _ => rfl

/-- The entries of a map are read back; of those with one key the last one counts. -/
theorem map?_record {write : α → Json} {read? : Json → Option α} {entries : List (String × α)}
    (h : ∀ e ∈ entries, read? (write e.2) = some e.2) :
    map? read? (record (entries.map fun (key, a) => (key, write a)))
      = some (entries.foldl (fun acc e => acc.filter (·.1 != e.1) ++ [e]) []) := by
  simp only [map?, record, List.map_map]
  rw [mapM_map]
  · rfl
  · intro e he
    simp [h e he]

end Json

namespace Resume

namespace Record

/-- The numbers of a record fit their words. -/
structure Fits (r : Record) : Prop where
  partSize : r.partSize < 2 ^ 64
  totalSize : r.totalSize < 2 ^ 64
  pending : ∀ n ∈ r.pending, n < 2 ^ 64
  savedAt : -(2 ^ 63 : Int) ≤ r.savedAt ∧ r.savedAt < 2 ^ 63

theorem ofJson?_toJson {r : Record} (h : r.Fits) : ofJson? r.toJson = some r := by
  have hpart : Json.natOfBits? 64 (.nat r.partSize) = some r.partSize :=
    Json.natOfBits?_nat h.partSize
  have htotal : Json.natOfBits? 64 (.nat r.totalSize) = some r.totalSize :=
    Json.natOfBits?_nat h.totalSize
  have hpending : Json.list? (Json.natOfBits? 64) (.nats r.pending) = some r.pending :=
    Json.list?_nats h.pending
  have hsaved : Json.intOfBits? 64 (.int r.savedAt) = some r.savedAt :=
    Json.intOfBits?_int h.savedAt.1 h.savedAt.2
  simp [ofJson?, fields?_toJson, Fields.required, Fields.find?, Json.text?, Json.list?_texts, hpart,
    htotal, hpending, hsaved]

theorem fits_of_ofJson? {v : Json} {r : Record} (h : ofJson? v = some r) : r.Fits := by
  have hread : ∀ {α : Type} {name : String} {read? : Json → Option α} {fields : Fields Json} {a : α},
      fields.required name read? = some a → ∃ v, read? v = some a := by
    intro α name read? fields a h
    obtain ⟨v, -, hv⟩ := Option.bind_eq_some_iff.mp h
    exact ⟨v, hv⟩
  simp only [ofJson?, Option.bind_eq_bind, Option.bind_eq_some_iff, Option.pure_def,
    Option.some.injEq] at h
  obtain ⟨_, -, id, -, part, hpart, total, htotal, pending, hpending, blocks, -, saved, hsaved,
    rfl⟩ := h
  obtain ⟨_, hpart⟩ := hread hpart
  obtain ⟨_, htotal⟩ := hread htotal
  obtain ⟨_, hpending⟩ := hread hpending
  obtain ⟨_, hsaved⟩ := hread hsaved
  exact ⟨Json.natOfBits?_lt hpart, Json.natOfBits?_lt htotal,
    Json.forall_of_list? (fun _ _ h => Json.natOfBits?_lt h) hpending, Json.intOfBits?_bounds hsaved⟩

end Record

namespace Store

/-- No two entries have one key. -/
def Distinct (s : Store) : Prop := (s.entries.map Prod.fst).Nodup

instance (s : Store) : Decidable s.Distinct :=
  inferInstanceAs (Decidable (s.entries.map Prod.fst).Nodup)

/-- A store that a text can give, and whose own text gives it back. -/
structure Tidy (s : Store) : Prop where
  distinct : s.Distinct
  fits : ∀ e ∈ s.entries, e.2.Fits

variable {s s' : Store} {key : String} {r : Record}

theorem find?_eq_some_iff (h : s.Distinct) : s.find? key = some r ↔ (key, r) ∈ s.entries := by
  obtain ⟨entries⟩ := s
  induction entries with
  | nil => simp [find?]
  | cons e rest ih =>
    obtain ⟨hnot, hrest⟩ := List.nodup_cons.mp h
    by_cases he : e.1 = key
    · subst he
      have hnone : (e.1, r) ∉ rest := fun hmem => hnot (List.mem_map.mpr ⟨_, hmem, rfl⟩)
      simp [find?, hnone, Prod.ext_iff, eq_comm]
    · have hne : (key, r) ≠ e := fun heq => he (by rw [← heq])
      have hfind : (Store.mk (e :: rest)).find? key = (Store.mk rest).find? key := by
        simp [find?, he]
      rw [hfind, ih hrest, List.mem_cons, or_iff_right hne]

/-- The order of the entries does not matter. -/
theorem find?_of_perm (h : s.Distinct) (hperm : s'.entries.Perm s.entries) :
    s'.find? key = s.find? key := by
  have h' : s'.Distinct := (hperm.map Prod.fst).nodup_iff.mpr h
  refine Option.ext fun r => ?_
  rw [find?_eq_some_iff h', find?_eq_some_iff h, hperm.mem_iff]

/-- Of entries with different keys all count. -/
theorem latest_of_distinct (acc : List (String × Record)) {entries : List (String × Record)}
    (h : ((acc ++ entries).map Prod.fst).Nodup) :
    entries.foldl (fun acc e => acc.filter (·.1 != e.1) ++ [e]) acc = acc ++ entries := by
  induction entries generalizing acc with
  | nil => exact (List.append_nil acc).symm
  | cons e rest ih =>
    have hkeep : acc.filter (·.1 != e.1) = acc := by
      refine List.filter_eq_self.mpr fun x hx => bne_iff_ne.mpr fun heq => ?_
      rw [List.map_append] at h
      exact (List.nodup_append.mp h).2.2 x.1 (List.mem_map_of_mem hx) e.1
        (List.mem_map_of_mem List.mem_cons_self) heq
    have hsplit : acc ++ e :: rest = acc ++ [e] ++ rest := by simp
    rw [List.foldl_cons, hkeep, ih (acc ++ [e]) (hsplit ▸ h), hsplit]

theorem ofJson?_toJson (h : s.Tidy) : ofJson? s.toJson = some s := by
  rw [ofJson?, toJson, Json.map?_record fun e he => Record.ofJson?_toJson (h.fits e he),
    latest_of_distinct [] h.distinct]
  rfl

theorem load_of_readText {files : Files} {path : String} (h : s.Tidy)
    (hthere : files.contains path = true) (htext : files.readText path = .ok s.toJson.pretty) :
    load files path = .ok (s, [s.loadNotice path]) := by
  simp only [load, hthere, if_true, htext, Json.read?_pretty s.plain_toJson, Option.bind_some,
    ofJson?_toJson h]

/-- A store that was saved is loaded, with its entries in the order in which they were written. -/
theorem load_save {files files' : Files} {path : String} (h : s.Tidy)
    (hsave : s.save files path = (files', none)) :
    ∃ lines, load files' path = .ok (s, lines) := by
  obtain ⟨hthere, htext⟩ := written_of_save hsave
  exact ⟨_, load_of_readText h hthere htext⟩

theorem tidy_empty : Tidy {} := ⟨List.nodup_nil, fun _ he => absurd he List.not_mem_nil⟩

theorem Tidy.erase (h : s.Tidy) (key : String) : (s.erase key).Tidy where
  distinct := h.distinct.sublist (List.filter_sublist.map Prod.fst)
  fits e he := h.fits e (List.mem_filter.mp he).1

theorem distinct_insert {entries : List (String × Record)} (h : (entries.map Prod.fst).Nodup)
    (e : String × Record) : ((entries.filter (·.1 != e.1) ++ [e]).map Prod.fst).Nodup := by
  rw [List.map_append, List.nodup_append]
  refine ⟨h.sublist (List.filter_sublist.map Prod.fst), List.nodup_singleton _, ?_⟩
  rintro key hkey other hother rfl
  obtain ⟨x, hx, rfl⟩ := List.mem_map.mp hkey
  have hne := (List.mem_filter.mp hx).2
  rw [List.map_singleton, List.mem_singleton] at hother
  exact bne_iff_ne.mp hne hother

theorem Tidy.insert (h : s.Tidy) (key : String) (hr : r.Fits) : (s.insert key r).Tidy where
  distinct := distinct_insert h.distinct (key, r)
  fits e he := by
    rcases List.mem_append.mp he with he | he
    · exact (h.erase key).fits e he
    · rw [List.mem_singleton.mp he]
      exact hr

theorem distinct_latest {entries acc : List (String × Record)} (h : (acc.map Prod.fst).Nodup) :
    ((entries.foldl (fun acc e => acc.filter (·.1 != e.1) ++ [e]) acc).map Prod.fst).Nodup := by
  induction entries generalizing acc with
  | nil => exact h
  | cons e rest ih => exact ih (distinct_insert h e)

theorem tidy_of_ofJson? {v : Json} (h : ofJson? v = some s) : s.Tidy := by
  obtain ⟨latest, hlatest, rfl⟩ := Option.map_eq_some_iff.mp h
  unfold Json.map? at hlatest
  split at hlatest
  · obtain ⟨entries, hentries, hlatest⟩ := Option.bind_eq_some_iff.mp hlatest
    cases hlatest
    have hfits : ∀ e ∈ entries, e.2.Fits := by
      refine Json.forall_of_mapM (fun x e he => ?_) hentries
      obtain ⟨key, -, he⟩ := Option.bind_eq_some_iff.mp he
      obtain ⟨r, hr, he⟩ := Option.bind_eq_some_iff.mp he
      cases he
      exact Record.fits_of_ofJson? hr
    refine ⟨distinct_latest List.nodup_nil, fun e he => ?_⟩
    rcases mem_of_mem_latest he with hnil | hmem
    · cases hnil
    · exact hfits e hmem
  · cases hlatest

/-- What is loaded from a file can be saved to one and loaded again. -/
theorem tidy_of_load {files : Files} {path : String} {lines : List LogLine}
    (h : load files path = .ok (s, lines)) : s.Tidy := by
  unfold load at h
  split at h
  · split at h
    · cases h
    · split at h
      · cases h
      · next store hread =>
        cases h
        obtain ⟨v, -, hv⟩ := Option.bind_eq_some_iff.mp hread
        exact tidy_of_ofJson? hv
  · cases h
    exact tidy_empty

end Store

end Resume

/-! ## Plans -/

namespace Chunk

/-- The numbers of a part fit their words. -/
structure Fits (c : Chunk) : Prop where
  index : c.index < 2 ^ 64
  offset : c.offset < 2 ^ 64
  size : c.size < 2 ^ 64

theorem plain_toJson (c : Chunk) : c.toJson.Plain := by
  apply Json.plain_record
  intro x hx
  simp only [List.mem_cons, List.not_mem_nil, or_false] at hx
  rcases hx with rfl | rfl | rfl | rfl
  · exact .int _
  · exact .int _
  · exact .int _
  · exact .bool _

theorem fields?_toJson (c : Chunk) :
    Json.fields? fieldNames c.toJson = some ⟨[("index", .nat c.index), ("offset", .nat c.offset),
      ("size", .nat c.size), ("uploaded", .bool c.uploaded)]⟩ := by
  rfl

theorem ofJson?_toJson {c : Chunk} (h : c.Fits) : ofJson? c.toJson = some c := by
  have hindex : Json.natOfBits? 64 (.nat c.index) = some c.index := Json.natOfBits?_nat h.index
  have hoffset : Json.natOfBits? 64 (.nat c.offset) = some c.offset := Json.natOfBits?_nat h.offset
  have hsize : Json.natOfBits? 64 (.nat c.size) = some c.size := Json.natOfBits?_nat h.size
  simp [ofJson?, fields?_toJson, Fields.required, Fields.find?, Json.bool?, hindex, hoffset, hsize]

end Chunk

namespace Plan

/-- The numbers of a plan fit their words. -/
structure Fits (p : Plan) : Prop where
  totalSize : p.totalSize < 2 ^ 64
  partSize : p.partSize < 2 ^ 64
  chunks : ∀ c ∈ p.chunks, c.Fits

theorem plain_toJson (p : Plan) : p.toJson.Plain := by
  apply Json.plain_record
  intro x hx
  simp only [List.mem_cons, List.not_mem_nil, or_false] at hx
  rcases hx with rfl | rfl | rfl
  · exact .int _
  · exact .int _
  · refine .array fun v hv => ?_
    obtain ⟨c, -, rfl⟩ := List.mem_map.mp hv
    exact c.plain_toJson

theorem fields?_toJson (p : Plan) :
    Json.fields? fieldNames p.toJson = some ⟨[("total_size", .nat p.totalSize),
      ("part_size", .nat p.partSize), ("chunks", .array (p.chunks.map Chunk.toJson))]⟩ := by
  rfl

theorem ofJson?_toJson {p : Plan} (h : p.Fits) : ofJson? p.toJson = some p := by
  have htotal : Json.natOfBits? 64 (.nat p.totalSize) = some p.totalSize :=
    Json.natOfBits?_nat h.totalSize
  have hpart : Json.natOfBits? 64 (.nat p.partSize) = some p.partSize :=
    Json.natOfBits?_nat h.partSize
  have hchunks : Json.list? Chunk.ofJson? (.array (p.chunks.map Chunk.toJson)) = some p.chunks :=
    Json.mapM_map fun c hc => Chunk.ofJson?_toJson (h.chunks c hc)
  simp [ofJson?, fields?_toJson, Fields.required, Fields.find?, htotal, hpart, hchunks]

end Plan

/-! ## Both -/

/-- A store that is saved, its entries in any order, is loaded with the same record under every key,
whatever was in the file before; and a plan is read back from either of its texts. -/
theorem restored :
    (∀ (s : Resume.Store) (order : List (String × Resume.Record)) (files files' : Files)
        (path : String),
      s.Distinct → (∀ e ∈ s.entries, e.2.Fits) → order.Perm s.entries →
      Resume.Store.save ⟨order⟩ files path = (files', none) →
      ∃ s' lines, Resume.Store.load files' path = .ok (s', lines) ∧ s'.entries.Perm s.entries ∧
        ∀ key, s'.find? key = s.find? key) ∧
    ∀ p : Plan, p.Fits → (Json.read? p.toJson.pretty).bind Plan.ofJson? = some p ∧
      (Json.read? p.toJson.compact).bind Plan.ofJson? = some p := by
  refine ⟨fun s order files files' path hs hfits hperm hsave => ?_, fun p hp => ⟨?_, ?_⟩⟩
  · have horder : (Resume.Store.mk order).Distinct := (hperm.map Prod.fst).nodup_iff.mpr hs
    obtain ⟨lines, hload⟩ :=
      Resume.Store.load_save ⟨horder, fun e he => hfits e (hperm.mem_iff.mp he)⟩ hsave
    exact ⟨_, lines, hload, hperm, fun key => Resume.Store.find?_of_perm hs hperm⟩
  · rw [Json.read?_pretty p.plain_toJson, Option.bind_some, Plan.ofJson?_toJson hp]
  · rw [Json.read?_compact p.plain_toJson, Option.bind_some, Plan.ofJson?_toJson hp]

namespace Resume.Sample

/-- A record with the least and the greatest numbers, and texts that need escapes. -/
def extreme : Record where
  uploadId := "\"\\\t\u0001😀"
  partSize := 0
  totalSize := 2 ^ 64 - 1
  pending := [2 ^ 64 - 1, 0]
  blockList := ["", "分片\n"]
  savedAt := -2 ^ 63

def store : Store := ⟨[("d\":/f", extreme), ("", { extreme with savedAt := 2 ^ 63 - 1 })]⟩

/-- A plan whose first part is on the server. -/
def plan : Plan := ⟨2 ^ 64 - 1, 2 ^ 63, [⟨0, 0, 2 ^ 63, true⟩, ⟨1, 2 ^ 63, 2 ^ 63 - 1, false⟩]⟩

theorem fits_store : ∀ e ∈ store.entries, e.2.Fits := by
  intro e he
  simp only [store, List.mem_cons, List.not_mem_nil, or_false] at he
  rcases he with rfl | rfl <;> exact ⟨by decide, by decide, by decide, by decide, by decide⟩

theorem fits_plan : plan.Fits :=
  ⟨by decide, by decide, fun c hc => by
    simp only [plan, List.mem_cons, List.not_mem_nil, or_false] at hc
    rcases hc with rfl | rfl <;> exact ⟨by decide, by decide, by decide⟩⟩

end Resume.Sample

/-- Two records, written in the other order, and a plan that is partly done. -/
theorem restored_extreme :
    (∃ s' lines, Resume.Store.load
        (Resume.Store.save ⟨Resume.Sample.store.entries.reverse⟩ {} "p.json").1 "p.json"
          = .ok (s', lines) ∧ s'.entries.Perm Resume.Sample.store.entries ∧
        ∀ key, s'.find? key = Resume.Sample.store.find? key) ∧
      (Json.read? Resume.Sample.plan.toJson.compact).bind Plan.ofJson?
        = some Resume.Sample.plan := by
  have hsaved : (Resume.Store.save ⟨Resume.Sample.store.entries.reverse⟩ {} "p.json").2 = none := by
    rfl
  exact ⟨restored.1 Resume.Sample.store _ {} _ "p.json" (by decide) Resume.Sample.fits_store
      (List.reverse_perm _) (Prod.ext rfl hsaved),
    (restored.2 Resume.Sample.plan Resume.Sample.fits_plan).2⟩

end ResumableUpload
