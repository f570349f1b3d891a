import ResumableUpload.Proofs.Files.Writing
import ResumableUpload.Proofs.Json.RoundTrip
import ResumableUpload.Resume

/-!
# Saved records

A record that is read from the JSON of a record is that record (`Record.eq_of_ofJson?`), and a store
that is loaded from the file it was saved to has no records but the saved ones
(`Store.mem_of_load`).
-/

namespace ResumableUpload

namespace Json

variable {α β : Type}

theorem plain_record {fields : List (String × Json)} (h : ∀ x ∈ fields, Plain x.2) :
    Plain (record fields) := by
  refine .object (fun x hx => ?_) fun x hx => ?_
  · obtain ⟨y, -, rfl⟩ := List.mem_map.mp hx
    rfl
  · obtain ⟨y, hy, rfl⟩ := List.mem_map.mp hx
    exact h y hy

theorem plain_texts (items : List String) : Plain (texts items) := by
  apply Plain.array
  intro v hv
  obtain ⟨s, -, rfl⟩ := List.mem_map.mp hv
  exact .text s

theorem plain_nats (items : List Nat) : Plain (nats items) := by
  apply Plain.array
  intro v hv
  obtain ⟨n, -, rfl⟩ := List.mem_map.mp hv
  exact .int n

theorem eq_of_natOfBits? {bits n m : Nat} (h : natOfBits? bits (nat n) = some m) : m = n := by
  simp only [natOfBits?, nat, intWithin?, Option.map_eq_some_iff] at h
  obtain ⟨i, hi, rfl⟩ := h
  split at hi
  · rw [← Option.some.inj hi]
    rfl
  · cases hi

theorem eq_of_intOfBits? {bits : Nat} {n m : Int} (h : intOfBits? bits (int n) = some m) :
    m = n := by
  simp only [intOfBits?, intWithin?] at h
  split at h
  · exact (Option.some.inj h).symm
  · cases h

/-- A list is read as it was written if its items are. -/
theorem eq_of_mapM (write : α → β) {read? : β → Option α}
    (hitem : ∀ a b, read? (write a) = some b → b = a) {items more : List α}
    (h : (items.map write).mapM read? = some more) : more = items := by
  induction items generalizing more with
  | nil => exact (Option.some.inj h).symm
  | cons a rest ih =>
    rw [List.map_cons, List.mapM_cons] at h
    simp only [Option.bind_eq_bind, Option.bind_eq_some_iff, Option.pure_def,
      Option.some.injEq] at h
    obtain ⟨b, hb, bs, hbs, rfl⟩ := h
    rw [hitem a b hb, ih hbs]

theorem eq_of_nats {bits : Nat} {items more : List Nat}
    (h : list? (natOfBits? bits) (nats items) = some more) : more = items :=
  eq_of_mapM nat (fun _ _ => eq_of_natOfBits?) h

theorem eq_of_texts {items more : List String} (h : list? text? (texts items) = some more) :
    more = items :=
  eq_of_mapM text (fun _ _ h => (Option.some.inj h).symm) h

end Json

namespace Resume

/-- A key names a file and its place on the server, all digests being of one length. -/
theorem key_inj {path path' md5 md5' : String} (hlength : md5.length = md5'.length)
    (h : key path md5 = key path' md5') : path = path' ∧ md5 = md5' := by
  have hchars : (key path md5).toList = (key path' md5').toList := by rw [h]
  rw [key, key, String.toList_append, String.toList_append, String.toList_append,
    String.toList_append, List.append_assoc, List.append_assoc] at hchars
  have hsplit := List.append_inj hchars (by rwa [String.length_toList, String.length_toList])
  exact ⟨String.toList_inj.mp (List.append_cancel_left hsplit.2), String.toList_inj.mp hsplit.1⟩

/-- A key names its place on the server. -/
theorem path_of_key {path path' md5 md5' : String} (hlength : md5.length = md5'.length)
    (h : key path md5 = key path' md5') : path = path' :=
  (key_inj hlength h).1

namespace Record

theorem plain_toJson (r : Record) : r.toJson.Plain := by
  apply Json.plain_record
  intro x hx
  simp only [List.mem_cons, List.not_mem_nil, or_false] at hx
  rcases hx with rfl | rfl | rfl | rfl | rfl | rfl
  · exact .text _
  · exact .int _
  · exact .int _
  · exact Json.plain_nats _
  · exact Json.plain_texts _
  · exact .int _

/-- The fields that the JSON of a record gives. -/
theorem fields?_toJson (r : Record) :
    Json.fields? fieldNames r.toJson = some ⟨[("upload_id", .text r.uploadId),
      ("part_size", .nat r.partSize), ("total_size", .nat r.totalSize),
      ("pending", .nats r.pending), ("block_list", .texts r.blockList),
      ("saved_at", .int r.savedAt)]⟩ := by
  rfl

theorem eq_of_ofJson? {r r' : Record} (h : ofJson? r.toJson = some r') : r' = r := by
  simp only [ofJson?, fields?_toJson, Option.bind_eq_bind, Option.bind_some,
    Option.bind_eq_some_iff, Option.pure_def, Option.some.injEq] at h
  obtain ⟨id, hid, part, hpart, total, htotal, pending, hpending, blocks, hblocks, saved, hsaved,
    rfl⟩ := h
  have hid' : id = r.uploadId := (Option.some.inj hid).symm
  have hpart' : part = r.partSize := Json.eq_of_natOfBits? hpart
  have htotal' : total = r.totalSize := Json.eq_of_natOfBits? htotal
  have hpending' : pending = r.pending := Json.eq_of_nats hpending
  have hblocks' : blocks = r.blockList := Json.eq_of_texts hblocks
  have hsaved' : saved = r.savedAt := Json.eq_of_intOfBits? hsaved
  rw [hid', hpart', htotal', hpending', hblocks', hsaved']

end Record

namespace Store

theorem plain_toJson (s : Store) : s.toJson.Plain := by
  apply Json.plain_record
  intro x hx
  obtain ⟨e, -, rfl⟩ := List.mem_map.mp hx
  exact e.2.plain_toJson

/-- Of the entries of a map, those that count are some of them. -/
theorem mem_of_mem_latest {entries acc : List (String × Record)} {e : String × Record}
    (h : e ∈ entries.foldl (fun acc e => acc.filter (·.1 != e.1) ++ [e]) acc) :
    e ∈ acc ∨ e ∈ entries := by
  induction entries generalizing acc with
  | nil => exact .inl h
  | cons x rest ih =>
    rcases ih h with hacc | hrest
    · rcases List.mem_append.mp hacc with hacc | hx
      · exact .inl ((List.mem_filter.mp hacc).1)
      · rw [List.mem_singleton.mp hx]
        exact .inr List.mem_cons_self
    · exact .inr (List.mem_cons_of_mem x hrest)

theorem mem_of_ofJson? {s s' : Store} (h : ofJson? s.toJson = some s') {e : String × Record}
    (he : e ∈ s'.entries) : e ∈ s.entries := by
  rw [ofJson?, toJson, Json.record, List.map_map] at h
  simp only [Json.map?, Option.map_eq_some_iff, Option.bind_eq_bind, Option.bind_eq_some_iff,
    Option.pure_def, Option.some.injEq] at h
  obtain ⟨_, ⟨entries, hentries, rfl⟩, rfl⟩ := h
  have hsame : entries = s.entries := by
    refine Json.eq_of_mapM _ (fun a b hb => ?_) hentries
    simp only [Function.comp_apply, Option.bind_some, Option.bind_eq_some_iff,
      Option.some.injEq] at hb
    obtain ⟨r, hr, rfl⟩ := hb
    rw [Record.eq_of_ofJson? hr]
  rcases mem_of_mem_latest he with hnil | hmem
  · cases hnil
  · exact hsame ▸ hmem

/-- What was saved is in the file. -/
theorem written_of_save {s : Store} {files files' : Files} {path : String}
    (h : s.save files path = (files', none)) :
    files'.contains path = true ∧ files'.readText path = .ok s.toJson.pretty := by
  unfold save at h
  split at h
  · cases h
  · split at h
    · cases h
    · next hwrite =>
      injection h with hfiles _
      exact ⟨hfiles ▸ Files.contains_write hwrite, hfiles ▸ Files.readText_write hwrite⟩

/-- A store that is loaded from the file it was saved to has no records but the saved ones. -/
theorem mem_of_load {s s' : Store} {files files' : Files} {path : String} {lines : List LogLine}
    (hsave : s.save files path = (files', none)) (hload : load files' path = .ok (s', lines))
    {e : String × Record} (he : e ∈ s'.entries) : e ∈ s.entries := by
  obtain ⟨hthere, hwritten⟩ := written_of_save hsave
  unfold load at hload
  rw [if_pos hthere] at hload
  simp only [hwritten, Json.read?_pretty s.plain_toJson, Option.bind_some] at hload
  split at hload
  · cases hload
  · next hread =>
    injection hload with hload
    injection hload with hstore _
    exact mem_of_ofJson? (hstore ▸ hread) he

end Store

end Resume

end ResumableUpload
