import Mathlib.Algebra.Group.Nat.Defs
import Mathlib.Data.List.Nodup
import ResumableUpload.Proofs.Files.Writing
import ResumableUpload.Proofs.Toml.Tables
import ResumableUpload.Settings.File

/-!
# Saved settings are loaded

Settings whose numbers fit (`Settings.Fits`) can be written as TOML, and each of their fields is read
back from its entry (`defaulted_given`). So a text with some of the entries gives the defaults with
just these fields replaced (`ofTomlText?_writeTable`); with all of them it gives the settings
themselves.
-/

namespace ResumableUpload

namespace Toml

theorem natOfBits?_int {bits n : Nat} (h : n < 2 ^ bits) : natOfBits? bits (.int n) = some n := by
  have hfits : (0 : Int) ≤ n ∧ (n : Int).toNat < 1 <<< bits := by
    rw [Nat.one_shiftLeft]
    omega
  exact if_pos hfits

theorem natOfBits?_lt {bits n : Nat} {v : Toml} (h : natOfBits? bits v = some n) :
    n < 2 ^ bits := by
  unfold natOfBits? at h
  split at h
  · split at h
    · next hfits =>
      cases h
      rw [← Nat.one_shiftLeft]
      exact hfits.2
    · cases h
  · cases h

/-- A table can be written if each of its values can. -/
theorem isSome_writeTable? (name : String) (entries : List (String × Scalar)) :
    (writeTable? name entries).isSome = entries.all fun e => (writtenScalar? e.2).isSome := by
  have hlines : (entries.mapM writtenLine?).isSome
      = entries.all fun e => (writtenScalar? e.2).isSome := by
    induction entries with
    | nil => rfl
    | cons e entries ih =>
      obtain ⟨key, v⟩ := e
      rw [List.mapM_cons, List.all_cons, ← ih]
      cases hv : writtenScalar? v with
      | none => simp [writtenLine?, hv]
      | some text =>
        cases entries.mapM writtenLine? <;> simp [writtenLine?, hv]
  rw [writeTable?_eq, ← hlines]
  cases entries.mapM writtenLine? <;> rfl

end Toml

namespace Settings

variable {s : Settings} {entries : List (String × Scalar)}

/-- The numbers of settings fit a TOML integer, and the number of retries a word of 32 bits. -/
structure Fits (s : Settings) : Prop where
  numbers : ∀ name n, (name, .nat n) ∈ s.fields → n < 2 ^ 63
  maxRetries : s.maxRetries < 2 ^ 32

/-- The defaults with the fields of the given names replaced. -/
def only (s : Settings) (given : List String) : Settings :=
  let d : Settings := {}
  { uploadThread := if "upload_thread" ∈ given then s.uploadThread else d.uploadThread
    uploadApi := if "upload_api" ∈ given then s.uploadApi else d.uploadApi
    useDynamicUploadApi :=
      if "use_dynamic_upload_api" ∈ given then s.useDynamicUploadApi else d.useDynamicUploadApi
    allowFallback := if "allow_fallback" ∈ given then s.allowFallback else d.allowFallback
    customUploadPartSize :=
      if "custom_upload_part_size" ∈ given then s.customUploadPartSize else d.customUploadPartSize
    lowBandwidthUploadMode :=
      if "low_bandwidth_upload_mode" ∈ given then s.lowBandwidthUploadMode
      else d.lowBandwidthUploadMode
    vipType := if "vip_type" ∈ given then s.vipType else d.vipType
    maxRetries := if "max_retries" ∈ given then s.maxRetries else d.maxRetries
    retryWaitMs := if "retry_wait_ms" ∈ given then s.retryWaitMs else d.retryWaitMs
    retryMaxWaitMs := if "retry_max_wait_ms" ∈ given then s.retryMaxWaitMs else d.retryMaxWaitMs
    uploadUrlExpireSecs :=
      if "upload_url_expire_secs" ∈ given then s.uploadUrlExpireSecs else d.uploadUrlExpireSecs
    uploadTimeoutSecs :=
      if "upload_timeout_secs" ∈ given then s.uploadTimeoutSecs else d.uploadTimeoutSecs
    locateTimeoutSecs :=
      if "locate_timeout_secs" ∈ given then s.locateTimeoutSecs else d.locateTimeoutSecs
    progressFile := if "progress_file" ∈ given then s.progressFile else d.progressFile }

/-! ## Fields and their names -/

/-- The names of the fields that are written. -/
theorem names_fields (s : Settings) :
    s.fields.map Prod.fst = fieldNames.take (if s.progressFile.isSome then 14 else 13) := by
  rw [fields, List.map_append, List.map_map]
  cases s.progressFile <;> rfl

theorem nodup_fields (s : Settings) : (s.fields.map Prod.fst).Nodup := by
  have hnames : fieldNames.Nodup := by decide
  exact names_fields s ▸ hnames.sublist (List.take_sublist _ _)

theorem names_subset (s : Settings) : s.fields.map Prod.fst ⊆ fieldNames :=
  names_fields s ▸ List.take_subset _ _

theorem bare_fieldNames : ∀ name ∈ fieldNames, Toml.Bare name := by decide

theorem only_names (s : Settings) : s.only (s.fields.map Prod.fst) = s := by
  rw [names_fields]
  obtain ⟨⟩ := s
  rename_i path
  cases path <;> simp [only, fieldNames]

/-- No two fields are written under one name. -/
theorem value_unique {name : String} {v w : Scalar} (hv : (name, v) ∈ s.fields)
    (hw : (name, w) ∈ s.fields) : v = w :=
  congrArg Prod.snd (List.inj_on_of_nodup_map (nodup_fields s) hv hw rfl)

/-- Entries as they are read. -/
def given (entries : List (String × Scalar)) : Fields Toml :=
  ⟨entries.map fun e => (e.1, Toml.ofScalar e.2)⟩

/-- A field that is read back from its entry is read where the entry is given, and has its default
elsewhere. -/
theorem defaulted_given {α : Type} {name : String} {read? : Toml → Option α} {a : α}
    (hsub : entries ⊆ s.fields)
    (hread : ∀ v, (name, v) ∈ s.fields → read? (Toml.ofScalar v) = some a) (d : α) :
    (given entries).defaulted name read? d
      = some (if name ∈ entries.map Prod.fst then a else d) := by
  have hfind : (given entries).find? name
      = (entries.find? (·.1 == name)).map fun e => Toml.ofScalar e.2 := by
    rw [given, Fields.find?, List.find?_map, Option.map_map]
    rfl
  rw [Fields.defaulted, hfind]
  cases he : entries.find? (·.1 == name) with
  | none =>
    have hnot : name ∉ entries.map Prod.fst := by
      intro hname
      obtain ⟨e, hin, heq⟩ := List.mem_map.mp hname
      exact List.find?_eq_none.mp he e hin (beq_iff_eq.mpr heq)
    rw [if_neg hnot]
    rfl
  | some e =>
    have hin := List.mem_of_find?_eq_some he
    have hname : e.1 = name := by simpa using List.find?_some he
    rw [if_pos (List.mem_map.mpr ⟨e, hin, hname⟩)]
    exact hread e.2 (hname ▸ hsub hin)

/-! ## Texts -/

theorem ofFields?_given (hs : s.Fits) (hsub : entries ⊆ s.fields) :
    ofFields? Toml.scalars (given entries) = some (s.only (entries.map Prod.fst)) := by
  have hnat : ∀ {name n} (_ : (name, Scalar.nat n) ∈ s.fields) (d : Nat),
      (given entries).defaulted name (Toml.scalars.natOfBits? 64) d
        = some (if name ∈ entries.map Prod.fst then n else d) := by
    intro name n hmem d
    refine defaulted_given hsub (fun v hv => ?_) d
    rw [value_unique hv hmem]
    exact Toml.natOfBits?_int (Nat.lt_trans (hs.numbers _ _ hmem) (by decide))
  have htext : ∀ {name t} (_ : (name, Scalar.text t) ∈ s.fields) (d : String),
      (given entries).defaulted name Toml.scalars.text? d
        = some (if name ∈ entries.map Prod.fst then t else d) := by
    intro name t hmem d
    refine defaulted_given hsub (fun v hv => ?_) d
    rw [value_unique hv hmem]
    rfl
  have hbool : ∀ {name b} (_ : (name, Scalar.bool b) ∈ s.fields) (d : Bool),
      (given entries).defaulted name Toml.scalars.bool? d
        = some (if name ∈ entries.map Prod.fst then b else d) := by
    intro name b hmem d
    refine defaulted_given hsub (fun v hv => ?_) d
    rw [value_unique hv hmem]
    rfl
  have hvip : (given entries).defaulted "vip_type"
      (fun v => (Toml.scalars.name? v).bind Membership.ofKey?) Membership.normal
        = some (if "vip_type" ∈ entries.map Prod.fst then s.vipType else Membership.normal) := by
    refine defaulted_given hsub (fun v hv => ?_) _
    rw [value_unique hv (w := .text s.vipType.key) (by simp [fields])]
    exact Membership.ofKey?_key s.vipType
  have hretries : (given entries).defaulted "max_retries" (Toml.scalars.natOfBits? 32) 3
      = some (if "max_retries" ∈ entries.map Prod.fst then s.maxRetries else 3) := by
    refine defaulted_given hsub (fun v hv => ?_) _
    rw [value_unique hv (w := .nat s.maxRetries) (by simp [fields])]
    exact Toml.natOfBits?_int hs.maxRetries
  have hpath : (given entries).defaulted "progress_file" Toml.scalars.optionalText? none
      = some (if "progress_file" ∈ entries.map Prod.fst then s.progressFile else none) := by
    refine defaulted_given hsub (fun v hv => ?_) _
    cases hpath : s.progressFile with
    | none => simp [fields, hpath] at hv
    | some path =>
      rw [value_unique hv (w := .text path) (by simp [fields, hpath])]
      rfl
  simp [ofFields?, only, hnat, htext, hbool, hvip, hretries, hpath, fields]

/-- A text with some of the entries, in any order, gives the defaults with these fields replaced. -/
theorem ofTomlText?_writeTable {text : String} (hs : s.Fits) (hsub : entries ⊆ s.fields)
    (hnodup : (entries.map Prod.fst).Nodup) (h : Toml.writeTable? "upload" entries = some text) :
    ofTomlText? text = some (s.only (entries.map Prod.fst)) := by
  have hnames : ∀ e ∈ entries, e.1 ∈ fieldNames := fun e he =>
    names_subset s (List.mem_map_of_mem (hsub he))
  have hread := Toml.read?_writeTable (by decide) (fun e he => bare_fieldNames _ (hnames e he))
    hnodup h
  have hfields : Toml.fields? fieldNames (.table (entries.map fun e => (e.1, Toml.ofScalar e.2)))
      = some (given entries) := by
    have hall : (entries.map fun e => (e.1, Toml.ofScalar e.2)).filter
        (fun e => fieldNames.contains e.1) = entries.map fun e => (e.1, Toml.ofScalar e.2) := by
      refine List.filter_eq_self.mpr fun x hx => ?_
      obtain ⟨e, he, rfl⟩ := List.mem_map.mp hx
      exact List.contains_iff_mem.mpr (hnames e he)
    rw [Toml.fields?, hall, given]
  rw [ofTomlText?, hread]
  show ofToml? (.table (entries.map fun e => (e.1, Toml.ofScalar e.2))) = _
  rw [ofToml?, hfields]
  exact ofFields?_given hs hsub

theorem load_of_readText {files : Files} {path text : String} (hs : s.Fits)
    (hsub : entries ⊆ s.fields) (hnodup : (entries.map Prod.fst).Nodup)
    (h : Toml.writeTable? "upload" entries = some text) (hread : files.readText path = .ok text) :
    load files path = .ok (s.only (entries.map Prod.fst)) := by
  simp only [load, hread, ofTomlText?_writeTable hs hsub hnodup h]

/-- Entries whose numbers fit can be written. -/
theorem exists_writeTable (hs : s.Fits) (hsub : entries ⊆ s.fields) :
    ∃ text, Toml.writeTable? "upload" entries = some text := by
  refine Option.isSome_iff_exists.mp ?_
  rw [Toml.isSome_writeTable?, List.all_eq_true]
  rintro ⟨name, v⟩ he
  cases v with
  | text t => rfl
  | nat n =>
    have hn : n < 1 <<< 63 := by
      rw [Nat.one_shiftLeft]
      exact hs.numbers name n (hsub he)
    simp only [Toml.writtenScalar?, if_pos hn, Option.isSome_some]
  | bool b => rfl

theorem tomlText?_eq_none {name : String} {n : Nat} (hmem : (name, .nat n) ∈ s.fields)
    (hn : 2 ^ 63 ≤ n) : s.tomlText? = none := by
  have hno : ¬ n < 1 <<< 63 := by
    rw [Nat.one_shiftLeft]
    omega
  have hwritten : Toml.writtenScalar? (.nat n) = none := if_neg hno
  refine Option.not_isSome_iff_eq_none.mp fun hsome => ?_
  rw [tomlText?, Toml.isSome_writeTable?, List.all_eq_true] at hsome
  have hsome := hsome _ hmem
  rw [hwritten] at hsome
  cases hsome

/-! ## Files -/

theorem save_of_tomlText? {files files' : Files} {path text : String}
    (htext : s.tomlText? = some text) (h : s.save files path = (files', none)) :
    files'.readText path = .ok text := by
  simp only [save, htext] at h
  split at h
  · cases h
  · split at h
    · cases h
    · next hwrite =>
      injection h with hfiles _
      exact hfiles ▸ Files.readText_write hwrite

theorem save_ne_unrepresentable {text : String} (htext : s.tomlText? = some text) (files : Files)
    (path : String) : (s.save files path).2 ≠ some .unrepresentable := by
  simp only [save, htext]
  split
  · simp
  · split <;> simp

/-- Settings whose numbers fit are loaded from the file that they were saved to, and saving them
fails for no other reason than the file's; a file with some of their entries gives the defaults with
just these fields replaced. Settings with a number that does not fit are not saved, and nothing
happens to any file. -/
theorem round_trip :
    (∀ s : Settings, s.Fits →
      (∀ files path, (s.save files path).2 ≠ some .unrepresentable) ∧
      (∀ files files' path, s.save files path = (files', none) → load files' path = .ok s) ∧
      ∀ entries, entries ⊆ s.fields → (entries.map Prod.fst).Nodup →
        ∃ text, Toml.writeTable? "upload" entries = some text ∧
          ∀ files path, files.readText path = .ok text →
            load files path = .ok (s.only (entries.map Prod.fst))) ∧
    ∀ (s : Settings) (name : String) (n : Nat), (name, .nat n) ∈ s.fields → 2 ^ 63 ≤ n →
      ∀ files path, s.save files path = (files, some .unrepresentable) := by
  refine ⟨fun s hs => ?_, fun s name n hmem hn files path => ?_⟩
  · obtain ⟨whole, hwhole⟩ := exists_writeTable hs (List.Subset.refl s.fields)
    refine ⟨save_ne_unrepresentable hwhole, fun files files' path hsave => ?_,
      fun entries hsub hnodup => ?_⟩
    · rw [load_of_readText hs (List.Subset.refl s.fields) (nodup_fields s) hwhole
        (save_of_tomlText? hwhole hsave), only_names]
    · obtain ⟨text, htext⟩ := exists_writeTable hs hsub
      exact ⟨text, htext, fun files path hread => load_of_readText hs hsub hnodup htext hread⟩
  · simp only [save, tomlText?_eq_none hmem hn]

namespace Sample

/-- Settings with the greatest numbers, and texts that need escapes. -/
def extreme : Settings where
  uploadApi := "\"\'\'\'\\\r\n\u0001😀"
  vipType := .svip
  maxRetries := 2 ^ 32 - 1
  retryWaitMs := 2 ^ 63 - 1
  progressFile := some "记录\'\"\"\"\n.json"

theorem fits_extreme : extreme.Fits where
  numbers := by
    intro name n h
    simp only [fields, extreme, Option.toList_some, List.map_cons, List.map_nil, List.mem_append,
      List.mem_cons, List.not_mem_nil, or_false, Prod.mk.injEq, Scalar.nat.injEq, reduceCtorEq,
      and_false, false_or] at h
    omega
  maxRetries := by decide

/-- Settings with a number that is too large by one. -/
def tooLarge : Settings := { uploadThread := 2 ^ 63 }

end Sample

/-- Settings that need escapes, saved in a new folder; two of their entries; and settings that are
not saved. -/
theorem round_trip_extreme :
    load (Sample.extreme.save {} "etc/app.toml").1 "etc/app.toml" = .ok Sample.extreme ∧
      (∃ text, Toml.writeTable? "upload"
          [("progress_file", .text "记录\'\"\"\"\n.json"), ("vip_type", .text "svip")] = some text ∧
        ∀ files path, files.readText path = .ok text → load files path
          = .ok { vipType := .svip, progressFile := some "记录\'\"\"\"\n.json" }) ∧
      Sample.tooLarge.save {} "etc/app.toml" = ({}, some .unrepresentable) := by
  have hsaved : (Sample.extreme.save {} "etc/app.toml").2 = none := by rfl
  obtain ⟨-, hload, hsome⟩ := round_trip.1 Sample.extreme Sample.fits_extreme
  refine ⟨hload {} _ _ (Prod.ext rfl hsaved), hsome _ ?_ (by decide), ?_⟩
  · intro e he
    simp only [List.mem_cons, List.not_mem_nil, or_false] at he
    rcases he with rfl | rfl <;> simp [fields, Sample.extreme, Membership.key]
  · exact round_trip.2 Sample.tooLarge "upload_thread" (2 ^ 63) List.mem_cons_self (Nat.le_refl _)
      _ _

end Settings

end ResumableUpload
