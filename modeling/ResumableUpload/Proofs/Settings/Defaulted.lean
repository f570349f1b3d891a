import ResumableUpload.Proofs.Files.Folders
import ResumableUpload.Proofs.Settings.Restored

/-!
# Settings loaded again

Settings that cannot be loaded are replaced by the defaults, and so is their file, with the folders
above it. Loading them again changes no file, whatever the first time found and however far it got
(`load_default_again`).

The second time gives the same settings as well, but for one case. A path can go up from a folder
that is missing, so that it leads nowhere; the first time makes that folder, and then the path leads
past it to a file that was there before. If that file is open to writing it is replaced by the
defaults, though it may hold good settings; if it is closed, the second time loads it
(`strays_up`).
-/

namespace ResumableUpload.Settings

variable {files : Files} {path text : String} {s : Settings}

/-! ## Loading -/

theorem load_cases (h : load files path = .ok s) :
    ∃ content writable, files.find path = .ok (.file content writable) := by
  unfold load Files.readText Files.read at h
  cases hfind : files.find path with
  | error fault => simp only [hfind] at h; cases h
  | ok node =>
    cases node with
    | file content writable => exact ⟨content, writable, rfl⟩
    | folder writable => simp only [hfind] at h; cases h

/-- What is loaded depends on the file only. -/
theorem load_congr {files' : Files} (h : files'.find path = files.find path) :
    load files' path = load files path := by
  rw [load, load, Files.readText, Files.readText, Files.read, Files.read, h]

theorem loadOrDefault_of_ok (h : load files path = .ok s) :
    (loadOrDefault files path).settings = s ∧ (loadOrDefault files path).files = files := by
  rw [loadOrDefault, h]
  exact ⟨rfl, rfl⟩

theorem loadOrDefault_of_error {fault : Fault} (h : load files path = .error fault) :
    (loadOrDefault files path).settings = {} ∧
      (loadOrDefault files path).files = (({} : Settings).save files path).1 := by
  rw [loadOrDefault, h]
  dsimp only
  split
  · next hsave => rw [hsave]; exact ⟨rfl, rfl⟩
  · next hsave => rw [hsave]; exact ⟨rfl, rfl⟩

/-! ## Saving -/

/-- What can come of writing a text to a file and making the folders above it. -/
inductive Saved (files : Files) (path text : String) : Files × Option Fault → Prop
  | noFolder {unmade : Files.Unmade} : files.makeParents path = .error unmade →
      Saved files path text (unmade.files, some .noFolder)
  | unwritable {made : Files} {fault : IoFault} : files.makeParents path = .ok made →
      made.write path text.toUTF8 = .error fault →
      Saved files path text (made, some .unwritable)
  | written {made written : Files} : files.makeParents path = .ok made →
      made.write path text.toUTF8 = .ok written → Saved files path text (written, none)

theorem saved_save (htext : s.tomlText? = some text) (files : Files) (path : String) :
    Saved files path text (s.save files path) := by
  simp only [save, htext]
  split
  · next hmake => exact .noFolder hmake
  · next made hmake =>
    split
    · next hwrite => exact .unwritable hmake hwrite
    · next hwrite => exact .written hmake hwrite

/-- Defaults but for the number of workers. -/
theorem fits_threads {n : Nat} (hn : n < 2 ^ 63) : ({ uploadThread := n } : Settings).Fits where
  numbers := by
    intro name m h
    simp only [fields, Option.toList_none, List.map_nil, List.append_nil, List.mem_cons,
      List.not_mem_nil, or_false, Prod.mk.injEq, Scalar.nat.injEq, reduceCtorEq, and_false,
      false_or] at h
    omega
  maxRetries := show 3 < 2 ^ 32 by decide

theorem fits_default : ({} : Settings).Fits := fits_threads (by decide)

theorem exists_defaultText : ∃ text, ({} : Settings).tomlText? = some text :=
  exists_writeTable fits_default (List.Subset.refl _)

/-- The defaults are loaded from the file that they were written to. -/
theorem load_default {files' : Files} (htext : ({} : Settings).tomlText? = some text)
    (h : files.write path text.toUTF8 = .ok files') : load files' path = .ok {} := by
  rw [load_of_readText fits_default (List.Subset.refl _) (nodup_fields _) htext
    (Files.readText_write h), only_names]

theorem Saved.changes {r : Files × Option Fault} (h : Saved files path text r)
    (htext : ({} : Settings).tomlText? = some text) (q : List String) :
    r.1.node? q = files.node? q ∨ (files.node? q = none ∧ r.1.node? q = some (.folder true)) ∨
      (r.1.LeadsTo path q ∧ load r.1 path = .ok {}) := by
  have hgrown := Files.grown_makeParents files path
  cases h with
  | noFolder hmake =>
    rw [hmake] at hgrown
    exact (hgrown.node q).imp_right .inl
  | unwritable hmake =>
    rw [hmake] at hgrown
    exact (hgrown.node q).imp_right .inl
  | @written made written hmake hwrite =>
    rw [hmake] at hgrown
    obtain ⟨p, place, hpath, hput, hfollow, -⟩ := Files.write_cases hwrite
    by_cases hq : q = place
    · exact .inr (.inr ⟨⟨p, _, hpath, hq ▸ hfollow⟩, load_default htext hwrite⟩)
    · have hnode : written.node? q = made.node? q := by
        rw [hput, Files.node?_put, if_neg hq]
      exact hnode ▸ (hgrown.node q).imp_right .inl

/-- No file is written but the one to which a straight path leads. -/
theorem Saved.spares {r : Files × Option Fault} (h : Saved files path text r)
    (hstraight : files.Straight path) {q : List String} {content : ByteArray} {writable : Bool}
    (hq : files.node? q = some (.file content writable)) :
    r.1.node? q = some (.file content writable) ∨ files.LeadsTo path q := by
  have hgrown := Files.grown_makeParents files path
  cases h with
  | noFolder hmake =>
    rw [hmake] at hgrown
    exact .inl (hgrown.file_iff.mpr hq)
  | unwritable hmake =>
    rw [hmake] at hgrown
    exact .inl (hgrown.file_iff.mpr hq)
  | @written made written hmake hwrite =>
    rw [hmake] at hgrown
    have hmade : made.node? q = some (.file content writable) := hgrown.file_iff.mpr hq
    obtain ⟨p, place, hpath, hput, -, hbefore⟩ := Files.write_cases hwrite
    by_cases hplace : q = place
    · subst hplace
      rcases hbefore with ⟨old, hfollow⟩ | hnone
      · have hleads : (Files.afterMaking (files.makeParents path)).follow p
            = .ok (.found q (.file old true)) := hmake ▸ hfollow
        exact .inr ⟨p, _, hpath, hstraight.follow_back hpath hleads⟩
      · rw [hmade] at hnone
        cases hnone
    · refine .inl ?_
      show written.node? q = _
      rw [hput, Files.node?_put, if_neg hplace, hmade]

/-! ## Loading again -/

/-- The path goes up from a missing folder. Once that is made, it leads to a file that was there
before and is closed to writing, and the settings of that file are loaded. -/
structure Strayed (files : Files) (path : String) (made : Files) (s : Settings) : Prop where
  crooked : ¬ files.Straight path
  leads : ∃ q content, files.node? q = some (.file content false) ∧ made.LeadsTo path q
  loads : load made path = .ok s

/-- What loading finds after the defaults were to be saved because it had failed. -/
theorem Saved.again {r : Files × Option Fault} {fault : Fault} (h : Saved files path text r)
    (htext : ({} : Settings).tomlText? = some text) (hload : load files path = .error fault) :
    load r.1 path = .ok {} ∨
      (∃ fault, load r.1 path = .error fault ∧ (({} : Settings).save r.1 path).1 = r.1) ∨
      ∃ s, Strayed files path r.1 s := by
  cases h with
  | @noFolder unmade hmake =>
    right; left
    obtain ⟨why, hagain⟩ := Files.makeParents_unmade hmake
    have hsave : (({} : Settings).save unmade.files path).1 = unmade.files := by
      simp only [save, htext, hagain]
    have hfails : ∃ fault, load unmade.files path = .error fault := by
      rcases Files.find_of_unmade hmake with hsame | hnowhere
      · exact ⟨fault, hsame ▸ hload⟩
      · cases hfound : load unmade.files path with
        | error fault => exact ⟨fault, rfl⟩
        | ok s =>
          obtain ⟨content, writable, hfind⟩ := load_cases hfound
          exact absurd hfind (hnowhere _)
    obtain ⟨fault, hfails⟩ := hfails
    exact ⟨fault, hfails, hsave⟩
  | @unwritable made why hmake hwrite =>
    right
    cases hfound : load made path with
    | error fault =>
      refine .inl ⟨fault, rfl, ?_⟩
      simp only [save, htext, Files.makeParents_again hmake, hwrite]
    | ok s =>
      obtain ⟨content, writable, hfind⟩ := load_cases hfound
      have hclosed := Files.closed_of_write hfind hwrite
      subst hclosed
      obtain ⟨-, p, q, hpath, hfollow, -⟩ := Files.find_cases hfind
      have hgrown : files.Grown made := by
        have hgrown := Files.grown_makeParents files path
        rwa [hmake] at hgrown
      refine .inr ⟨s, fun hstraight => ?_, ⟨q, content, ?_, p, _, hpath, hfollow⟩, hfound⟩
      · -- the file would have been loaded the first time
        have hafter : (Files.afterMaking (files.makeParents path)).find path
            = .ok (.file content false) := by
          rw [hmake]
          exact hfind
        have hbefore := hstraight.find_back hafter
        rw [load_congr (hfind.trans hbefore.symm), hload] at hfound
        cases hfound
      · exact hgrown.file_iff.mp (Files.node?_of_found hfollow)
  | written _ hwrite => exact .inl (load_default htext hwrite)

/-- What comes of loading settings whether or not there are any, and of doing so again. -/
structure Repeats (files : Files) (path : String) (first second : Loaded) : Prop where
  /-- Settings that are loaded are returned, and no file changes. -/
  loaded : ∀ s, load files path = .ok s → first.settings = s ∧ first.files = files
  defaulted : ∀ fault, load files path = .error fault → first.settings = {}
  /-- Folders are made, and the defaults are written to the file that the path leads to then. -/
  changes : ∀ q, first.files.node? q = files.node? q ∨
    (files.node? q = none ∧ first.files.node? q = some (.folder true)) ∨
    (first.files.LeadsTo path q ∧ load first.files path = .ok {})
  /-- No file is written but the one to which a straight path led, and that one did not load. -/
  spares : files.Straight path → ∀ q content writable,
    files.node? q = some (.file content writable) →
      first.files.node? q = some (.file content writable) ∨
      (files.LeadsTo path q ∧ ∀ s, load files path ≠ .ok s)
  /-- The second time changes nothing. -/
  same : second.files = first.files
  agrees : second.settings = first.settings ∨
    (∃ fault, load files path = .error fault) ∧ Strayed files path first.files second.settings

theorem repeats_of_ok (h : load files path = .ok s) :
    Repeats files path (loadOrDefault files path)
      (loadOrDefault (loadOrDefault files path).files path) := by
  obtain ⟨hsettings, hfiles⟩ := loadOrDefault_of_ok h
  refine {
    loaded := fun s' h' => ⟨?_, hfiles⟩
    defaulted := fun fault h' => by rw [h] at h'; cases h'
    changes := fun q => .inl (by rw [hfiles])
    spares := fun _ q content writable hq => .inl (by rw [hfiles, hq])
    same := by rw [hfiles, hfiles]
    agrees := .inl (by rw [hfiles]) }
  rw [h] at h'
  cases h'
  exact hsettings

theorem repeats_of_error {fault : Fault} (h : load files path = .error fault) :
    Repeats files path (loadOrDefault files path)
      (loadOrDefault (loadOrDefault files path).files path) := by
  obtain ⟨hsettings, hfiles⟩ := loadOrDefault_of_error h
  obtain ⟨text, htext⟩ := exists_defaultText
  have hsaved := saved_save htext files path
  have hnot : ∀ s, load files path ≠ .ok s := fun s hs => by rw [h] at hs; cases hs
  rw [← Prod.eta (({} : Settings).save files path), ← hfiles] at hsaved
  have hagain : (loadOrDefault (loadOrDefault files path).files path).files
        = (loadOrDefault files path).files ∧
      ((loadOrDefault (loadOrDefault files path).files path).settings = {} ∨
        Strayed files path (loadOrDefault files path).files
          (loadOrDefault (loadOrDefault files path).files path).settings) := by
    obtain hok | ⟨fault', herror, hsave⟩ | ⟨s, hstrayed⟩ := hsaved.again htext h
    · exact ⟨(loadOrDefault_of_ok hok).2, .inl (loadOrDefault_of_ok hok).1⟩
    · obtain ⟨hsettings', hfiles'⟩ := loadOrDefault_of_error herror
      exact ⟨hfiles'.trans hsave, .inl hsettings'⟩
    · obtain ⟨hsettings', hfiles'⟩ := loadOrDefault_of_ok hstrayed.loads
      exact ⟨hfiles', .inr (hsettings'.symm ▸ hstrayed)⟩
  exact {
    loaded := fun s hs => absurd hs (hnot s)
    defaulted := fun _ _ => hsettings
    changes := hsaved.changes htext
    spares := fun hstraight q content writable hq =>
      (hsaved.spares hstraight hq).imp_right fun hleads => ⟨hleads, hnot⟩
    same := hagain.1
    agrees := hagain.2.imp (fun hagree => hagree.trans hsettings.symm) fun hstrayed =>
      ⟨⟨fault, h⟩, hstrayed⟩ }

/-- Whatever the tree and the path: settings that can be loaded are returned and nothing changes;
otherwise the defaults are returned, and doing it again changes nothing and returns the same, but
where a path goes up from a missing folder to a file that is closed to writing. -/
theorem load_default_again (files : Files) (path : String) :
    Repeats files path (loadOrDefault files path)
      (loadOrDefault (loadOrDefault files path).files path) := by
  cases h : load files path with
  | ok s => exact repeats_of_ok h
  | error fault => exact repeats_of_error h

namespace Sample

/-- The settings of eight workers, as a text. -/
def eightText : String := "[upload]\nupload_thread = 8\n"

/-- A file with these settings. -/
def eightFiles (writable : Bool) : Files where
  nodes := [(["home"], .folder true), (["home", "app.toml"], .file eightText.toUTF8 writable)]

end Sample

theorem load_eight {writable : Bool}
    (h : files.find path = .ok (.file Sample.eightText.toUTF8 writable)) :
    load files path = .ok { uploadThread := 8 } := by
  have height : ({ uploadThread := 8 } : Settings).Fits := fits_threads (by decide)
  have hsub : [("upload_thread", .nat 8)] ⊆ ({ uploadThread := 8 } : Settings).fields :=
    List.cons_subset.mpr ⟨List.mem_cons_self, List.nil_subset _⟩
  exact load_of_readText height hsub (by decide) rfl (Files.readText_of_find h)

/-- The path goes up from a missing folder. If the file is closed, the second time loads it; if it is
open, it is replaced though it could be loaded by its own name. -/
theorem strays_up :
    let first (writable : Bool) := loadOrDefault (Sample.eightFiles writable) "a/../app.toml"
    (loadOrDefault (first false).files "a/../app.toml").settings ≠ (first false).settings ∧
      load (Sample.eightFiles true) "app.toml" = .ok { uploadThread := 8 } ∧
      load (first true).files "app.toml" = .ok {} := by
  intro first
  have hfails : load (Sample.eightFiles false) "a/../app.toml" = .error .unreadable := by rfl
  have hfirst : (first false).settings = {} := (loadOrDefault_of_error hfails).1
  have hsecond : load (first false).files "a/../app.toml" = .ok { uploadThread := 8 } :=
    load_eight rfl
  refine ⟨?_, load_eight rfl, ?_⟩
  · rw [(loadOrDefault_of_ok hsecond).1, hfirst]
    decide
  · exact load_of_readText fits_default (List.Subset.refl _) (nodup_fields _) rfl
      (Files.readText_of_find rfl)

end ResumableUpload.Settings
