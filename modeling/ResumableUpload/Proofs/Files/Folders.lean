import Mathlib.Data.List.Induction
import ResumableUpload.Proofs.Files.Writing

/-!
# Folders made on the way

Before a file is written, the folders above it are made. That only adds folders where there was
nothing (`grown_makeParents`). Doing it again changes nothing: if it worked, the folders are there
(`makeParents_again`); if it failed, it fails again with the same tree (`makeParents_unmade`), and
the path leads nowhere (`find_of_unmade`).

A new folder can still change where a path leads: a path that goes up from it leads past it to what
was there before. If the folder of the path was there, or in a sound tree each folder that the path
goes up from, the path leads to a file only if it did so before (`Straight.find_back`).
-/

namespace ResumableUpload.Files

variable {files files' : Files} {p : Path} {path : String} {place next q names rest : List String}
  {name : String} {n : Nat}

/-! ## Following a path name by name -/

/-- Where a name leads from a folder. -/
inductive Step (files : Files) (place : List String) (name : String) : List String → Prop
  | stays : name = "." → files.Step place name place
  | up : name ≠ "." → name = ".." → files.Step place name place.dropLast
  | down : name ≠ "." → name ≠ ".." → ¬ 255 < name.utf8ByteSize →
      (files.node? (place ++ [name])).isSome = true → files.Step place name (place ++ [name])

theorem walk_of_step {writable : Bool} (hplace : files.node? place = some (.folder writable))
    (h : files.Step place name next) (rest : List String) :
    files.walk place (name :: rest) = files.walk next rest := by
  rw [walk, hplace]
  cases h with
  | stays hdot => simp only [hdot, beq_self_eq_true, if_true]
  | up hdot hup => simp only [beq_iff_eq, if_neg hdot, if_pos hup]
  | down hdot hup hshort hthere =>
    simp only [beq_iff_eq, if_neg hdot, if_neg hup, if_neg hshort, if_pos hthere]

/-- A path that is followed to its end starts at a folder, and goes on from where its first name
leads unless that is its last and missing. -/
theorem walk_cons_cases {t : Target} (h : files.walk place (name :: rest) = .ok t) :
    ∃ writable, files.node? place = some (.folder writable) ∧
      ((∃ next, files.Step place name next ∧ files.walk next rest = .ok t) ∨
        t = .vacant place writable name) := by
  rw [walk] at h
  split at h
  · cases h
  · cases h
  · next writable hplace =>
    refine ⟨writable, hplace, ?_⟩
    split at h
    · next hdot => exact .inl ⟨_, .stays (eq_of_beq hdot), h⟩
    · next hdot =>
      have hne : name ≠ "." := fun heq => hdot (beq_iff_eq.mpr heq)
      split at h
      · next hup => exact .inl ⟨_, .up hne (eq_of_beq hup), h⟩
      · next hup =>
        have hnup : name ≠ ".." := fun heq => hup (beq_iff_eq.mpr heq)
        split at h
        · cases h
        · next hshort =>
          split at h
          · next hthere => exact .inl ⟨_, .down hne hnup hshort hthere, h⟩
          · split at h
            · exact .inr (Except.ok.inj h).symm
            · cases h

/-- A path is followed as far as its first names lead, and from there on. -/
theorem walk_append (files : Files) (place names : List String) (name : String)
    (rest : List String) :
    files.walk place (names ++ name :: rest) =
      match files.walk place names with
      | .ok (.found q _) => files.walk q (name :: rest)
      | .ok (.vacant ..) => .error .notFound
      | .error fault => .error fault := by
  induction names generalizing place with
  | nil =>
    rw [List.nil_append, walk, walk]
    cases hplace : files.node? place with
    | none => rfl
    | some node =>
      dsimp only
      rw [walk, hplace]
  | cons first names ih =>
    rw [List.cons_append, walk, walk]
    cases hplace : files.node? place with
    | none => rfl
    | some node =>
      cases node with
      | file content writable => rfl
      | folder writable =>
        dsimp only
        split
        · exact ih place
        · split
          · exact ih place.dropLast
          · split
            · rfl
            · split
              · exact ih (place ++ [first])
              · have hmore : (names ++ name :: rest).isEmpty = false := by simp
                rw [hmore, if_neg Bool.false_ne_true]
                cases names.isEmpty <;> rfl

/-- What a path goes on from is a folder. -/
theorem folder_of_walk_append {t : Target}
    (h : files.walk place (names ++ name :: rest) = .ok t) :
    ∃ q writable, files.walk place names = .ok (.found q (.folder writable)) := by
  rw [walk_append] at h
  cases hfirst : files.walk place names with
  | error fault => rw [hfirst] at h; cases h
  | ok target =>
    rw [hfirst] at h
    cases target with
    | vacant folder writable name => cases h
    | found q node =>
      obtain ⟨writable, hfolder, -⟩ := walk_cons_cases h
      rw [node?_of_found hfirst] at hfolder
      exact ⟨q, writable, by rw [Option.some.inj hfolder]⟩

/-! ## Trees that grow -/

/-- A tree has come to another by new folders only. -/
structure Grown (files files' : Files) : Prop where
  home : files'.home = files.home
  node : ∀ q, files'.node? q = files.node? q ∨
    files.node? q = none ∧ files'.node? q = some (.folder true)

theorem Grown.refl (files : Files) : files.Grown files := ⟨rfl, fun _ => .inl rfl⟩

theorem Grown.trans {files'' : Files} (h : files.Grown files') (h' : files'.Grown files'') :
    files.Grown files'' := by
  refine ⟨h'.home.trans h.home, fun q => ?_⟩
  rcases h.node q with hsame | ⟨hnone, hfolder⟩
  · exact hsame ▸ h'.node q
  · rcases h'.node q with hsame' | ⟨hnone', -⟩
    · exact .inr ⟨hnone, hsame'.trans hfolder⟩
    · rw [hfolder] at hnone'
      cases hnone'

/-- Files stay as they were. -/
theorem Grown.file_iff (h : files.Grown files') {content : ByteArray} {writable : Bool} :
    files'.node? q = some (.file content writable) ↔
      files.node? q = some (.file content writable) := by
  rcases h.node q with hsame | ⟨hnone, hfolder⟩
  · rw [hsame]
  · rw [hnone, hfolder]
    exact ⟨nofun, nofun⟩

theorem Grown.node?_eq (h : files.Grown files') {node : Node} (hq : files.node? q = some node) :
    files'.node? q = some node := by
  rcases h.node q with hsame | ⟨hnone, -⟩
  · rw [hsame, hq]
  · rw [hq] at hnone
    cases hnone

/-- What a path led to stays there. -/
theorem Grown.walk_found (h : files.Grown files') {node : Node}
    (hwalk : files.walk place names = .ok (.found q node)) :
    files'.walk place names = .ok (.found q node) := by
  induction names generalizing place with
  | nil =>
    rw [walk] at hwalk ⊢
    split at hwalk
    · next hplace =>
      rw [h.node?_eq hplace]
      exact hwalk
    · cases hwalk
  | cons name rest ih =>
    obtain ⟨writable, hplace, ⟨next, hstep, hrest⟩ | hvacant⟩ := walk_cons_cases hwalk
    · refine (walk_of_step (h.node?_eq hplace) ?_ rest).trans (ih hrest)
      cases hstep with
      | stays hdot => exact .stays hdot
      | up hdot hup => exact .up hdot hup
      | down hdot hup hshort hthere =>
        obtain ⟨node', hnode⟩ := Option.isSome_iff_exists.mp hthere
        exact .down hdot hup hshort (by rw [h.node?_eq hnode]; rfl)
    · cases hvacant

/-! ## One folder -/

theorem isFolder_iff :
    files.isFolder p = true ↔ ∃ q writable, files.follow p = .ok (.found q (.folder writable)) := by
  unfold isFolder
  split
  · next q writable hfollow => exact ⟨fun _ => ⟨q, writable, hfollow⟩, fun _ => rfl⟩
  · next hother => exact ⟨nofun, fun ⟨q, writable, h⟩ => absurd h (hother q writable)⟩

theorem makeFolder_of_isFolder (h : files.isFolder p = true) :
    files.makeFolder p = .error .alreadyExists := by
  obtain ⟨q, writable, hfollow⟩ := isFolder_iff.mp h
  rw [makeFolder, hfollow]

theorem makeFolder_cases (h : files.makeFolder p = .ok files') :
    ∃ folder name, files.follow p = .ok (.vacant folder true name) ∧
      files' = files.put (folder ++ [name]) (.folder true) := by
  unfold makeFolder at h
  split at h
  · cases h
  · cases h
  · next folder writable name hfollow =>
    split at h
    · next hwritable =>
      subst hwritable
      exact ⟨folder, name, hfollow, (Except.ok.inj h).symm⟩
    · cases h

theorem isFolder_makeFolder (h : files.makeFolder p = .ok files') : files'.isFolder p = true := by
  obtain ⟨folder, name, hfollow, rfl⟩ := makeFolder_cases h
  exact isFolder_iff.mpr ⟨_, _, walk_put_vacant hfollow _⟩

theorem grown_makeFolder (h : files.makeFolder p = .ok files') : files.Grown files' := by
  obtain ⟨folder, name, hfollow, rfl⟩ := makeFolder_cases h
  refine ⟨rfl, fun q => ?_⟩
  rw [node?_put]
  split
  · next hq =>
    rw [hq]
    exact .inr ⟨node?_of_vacant hfollow, rfl⟩
  · exact .inl rfl

/-- A folder that is to be there, with the tree there is if it cannot be made. -/
def ensured (files : Files) (p : Path) : Except Unmade Files :=
  match files.ensureFolder p with
  | .ok files => .ok files
  | .error fault => .error ⟨fault, files⟩

theorem ensured_of_isFolder (h : files.isFolder p = true) : files.ensured p = .ok files := by
  rw [ensured, ensureFolder, makeFolder_of_isFolder h]
  dsimp only
  rw [if_pos h]

/-- The folder is there afterwards, or nothing has happened. -/
theorem ensured_cases (files : Files) (p : Path) :
    (∃ made, files.ensured p = .ok made ∧ made.isFolder p = true ∧ files.Grown made ∧
      ∃ t, files.follow p = .ok t) ∨
    ∃ fault, files.ensured p = .error ⟨fault, files⟩ := by
  unfold ensured ensureFolder
  cases hmake : files.makeFolder p with
  | ok made =>
    obtain ⟨folder, name, hfollow, -⟩ := makeFolder_cases hmake
    exact .inl ⟨made, rfl, isFolder_makeFolder hmake, grown_makeFolder hmake, _, hfollow⟩
  | error fault =>
    cases hfolder : files.isFolder p with
    | true =>
      obtain ⟨q, writable, hfollow⟩ := isFolder_iff.mp hfolder
      exact .inl ⟨files, rfl, hfolder, .refl files, _, hfollow⟩
    | false => exact .inr ⟨fault, rfl⟩

/-! ## The folders above -/

/-- The folders above are made if the last one cannot be for want of them. -/
theorem ensureAbove_of_notFound (h : files.makeFolder (p.upTo (n + 1)) = .error .notFound) :
    files.ensureAbove p (n + 1)
      = (files.ensureAbove p n).bind fun above => above.ensured (p.upTo (n + 1)) := by
  rw [ensureAbove, h]
  dsimp only
  cases files.ensureAbove p n <;> rfl

theorem ensureAbove_of_ne (h : files.makeFolder (p.upTo (n + 1)) ≠ .error .notFound) :
    files.ensureAbove p (n + 1) = files.ensured (p.upTo (n + 1)) := by
  rw [ensureAbove, ensured, ensureFolder]
  cases hmake : files.makeFolder (p.upTo (n + 1)) with
  | ok made => rfl
  | error fault =>
    dsimp only
    split
    · next heq => cases heq
    · next heq => exact absurd (hmake.trans heq) h
    · next heq =>
      cases heq
      cases files.isFolder (p.upTo (n + 1)) <;> rfl

/-- The tree after folders were made, or could not be. -/
def afterMaking : Except Unmade Files → Files
  | .ok files => files
  | .error unmade => unmade.files

theorem grown_ensured (files : Files) (p : Path) : files.Grown (afterMaking (files.ensured p)) := by
  obtain ⟨made, hmade, -, hgrown, -⟩ | ⟨fault, hfault⟩ := files.ensured_cases p
  · rw [hmade]
    exact hgrown
  · rw [hfault]
    exact .refl files

theorem grown_ensureAbove (files : Files) (p : Path) (n : Nat) :
    files.Grown (afterMaking (files.ensureAbove p n)) := by
  induction n with
  | zero => exact .refl files
  | succ n ih =>
    by_cases h : files.makeFolder (p.upTo (n + 1)) = .error .notFound
    · rw [ensureAbove_of_notFound h]
      cases habove : files.ensureAbove p n with
      | ok above =>
        rw [habove] at ih
        exact ih.trans (grown_ensured above _)
      | error unmade =>
        rw [habove] at ih
        exact ih
    · rw [ensureAbove_of_ne h]
      exact grown_ensured files _

theorem ensureAbove_of_isFolder (h : files.isFolder (p.upTo n) = true) :
    files.ensureAbove p n = .ok files := by
  cases n with
  | zero => rfl
  | succ n =>
    have hthere := makeFolder_of_isFolder h
    rw [ensureAbove_of_ne (by rw [hthere]; nofun), ensured_of_isFolder h]

/-- The folder is there once it was made. -/
theorem isFolder_ensureAbove (h : files.ensureAbove p (n + 1) = .ok files') :
    files'.isFolder (p.upTo (n + 1)) = true := by
  have hensured : ∀ above : Files, above.ensured (p.upTo (n + 1)) = .ok files' →
      files'.isFolder (p.upTo (n + 1)) = true := by
    intro above habove
    obtain ⟨made, hmade, hfolder, -⟩ | ⟨fault, hfault⟩ := above.ensured_cases (p.upTo (n + 1))
    · rw [hmade] at habove
      exact Except.ok.inj habove ▸ hfolder
    · rw [hfault] at habove
      cases habove
  by_cases hmake : files.makeFolder (p.upTo (n + 1)) = .error .notFound
  · rw [ensureAbove_of_notFound hmake] at h
    cases habove : files.ensureAbove p n with
    | ok above =>
      rw [habove] at h
      exact hensured above h
    | error unmade =>
      rw [habove] at h
      cases h
  · rw [ensureAbove_of_ne hmake] at h
    exact hensured files h

theorem ensureAbove_again (h : files.ensureAbove p n = .ok files') :
    files'.ensureAbove p n = .ok files' := by
  cases n with
  | zero => rfl
  | succ n => exact ensureAbove_of_isFolder (isFolder_ensureAbove h)

theorem take_succ_names (hn : n < p.names.length) :
    p.names.take (n + 1) = p.names.take n ++ [p.names[n]] :=
  List.take_succ_eq_append_getElem hn

/-- What has a place in a folder has a folder above it. -/
theorem isFolder_upTo {t : Target} (hn : n < p.names.length)
    (h : files.follow (p.upTo (n + 1)) = .ok t) : files.isFolder (p.upTo n) = true := by
  have hwalk : files.walk (if p.absolute then [] else files.home)
      (p.names.take n ++ [p.names[n]]) = .ok t := take_succ_names hn ▸ h
  exact isFolder_iff.mpr (folder_of_walk_append hwalk)

/-- What could not be made still cannot, and the tree stays. -/
theorem ensureAbove_unmade (hn : n ≤ p.names.length) {unmade : Unmade}
    (h : files.ensureAbove p n = .error unmade) :
    ∃ fault, unmade.files.ensureAbove p n = .error ⟨fault, unmade.files⟩ := by
  induction n generalizing unmade with
  | zero => cases h
  | succ n ih =>
    have hensured : ∀ above : Files, above.ensured (p.upTo (n + 1)) = .error unmade →
        unmade.files = above := by
      intro above habove
      obtain ⟨made, hmade, -⟩ | ⟨fault, hfault⟩ := above.ensured_cases (p.upTo (n + 1))
      · rw [hmade] at habove
        cases habove
      · rw [hfault] at habove
        exact (congrArg Unmade.files (Except.error.inj habove)).symm
    by_cases hmake : files.makeFolder (p.upTo (n + 1)) = .error .notFound
    · rw [ensureAbove_of_notFound hmake] at h
      cases habove : files.ensureAbove p n with
      | ok above =>
        rw [habove] at h
        change above.ensured (p.upTo (n + 1)) = .error unmade at h
        have hsame := hensured above h
        have hagain := ensureAbove_again habove
        refine ⟨unmade.fault, ?_⟩
        rw [← hsame] at hagain h
        by_cases hmake' : unmade.files.makeFolder (p.upTo (n + 1)) = .error .notFound
        · rw [ensureAbove_of_notFound hmake', hagain]
          exact h
        · rw [ensureAbove_of_ne hmake']
          exact h
      | error above =>
        rw [habove] at h
        cases h
        obtain ⟨fault, hfault⟩ := ih (Nat.le_of_succ_le hn) habove
        by_cases hmake' : unmade.files.makeFolder (p.upTo (n + 1)) = .error .notFound
        · exact ⟨fault, by rw [ensureAbove_of_notFound hmake', hfault]; rfl⟩
        · rw [ensureAbove_of_ne hmake']
          obtain ⟨made, -, -, -, t, ht⟩ | hfails := unmade.files.ensured_cases (p.upTo (n + 1))
          · -- the folder above would be there
            rw [ensureAbove_of_isFolder (isFolder_upTo hn ht)] at hfault
            cases hfault
          · exact hfails
    · rw [ensureAbove_of_ne hmake] at h
      refine ⟨unmade.fault, ?_⟩
      have hsame := hensured files h
      rw [hsame, ensureAbove_of_ne hmake, h, ← hsame]

/-! ## The folder of a path -/

theorem find_cases {node : Node} (h : files.find path = .ok node) :
    nameFault? path = none ∧ ∃ p q, Path.ofText? path = some p ∧
      files.follow p = .ok (.found q node) ∧
      ∀ content writable, node = .file content writable → p.needsFolder = false := by
  unfold find at h
  split at h
  · cases h
  · cases h
  · next p hname hpath =>
    refine ⟨hname, p, ?_⟩
    split at h
    · cases h
    · cases h
    · next q content writable hfollow =>
      split at h
      · cases h
      · next hneeds =>
        cases h
        exact ⟨q, hpath, hfollow, fun _ _ _ => Bool.not_eq_true _ ▸ hneeds⟩
    · next q node' hother hfollow =>
      cases h
      exact ⟨q, hpath, hfollow, fun content writable heq => absurd heq (hother content writable)⟩

/-- The folder of the path is there. -/
def HasParent (files : Files) (path : String) : Prop :=
  ∃ p, (Path.ofText? path).bind Path.parent? = some p ∧ files.isFolder p = true

theorem upTo_parent {p₀ : Path} (h : p₀.parent? = some p) : p.upTo p.names.length = p := by
  unfold Path.parent? at h
  split at h
  · cases h
  · rw [← Option.some.inj h, Path.upTo, List.take_length]

/-- What has a place has a folder above it. -/
theorem isFolder_parent {p₀ : Path} {t : Target} (h : p₀.parent? = some p)
    (hfollow : files.follow p₀ = .ok t) : files.isFolder p = true := by
  unfold Path.parent? at h
  split at h
  · cases h
  · next hnames =>
    cases h
    have hne : p₀.names ≠ [] := fun hnil => hnames (List.isEmpty_iff.mpr hnil)
    have hwalk : files.walk (if p₀.absolute then [] else files.home)
        (p₀.names.dropLast ++ [p₀.names.getLast hne]) = .ok t := by
      rw [List.dropLast_concat_getLast]
      exact hfollow
    exact isFolder_iff.mpr (folder_of_walk_append hwalk)

theorem grown_makeParents (files : Files) (path : String) :
    files.Grown (afterMaking (files.makeParents path)) := by
  unfold makeParents
  split
  · exact .refl files
  · split
    · exact .refl files
    · exact grown_ensureAbove files _ _

theorem makeParents_again (h : files.makeParents path = .ok files') :
    files'.makeParents path = .ok files' := by
  unfold makeParents at h ⊢
  split at h
  · rfl
  · split at h
    · cases h
    · exact ensureAbove_again h

theorem makeParents_unmade {unmade : Unmade} (h : files.makeParents path = .error unmade) :
    ∃ fault, unmade.files.makeParents path = .error ⟨fault, unmade.files⟩ := by
  unfold makeParents at h ⊢
  split at h
  · cases h
  · split at h
    · next fault _ => exact ⟨fault, rfl⟩
    · exact ensureAbove_unmade (Nat.le_refl _) h

/-- If the folder of the path is there, nothing is made. -/
theorem afterMaking_of_hasParent (h : files.HasParent path) :
    afterMaking (files.makeParents path) = files := by
  obtain ⟨p, hp, hfolder⟩ := h
  obtain ⟨p₀, -, hparent⟩ := Option.bind_eq_some_iff.mp hp
  rw [makeParents, hp]
  dsimp only
  split
  · rfl
  · rw [makeFolders, ensureAbove_of_isFolder ((upTo_parent hparent).symm ▸ hfolder)]
    rfl

/-- A path whose folder could not be made leads nowhere, but that its name may be at fault. -/
theorem find_of_unmade {unmade : Unmade} (h : files.makeParents path = .error unmade) :
    unmade.files = files ∨ ∀ node, unmade.files.find path ≠ .ok node := by
  unfold makeParents at h
  split at h
  · cases h
  · next p hp =>
    split at h
    · exact .inl (congrArg Unmade.files (Except.error.inj h)).symm
    · refine .inr fun node hfind => ?_
      obtain ⟨p₀, hpath, hparent⟩ := Option.bind_eq_some_iff.mp hp
      obtain ⟨-, p₁, q, hpath', hfollow, -⟩ := find_cases hfind
      obtain rfl := Option.some.inj (hpath.symm.trans hpath')
      have hfolder : unmade.files.isFolder (p.upTo p.names.length) = true :=
        (upTo_parent hparent).symm ▸ isFolder_parent hparent hfollow
      obtain ⟨fault, hagain⟩ := ensureAbove_unmade (Nat.le_refl _) h
      rw [ensureAbove_of_isFolder hfolder] at hagain
      cases hagain

/-! ## Paths that go up -/

/-- Everything in the tree is in a folder. -/
def Sound (files : Files) : Prop :=
  ∀ place name, (files.node? (place ++ [name])).isSome = true →
    ∃ writable, files.node? place = some (.folder writable)

/-- Each folder that the path goes up from is there. -/
def GoesUpInside (files : Files) (path : String) : Prop :=
  ∀ p, Path.ofText? path = some p → ∀ n, p.names[n]? = some ".." → files.isFolder (p.upTo n) = true

/-- Above everything in a sound tree there are folders. -/
theorem Sound.folder_of_prefix (h : files.Sound) (hq : (files.node? q).isSome = true)
    (habove : place <+: q) (hne : place ≠ q) :
    ∃ writable, files.node? place = some (.folder writable) := by
  obtain ⟨more, rfl⟩ := habove
  induction more using List.reverseRecOn with
  | nil => exact absurd (List.append_nil place).symm hne
  | append_singleton more name ih =>
    rw [← List.append_assoc] at hq
    obtain ⟨writable, hfolder⟩ := h (place ++ more) name hq
    by_cases hmore : place = place ++ more
    · exact ⟨writable, hmore ▸ hfolder⟩
    · exact ih (by rw [hfolder]; rfl) hmore

/-- A path that never goes up leads to a place below the one where it starts. -/
theorem prefix_of_walk {node : Node} (hup : ".." ∉ names)
    (h : files.walk place names = .ok (.found q node)) : place <+: q := by
  induction names generalizing place with
  | nil =>
    rw [walk] at h
    split at h
    · cases h
      exact List.prefix_rfl
    · cases h
  | cons name rest ih =>
    obtain ⟨writable, -, ⟨next, hstep, hwalk⟩ | hvacant⟩ := walk_cons_cases h
    · have hbelow : next <+: q := ih (fun hmem => hup (List.mem_cons_of_mem _ hmem)) hwalk
      cases hstep with
      | stays => exact hbelow
      | up _ heq => exact absurd (heq ▸ List.mem_cons_self) hup
      | down => exact (List.prefix_append place [name]).trans hbelow
    · cases hvacant

/-- A path that never goes up and leads to a file in a tree that has grown led there before. -/
theorem Grown.walk_back {content : ByteArray} {writable : Bool} (hgrown : files.Grown files')
    (hsound : files.Sound) (hup : ".." ∉ names)
    (h : files'.walk place names = .ok (.found q (.file content writable))) :
    files.walk place names = .ok (.found q (.file content writable)) := by
  have hfile : files.node? q = some (.file content writable) :=
    hgrown.file_iff.mp (node?_of_found h)
  have hthere : (files.node? q).isSome = true := by rw [hfile]; rfl
  induction names generalizing place with
  | nil =>
    rw [walk] at h
    split at h
    · cases h
      rw [walk, hfile]
    · cases h
  | cons name rest ih =>
    have hrest : ".." ∉ rest := fun hmem => hup (List.mem_cons_of_mem _ hmem)
    obtain ⟨w, hplace, ⟨next, hstep, hwalk⟩ | hvacant⟩ := walk_cons_cases h
    · have hbefore := ih hrest hwalk
      have hne : place ≠ q := by
        rintro rfl
        rw [node?_of_found h] at hplace
        cases hplace
      -- the places on the way are above the file, so they were there before
      obtain ⟨w', hfolder⟩ := hsound.folder_of_prefix hthere (prefix_of_walk hup h) hne
      refine (walk_of_step hfolder ?_ rest).trans hbefore
      cases hstep with
      | stays hdot => exact .stays hdot
      | up _ heq => exact absurd (heq ▸ List.mem_cons_self) hup
      | down hdot hnup hshort _ =>
        refine .down hdot hnup hshort ?_
        by_cases hlast : place ++ [name] = q
        · rw [hlast]
          exact hthere
        · obtain ⟨_, hnext⟩ :=
            hsound.folder_of_prefix hthere (prefix_of_walk hrest hwalk) hlast
          rw [hnext]
          rfl
    · cases hvacant

/-- The path leads to something at a place. -/
def LeadsTo (files : Files) (path : String) (q : List String) : Prop :=
  ∃ p node, Path.ofText? path = some p ∧ files.follow p = .ok (.found q node)

/-- Names that go up do so a last time. -/
theorem exists_last_up (h : ".." ∈ names) :
    ∃ before after, names = before ++ ".." :: after ∧ ".." ∉ after := by
  obtain ⟨after, before, heq, hafter⟩ := List.eq_append_cons_of_mem (List.mem_reverse.mpr h)
  refine ⟨before.reverse, after.reverse, ?_, fun hmem => hafter (List.mem_reverse.mp hmem)⟩
  rw [← names.reverse_reverse, heq]
  simp only [List.reverse_append, List.reverse_cons, List.append_assoc, List.singleton_append]

theorem Grown.follow_back {content : ByteArray} {writable : Bool} (hgrown : files.Grown files')
    (hsound : files.Sound)
    (hup : ∀ n, p.names[n]? = some ".." → files.isFolder (p.upTo n) = true)
    (h : files'.follow p = .ok (.found q (.file content writable))) :
    files.follow p = .ok (.found q (.file content writable)) := by
  rw [follow, hgrown.home] at h
  by_cases hmem : ".." ∈ p.names
  · -- to the last folder that it goes up from, the path led before; from there it goes down only
    obtain ⟨before, after, hnames, hafter⟩ := exists_last_up hmem
    have hat : p.names[before.length]? = some ".." := by
      rw [hnames, List.getElem?_append_right (Nat.le_refl _), Nat.sub_self]
      rfl
    obtain ⟨start, w, hfirst⟩ := isFolder_iff.mp (hup before.length hat)
    have hfirst' : files.walk (if p.absolute then [] else files.home) before
        = .ok (.found start (.folder w)) := by
      rw [← hfirst, follow, Path.upTo, hnames, List.take_left]
    have hnode := node?_of_found hfirst'
    have hstep : ∀ tree : Files, tree.Step start ".." start.dropLast := fun _ =>
      .up (by decide) rfl
    rw [hnames, walk_append, hgrown.walk_found hfirst'] at h
    rw [follow, hnames, walk_append, hfirst']
    dsimp only at h ⊢
    rw [walk_of_step (hgrown.node?_eq hnode) (hstep files')] at h
    rw [walk_of_step hnode (hstep files)]
    exact hgrown.walk_back hsound hafter h
  · exact hgrown.walk_back hsound hmem h

/-- The folder of the path is there, or in a sound tree each folder that it goes up from. -/
def Straight (files : Files) (path : String) : Prop :=
  files.HasParent path ∨ files.Sound ∧ files.GoesUpInside path

example : ({} : Files).Straight "app.toml" := .inl ⟨⟨false, [], false⟩, rfl, rfl⟩

/-- A straight path leads to no other file once the folders above it are made. -/
theorem Straight.follow_back {content : ByteArray} {writable : Bool} (h : files.Straight path)
    (hpath : Path.ofText? path = some p)
    (hfollow : (afterMaking (files.makeParents path)).follow p
      = .ok (.found q (.file content writable))) :
    files.follow p = .ok (.found q (.file content writable)) := by
  rcases h with hparent | ⟨hsound, hup⟩
  · rwa [afterMaking_of_hasParent hparent] at hfollow
  · exact (grown_makeParents files path).follow_back hsound (hup p hpath) hfollow

theorem Straight.find_back {content : ByteArray} {writable : Bool} (h : files.Straight path)
    (hfind : (afterMaking (files.makeParents path)).find path = .ok (.file content writable)) :
    files.find path = .ok (.file content writable) := by
  obtain ⟨hname, p, q, hpath, hfollow, hneeds⟩ := find_cases hfind
  unfold find
  rw [hname, hpath]
  dsimp only
  rw [h.follow_back hpath hfollow]
  dsimp only
  rw [hneeds content writable rfl, if_neg Bool.false_ne_true]

/-! ## Files that are written -/

/-- What is written is put where the path led, or at a name that its folder did not have. -/
theorem write_cases {content : ByteArray} (h : files.write path content = .ok files') :
    ∃ p q, Path.ofText? path = some p ∧ files' = files.put q (.file content true) ∧
      files'.follow p = .ok (.found q (.file content true)) ∧
      ((∃ old, files.follow p = .ok (.found q (.file old true))) ∨ files.node? q = none) := by
  unfold write at h
  split at h
  · cases h
  · cases h
  · next p _ hpath =>
    refine ⟨p, ?_⟩
    split at h
    · cases h
    · cases h
    · next place old writable hfollow =>
      split at h
      · cases h
      · split at h
        · next hwritable =>
          cases h
          subst hwritable
          exact ⟨place, hpath, rfl, walk_put_found hfollow _, .inl ⟨old, hfollow⟩⟩
        · cases h
    · next folder writable name hfollow =>
      split at h
      · cases h
      · split at h
        · cases h
          exact ⟨folder ++ [name], hpath, rfl, walk_put_vacant hfollow _,
            .inr (node?_of_vacant hfollow)⟩
        · cases h

/-- A file that is there and cannot be written is closed to writing. -/
theorem closed_of_write {content old : ByteArray} {writable : Bool} {fault : IoFault}
    (hfind : files.find path = .ok (.file old writable))
    (h : files.write path content = .error fault) : writable = false := by
  obtain ⟨hname, p, q, hpath, hfollow, hneeds⟩ := find_cases hfind
  unfold write at h
  rw [hname, hpath] at h
  dsimp only at h
  rw [hfollow] at h
  dsimp only at h
  rw [hneeds old writable rfl, if_neg Bool.false_ne_true] at h
  cases writable with
  | false => rfl
  | true => cases h

end ResumableUpload.Files
