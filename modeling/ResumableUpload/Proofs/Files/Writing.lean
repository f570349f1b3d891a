import ResumableUpload.Files

/-!
# What is written is read

Putting something at a place changes no other place (`node?_put`), and a path that led to a file, or
to a name that its folder did not have, leads to what was put there (`walk_put_found`,
`walk_put_vacant`). So a file that was written holds what was written to it (`find_write`).
-/

namespace ResumableUpload.Files

variable {files files' : Files} {place q folder names : List String} {name : String}
  {node new : Node}

theorem node?_put (files : Files) (place q : List String) (node : Node) :
    (files.put place node).node? q = if q = place then some node else files.node? q := by
  have hfind : (files.put place node).nodes.find? (·.1 == q)
      = if q = place then some (place, node) else files.nodes.find? (·.1 == q) := by
    show (files.nodes.filter (·.1 != place) ++ [(place, node)]).find? (·.1 == q) = _
    rw [List.find?_append, List.find?_filter]
    by_cases hq : q = place
    · subst hq
      have hnone : files.nodes.find? (fun x => decide ((x.1 != q) = true ∧ (x.1 == q) = true))
          = none := by
        rw [List.find?_eq_none]
        simp
      rw [hnone, if_pos rfl]
      simp
    · have hsame : (fun x : List String × Node =>
          decide ((x.1 != place) = true ∧ (x.1 == q) = true)) = fun x => x.1 == q := by
        funext x
        by_cases hx : x.1 = q
        · simp [hx, hq]
        · simp [hx]
      rw [hsame, if_neg hq]
      simp [Ne.symm hq]
  unfold node?
  rw [hfind]
  by_cases hq : q = place
  · rw [if_pos hq, if_pos hq]
  · rw [if_neg hq, if_neg hq]

theorem node?_of_found (h : files.walk place names = .ok (.found q node)) :
    files.node? q = some node := by
  induction names generalizing place with
  | nil =>
    rw [walk] at h
    split at h
    · next hnode =>
      injection h with h
      injection h with hq hn
      rw [← hq, ← hn, hnode]
    · cases h
  | cons name rest ih =>
    rw [walk] at h
    split at h
    · cases h
    · cases h
    · split at h
      · exact ih h
      · split at h
        · exact ih h
        · split at h
          · cases h
          · split at h
            · exact ih h
            · split at h
              · cases h
              · cases h

theorem node?_of_vacant {writable : Bool}
    (h : files.walk place names = .ok (.vacant folder writable name)) :
    files.node? (folder ++ [name]) = none := by
  induction names generalizing place with
  | nil =>
    rw [walk] at h
    split at h <;> cases h
  | cons next rest ih =>
    rw [walk] at h
    split at h
    · cases h
    · cases h
    · split at h
      · exact ih h
      · split at h
        · exact ih h
        · split at h
          · cases h
          · split at h
            · exact ih h
            · next hnone =>
              split at h
              · injection h with h
                injection h with hfolder _ hname
                rw [← hfolder, ← hname]
                simpa using hnone
              · cases h

/-- A path that led to a file leads to what was put in its place. -/
theorem walk_put_found {content : ByteArray} {writable : Bool}
    (h : files.walk place names = .ok (.found q (.file content writable))) (new : Node) :
    (files.put q new).walk place names = .ok (.found q new) := by
  have hfile := node?_of_found h
  -- on the way there are folders only
  have hfolder : ∀ p w, files.node? p = some (.folder w) →
      (files.put q new).node? p = some (.folder w) := by
    intro p w hp
    have hne : p ≠ q := by
      rintro rfl
      rw [hp] at hfile
      cases hfile
    rw [node?_put, if_neg hne, hp]
  have hsome : ∀ p, ((files.put q new).node? p).isSome = (files.node? p).isSome := by
    intro p
    rw [node?_put]
    split
    · next hp => rw [hp, hfile]; rfl
    · rfl
  induction names generalizing place with
  | nil =>
    rw [walk] at h
    split at h
    · injection h with h
      injection h with hq _
      subst hq
      rw [walk, node?_put, if_pos rfl]
    · cases h
  | cons name rest ih =>
    rw [walk] at h
    split at h
    · cases h
    · cases h
    · next w hplace =>
      rw [walk, hfolder place w hplace]
      dsimp only
      rw [hsome]
      split at h
      · next hdot => rw [if_pos hdot]; exact ih h
      · next hdot =>
        rw [if_neg hdot]
        split at h
        · next hup => rw [if_pos hup]; exact ih h
        · next hup =>
          rw [if_neg hup]
          split at h
          · cases h
          · next hshort =>
            rw [if_neg hshort]
            split at h
            · next hthere => rw [if_pos hthere]; exact ih h
            · split at h
              · cases h
              · cases h

/-- A path that led to a missing name leads to what was put there. -/
theorem walk_put_vacant {writable : Bool}
    (h : files.walk place names = .ok (.vacant folder writable name)) (new : Node) :
    (files.put (folder ++ [name]) new).walk place names = .ok (.found (folder ++ [name]) new) := by
  have hnone := node?_of_vacant h
  have hkept : ∀ p, (files.node? p).isSome = true →
      (files.put (folder ++ [name]) new).node? p = files.node? p := by
    intro p hp
    have hne : p ≠ folder ++ [name] := by
      rintro rfl
      rw [hnone] at hp
      cases hp
    rw [node?_put, if_neg hne]
  induction names generalizing place with
  | nil =>
    rw [walk] at h
    split at h <;> cases h
  | cons next rest ih =>
    rw [walk] at h
    split at h
    · cases h
    · cases h
    · next w hplace =>
      rw [walk, hkept place (by rw [hplace]; rfl), hplace]
      dsimp only
      split at h
      · next hdot => rw [if_pos hdot]; exact ih h
      · next hdot =>
        rw [if_neg hdot]
        split at h
        · next hup => rw [if_pos hup]; exact ih h
        · next hup =>
          rw [if_neg hup]
          split at h
          · cases h
          · next hshort =>
            rw [if_neg hshort]
            split at h
            · next hthere =>
              rw [hkept _ hthere, if_pos hthere]
              exact ih h
            · split at h
              · next hlast =>
                injection h with h
                injection h with hfolder _ hname
                subst hfolder hname
                have hself :
                    (files.put (place ++ [next]) new).node? (place ++ [next]) = some new := by
                  rw [node?_put, if_pos rfl]
                rw [hself, List.isEmpty_iff.mp hlast]
                simp only [Option.isSome_some, if_true, walk, hself]
              · cases h

/-- A file that was written is found, with what was written to it. -/
theorem find_write {path : String} {content : ByteArray}
    (h : files.write path content = .ok files') :
    files'.find path = .ok (.file content true) := by
  unfold write at h
  split at h
  · cases h
  · cases h
  · next p hname hpath =>
    unfold find
    rw [hname, hpath]
    dsimp only at h ⊢
    split at h
    · cases h
    · cases h
    · next place old writable hfollow =>
      split at h
      · cases h
      · next hneeds =>
        split at h
        · injection h with h
          have hput : files'.follow p = .ok (.found place (.file content true)) := by
            rw [← h]
            exact walk_put_found hfollow _
          rw [hput]
          exact if_neg hneeds
        · cases h
    · next folder writable name hfollow =>
      split at h
      · cases h
      · next hneeds =>
        split at h
        · injection h with h
          have hput : files'.follow p = .ok (.found (folder ++ [name]) (.file content true)) := by
            rw [← h]
            exact walk_put_vacant hfollow _
          rw [hput]
          exact if_neg hneeds
        · cases h

theorem contains_write {path : String} {content : ByteArray}
    (h : files.write path content = .ok files') : files'.contains path = true := by
  rw [contains, find_write h]
  rfl

theorem readText_of_find {path text : String} {writable : Bool}
    (h : files.find path = .ok (.file text.toUTF8 writable)) : files.readText path = .ok text := by
  have htext : String.fromUTF8? text.toUTF8 = some text := dif_pos text.isValidUTF8
  rw [readText, read, h]
  dsimp only
  rw [htext]

theorem readText_write {path text : String}
    (h : files.write path text.toUTF8 = .ok files') : files'.readText path = .ok text :=
  readText_of_find (find_write h)

end ResumableUpload.Files
