import ResumableUpload.Proofs.Toml.Scalars

/-!
# Written tables are read back

A table is written as a header and a line for each entry. If its name and its keys need no quotation
marks (`Bare`) and no key stands twice, the text is read back as a table with just these entries, in
the same order (`read?_writeTable`). The lines are read first (`lines?_entries`); then each is put
into the table that the header opened (`putAll_values`).
-/

namespace ResumableUpload.Toml

/-! ## Keys -/

/-- A key that needs no quotation marks. -/
def Bare (key : String) : Prop := key.toList ≠ [] ∧ key.toList.all isKeyChar = true

instance (key : String) : Decidable (Bare key) := inferInstanceAs (Decidable (_ ∧ _))

variable {key name text : String} {v : Scalar} {rest more : List Char} {mark c : Char}

theorem Bare.all (h : Bare key) : ∀ c ∈ key.toList, isKeyChar c = true :=
  List.all_eq_true.mp h.2

theorem Bare.cons (h : Bare key) : ∃ c cs, key.toList = c :: cs ∧ isKeyChar c = true := by
  obtain ⟨c, cs, hcs⟩ := List.exists_cons_of_ne_nil h.1
  exact ⟨c, cs, hcs, h.all c (hcs ▸ List.mem_cons_self)⟩

/-- No key goes on with a mark that is no letter of keys. -/
theorem keyPart?_bare (h : Bare key) (hc : isKeyChar c = false) (rest : List Char) :
    keyPart? (key.toList ++ c :: rest) = some (key, c :: rest) := by
  have hstop : ¬ isKeyChar c = true := by simp [hc]
  have htake : (key.toList ++ c :: rest).takeWhile isKeyChar = key.toList := by
    rw [List.takeWhile_append_of_pos h.all, List.takeWhile_cons_of_neg hstop, List.append_nil]
  have hdrop : (key.toList ++ c :: rest).dropWhile isKeyChar = c :: rest := by
    rw [List.dropWhile_append_of_pos h.all, List.dropWhile_cons_of_neg hstop]
  obtain ⟨d, ds, hds, hd⟩ := h.cons
  unfold keyPart?
  split
  · next heq =>
    rw [hds] at heq
    rw [(List.cons.inj heq).1] at hd
    cases hd
  · next heq =>
    rw [hds] at heq
    rw [(List.cons.inj heq).1] at hd
    cases hd
  · rw [htake, hdrop, hds]
    dsimp only
    rw [← hds, String.ofList_toList]

theorem skipBlanks_cons (hc : isBlank c = false) (rest : List Char) :
    skipBlanks (c :: rest) = c :: rest :=
  List.dropWhile_cons_of_neg (by simp [hc])

theorem isBlank_eq_false (hspace : c ≠ ' ') (htab : c ≠ '\t') : isBlank c = false := by
  simp [isBlank, hspace, htab]

theorem isBlank_of_isKeyChar (h : isKeyChar c = true) : isBlank c = false :=
  isBlank_eq_false (by rintro rfl; cases h) (by rintro rfl; cases h)

/-- A key before a sign, with blanks between them. -/
theorem keyBefore?_bare (h : Bare key) (hc : isKeyChar c = false)
    (hmark : skipBlanks (c :: rest) = mark :: more) (hpoint : mark ≠ '.') :
    keyBefore? mark (key.toList ++ c :: rest) = some ([], key, more) := by
  have hskip : skipBlanks (key.toList ++ c :: rest) = key.toList ++ c :: rest := by
    obtain ⟨d, ds, hds, hd⟩ := h.cons
    rw [hds, List.cons_append, skipBlanks_cons (isBlank_of_isKeyChar hd)]
  have hrest : keyRest? [key] (maxKeyParts - 1) (c :: rest) = some ([key], mark :: more) := by
    show keyRest? [key] (77 + 1) (c :: rest) = _
    rw [keyRest?, hmark]
    split
    · next heq => exact absurd (List.cons.inj heq).1 hpoint
    · rfl
  rw [keyBefore?, key?, hskip, keyPart?_bare h hc]
  dsimp only
  rw [hrest]
  simp

/-! ## Lines -/

/-- An entry as a line of text. -/
def writtenLine? : String × Scalar → Option String
  | (key, value) => do
    let text ← writtenScalar? value
    pure (key ++ " = " ++ text ++ "\n")

theorem writeTable?_eq (name : String) (entries : List (String × Scalar)) :
    writeTable? name entries = (do
      let lines ← entries.mapM writtenLine?
      pure ("[" ++ name ++ "]\n" ++ String.join lines)) :=
  rfl

theorem writtenScalar?_cons (h : writtenScalar? v = some text) :
    ∃ c cs, text.toList = c :: cs ∧ isBlank c = false := by
  cases v with
  | text s =>
    cases h
    obtain ⟨cs, hcs | hcs⟩ := written_cons s
    · exact ⟨_, cs, hcs, rfl⟩
    · exact ⟨_, cs, hcs, rfl⟩
  | nat n =>
    rw [writtenScalar?] at h
    split at h
    · cases h
      obtain ⟨c, cs, hcs⟩ := List.exists_cons_of_ne_nil (Nat.toDigits_ne_nil (b := 10) (n := n))
      have hc : c.isDigit = true := isDigit_toDigits (hcs ▸ List.mem_cons_self)
      exact ⟨c, cs, Nat.toList_repr.trans hcs,
        isBlank_eq_false (by rintro rfl; cases hc) (by rintro rfl; cases hc)⟩
    · cases h
  | bool b =>
    cases h
    cases b <;> exact ⟨_, _, rfl, rfl⟩

/-- The line of an entry is read as that entry. -/
theorem line?_entry (hkey : Bare key) (hv : writtenScalar? v = some text) (rest : List Char) :
    line? (key.toList ++ ' ' :: '=' :: ' ' :: (text.toList ++ '\n' :: rest))
      = some (some (.entry ([], key, ofScalar v)), rest) := by
  obtain ⟨c, cs, hcs, hc⟩ := writtenScalar?_cons hv
  have hskip : skipBlanks (' ' :: (text.toList ++ '\n' :: rest)) = text.toList ++ '\n' :: rest := by
    rw [hcs]
    exact skipBlanks_cons hc _
  have hbefore : keyBefore? '=' (key.toList ++ ' ' :: '=' :: ' ' :: (text.toList ++ '\n' :: rest))
      = some ([], key, ' ' :: (text.toList ++ '\n' :: rest)) :=
    keyBefore?_bare hkey rfl rfl (by decide)
  obtain ⟨d, ds, hds, hd⟩ := hkey.cons
  have hhead : ∀ (x : Char) tail, isKeyChar x = false →
      key.toList ++ ' ' :: '=' :: ' ' :: (text.toList ++ '\n' :: rest) ≠ x :: tail := by
    intro x tail hx heq
    rw [hds] at heq
    rw [(List.cons.inj heq).1, hx] at hd
    cases hd
  unfold line?
  split
  · next heq => exact absurd heq (hhead _ _ (by decide))
  · next heq => exact absurd heq (hhead _ _ (by decide))
  · next heq => exact absurd heq (hhead _ _ (by decide))
  · next heq => exact absurd heq (hhead _ _ (by decide))
  · next heq => exact absurd heq (hhead _ _ (by decide))
  · rw [hbefore]
    dsimp only
    rw [hskip, value?_written hv]
    rfl

/-- The header of a table is read as such. -/
theorem line?_header (hname : Bare name) (rest : List Char) :
    line? ('[' :: (name.toList ++ ']' :: '\n' :: rest))
      = some (some (.header (.table [] name)), rest) := by
  have hbefore : keyBefore? ']' (name.toList ++ ']' :: '\n' :: rest)
      = some ([], name, '\n' :: rest) :=
    keyBefore?_bare hname rfl rfl (by decide)
  obtain ⟨d, ds, hds, hd⟩ := hname.cons
  unfold line?
  split
  · next heq => cases heq
  · next heq => cases heq
  · next heq => cases heq
  · next heq =>
    rw [hds] at heq
    rw [(List.cons.inj (List.cons.inj heq).2).1] at hd
    cases hd
  · next heq =>
    rw [← (List.cons.inj heq).2, hbefore]
    rfl
  · next h => exact (h _ rfl).elim

theorem lines?_line {cs : List Char} {line : Option Line} (hskip : skipBlanks cs = cs)
    (hline : line? cs = some (line, rest)) (hshort : rest.length < cs.length) (done : List Line) :
    lines? done cs = lines? (line.toList ++ done) rest := by
  rw [lines?, hskip]
  split
  · cases hshort
  · rw [hline]
    dsimp only
    rw [if_pos hshort]

/-- The value of an entry, as it is read. -/
def ofEntry (e : String × Scalar) : Draft.Line := ([], e.1, ofScalar e.2)

/-- The lines of entries are read as these entries. -/
theorem lines?_entries {entries : List (String × Scalar)} {lines : List String}
    (hkeys : ∀ e ∈ entries, Bare e.1) (h : entries.mapM writtenLine? = some lines)
    (done : List Line) :
    lines? done (String.join lines).toList
      = some (done.reverse ++ entries.map fun e => .entry (ofEntry e)) := by
  induction entries generalizing lines done with
  | nil =>
    cases h
    rw [lines?]
    simp [String.join, skipBlanks]
  | cons e entries ih =>
    obtain ⟨key, v⟩ := e
    rw [List.mapM_cons] at h
    obtain ⟨line, hline, h⟩ := Option.bind_eq_some_iff.mp h
    obtain ⟨others, hothers, h⟩ := Option.bind_eq_some_iff.mp h
    obtain ⟨text, htext, hline⟩ := Option.bind_eq_some_iff.mp hline
    cases h
    cases hline
    have hkey : Bare key := hkeys (key, v) List.mem_cons_self
    have hjoin : (String.join ((key ++ " = " ++ text ++ "\n") :: others)).toList
        = key.toList ++ ' ' :: '=' :: ' ' :: (text.toList ++ '\n' :: (String.join others).toList) := by
      simp [String.toList_join]
    have hskip : skipBlanks (key.toList ++ ' ' :: '=' :: ' ' ::
        (text.toList ++ '\n' :: (String.join others).toList)) = key.toList ++ ' ' :: '=' :: ' ' ::
        (text.toList ++ '\n' :: (String.join others).toList) := by
      obtain ⟨d, ds, hds, hd⟩ := hkey.cons
      rw [hds]
      exact skipBlanks_cons (isBlank_of_isKeyChar hd) _
    rw [hjoin, lines?_line hskip (line?_entry hkey htext _) (by simp; omega),
      ih (fun e he => hkeys e (List.mem_cons_of_mem _ he)) hothers]
    simp [ofEntry]

/-! ## Tables -/

theorem find?_of_not_mem {t : Draft} (h : key ∉ t.entries.map Prod.fst) : t.find? key = none := by
  have hnone : t.entries.find? (·.1 == key) = none := by
    refine List.find?_eq_none.mpr fun e he heq => h ?_
    exact beq_iff_eq.mp heq ▸ List.mem_map_of_mem he
  rw [Draft.find?, hnone]
  rfl

theorem set_of_not_mem {t : Draft} (h : key ∉ t.entries.map Prod.fst) (item : Item) :
    t.set key item = .mk t.isImplicit t.isDotted (t.entries ++ [(key, item)]) := by
  rw [Draft.set, find?_of_not_mem h]
  rfl

/-- Entries with different keys are put into a table one after another. -/
theorem putAll_entries {implicit : Bool} (there : List (String × Item))
    {entries : List (String × Scalar)}
    (h : (there.map Prod.fst ++ entries.map Prod.fst).Nodup) :
    (Draft.mk implicit false there).putAll (entries.map ofEntry)
      = some (.mk implicit false (there ++ entries.map fun e => (e.1, .value (ofScalar e.2)))) := by
  induction entries generalizing there with
  | nil =>
    rw [List.map_nil, List.map_nil, List.append_nil]
    rfl
  | cons e entries ih =>
    have hnew : e.1 ∉ there.map Prod.fst := fun hmem =>
      (List.nodup_append.mp h).2.2 e.1 hmem e.1 List.mem_cons_self rfl
    have hput : (Draft.mk implicit false there).put [] e.1 (ofScalar e.2)
        = some (.mk implicit false (there ++ [(e.1, .value (ofScalar e.2))])) := by
      rw [Draft.put, Draft.modifyAt, find?_of_not_mem hnew, set_of_not_mem hnew]
      rfl
    rw [Draft.putAll, List.map_cons, List.foldlM_cons]
    show ((Draft.mk implicit false there).put [] e.1 (ofScalar e.2)).bind _ = _
    rw [hput, Option.bind_some]
    refine (ih _ ?_).trans ?_
    · simpa using h
    · simp

theorem finishEntries_values (entries : List (String × Scalar)) :
    finishEntries (entries.map fun e => (e.1, .value (ofScalar e.2)))
      = entries.map fun e => (e.1, ofScalar e.2) := by
  induction entries with
  | nil => rfl
  | cons e entries ih => rw [List.map_cons, finishEntries, ih, Item.finish, List.map_cons]

theorem ofLines_entries (lines : List Draft.Line) :
    Document.ofLines (lines.map .entry) = ⟨lines, []⟩ := by
  induction lines with
  | nil => rfl
  | cons l lines ih =>
    rw [Document.ofLines] at ih ⊢
    rw [List.map_cons, List.foldr_cons, ih]
    rfl

/-- A document of one table with different keys. -/
theorem build_table {entries : List (String × Scalar)} (name : String)
    (h : (entries.map Prod.fst).Nodup) :
    (Document.mk [] [(.table [] name, entries.map ofEntry)]).build
      = some (.mk false false [(name, .table (.mk false false
          (entries.map fun e => (e.1, .value (ofScalar e.2)))))]) := by
  have hbelow : Draft.empty.putAll (entries.map ofEntry)
      = some (.mk false false (entries.map fun e => (e.1, .value (ofScalar e.2)))) :=
    putAll_entries [] h
  have hopen : Draft.empty.openTable (.table [] name) (entries.map ofEntry)
      = (Draft.empty.putAll (entries.map ofEntry)).bind fun below =>
          some (Draft.empty.set name (.table below)) := rfl
  show (Draft.empty.openTable (.table [] name) (entries.map ofEntry)).bind some = _
  rw [hopen, hbelow]
  rfl

/-- A table that is written is read back, with its entries in the order in which they were
written. -/
theorem read?_writeTable {entries : List (String × Scalar)} (hname : Bare name)
    (hkeys : ∀ e ∈ entries, Bare e.1) (hnodup : (entries.map Prod.fst).Nodup)
    (h : writeTable? name entries = some text) :
    read? text = some (.table [(name, .table (entries.map fun e => (e.1, ofScalar e.2)))]) := by
  rw [writeTable?_eq] at h
  obtain ⟨lines, hlines, h⟩ := Option.bind_eq_some_iff.mp h
  cases h
  have htext : ("[" ++ name ++ "]\n" ++ String.join lines).toList
      = '[' :: (name.toList ++ ']' :: '\n' :: (String.join lines).toList) := by
    simp
  have hread : lines? [] (skipMark ("[" ++ name ++ "]\n" ++ String.join lines).toList)
      = some (.header (.table [] name) :: (entries.map ofEntry).map .entry) := by
    rw [htext]
    show lines? [] ('[' :: (name.toList ++ ']' :: '\n' :: (String.join lines).toList)) = _
    rw [lines?_line rfl (line?_header hname _) (by simp; omega), lines?_entries hkeys hlines]
    simp
  have hdocument : Document.ofLines (.header (.table [] name) :: (entries.map ofEntry).map .entry)
      = ⟨[], [(.table [] name, entries.map ofEntry)]⟩ :=
    congrArg (Document.cons · (.header (.table [] name))) (ofLines_entries _)
  rw [read?, hread]
  show ((Document.ofLines _).build.bind fun root => some root.finish) = _
  rw [hdocument, build_table name hnodup, Option.bind_some]
  simp only [Draft.finish, finishEntries, Item.finish, finishEntries_values]

end ResumableUpload.Toml
