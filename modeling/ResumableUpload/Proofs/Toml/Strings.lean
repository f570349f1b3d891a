import ResumableUpload.Toml.Lexer
import ResumableUpload.Toml.Writer

/-!
# Written strings are read back

A string is read back from the form that is chosen for it, if no quotation mark follows
(`string?_written`). With escapes every character can be written (`basic_line`, `multiline_lines`);
without, the form is chosen only for characters that it can hold (`literal_plain`,
`literalLines_plain`). In a string of several lines a row of up to two quotation marks stands for
itself, also right before the closing ones, and a reader sees what a row is only at its start; so the
row that has been passed is carried along in the induction.
-/

namespace ResumableUpload.Toml

/-! ## Escapes -/

theorem scalar?_upperFour {c : Char} (h : c.toNat < 0x80) :
    scalar? (Text.Hex.upperFour c.toNat) = some c := by
  have hall : ∀ m : Fin 0x80, Text.Hex.number? (Text.Hex.upperFour m) = some m.val := by decide
  have hvalid : c.toNat.isValidChar := c.valid
  rw [scalar?, hall ⟨c.toNat, h⟩]
  dsimp only
  rw [if_pos hvalid, Char.ofNat_toNat]

theorem lt_of_isControl {c : Char} (h : isControl c = true) : c.toNat < 0x80 := by
  simp only [isControl, Bool.or_eq_true, decide_eq_true_eq, beq_iff_eq] at h
  omega

theorem isPrintable_of_not_isControl {c : Char} (h : isControl c = false) :
    isPrintable c = true := by
  simp only [isControl, Bool.or_eq_false_iff, decide_eq_false_iff_not, beq_eq_false_iff_ne] at h
  simp only [isPrintable, Bool.or_eq_true, Bool.and_eq_true, decide_eq_true_eq, bne_iff_ne]
  omega

variable {c : Char} {cs done rest : List Char}

theorem basic_printable (hprint : isPrintable c = true) (hquote : c ≠ '"') (hslash : c ≠ '\\') :
    basic done (c :: rest) = basic (c :: done) rest := by
  rw [basic.eq_def]
  split
  · next heq => cases heq
  · next heq =>
    injection heq with heq
    exact absurd heq hquote
  · next heq =>
    injection heq with heq
    exact absurd heq hslash
  · next heq =>
    injection heq with heq
    exact absurd heq hslash
  · next heq =>
    injection heq with heq
    exact absurd heq hslash
  · next heq =>
    injection heq with hc hrest
    rw [← hc, ← hrest, if_pos hprint]

/-- In a string of one line a character is read as it was written. -/
theorem basic_escaped (hquote : c ≠ '"') :
    basic done (escaped c ++ rest) = basic (c :: done) rest := by
  unfold escaped
  split
  · rfl
  · rfl
  · rfl
  · rfl
  · rfl
  · next hslash =>
    by_cases hc : isControl c = true
    · have hscalar := scalar?_upperFour (lt_of_isControl hc)
      rw [if_pos hc]
      simp only [Text.Hex.upperFour] at hscalar ⊢
      simp only [List.cons_append, List.nil_append, basic, hscalar]
    · rw [if_neg hc]
      exact basic_printable (isPrintable_of_not_isControl (by simpa using hc)) hquote hslash

/-- In a string of one line each character is read as it was written. -/
theorem basic_cons (c : Char) (cs done rest : List Char) :
    basic done (escapedLine (c :: cs) ++ rest) = basic (c :: done) (escapedLine cs ++ rest) := by
  by_cases hquote : c = '"'
  · subst hquote
    rfl
  · by_cases hbreak : c = '\n'
    · subst hbreak
      rfl
    · rw [escapedLine, List.append_assoc, basic_escaped hquote]
      · exact hquote
      · exact hbreak

theorem basic_line (cs done rest : List Char) :
    basic done (escapedLine cs ++ '"' :: rest)
      = some (String.ofList (done.reverse ++ cs), rest) := by
  induction cs generalizing done with
  | nil =>
    rw [List.append_nil]
    rfl
  | cons c cs ih =>
    rw [basic_cons, ih, List.reverse_cons, List.append_assoc]
    rfl

/-! ## Several lines with escapes -/

/-- A character that stands for itself: no three quotation marks start with it. -/
theorem multiline_printable (hprint : isPrintable c = true) (hslash : c ≠ '\\')
    (hquotes : ∀ more, c :: rest ≠ '"' :: '"' :: '"' :: more) :
    multiline done .text (c :: rest) = multiline (c :: done) .text rest := by
  have hbreak : c ≠ '\n' := by
    rintro rfl
    cases hprint
  have hreturn : c ≠ '\r' := by
    rintro rfl
    cases hprint
  rw [multiline.eq_def]
  split <;> simp_all

theorem head_ne_quote_escaped (hquote : c ≠ '"') (rest : List Char) :
    (escaped c ++ rest).head? ≠ some '"' := by
  unfold escaped
  split
  · simp
  · simp
  · simp
  · simp
  · simp
  · split
    · simp
    · simpa using hquote

/-- In a string of several lines a character is read as it was written. -/
theorem multiline_escaped (hquote : c ≠ '"') :
    multiline done .text (escaped c ++ rest) = multiline (c :: done) .text rest := by
  unfold escaped
  split
  · rfl
  · rfl
  · rfl
  · rfl
  · rfl
  · next hslash =>
    by_cases hc : isControl c = true
    · have hscalar := scalar?_upperFour (lt_of_isControl hc)
      rw [if_pos hc]
      simp only [Text.Hex.upperFour] at hscalar ⊢
      simp only [List.cons_append, List.nil_append, multiline, hscalar]
    · rw [if_neg hc]
      exact multiline_printable (isPrintable_of_not_isControl (by simpa using hc)) hslash
        fun more heq => hquote (List.cons.inj heq).1

/-- A row of up to two quotation marks that something else follows. -/
theorem multiline_row {row : Nat} (hrow : row ≤ 2) (hrest : rest.head? ≠ some '"') :
    multiline done .text (List.replicate row '"' ++ rest)
      = multiline (List.replicate row '"' ++ done) .text rest := by
  have hone : ∀ done, multiline done .text ('"' :: rest) = multiline ('"' :: done) .text rest := by
    intro done
    refine multiline_printable rfl (by decide) fun more heq => hrest ?_
    rw [(List.cons.inj heq).2]
    rfl
  match row, hrow with
  | 0, _ => rfl
  | 1, _ => exact hone done
  | 2, _ =>
    have htwo : multiline done .text ('"' :: '"' :: rest)
        = multiline ('"' :: done) .text ('"' :: rest) := by
      refine multiline_printable rfl (by decide) fun more heq => hrest ?_
      rw [(List.cons.inj (List.cons.inj heq).2).2]
      rfl
    exact htwo.trans (hone _)

/-- The end of a string of several lines, with a row of up to two quotation marks before it. -/
theorem multiline_close {row : Nat} (hrow : row ≤ 2) (hrest : rest.head? ≠ some '"') :
    multiline done .text (List.replicate row '"' ++ '"' :: '"' :: '"' :: rest)
      = some (String.ofList (List.replicate row '"' ++ done).reverse, rest) := by
  match row, hrow with
  | 0, _ =>
    cases rest with
    | nil => rfl
    | cons c rest =>
      have hc : c ≠ '"' := fun heq => hrest (congrArg some heq)
      simp [multiline, hc]
  | 1, _ =>
    cases rest with
    | nil => rfl
    | cons c rest =>
      have hc : c ≠ '"' := fun heq => hrest (congrArg some heq)
      simp [multiline, hc]
  | 2, _ => rfl

/-- In a string of several lines each character that is no quotation mark ends the row before it,
and is read as it was written. -/
theorem multiline_cons {row : Nat} (hrow : row ≤ 2) (hquote : c ≠ '"') (cs done rest : List Char) :
    multiline done .text (List.replicate row '"' ++ escapedLines row (c :: cs) ++ rest)
      = multiline (c :: (List.replicate row '"' ++ done)) .text (escapedLines 0 cs ++ rest) := by
  by_cases hbreak : c = '\n'
  · subst hbreak
    rw [List.append_assoc, multiline_row hrow (by simp [escapedLines])]
    rfl
  · have htext : escapedLines row (c :: cs) = escaped c ++ escapedLines 0 cs := by
      rw [escapedLines]
      · exact hquote
      · exact hbreak
    rw [htext, List.append_assoc, List.append_assoc,
      multiline_row hrow (head_ne_quote_escaped hquote _), multiline_escaped hquote]

/-- A string of several lines is read as it was written, from where a row of quotation marks is
being passed. -/
theorem multiline_lines {row : Nat} (hrow : row ≤ 2) (cs done : List Char)
    (hrest : rest.head? ≠ some '"') :
    multiline done .text
        (List.replicate row '"' ++ escapedLines row cs ++ '"' :: '"' :: '"' :: rest)
      = some (String.ofList ((List.replicate row '"' ++ done).reverse ++ cs), rest) := by
  induction cs generalizing row done with
  | nil => rw [escapedLines, List.append_nil, multiline_close hrow hrest, List.append_nil]
  | cons c cs ih =>
    by_cases hquote : c = '"'
    · subst hquote
      by_cases hfull : row = 2
      · -- the third of a row is escaped
        subst hfull
        exact (ih (Nat.zero_le 2) ('"' :: '"' :: '"' :: done)).trans (by simp)
      · have htext : List.replicate row '"' ++ escapedLines row ('"' :: cs)
            = List.replicate (row + 1) '"' ++ escapedLines (row + 1) cs := by
          rw [escapedLines, if_neg hfull, List.replicate_succ', List.append_assoc]
          rfl
        rw [htext, ih (by omega)]
        simp [List.replicate_succ]
    · rw [multiline_cons hrow hquote]
      exact (ih (Nat.zero_le 2) _).trans (by simp)

/-! ## Without escapes -/

theorem isPrintable_of_isPlain (h : StringForm.isPlain cs = true) (hc : c ∈ cs) :
    isPrintable c = true := by
  have hplain := List.all_eq_true.mp h c hc
  rcases Bool.or_eq_true_iff.mp hplain with htab | hcontrol
  · rw [beq_iff_eq.mp htab]
    rfl
  · exact isPrintable_of_not_isControl (by simpa using hcontrol)

theorem literal_plain (hprint : ∀ c ∈ cs, isPrintable c = true) (hquote : '\'' ∉ cs)
    (done rest : List Char) :
    literal done (cs ++ '\'' :: rest) = some (String.ofList (done.reverse ++ cs), rest) := by
  induction cs generalizing done with
  | nil =>
    rw [List.append_nil]
    rfl
  | cons c cs ih =>
    have hc : c ≠ '\'' := fun heq => hquote (heq ▸ List.mem_cons_self)
    have hread : literal done (c :: (cs ++ '\'' :: rest))
        = literal (c :: done) (cs ++ '\'' :: rest) := by
      rw [literal, if_pos (hprint c List.mem_cons_self)]
      exact hc
    rw [List.cons_append, hread, ih (fun d hd => hprint d (List.mem_cons_of_mem c hd))
      fun hmem => hquote (List.mem_cons_of_mem c hmem), List.reverse_cons, List.append_assoc]
    rfl

/-- A character or a line feed that stands for itself: no three quotation marks start with it. -/
theorem literalLines_printable (hprint : isPrintable c = true ∨ c = '\n')
    (hquotes : ∀ more, c :: rest ≠ '\'' :: '\'' :: '\'' :: more) :
    literalLines done (c :: rest) = literalLines (c :: done) rest := by
  have hreturn : c ≠ '\r' := by
    rintro rfl
    rcases hprint with h | h <;> cases h
  rw [literalLines.eq_def]
  split <;> simp_all

theorem literalLines_row {row : Nat} (hrow : row ≤ 2) (hrest : rest.head? ≠ some '\'') :
    literalLines done (List.replicate row '\'' ++ rest)
      = literalLines (List.replicate row '\'' ++ done) rest := by
  have hone : ∀ done, literalLines done ('\'' :: rest) = literalLines ('\'' :: done) rest := by
    intro done
    refine literalLines_printable (.inl rfl) fun more heq => hrest ?_
    rw [(List.cons.inj heq).2]
    rfl
  match row, hrow with
  | 0, _ => rfl
  | 1, _ => exact hone done
  | 2, _ =>
    have htwo : literalLines done ('\'' :: '\'' :: rest)
        = literalLines ('\'' :: done) ('\'' :: rest) := by
      refine literalLines_printable (.inl rfl) fun more heq => hrest ?_
      rw [(List.cons.inj (List.cons.inj heq).2).2]
      rfl
    exact htwo.trans (hone _)

theorem literalLines_close {row : Nat} (hrow : row ≤ 2) (hrest : rest.head? ≠ some '\'') :
    literalLines done (List.replicate row '\'' ++ '\'' :: '\'' :: '\'' :: rest)
      = some (String.ofList (List.replicate row '\'' ++ done).reverse, rest) := by
  match row, hrow with
  | 0, _ =>
    cases rest with
    | nil => rfl
    | cons c rest =>
      have hc : c ≠ '\'' := fun heq => hrest (congrArg some heq)
      simp [literalLines, hc]
  | 1, _ =>
    cases rest with
    | nil => rfl
    | cons c rest =>
      have hc : c ≠ '\'' := fun heq => hrest (congrArg some heq)
      simp [literalLines, hc]
  | 2, _ => rfl

theorem row_le_longestRow (c : Char) (row : Nat) (cs : List Char) : row ≤ longestRow c row cs := by
  induction cs generalizing row with
  | nil => exact Nat.le_refl row
  | cons d cs ih =>
    rw [longestRow]
    split
    · exact Nat.le_trans (Nat.le_succ row) (ih (row + 1))
    · exact Nat.le_max_left _ _

theorem literalLines_plain {row : Nat} (hprint : ∀ c ∈ cs, isPrintable c = true ∨ c = '\n')
    (hrow : longestRow '\'' row cs ≤ 2) (done : List Char) (hrest : rest.head? ≠ some '\'') :
    literalLines done (List.replicate row '\'' ++ cs ++ '\'' :: '\'' :: '\'' :: rest)
      = some (String.ofList ((List.replicate row '\'' ++ done).reverse ++ cs), rest) := by
  induction cs generalizing row done with
  | nil =>
    have hrow : row ≤ 2 := hrow
    rw [List.append_nil, literalLines_close hrow hrest, List.append_nil]
  | cons c cs ih =>
    have hprint' := fun d hd => hprint d (List.mem_cons_of_mem c hd)
    have hle := Nat.le_trans (row_le_longestRow _ _ _) hrow
    rw [longestRow] at hrow
    by_cases hquote : c = '\''
    · subst hquote
      rw [if_pos (by decide)] at hrow
      have htext : List.replicate row '\'' ++ '\'' :: cs = List.replicate (row + 1) '\'' ++ cs := by
        rw [List.replicate_succ', List.append_assoc]
        rfl
      rw [htext, ih hprint' hrow]
      simp [List.replicate_succ]
    · rw [if_neg (by simpa using hquote)] at hrow
      have hhead : (c :: (cs ++ '\'' :: '\'' :: '\'' :: rest)).head? ≠ some '\'' :=
        fun heq => hquote (Option.some.inj heq)
      rw [List.append_assoc, List.cons_append, literalLines_row hle hhead,
        literalLines_printable (hprint c List.mem_cons_self) fun more heq =>
          hquote (List.cons.inj heq).1]
      exact (ih hprint' (Nat.le_trans (Nat.le_max_right _ _) hrow) _).trans (by simp)

/-! ## All forms -/

/-- A text that is no third quotation mark of either kind. -/
def Ends (rest : List Char) : Prop := rest.head? ≠ some '"' ∧ rest.head? ≠ some '\''

/-- The line feed after the opening marks is passed over, and no other. -/
theorem skipNewline_firstBreak {body : List Char}
    (hbody : '\n' ∉ cs → body.head? ≠ some '\n' ∧ body.head? ≠ some '\r') :
    skipNewline (firstBreak cs ++ body) = body := by
  by_cases hbreak : '\n' ∈ cs
  · rw [firstBreak, if_pos (by simpa using hbreak)]
    rfl
  · obtain ⟨hline, hreturn⟩ := hbody hbreak
    rw [firstBreak, if_neg (by simpa using hbreak), List.nil_append]
    unfold skipNewline newline?
    split
    · exact absurd rfl hline
    · exact absurd rfl hreturn
    · rfl

theorem head_escaped_break (hbreak : c ≠ '\n') (rest : List Char) :
    (escaped c ++ rest).head? ≠ some '\n' ∧ (escaped c ++ rest).head? ≠ some '\r' := by
  unfold escaped
  split
  · simp
  · simp
  · simp
  · simp
  · simp
  · next hreturn _ =>
    split
    · simp
    · exact ⟨by simpa using hbreak, by simpa using hreturn⟩

theorem string?_line {body : List Char} (h : ∀ more, body ≠ '"' :: '"' :: more) :
    string? ('"' :: body) = basic [] body := by
  unfold string?
  split <;> simp_all

theorem string?_literalLine {body : List Char} (h : ∀ more, body ≠ '\'' :: '\'' :: more) :
    string? ('\'' :: body) = literal [] body := by
  unfold string?
  split <;> simp_all

theorem string?_basic (cs : List Char) (hrest : Ends rest) :
    string? (writtenAs .basic cs ++ rest) = some (String.ofList cs, rest) := by
  have htext : writtenAs .basic cs ++ rest = '"' :: (escapedLine cs ++ '"' :: rest) := by
    simp [writtenAs]
  rw [htext, string?_line, basic_line]
  · rfl
  · intro more heq
    cases cs with
    | nil => exact hrest.1 (by rw [(List.cons.inj heq).2]; rfl)
    | cons c cs =>
      -- the first character is escaped if it is a quotation mark
      have hhead : (escapedLine (c :: cs) ++ '"' :: rest).head? ≠ some '"' := by
        by_cases hquote : c = '"'
        · subst hquote
          simp [escapedLine]
        · by_cases hbreak : c = '\n'
          · subst hbreak
            simp [escapedLine]
          · rw [escapedLine, List.append_assoc]
            · exact head_ne_quote_escaped hquote _
            · exact hquote
            · exact hbreak
      exact hhead (by rw [heq]; rfl)

theorem string?_literal (hplain : StringForm.isPlain cs = true) (hquote : '\'' ∉ cs)
    (hrest : Ends rest) :
    string? (writtenAs .literal cs ++ rest) = some (String.ofList cs, rest) := by
  have htext : writtenAs .literal cs ++ rest = '\'' :: (cs ++ '\'' :: rest) := by
    simp [writtenAs]
  rw [htext, string?_literalLine,
    literal_plain (fun c hc => isPrintable_of_isPlain hplain hc) hquote]
  · rfl
  · intro more heq
    cases cs with
    | nil => exact hrest.2 (by rw [(List.cons.inj heq).2]; rfl)
    | cons c cs => exact hquote ((List.cons.inj heq).1 ▸ List.mem_cons_self)

theorem string?_basicLines (cs : List Char) (hrest : Ends rest) :
    string? (writtenAs .basicLines cs ++ rest) = some (String.ofList cs, rest) := by
  have htext : writtenAs .basicLines cs ++ rest = '"' :: '"' :: '"' :: (firstBreak cs
      ++ (escapedLines 0 cs ++ '"' :: '"' :: '"' :: rest)) := by
    simp [writtenAs]
  have hskip : skipNewline (firstBreak cs ++ (escapedLines 0 cs ++ '"' :: '"' :: '"' :: rest))
      = escapedLines 0 cs ++ '"' :: '"' :: '"' :: rest := by
    refine skipNewline_firstBreak fun hno => ?_
    cases cs with
    | nil => simp [escapedLines]
    | cons c cs =>
      have hbreak : c ≠ '\n' := fun heq => hno (heq ▸ List.mem_cons_self)
      by_cases hquote : c = '"'
      · subst hquote
        simp [escapedLines]
      · rw [escapedLines, List.append_assoc]
        · exact head_escaped_break hbreak _
        · exact hquote
        · exact hbreak
  rw [htext]
  show multiline [] .text (skipNewline _) = _
  rw [hskip]
  exact multiline_lines (Nat.zero_le 2) cs [] hrest.1

theorem string?_literalLines (hplain : StringForm.isPlainLines cs = true)
    (hrow : longestRow '\'' 0 cs ≤ 2) (hrest : Ends rest) :
    string? (writtenAs .literalLines cs ++ rest) = some (String.ofList cs, rest) := by
  have hprint : ∀ c ∈ cs, isPrintable c = true ∨ c = '\n' := by
    intro c hc
    have hc := List.all_eq_true.mp hplain c hc
    rcases Bool.or_eq_true_iff.mp hc with hc | hcontrol
    · rcases Bool.or_eq_true_iff.mp hc with htab | hbreak
      · rw [beq_iff_eq.mp htab]
        exact .inl rfl
      · exact .inr (beq_iff_eq.mp hbreak)
    · exact .inl (isPrintable_of_not_isControl (by simpa using hcontrol))
  have htext : writtenAs .literalLines cs ++ rest = '\'' :: '\'' :: '\'' :: (firstBreak cs
      ++ (cs ++ '\'' :: '\'' :: '\'' :: rest)) := by
    simp [writtenAs]
  have hskip : skipNewline (firstBreak cs ++ (cs ++ '\'' :: '\'' :: '\'' :: rest))
      = cs ++ '\'' :: '\'' :: '\'' :: rest := by
    refine skipNewline_firstBreak fun hno => ?_
    cases cs with
    | nil => simp
    | cons c cs =>
      have hbreak : c ≠ '\n' := fun heq => hno (heq ▸ List.mem_cons_self)
      have hreturn : c ≠ '\r' := by
        rintro rfl
        rcases hprint _ List.mem_cons_self with h | h <;> cases h
      exact ⟨fun heq => hbreak (Option.some.inj heq), fun heq => hreturn (Option.some.inj heq)⟩
  rw [htext]
  show literalLines [] (skipNewline _) = _
  rw [hskip]
  exact literalLines_plain hprint hrow [] hrest.2

/-- A string is read back from the form that is chosen for it. -/
theorem string?_written (s : String) (hrest : Ends rest) :
    string? ((written s).toList ++ rest) = some (s, rest) := by
  have hform : string? (writtenAs (.of s.toList) s.toList ++ rest)
      = some (String.ofList s.toList, rest) := by
    unfold StringForm.of
    split
    · exact string?_basic _ hrest
    · split
      · next h =>
        obtain ⟨hplain, hquote⟩ := Bool.and_eq_true_iff.mp h
        exact string?_literal hplain (by simpa using hquote) hrest
      · split
        · exact string?_basicLines _ hrest
        · split
          · next h =>
            obtain ⟨hplain, hrow⟩ := Bool.and_eq_true_iff.mp h
            exact string?_literalLines hplain (by simpa using hrow) hrest
          · split
            · exact string?_basicLines _ hrest
            · exact string?_basic _ hrest
  rw [written, String.toList_ofList, hform, String.ofList_toList]

end ResumableUpload.Toml
