import ResumableUpload.Json.Reader
import ResumableUpload.Json.Writer

/-!
# Written tokens are read back

A string in quotation marks is read as the string (`first?_quoted`), and an integer as the integer
(`first?_int`), whatever follows; after an integer it must be nothing that goes on with a number
(`Stops`).
-/

namespace ResumableUpload

namespace Text.Hex

theorem number?_four {n : Nat} (h : n < 0x20) : number? (four n) = some n := by
  have hall : ∀ m : Fin 0x20, number? (four m) = some m.val := by decide
  exact hall ⟨n, h⟩

end Text.Hex

namespace Json

/-! ## Strings -/

/-- How a character is written: the controls that have no short escape as code units. -/
def pieceOf (c : Char) : Piece :=
  if c.toNat < 0x20 ∧ c ∉ ['\x08', '\x0c', '\n', '\r', '\t'] then .unit c.toNat else .char c

theorem pieces_escaped (c : Char) (done : List Piece) (rest : List Char) :
    pieces done (escaped c ++ rest) = pieces (pieceOf c :: done) rest := by
  unfold escaped
  split
  · rfl
  · rfl
  · rfl
  · rfl
  · rfl
  · rfl
  · rfl
  · next hquote hslash hb hf hn hr ht =>
    have hplain : c ∉ ['\x08', '\x0c', '\n', '\r', '\t'] := by simp_all
    by_cases hc : c.toNat < 0x20
    · rw [if_pos hc, pieceOf, if_pos ⟨hc, hplain⟩]
      have hnumber := Text.Hex.number?_four hc
      simp only [Text.Hex.four] at hnumber ⊢
      simp only [List.cons_append, List.nil_append, pieces, hnumber]
    · have hpiece : pieceOf c = .char c := if_neg fun h => hc h.1
      rw [if_neg hc, hpiece, List.singleton_append]
      rw [pieces.eq_def]
      split
      · next heq => cases heq
      · next heq =>
        injection heq with heq
        exact absurd heq hquote
      · next heq =>
        injection heq with heq
        exact absurd heq hslash
      · next heq =>
        injection heq with heq
        exact absurd heq hslash
      · next heq =>
        injection heq with hchar hrest
        rw [← hchar, ← hrest, if_neg hc]

theorem pieces_quoted (cs : List Char) (done : List Piece) (rest : List Char) :
    pieces done (cs.foldr (fun c rest => escaped c ++ rest) ['"'] ++ rest)
      = some ((cs.map pieceOf).reverse ++ done, rest) := by
  induction cs generalizing done with
  | nil => rfl
  | cons c cs ih =>
    rw [List.foldr_cons, List.append_assoc, pieces_escaped, ih, List.map_cons, List.reverse_cons,
      List.append_assoc]
    rfl

theorem joined_unit {n : Nat} (hn : n < 0x20) (after : List Char) (before : List Piece) :
    joined after (.unit n :: before) = joined (Char.ofNat n :: after) before := by
  have hhigh : isHighSurrogate n = false := by simp [isHighSurrogate]; omega
  have hlow : isLowSurrogate n = false := by simp [isLowSurrogate]; omega
  cases before with
  | nil => simp [joined, hhigh, hlow]
  | cons p before => cases p <;> simp [joined, hhigh, hlow]

theorem joined_pieceOf (c : Char) (after : List Char) (before : List Piece) :
    joined after (pieceOf c :: before) = joined (c :: after) before := by
  unfold pieceOf
  split
  · next h => rw [joined_unit h.1, Char.ofNat_toNat]
  · rw [joined]

theorem joined_pieces (cs after : List Char) :
    joined after (cs.map pieceOf) = some (cs.reverse ++ after) := by
  induction cs generalizing after with
  | nil => rfl
  | cons c cs ih =>
    rw [List.map_cons, joined_pieceOf, ih, List.reverse_cons, List.append_assoc]
    rfl

theorem first?_quoted (s : String) (rest : List Char) :
    first? ((quoted s).toList ++ rest) = some (.text (some s), rest) := by
  rw [quoted, String.toList_ofList, List.cons_append]
  show string? _ = _
  rw [string?, pieces_quoted, List.append_nil, ← List.map_reverse]
  simp only [joined_pieces, List.reverse_reverse, List.append_nil, Option.map_some,
    String.ofList_toList]

/-! ## Integers -/

/-- No number goes on with this text. -/
def Stops (rest : List Char) : Prop :=
  ∀ c ∈ rest.head?, c.isDigit = false ∧ c ≠ '.' ∧ c ≠ 'e' ∧ c ≠ 'E'

theorem stops_nil : Stops [] := fun _ hc => nomatch hc

variable {rest : List Char}

theorem digits_append (ds : List Char) (hds : ∀ c ∈ ds, c.isDigit = true) (hrest : Stops rest) :
    digits (ds ++ rest) = ds ∧ afterDigits (ds ++ rest) = rest := by
  have hnone : digits rest = [] ∧ afterDigits rest = rest := by
    cases rest with
    | nil => exact ⟨rfl, rfl⟩
    | cons c rest =>
      have hc : ¬ c.isDigit = true := by simp [(hrest c rfl).1]
      exact ⟨List.takeWhile_cons_of_neg hc, List.dropWhile_cons_of_neg hc⟩
  constructor
  · rw [digits, List.takeWhile_append_of_pos hds]
    exact (congrArg (ds ++ ·) hnone.1).trans (List.append_nil ds)
  · rw [afterDigits, List.dropWhile_append_of_pos hds]
    exact hnone.2

theorem decimal_toDigits (n : Nat) : decimal (Nat.toDigits 10 n) = n := by
  have h := Nat.ofDigitChars_ten_toDigits (n := n)
  rwa [Nat.ofDigitChars_eq_foldl] at h

/-- Only the digits of zero start with a zero. -/
theorem head_toDigits {n : Nat} (hn : 0 < n) : (Nat.toDigits 10 n).head? ≠ some '0' := by
  induction n using Nat.strongRecOn with
  | ind n ih =>
    rw [Nat.toDigits_eq_if (by decide)]
    split
    · next hlt =>
      have hall : ∀ m : Fin 10, 0 < m.val → [Nat.digitChar m].head? ≠ some '0' := by decide
      exact hall ⟨n, hlt⟩ hn
    · next hge =>
      have hpos : 0 < n / 10 := Nat.div_pos (by omega) (by decide)
      have hhead := ih (n / 10) (by omega) hpos
      obtain ⟨c, cs, hcs⟩ :=
        List.exists_cons_of_ne_nil (Nat.toDigits_ne_nil (b := 10) (n := n / 10))
      rw [hcs] at hhead ⊢
      exact hhead

theorem fraction?_stops (h : Stops rest) : fraction? rest = some ([], rest) := by
  unfold fraction?
  split
  · exact absurd rfl (h '.' rfl).2.1
  · rfl

theorem exponent?_stops (h : Stops rest) : exponent? rest = some ([], rest) := by
  cases rest with
  | nil => rfl
  | cons c rest =>
    obtain ⟨-, -, he, hE⟩ := h c rfl
    simp [exponent?, he, hE]

theorem unsigned?_toDigits (negative : Bool) (n : Nat) (hrest : Stops rest)
    (hsign : negative = true → 0 < n) :
    unsigned? negative (Nat.toDigits 10 n ++ rest)
      = some (.int (if negative then -(n : Int) else n), rest) := by
  obtain ⟨hdigits, hafter⟩ := digits_append (Nat.toDigits 10 n)
    (fun c hc => Nat.isDigit_of_mem_toDigits (by decide) (by decide) hc) hrest
  unfold unsigned?
  rw [hdigits, hafter]
  split
  · next hnil => exact absurd hnil Nat.toDigits_ne_nil
  · next d ds hzero =>
    -- more digits than a zero
    rcases Nat.eq_zero_or_pos n with hn | hn
    · rw [hn, Nat.toDigits_zero] at hzero
      cases hzero
    · exact absurd (by rw [hzero]; rfl) (head_toDigits hn)
  · rw [fraction?_stops hrest]
    dsimp only
    rw [exponent?_stops hrest]
    have hkeep : (negative && (Nat.toDigits 10 n == ['0'])) = false := by
      cases negative with
      | false => rfl
      | true =>
        have hne : Nat.toDigits 10 n ≠ ['0'] := by
          intro heq
          exact head_toDigits (hsign rfl) (by rw [heq]; rfl)
        simp [hne]
    simp only [numberToken, List.isEmpty_nil, hkeep, Bool.not_false, Bool.and_self, if_true,
      decimal_toDigits]

theorem first?_int (n : Int) (hrest : Stops rest) :
    first? ((toString n).toList ++ rest) = some (.int n, rest) := by
  cases n with
  | ofNat m =>
    have htext : (toString (Int.ofNat m)).toList = Nat.toDigits 10 m := Nat.toList_repr
    have hread := unsigned?_toDigits false m hrest Bool.noConfusion
    rw [htext]
    -- the first digit is none of the characters that start another token
    obtain ⟨c, cs, hcs⟩ := List.exists_cons_of_ne_nil (Nat.toDigits_ne_nil (b := 10) (n := m))
    have hc : c.isDigit = true :=
      Nat.isDigit_of_mem_toDigits (b := 10) (n := m) (by decide) (by decide)
        (by rw [hcs]; exact List.mem_cons_self)
    rw [hcs] at hread ⊢
    rw [List.cons_append] at hread ⊢
    unfold first?
    split
    all_goals first
      | exact hread
      | (next heq => injection heq with heq; subst heq; cases hc)
  | negSucc m =>
    have htext : (toString (Int.negSucc m)).toList = '-' :: Nat.toDigits 10 (m + 1) := by
      show ("-" ++ Nat.repr (m + 1)).toList = _
      rw [String.toList_append, Nat.toList_repr]
      rfl
    rw [htext, List.cons_append]
    exact unsigned?_toDigits true (m + 1) hrest fun _ => Nat.succ_pos m

end Json

end ResumableUpload
