import Mathlib.Algebra.Group.Int.Defs
import Mathlib.Algebra.Group.Nat.Defs
import Mathlib.Data.List.Basic
import ResumableUpload.Proofs.Json.Tokens
import ResumableUpload.Proofs.Toml.Strings
import ResumableUpload.Toml.Reader

/-!
# Written values are read back

A plain value that is written at the end of a line is read back (`value?_written`). What is written
for a natural number is neither a date nor a time nor the start of another kind of number, since no
mark of these stands among its digits or right after them (`digits_before_break`).
-/

namespace ResumableUpload.Toml

/-- The value of a field. -/
def ofScalar : Scalar → Toml
  | .text s => .text s
  | .nat n => .int n
  | .bool b => .bool b

/-! ## Numbers -/

variable {ds before after rest tail : List Char} {x : Char}

/-- What stands right after digits that start a line of digits is a digit or the line feed. -/
theorem digits_before_break (hds : ∀ c ∈ ds, c.isDigit = true)
    (hbefore : ∀ c ∈ before, c.isDigit = true) (hx : x.isDigit = false)
    (heq : ds ++ '\n' :: rest = before ++ x :: tail) : x = '\n' := by
  have hbreak : ¬ ('\n' : Char).isDigit = true := by decide
  have hx' : ¬ x.isDigit = true := by simp [hx]
  have hdrop := congrArg (List.dropWhile Char.isDigit) heq
  rw [List.dropWhile_append_of_pos hds, List.dropWhile_append_of_pos hbefore,
    List.dropWhile_cons_of_neg hbreak, List.dropWhile_cons_of_neg hx'] at hdrop
  exact (List.cons.inj hdrop).1.symm

theorem twoDigits?_eq_some {low high n : Nat} {cs : List Char}
    (h : twoDigits? low high cs = some (n, rest)) :
    ∃ a b, cs = [a, b] ++ rest ∧ ∀ c ∈ [a, b], c.isDigit = true := by
  unfold twoDigits? at h
  split at h
  · next a b more =>
    split at h
    · next hdigits =>
      dsimp only at h
      split at h
      · injection h with h
        injection h with _ hrest
        refine ⟨a, b, by rw [← hrest]; rfl, ?_⟩
        simpa using hdigits
      · cases h
    · cases h
  · cases h

theorem time?_digits (hds : ∀ c ∈ ds, c.isDigit = true) : time? (ds ++ '\n' :: rest) = none := by
  unfold time?
  cases htwo : twoDigits? 0 23 (ds ++ '\n' :: rest) with
  | none => rfl
  | some r =>
    obtain ⟨n, more⟩ := r
    obtain ⟨a, b, heq, hdigits⟩ := twoDigits?_eq_some htwo
    have hmark : mark? ':' more = none := by
      cases more with
      | nil => rfl
      | cons d tail =>
        have hd : ¬ (':' == d) = true := by
          intro hd
          rw [← beq_iff_eq.mp hd] at heq
          cases digits_before_break hds hdigits (by decide) heq
        rw [mark?, if_neg hd]
    simp only [Option.bind_eq_bind, Option.bind_some, hmark, Option.bind_none]

theorem date?_digits (hds : ∀ c ∈ ds, c.isDigit = true) : date? (ds ++ '\n' :: rest) = none := by
  unfold date?
  split
  · next a b c d tail heq =>
    split
    · next hdigits =>
      have hall : ∀ e ∈ [a, b, c, d], e.isDigit = true := by simpa using hdigits
      cases digits_before_break hds hall (by decide) heq
    · rfl
  · rfl

theorem moreDigits_digits (hds : ∀ c ∈ ds, c.isDigit = true) (done rest : List Char) :
    moreDigits Char.isDigit done (ds ++ '\n' :: rest) = some (done.reverse ++ ds, '\n' :: rest) := by
  induction ds generalizing done with
  | nil =>
    rw [List.append_nil]
    rfl
  | cons c ds ih =>
    have hc := hds c List.mem_cons_self
    have hscore : c ≠ '_' := by
      rintro rfl
      cases hc
    rw [List.cons_append, moreDigits, if_pos hc, ih fun d hd => hds d (List.mem_cons_of_mem c hd),
      List.reverse_cons, List.append_assoc]
    · rfl
    · exact fun h => absurd h hscore
    · exact fun _ _ h => absurd h hscore

theorem isDigit_toDigits {n : Nat} {c : Char} (h : c ∈ Nat.toDigits 10 n) : c.isDigit = true :=
  Nat.isDigit_of_mem_toDigits (by decide) (by decide) h

/-- The digits of a natural number are read as a whole number. -/
theorem whole?_toDigits (n : Nat) (rest : List Char) :
    whole? (Nat.toDigits 10 n ++ '\n' :: rest) = some (Nat.toDigits 10 n, '\n' :: rest) := by
  have hall : ∀ c ∈ Nat.toDigits 10 n, c.isDigit = true := fun c hc => isDigit_toDigits hc
  obtain ⟨c, cs, hcs⟩ := List.exists_cons_of_ne_nil (Nat.toDigits_ne_nil (b := 10) (n := n))
  by_cases hzero : c = '0'
  · -- only the digits of zero start with a zero
    have hn : n = 0 := by
      rcases Nat.eq_zero_or_pos n with hn | hn
      · exact hn
      · exact absurd (by rw [hcs, hzero]; rfl) (Json.head_toDigits hn)
    subst hn
    rfl
  · rw [hcs] at hall ⊢
    rw [List.cons_append, whole?]
    · show (if c.isDigit then _ else none) = _
      rw [if_pos (hall c List.mem_cons_self),
        moreDigits_digits fun d hd => hall d (List.mem_cons_of_mem c hd)]
      rfl
    · exact fun _ heq => hzero (List.cons.inj heq).1

theorem digitValue_of_isDigit {c : Char} (h : c.isDigit = true) : digitValue c = c.toNat - 48 := by
  have hrange : '0' ≤ c ∧ c ≤ '9' := by
    simpa [Char.isDigit, Char.le_def] using h
  rw [digitValue, if_pos hrange]

theorem valueIn_toDigits (n : Nat) : valueIn 10 (Nat.toDigits 10 n) = n := by
  have hdecimal : (Nat.toDigits 10 n).foldl (fun acc d => 10 * acc + (d.toNat - 48)) 0 = n :=
    Json.decimal_toDigits n
  have hsame := List.foldl_ext (fun acc d => 10 * acc + digitValue d)
    (fun acc d => 10 * acc + (d.toNat - 48)) 0 (l := Nat.toDigits 10 n)
    fun acc d hd => by rw [digitValue_of_isDigit (isDigit_toDigits hd)]
  exact hsame.trans hdecimal

theorem word?_of_lt {n : Nat} (h : n < 2 ^ 63) : word? (n : Int) = some (n : Int) := by
  have hmin : Int64.minValue.toInt = -2 ^ 63 := by decide
  have hmax : Int64.maxValue.toInt = 2 ^ 63 - 1 := by decide
  rw [word?, hmin, hmax, if_pos (by omega)]

/-- The first character of a number is a digit. -/
theorem toDigits_append_ne {n : Nat} (hx : x.isDigit = false) (more tail : List Char) :
    Nat.toDigits 10 n ++ more ≠ x :: tail := by
  obtain ⟨c, cs, hcs⟩ := List.exists_cons_of_ne_nil (Nat.toDigits_ne_nil (b := 10) (n := n))
  have hc : c.isDigit = true := isDigit_toDigits (hcs ▸ List.mem_cons_self)
  intro heq
  rw [hcs] at heq
  rw [(List.cons.inj heq).1, hx] at hc
  cases hc

theorem decimal?_toDigits {n : Nat} (hn : n < 2 ^ 63) (rest : List Char) :
    decimal? (Nat.toDigits 10 n ++ '\n' :: rest) = some (.int n, '\n' :: rest) := by
  have hsign : sign (Nat.toDigits 10 n ++ '\n' :: rest)
      = (false, Nat.toDigits 10 n ++ '\n' :: rest) := by
    unfold sign
    split
    · next heq => exact absurd heq (toDigits_append_ne (by decide) _ _)
    · next heq => exact absurd heq (toDigits_append_ne (by decide) _ _)
    · rfl
  unfold decimal?
  rw [hsign]
  dsimp only
  split
  · next heq => exact absurd heq (toDigits_append_ne (by decide) _ _)
  · next heq => exact absurd heq (toDigits_append_ne (by decide) _ _)
  · rw [whole?_toDigits]
    show (do
      let n ← word? (valueIn 10 (Nat.toDigits 10 n) : Nat)
      some (Number.int n, '\n' :: rest)) = _
    rw [valueIn_toDigits, word?_of_lt hn]
    rfl

theorem number?_toDigits {n : Nat} (hn : n < 2 ^ 63) (rest : List Char) :
    number? (Nat.toDigits 10 n ++ '\n' :: rest) = some (.int n, '\n' :: rest) := by
  have hno : ∀ (x : Char) tail, x.isDigit = false → x ≠ '\n' →
      Nat.toDigits 10 n ++ '\n' :: rest ≠ '0' :: x :: tail := by
    intro x tail hx hbreak heq
    have hzero : ∀ c ∈ ['0'], c.isDigit = true := fun c hc => List.mem_singleton.mp hc ▸ rfl
    exact hbreak (digits_before_break (fun c hc => isDigit_toDigits hc) hzero hx heq)
  unfold number?
  split
  · next heq => exact absurd heq (hno 'x' _ (by decide) (by decide))
  · next heq => exact absurd heq (hno 'o' _ (by decide) (by decide))
  · next heq => exact absurd heq (hno 'b' _ (by decide) (by decide))
  · exact decimal?_toDigits hn rest

/-! ## Plain values -/

theorem plain?_toDigits {n : Nat} (hn : n < 2 ^ 63) (rest : List Char) :
    plain? (Nat.toDigits 10 n ++ '\n' :: rest) = some (.int n, '\n' :: rest) := by
  have hmoment : moment? (Nat.toDigits 10 n ++ '\n' :: rest) = none := by
    rw [moment?, date?_digits fun c hc => isDigit_toDigits hc]
    exact time?_digits fun c hc => isDigit_toDigits hc
  unfold plain?
  split
  · next heq => exact absurd heq (toDigits_append_ne (by decide) _ _)
  · next heq => exact absurd heq (toDigits_append_ne (by decide) _ _)
  · next heq => exact absurd heq (toDigits_append_ne (by decide) _ _)
  · next heq => exact absurd heq (toDigits_append_ne (by decide) _ _)
  · rw [hmoment, number?_toDigits hn]

/-- A written string starts with a quotation mark. -/
theorem written_cons (s : String) :
    ∃ cs, (written s).toList = '"' :: cs ∨ (written s).toList = '\'' :: cs := by
  rw [written, String.toList_ofList]
  cases StringForm.of s.toList with
  | basic => exact ⟨_, .inl rfl⟩
  | literal => exact ⟨_, .inr rfl⟩
  | basicLines => exact ⟨_, .inl rfl⟩
  | literalLines => exact ⟨_, .inr rfl⟩

theorem plain?_written (s : String) (hrest : Ends rest) :
    plain? ((written s).toList ++ rest) = some (.text s, rest) := by
  have hread := string?_written s hrest
  obtain ⟨cs, hcs | hcs⟩ := written_cons s
  · rw [hcs] at hread ⊢
    rw [List.cons_append, plain?, ← List.cons_append, hread]
    rfl
  · rw [hcs] at hread ⊢
    rw [List.cons_append, plain?, ← List.cons_append, hread]
    rfl

/-- What starts with no bracket and no brace holds no other value. -/
theorem value?_eq_plain? {cs : List Char} (hbracket : ∀ tail, cs ≠ '[' :: tail)
    (hbrace : ∀ tail, cs ≠ '\x7b' :: tail) (depth : Nat) : value? depth cs = plain? cs := by
  cases depth with
  | zero =>
    unfold value?
    split
    · exact absurd rfl (hbracket _)
    · exact absurd rfl (hbrace _)
    · rfl
  | succ depth =>
    unfold value?
    split
    · exact absurd rfl (hbracket _)
    · exact absurd rfl (hbrace _)
    · rfl

/-- A written value is read back at the end of a line. -/
theorem value?_written {v : Scalar} {text : String} (h : writtenScalar? v = some text)
    (depth : Nat) (rest : List Char) :
    value? depth (text.toList ++ '\n' :: rest) = some (ofScalar v, '\n' :: rest) := by
  cases v with
  | text s =>
    cases h
    obtain ⟨cs, hcs⟩ := written_cons s
    rw [value?_eq_plain?, plain?_written s ⟨by simp, by simp⟩]
    · rfl
    · rcases hcs with hcs | hcs <;> simp [hcs]
    · rcases hcs with hcs | hcs <;> simp [hcs]
  | nat n =>
    rw [writtenScalar?] at h
    split at h
    · next hn =>
      cases h
      have htext : (toString n).toList = Nat.toDigits 10 n := Nat.toList_repr
      rw [htext, value?_eq_plain?, plain?_toDigits (by rwa [Nat.one_shiftLeft] at hn)]
      · rfl
      · exact toDigits_append_ne (by decide) _
      · exact toDigits_append_ne (by decide) _
    · cases h
  | bool b =>
    cases h
    cases b <;> cases depth <;> rfl

end ResumableUpload.Toml
