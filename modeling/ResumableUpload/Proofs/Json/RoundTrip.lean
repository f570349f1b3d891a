import ResumableUpload.Proofs.Json.Tokens

/-!
# Written values are read back

A value is read back as it was from either of its texts (`read?_pretty`, `read?_compact`), if it is
one that a text can give in one way only (`Plain`): its numbers are integers and its strings are
texts. The two texts differ in blanks only, so what is inside an array or an object is read once for
both: as texts with commas between them, each with blanks around it (`reads_array`, `reads_object`).
-/

namespace ResumableUpload.Json

/-- A value that says all there is to say about its text. -/
inductive Plain : Json → Prop
  | null : Plain .null
  | bool (b : Bool) : Plain (.bool b)
  | int (n : Int) : Plain (.int n)
  | text (s : String) : Plain (.text s)
  | array {items : List Json} : (∀ v ∈ items, Plain v) → Plain (.array items)
  | object {fields : List (Option String × Json)} : (∀ x ∈ fields, x.1.isSome = true) →
      (∀ x ∈ fields, Plain x.2) → Plain (.object fields)

namespace Reading

variable {r next : Reading} {frames : List Frame} {cs rest : List Char} {t : Token}

/-! ## Single steps -/

theorem run_blank {c : Char} (hc : isBlank c = true) : run r (c :: cs) = run r cs := by
  rw [run, if_pos hc]

theorem first?_blank {c : Char} (hc : isBlank c = true) : first? (c :: cs) = none := by
  simp only [isBlank, Bool.or_eq_true, beq_iff_eq] at hc
  rcases hc with ((rfl | rfl) | rfl) | rfl <;> rfl

theorem run_token (hfirst : first? cs = some (t, rest)) (hstep : r.step t = some next) :
    run r cs = run next rest := by
  cases cs with
  | nil => cases hfirst
  | cons c cs =>
    have hc : ¬ isBlank c = true := by
      intro hc
      rw [first?_blank hc] at hfirst
      cases hfirst
    rw [run, if_neg hc]
    split
    · next hnone =>
      rw [hfirst] at hnone
      cases hnone
    · next hsome =>
      have heq := Option.some.inj (hsome.symm.trans hfirst)
      injection heq with ht hrest
      subst ht hrest
      rw [hstep]

theorem run_blanks {gap : List Char} (h : ∀ c ∈ gap, isBlank c = true) :
    run r (gap ++ cs) = run r cs := by
  induction gap with
  | nil => rfl
  | cons c gap ih =>
    rw [List.cons_append, run_blank (h c List.mem_cons_self)]
    exact ih fun d hd => h d (List.mem_cons_of_mem c hd)

theorem toList_lineAt (depth : Nat) :
    (lineAt depth).toList = '\n' :: List.replicate (2 * depth) ' ' := by
  simp [lineAt]

theorem isBlank_lineAt (depth : Nat) : ∀ c ∈ (lineAt depth).toList, isBlank c = true := by
  rw [toList_lineAt]
  intro c hc
  rcases List.mem_cons.mp hc with rfl | hc
  · rfl
  · rw [List.eq_of_mem_replicate hc]
    rfl

theorem isBlank_space : ∀ c ∈ [' '], isBlank c = true :=
  fun _ hc => List.mem_singleton.mp hc ▸ rfl

/-- No number goes on with a blank or a mark. -/
theorem stops_gap {gap : List Char} (h : ∀ c ∈ gap, isBlank c = true) {mark : Char}
    (hmark : mark ∈ [',', ']', '\x7d']) (cs : List Char) : Stops (gap ++ mark :: cs) := by
  intro c hc
  cases gap with
  | nil =>
    rw [← Option.some.inj hc]
    simp only [List.mem_cons, List.not_mem_nil, or_false] at hmark
    rcases hmark with rfl | rfl | rfl <;> decide
  | cons d gap =>
    have hd := h d List.mem_cons_self
    rw [← Option.some.inj hc]
    simp only [isBlank, Bool.or_eq_true, beq_iff_eq] at hd
    rcases hd with ((rfl | rfl) | rfl) | rfl <;> decide

theorem stops_comma (cs : List Char) : Stops (',' :: cs) := by
  have hnone : ∀ c ∈ [], isBlank c = true := fun _ hc => absurd hc List.not_mem_nil
  exact stops_gap hnone List.mem_cons_self cs

/-- A reading that takes a value next, and lets it into the given frames. -/
def Expects (r : Reading) (frames : List Frame) : Prop :=
  ∀ t, t ≠ .closeArray → r.step t = start frames t

theorem expects_value (frames : List Frame) : (value frames).Expects frames := fun _ _ => rfl

theorem expects_firstItem (frames : List Frame) :
    (firstItem frames).Expects (.array [] :: frames) := by
  intro t ht
  cases t with
  | closeArray => exact absurd rfl ht
  | _ => rfl

/-- A reading that takes a key next. -/
def ExpectsKey (r : Reading) (fields : List (Option String × Json)) (frames : List Frame) : Prop :=
  ∀ k, r.step (.text k) = some (colon fields k frames)

/-! ## Values -/

/-- The text is read as the value wherever a value may stand. -/
def Reads (text : List Char) (v : Json) : Prop :=
  ∀ (r : Reading) (frames : List Frame) (rest : List Char), r.Expects frames → Stops rest →
    run r (text ++ rest) = run (complete v frames) rest

/-- The text is read as the key and the value wherever a field may stand. -/
def ReadsField (text : List Char) (x : Option String × Json) : Prop :=
  ∀ (r : Reading) (fields : List (Option String × Json)) (frames : List Frame) (rest : List Char),
    r.ExpectsKey fields frames → Stops rest →
      run r (text ++ rest) = run (afterField (x :: fields) frames) rest

variable {text gap : List Char}

theorem Reads.blanks {v : Json} (h : Reads text v) (hgap : ∀ c ∈ gap, isBlank c = true) :
    Reads (gap ++ text) v := by
  intro r frames rest hr hrest
  rw [List.append_assoc, run_blanks hgap]
  exact h r frames rest hr hrest

theorem reads_null : Reads "null".toList .null :=
  fun _ _ _ hr _ => run_token rfl (hr .null Token.noConfusion)

theorem reads_bool (b : Bool) : Reads (if b then "true" else "false").toList (.bool b) := by
  intro r frames rest hr _
  cases b <;> exact run_token rfl (hr (.bool _) Token.noConfusion)

theorem reads_text (s : String) : Reads (quoted s).toList (.text s) :=
  fun _ _ rest hr _ => run_token (first?_quoted s rest) (hr _ Token.noConfusion)

theorem reads_int (n : Int) : Reads (toString n).toList (.int n) :=
  fun _ _ _ hr hrest => run_token (first?_int n hrest) (hr _ Token.noConfusion)

/-- A key, the colon and the value, with blanks before the key and after the colon. -/
theorem readsField {before : List Char} {s : String} {v : Json}
    (hbefore : ∀ c ∈ before, isBlank c = true) (hgap : ∀ c ∈ gap, isBlank c = true)
    (h : Reads text v) :
    ReadsField (before ++ (quoted s).toList ++ ':' :: (gap ++ text)) (some s, v) := by
  intro r fields frames rest hr hrest
  have hsplit : before ++ (quoted s).toList ++ ':' :: (gap ++ text) ++ rest
      = before ++ ((quoted s).toList ++ ':' :: (gap ++ (text ++ rest))) := by simp
  rw [hsplit, run_blanks hbefore, run_token (first?_quoted s _) (hr _), run_token rfl rfl,
    run_blanks hgap]
  exact h _ _ rest (expects_value _) hrest

/-! ## Items and fields -/

/-- Texts with commas between them. -/
def commas : List (List Char) → List Char
  | [] => []
  | [text] => text
  | text :: more => text ++ ',' :: commas more

theorem reads_items {items : List Json} {write : Json → List Char}
    (h : ∀ v ∈ items, Reads (write v) v) (hne : items ≠ []) (done : List Json)
    (hr : r.Expects (.array done :: frames)) (hrest : Stops rest) :
    run r (commas (items.map write) ++ rest)
      = run (afterItem (items.reverse ++ done) frames) rest := by
  induction items generalizing r done with
  | nil => exact absurd rfl hne
  | cons v more ih =>
    have hv := h v List.mem_cons_self
    cases more with
    | nil => exact hv r _ rest hr hrest
    | cons w more =>
      have hmore := fun u hu => h u (List.mem_cons_of_mem v hu)
      have htext : commas ((v :: w :: more).map write) ++ rest
          = write v ++ ',' :: (commas ((w :: more).map write) ++ rest) := by
        simp [commas]
      have hcomma : run (afterItem (v :: done) frames)
            (',' :: (commas ((w :: more).map write) ++ rest))
          = run (value (.array (v :: done) :: frames)) (commas ((w :: more).map write) ++ rest) :=
        run_token rfl rfl
      have hdone : (v :: w :: more).reverse ++ done = (w :: more).reverse ++ (v :: done) := by simp
      rw [htext, hv r _ _ hr (stops_comma _), complete, hcomma, hdone]
      exact ih hmore (List.cons_ne_nil w more) (v :: done) (expects_value _)

theorem reads_fields {fields : List (Option String × Json)}
    {write : Option String × Json → List Char} (h : ∀ x ∈ fields, ReadsField (write x) x)
    (hne : fields ≠ []) (done : List (Option String × Json)) (hr : r.ExpectsKey done frames)
    (hrest : Stops rest) :
    run r (commas (fields.map write) ++ rest)
      = run (afterField (fields.reverse ++ done) frames) rest := by
  induction fields generalizing r done with
  | nil => exact absurd rfl hne
  | cons x more ih =>
    have hx := h x List.mem_cons_self
    cases more with
    | nil => exact hx r done frames rest hr hrest
    | cons y more =>
      have hmore := fun z hz => h z (List.mem_cons_of_mem x hz)
      have htext : commas ((x :: y :: more).map write) ++ rest
          = write x ++ ',' :: (commas ((y :: more).map write) ++ rest) := by
        simp [commas]
      have hcomma : run (afterField (x :: done) frames)
            (',' :: (commas ((y :: more).map write) ++ rest))
          = run (key (x :: done) frames) (commas ((y :: more).map write) ++ rest) :=
        run_token rfl rfl
      have hdone : (x :: y :: more).reverse ++ done = (y :: more).reverse ++ (x :: done) := by simp
      rw [htext, hx r done frames _ hr (stops_comma _), hcomma, hdone]
      exact ih hmore (List.cons_ne_nil y more) (x :: done) fun _ => rfl

theorem reads_array {items : List Json} {write : Json → List Char}
    (h : ∀ v ∈ items, Reads (write v) v) (hgap : ∀ c ∈ gap, isBlank c = true) :
    Reads ('[' :: (commas (items.map write) ++ (gap ++ [']']))) (.array items) := by
  intro r frames rest hr _
  have htext : '[' :: (commas (items.map write) ++ (gap ++ [']'])) ++ rest
      = '[' :: (commas (items.map write) ++ (gap ++ ']' :: rest)) := by simp
  rw [htext, run_token rfl (hr .openArray Token.noConfusion)]
  cases items with
  | nil => exact (run_blanks hgap).trans (run_token rfl rfl)
  | cons v more =>
    rw [reads_items h (List.cons_ne_nil v more) [] (expects_firstItem frames)
      (stops_gap hgap (by decide) rest), run_blanks hgap, List.append_nil]
    have hclose : run (afterItem (v :: more).reverse frames) (']' :: rest)
        = run (complete (.array (v :: more).reverse.reverse) frames) rest := run_token rfl rfl
    rw [hclose, List.reverse_reverse]

theorem reads_object {fields : List (Option String × Json)}
    {write : Option String × Json → List Char} (h : ∀ x ∈ fields, ReadsField (write x) x)
    (hgap : ∀ c ∈ gap, isBlank c = true) :
    Reads ('\x7b' :: (commas (fields.map write) ++ (gap ++ ['\x7d']))) (.object fields) := by
  intro r frames rest hr _
  have htext : '\x7b' :: (commas (fields.map write) ++ (gap ++ ['\x7d'])) ++ rest
      = '\x7b' :: (commas (fields.map write) ++ (gap ++ '\x7d' :: rest)) := by simp
  rw [htext, run_token rfl (hr .openObject Token.noConfusion)]
  cases fields with
  | nil => exact (run_blanks hgap).trans (run_token rfl rfl)
  | cons x more =>
    rw [reads_fields h (List.cons_ne_nil x more) [] (fun _ => rfl)
      (stops_gap hgap (by decide) rest), run_blanks hgap, List.append_nil]
    have hclose : run (afterField (x :: more).reverse frames) ('\x7d' :: rest)
        = run (complete (.object (x :: more).reverse.reverse) frames) rest := run_token rfl rfl
    rw [hclose, List.reverse_reverse]

/-! ## The two texts -/

theorem toList_prettyItems (depth : Nat) (items : List Json) :
    (prettyItems depth items).toList
      = commas (items.map fun v => (lineAt depth).toList ++ (prettyAt depth v).toList) := by
  induction items with
  | nil => rfl
  | cons v more ih =>
    cases more with
    | nil => simp [prettyItems, commas]
    | cons w more =>
      rw [prettyItems, String.toList_append, ih]
      · simp [commas]
      · exact List.cons_ne_nil w more

/-- How a field is written on a line of its own. -/
def prettyField (depth : Nat) (x : Option String × Json) : List Char :=
  (lineAt depth).toList ++ (quotedKey x.1).toList ++ ':' :: ([' '] ++ (prettyAt depth x.2).toList)

theorem toList_prettyFields (depth : Nat) (fields : List (Option String × Json)) :
    (prettyFields depth fields).toList = commas (fields.map (prettyField depth)) := by
  induction fields with
  | nil => rfl
  | cons x more ih =>
    cases more with
    | nil => simp [prettyFields, prettyField, commas]
    | cons y more =>
      rw [prettyFields, String.toList_append, ih]
      · simp [commas, prettyField]
      · exact List.cons_ne_nil y more

theorem toList_compactItems (items : List Json) :
    (compactItems items).toList = commas (items.map fun v => (compact v).toList) := by
  induction items with
  | nil => rfl
  | cons v more ih =>
    cases more with
    | nil => simp [compactItems, commas]
    | cons w more =>
      rw [compactItems, String.toList_append, ih]
      · simp [commas]
      · exact List.cons_ne_nil w more

/-- How a field is written without blanks. -/
def compactField (x : Option String × Json) : List Char :=
  [] ++ (quotedKey x.1).toList ++ ':' :: ([] ++ (compact x.2).toList)

theorem toList_compactFields (fields : List (Option String × Json)) :
    (compactFields fields).toList = commas (fields.map compactField) := by
  induction fields with
  | nil => rfl
  | cons x more ih =>
    cases more with
    | nil => simp [compactFields, compactField, commas]
    | cons y more =>
      rw [compactFields, String.toList_append, ih]
      · simp [commas, compactField]
      · exact List.cons_ne_nil y more

theorem isBlank_nil : ∀ c ∈ ([] : List Char), isBlank c = true :=
  fun _ hc => absurd hc List.not_mem_nil

theorem reads_compact {v : Json} (h : v.Plain) : Reads (compact v).toList v := by
  induction h with
  | null => exact reads_null
  | bool b =>
    cases b with
    | true => exact reads_bool true
    | false => exact reads_bool false
  | int n => exact reads_int n
  | text s => exact reads_text s
  | @array items _ ih =>
    have htext : (compact (.array items)).toList
        = '[' :: (commas (items.map fun v => (compact v).toList) ++ ([] ++ [']'])) := by
      rw [← toList_compactItems]
      simp [compact]
    rw [htext]
    exact reads_array ih isBlank_nil
  | @object fields hkeys _ ih =>
    have htext : (compact (.object fields)).toList
        = '\x7b' :: (commas (fields.map compactField) ++ ([] ++ ['\x7d'])) := by
      rw [← toList_compactFields]
      simp [compact]
    rw [htext]
    refine reads_object (fun x hx => ?_) isBlank_nil
    obtain ⟨k, v⟩ := x
    obtain ⟨s, rfl⟩ := Option.isSome_iff_exists.mp (hkeys _ hx)
    exact readsField isBlank_nil isBlank_nil (ih _ hx)

theorem reads_pretty {v : Json} (h : v.Plain) (depth : Nat) : Reads (prettyAt depth v).toList v := by
  induction h generalizing depth with
  | null => exact reads_null
  | bool b =>
    cases b with
    | true => exact reads_bool true
    | false => exact reads_bool false
  | int n => exact reads_int n
  | text s => exact reads_text s
  | @array items _ ih =>
    cases items with
    | nil =>
      have htext : prettyAt depth (.array []) = compact (.array []) := by
        simp [prettyAt, compact, compactItems]
      rw [htext]
      exact reads_compact (.array fun _ hv => absurd hv List.not_mem_nil)
    | cons v more =>
      have htext : (prettyAt depth (.array (v :: more))).toList
          = '[' :: (commas ((v :: more).map fun v =>
              (lineAt (depth + 1)).toList ++ (prettyAt (depth + 1) v).toList)
            ++ ((lineAt depth).toList ++ [']'])) := by
        rw [← toList_prettyItems]
        simp [prettyAt]
      rw [htext]
      exact reads_array (fun u hu => (ih u hu (depth + 1)).blanks (isBlank_lineAt _))
        (isBlank_lineAt depth)
  | @object fields hkeys _ ih =>
    cases fields with
    | nil =>
      have htext : prettyAt depth (.object []) = compact (.object []) := by
        simp [prettyAt, compact, compactFields]
      rw [htext]
      exact reads_compact (.object hkeys fun _ hx => absurd hx List.not_mem_nil)
    | cons x more =>
      have htext : (prettyAt depth (.object (x :: more))).toList
          = '\x7b' :: (commas ((x :: more).map (prettyField (depth + 1)))
            ++ ((lineAt depth).toList ++ ['\x7d'])) := by
        rw [← toList_prettyFields]
        simp [prettyAt]
      rw [htext]
      refine reads_object (fun y hy => ?_) (isBlank_lineAt depth)
      obtain ⟨k, v⟩ := y
      obtain ⟨s, rfl⟩ := Option.isSome_iff_exists.mp (hkeys _ hy)
      exact readsField (isBlank_lineAt _) isBlank_space (ih _ hy (depth + 1))

/-- A text that is read as a value is one. -/
theorem Reads.read? {text : String} {v : Json} (h : Reads text.toList v) :
    Json.read? text = some v := by
  have hread := h (.value []) [] [] (expects_value []) stops_nil
  rw [List.append_nil] at hread
  rw [Json.read?, hread, complete, run]
  rfl

end Reading

/-- A plain value that is written with one item a line is read back. -/
theorem read?_pretty {v : Json} (h : v.Plain) : read? v.pretty = some v :=
  (Reading.reads_pretty h 0).read?

/-- A plain value that is written on one line is read back. -/
theorem read?_compact {v : Json} (h : v.Plain) : read? v.compact = some v :=
  (Reading.reads_compact h).read?

end ResumableUpload.Json
