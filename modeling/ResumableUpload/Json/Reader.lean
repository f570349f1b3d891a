import ResumableUpload.Json.Lexer

/-!
# Reading JSON

A text is read token by token, by an automaton that keeps the structures still open on a stack of
its own. Nesting costs no depth of recursion, so a text may nest as deeply as it likes. The text
must hold exactly one value.
-/

namespace ResumableUpload.Json

/-- A structure that waits for a value, with what it holds so far, the last first. -/
inductive Frame
  | array (items : List Json)
  | object (fields : List (Option String × Json)) (key : Option String)

/-- What has been read, and what may come next. -/
inductive Reading
  -- a value
  | value (frames : List Frame)
  -- the first item of an array, or its end
  | firstItem (frames : List Frame)
  -- a comma or the end of an array
  | afterItem (items : List Json) (frames : List Frame)
  -- the first key of an object, or its end
  | firstKey (frames : List Frame)
  -- the next key of an object
  | key (fields : List (Option String × Json)) (frames : List Frame)
  -- the colon after a key
  | colon (fields : List (Option String × Json)) (key : Option String) (frames : List Frame)
  -- a comma or the end of an object
  | afterField (fields : List (Option String × Json)) (frames : List Frame)
  -- nothing more
  | done (v : Json)

namespace Reading

/-- A value is complete and goes into the innermost open structure. -/
def complete (v : Json) : List Frame → Reading
  | [] => done v
  | .array items :: frames => afterItem (v :: items) frames
  | .object fields k :: frames => afterField ((k, v) :: fields) frames

/-- The token starts a value or is one. -/
def start (frames : List Frame) : Token → Option Reading
  | .openArray => some (firstItem frames)
  | .openObject => some (firstKey frames)
  | .null => some (complete .null frames)
  | .bool b => some (complete (.bool b) frames)
  | .int n => some (complete (.int n) frames)
  | .number literal => some (complete (.number literal) frames)
  | .text (some s) => some (complete (.text s) frames)
  | .text none => some (complete .brokenText frames)
  | _ => none

/-- Takes one token; nothing if it may not stand here. -/
def step : Reading → Token → Option Reading
  | value frames, t => start frames t
  | firstItem frames, .closeArray => some (complete (.array []) frames)
  | firstItem frames, t => start (.array [] :: frames) t
  | afterItem items frames, .comma => some (value (.array items :: frames))
  | afterItem items frames, .closeArray => some (complete (.array items.reverse) frames)
  | firstKey frames, .closeObject => some (complete (.object []) frames)
  | firstKey frames, .text k => some (colon [] k frames)
  | key fields frames, .text k => some (colon fields k frames)
  | colon fields k frames, .colon => some (value (.object fields k :: frames))
  | afterField fields frames, .comma => some (key fields frames)
  | afterField fields frames, .closeObject => some (complete (.object fields.reverse) frames)
  | _, _ => none

/-- The value, if it is complete. -/
def result? : Reading → Option Json
  | done v => some v
  | _ => none

def run (r : Reading) : List Char → Option Json
  | [] => r.result?
  | c :: cs =>
    if isBlank c then run r cs
    else
      match shorter : first? (c :: cs) with
      | none => none
      | some (t, rest) =>
        have : rest.length < (c :: cs).length := length_first? shorter
        match r.step t with
        | some r => run r rest
        | none => none
termination_by cs => cs.length
decreasing_by
  · simp
  · simp only [List.length_cons] at this ⊢
    omega

end Reading

/-- Reads a text that holds one value and nothing else but blanks. -/
def read? (s : String) : Option Json := Reading.run (.value []) s.toList

end ResumableUpload.Json
