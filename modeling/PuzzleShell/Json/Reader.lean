import PuzzleShell.Json.Token

/-!
# Reading JSON

Reading is one pass over the characters.  The state holds the token under way and the containers
that are still open, so containers may be nested to any depth.  Nothing but blanks may follow the
document.
-/

namespace PuzzleShell.Json

/-- A container that is still open, with its finished parts, the newest first. -/
inductive Frame where
  | list (items : List Document)
  /-- A record that waits for the value of `key`. -/
  | record (fields : List (Option String × Document)) (key : Option String)

/-- What may come next, inside the open containers. -/
inductive Expected where
  /-- A value. -/
  | value (frames : List Frame)
  /-- The first item of a list, or its end. -/
  | firstItem (frames : List Frame)
  /-- The first key of a record, or its end. -/
  | firstKey (frames : List Frame)
  /-- A further key. -/
  | key (fields : List (Option String × Document)) (frames : List Frame)
  /-- The colon after a key. -/
  | colon (fields : List (Option String × Document)) (key : Option String) (frames : List Frame)
  /-- A value is complete: a comma or the end of the container around it. -/
  | separator (value : Document) (frames : List Frame)

/-- A record with the given fields; one whose key spells no text is unreadable as a whole. -/
def recordOf (fields : List (Option String × Document)) : Document :=
  match fields.mapM fun field => field.1.map (·, field.2) with
  | some named => .record named
  | none => .unreadable

def textValue : Option String → Document
  | some value => .text value
  | none => .unreadable

namespace Expected

def beginValue? (frames : List Frame) : Token → Option Expected
  | .openList => some (.firstItem frames)
  | .openRecord => some (.firstKey frames)
  | .text content => some (.separator (textValue content) frames)
  | .scalar content => some (.separator content frames)
  | _ => none

def next? : Expected → Token → Option Expected
  | .value frames, token => beginValue? frames token
  | .firstItem frames, .closeList => some (.separator (.list []) frames)
  | .firstItem frames, token => beginValue? (.list [] :: frames) token
  | .firstKey frames, .closeRecord => some (.separator (.record []) frames)
  | .firstKey frames, .text name => some (.colon [] name frames)
  | .firstKey _, _ => none
  | .key fields frames, .text name => some (.colon fields name frames)
  | .key _ _, _ => none
  | .colon fields name frames, .colon => some (.value (.record fields name :: frames))
  | .colon _ _ _, _ => none
  | .separator item (.list items :: frames), .comma =>
      some (.value (.list (item :: items) :: frames))
  | .separator item (.list items :: frames), .closeList =>
      some (.separator (.list (item :: items).reverse) frames)
  | .separator item (.record fields name :: frames), .comma =>
      some (.key ((name, item) :: fields) frames)
  | .separator item (.record fields name :: frames), .closeRecord =>
      some (.separator (recordOf ((name, item) :: fields).reverse) frames)
  | .separator _ _, _ => none

end Expected

/-- The token under way, with its characters or code units, the newest first. -/
inductive Scan where
  | between
  | text (units : List Nat)
  | escape (units : List Nat)
  | hex (units : List Nat) (missing : Nat) (value : Nat)
  | number (spelling : List Char)
  | literal (spelling : List Char)

structure Reader where
  scan : Scan
  expected : Expected

namespace Reader

def start : Reader := ⟨.between, .value []⟩

def accept? (expected : Expected) (token : Token) : Option Reader :=
  (expected.next? token).map (⟨.between, ·⟩)

def begin? (expected : Expected) (c : Char) : Option Reader :=
  if isSpace c then some ⟨.between, expected⟩
  else if c = '"' then some ⟨.text [], expected⟩
  else if c.isDigit || c = '-' then some ⟨.number [c], expected⟩
  else if c.isAlpha then some ⟨.literal [c], expected⟩
  else punctuation? c >>= accept? expected

def next? (reader : Reader) (c : Char) : Option Reader :=
  match reader.scan with
  | .between => begin? reader.expected c
  | .text units =>
      if c = '"' then accept? reader.expected (textToken units.reverse)
      else if c = '\\' then some { reader with scan := .escape units }
      else if c.toNat < 0x20 then none
      else some { reader with scan := .text (c.toNat :: units) }
  | .escape units =>
      if c = 'u' then some { reader with scan := .hex units 4 0 }
      else (escaped? c).map fun plain => { reader with scan := .text (plain.toNat :: units) }
  | .hex units missing value => do
      let digit ← hexValue? c
      if missing ≤ 1 then some { reader with scan := .text ((value * 16 + digit) :: units) }
      else some { reader with scan := .hex units (missing - 1) (value * 16 + digit) }
  | .number spelling =>
      if isNumberChar c then some { reader with scan := .number (c :: spelling) }
      else do
        let value ← number? spelling.reverse
        let closed ← accept? reader.expected (.scalar value)
        begin? closed.expected c
  | .literal spelling =>
      if c.isAlpha then some { reader with scan := .literal (c :: spelling) }
      else do
        let value ← literal? spelling.reverse
        let closed ← accept? reader.expected (.scalar value)
        begin? closed.expected c

def finish? (reader : Reader) : Option Document := do
  let last ← match reader.scan with
    | .between => some reader
    | .number spelling => do accept? reader.expected (.scalar (← number? spelling.reverse))
    | .literal spelling => do accept? reader.expected (.scalar (← literal? spelling.reverse))
    | _ => none
  match last.expected with
  | .separator value [] => some value
  | _ => none

end Reader

def read? (text : String) : Option Document :=
  text.toList.foldlM Reader.next? Reader.start >>= Reader.finish?

end PuzzleShell.Json
