import PuzzleShell.Json.Reader
import PuzzleShell.Proofs.Json.Token

/-!
# What is written is read again

A document that is written in the compact form is read as the same document.  The reader goes
through the characters one by one; a string, a list and a record are complete with their last
character, but a number and a literal name stay open until the next one closes them.  So a reader
is said to close with a value when whatever follows a value finds it in the same state.
-/

namespace PuzzleShell

mutual

/-- A document of which the compact form loses nothing. -/
def Document.Plain : Document → Prop
  | .decimal _ | .unreadable => False
  | .list items => Document.ItemsPlain items
  | .record fields => Document.FieldsPlain fields
  | .null | .boolean _ | .integer _ | .text _ => True

def Document.ItemsPlain : List Document → Prop
  | [] => True
  | item :: rest => item.Plain ∧ Document.ItemsPlain rest

def Document.FieldsPlain : List (String × Document) → Prop
  | [] => True
  | (_, value) :: rest => value.Plain ∧ Document.FieldsPlain rest

end

namespace Json

variable {reader last after : Reader} {expected : Expected} {frames : List Frame}
  {value : Document} {units : List Nat} {front rest : List Char} {c : Char}

def Reads (reader : Reader) (cs : List Char) (after : Reader) : Prop :=
  cs.foldlM Reader.next? reader = some after

namespace Reads

theorem nil (reader : Reader) : Reads reader [] reader := rfl

theorem cons (next : reader.next? c = some last) (reads : Reads last rest after) :
    Reads reader (c :: rest) after := by
  rw [Reads, List.foldlM_cons, next]
  exact reads

theorem append (first : Reads reader front last) (second : Reads last rest after) :
    Reads reader (front ++ rest) after := by
  rw [Reads, List.foldlM_append, first]
  exact second

theorem single (next : reader.next? c = some after) : Reads reader [c] after :=
  cons next (nil after)

end Reads

/-- A place where a value may stand, inside the given containers. -/
inductive Expected.Admits : Expected → List Frame → Prop where
  | value (frames : List Frame) : Admits (.value frames) frames
  | firstItem (frames : List Frame) : Admits (.firstItem frames) (.list [] :: frames)

/-- Whatever begins a value begins it in the same way at all such places. -/
theorem Expected.Admits.next?_eq (admits : expected.Admits frames) {token : Token}
    (begins : token ≠ .closeList) : expected.next? token = Expected.beginValue? frames token := by
  cases admits with
  | value => rfl
  | firstItem =>
      cases token with
      | closeList => exact absurd rfl begins
      | _ => rfl

/-- What follows a value finds the reader in the same state as after the complete value. -/
structure Closes (reader : Reader) (value : Document) (frames : List Frame) : Prop where
  next : ∀ c ∈ [',', ']', '}'],
    reader.next? c = Reader.next? ⟨.between, .separator value frames⟩ c
  finish : reader.finish? = Reader.finish? ⟨.between, .separator value frames⟩

theorem closes_complete (value : Document) (frames : List Frame) :
    Closes ⟨.between, .separator value frames⟩ value frames :=
  ⟨fun _ _ => rfl, rfl⟩

/-- The containers around a value go on when it is complete. -/
theorem Closes.reads (closes : Closes reader value frames) (follows : c ∈ [',', ']', '}'])
    (next : Reader.next? ⟨.between, .separator value frames⟩ c = some after) :
    Reads reader [c] after :=
  .single ((closes.next c follows).trans next)

/-! ## Numbers and literal names -/

theorem accept?_scalar (admits : expected.Admits frames) (value : Document) :
    Reader.accept? expected (.scalar value) = some ⟨.between, .separator value frames⟩ := by
  rw [Reader.accept?, admits.next?_eq Token.noConfusion]
  rfl

theorem closes_number (admits : expected.Admits frames) {spelling : List Char}
    (spelled : number? spelling.reverse = some value) :
    Closes ⟨.number spelling, expected⟩ value frames := by
  constructor
  · intro c follows
    have other : isNumberChar c = false := by
      simp only [List.mem_cons, List.not_mem_nil, or_false] at follows
      rcases follows with rfl | rfl | rfl <;> rfl
    simp only [Reader.next?, other, spelled, bind, Option.bind, accept?_scalar admits]
    rfl
  · simp only [Reader.finish?, spelled, bind, Option.bind, accept?_scalar admits]

theorem reads_number (numeric : ∀ c ∈ rest, isNumberChar c = true) (spelling : List Char) :
    Reads ⟨.number spelling, expected⟩ rest ⟨.number (rest.reverse ++ spelling), expected⟩ := by
  induction rest generalizing spelling with
  | nil => exact .nil _
  | cons c rest ih =>
      rw [List.forall_mem_cons] at numeric
      have next : Reader.next? ⟨.number spelling, expected⟩ c =
          some ⟨.number (c :: spelling), expected⟩ := if_pos numeric.1
      have reads := ih numeric.2 (c :: spelling)
      rw [List.reverse_cons, List.append_assoc]
      exact reads.cons next

theorem begin?_number (expected : Expected) (start : c.isDigit = true ∨ c = '-') :
    Reader.begin? expected c = some ⟨.number [c], expected⟩ := by
  have plain : isSpace c = false ∧ c ≠ '"' := by
    rcases start with digit | rfl
    · constructor
      · by_contra space
        simp only [isSpace, Bool.not_eq_false, Bool.or_eq_true, decide_eq_true_eq] at space
        rcases space with ((rfl | rfl) | rfl) | rfl <;> cases digit
      · rintro rfl
        cases digit
    · exact ⟨rfl, by decide⟩
  have number : (c.isDigit || c = '-') = true := by simpa using start
  rw [Reader.begin?, plain.1, if_neg Bool.false_ne_true, if_neg plain.2, if_pos number]

theorem reads_integer (admits : expected.Admits frames) (value : Int) :
    ∃ after, Reads ⟨.between, expected⟩ (toString value).toList after ∧
      Closes after (.integer value) frames := by
  obtain ⟨first, rest, spelled, start, digits⟩ := toList_toString_cons value
  have numeric : ∀ c ∈ rest, isNumberChar c = true := by
    intro c member
    simp [isNumberChar, digits c member]
  refine ⟨⟨.number (rest.reverse ++ [first]), expected⟩, ?_, closes_number admits ?_⟩
  · rw [spelled]
    exact (reads_number numeric [first]).cons (begin?_number expected start)
  · rw [List.reverse_append, List.reverse_reverse, List.reverse_singleton, List.singleton_append,
      ← spelled, number?_toString]

theorem closes_literal (admits : expected.Admits frames) {spelling : List Char}
    (spelled : literal? spelling.reverse = some value) :
    Closes ⟨.literal spelling, expected⟩ value frames := by
  constructor
  · intro c follows
    have other : c.isAlpha = false := by
      simp only [List.mem_cons, List.not_mem_nil, or_false] at follows
      rcases follows with rfl | rfl | rfl <;> rfl
    simp only [Reader.next?, other, spelled, bind, Option.bind, accept?_scalar admits]
    rfl
  · simp only [Reader.finish?, spelled, bind, Option.bind, accept?_scalar admits]

theorem reads_null (admits : expected.Admits frames) :
    ∃ after, Reads ⟨.between, expected⟩ (compact .null).toList after ∧
      Closes after .null frames :=
  ⟨⟨.literal ['l', 'l', 'u', 'n'], expected⟩, rfl, closes_literal admits rfl⟩

theorem reads_boolean (admits : expected.Admits frames) (value : Bool) :
    ∃ after, Reads ⟨.between, expected⟩ (compact (.boolean value)).toList after ∧
      Closes after (.boolean value) frames := by
  cases value with
  | true => exact ⟨⟨.literal ['e', 'u', 'r', 't'], expected⟩, rfl, closes_literal admits rfl⟩
  | false =>
      exact ⟨⟨.literal ['e', 's', 'l', 'a', 'f'], expected⟩, rfl, closes_literal admits rfl⟩

/-! ## Strings -/

/-- The two hexadecimal digits of a control character spell it. -/
theorem reads_hex (small : c.toNat < 0x20) :
    Reads ⟨.escape units, expected⟩
      ['u', '0', '0', hexDigit (c.toNat / 16), hexDigit (c.toNat % 16)]
      ⟨.text (c.toNat :: units), expected⟩ := by
  have high := hexValue?_hexDigit (c.toNat / 16) (by omega)
  have low := hexValue?_hexDigit (c.toNat % 16) (by omega)
  have zero : hexValue? '0' = some 0 := by decide
  have first : Reader.next? ⟨.escape units, expected⟩ 'u' = some ⟨.hex units 4 0, expected⟩ := rfl
  have second : Reader.next? ⟨.hex units 4 0, expected⟩ '0' = some ⟨.hex units 3 0, expected⟩ := by
    simp [Reader.next?, zero]
  have third : Reader.next? ⟨.hex units 3 0, expected⟩ '0' = some ⟨.hex units 2 0, expected⟩ := by
    simp [Reader.next?, zero]
  have fourth : Reader.next? ⟨.hex units 2 0, expected⟩ (hexDigit (c.toNat / 16)) =
      some ⟨.hex units 1 (c.toNat / 16), expected⟩ := by
    simp [Reader.next?, high]
  have fifth : Reader.next? ⟨.hex units 1 (c.toNat / 16), expected⟩ (hexDigit (c.toNat % 16)) =
      some ⟨.text (c.toNat :: units), expected⟩ := by
    simp [Reader.next?, low, Nat.div_add_mod']
  exact .cons first (.cons second (.cons third (.cons fourth (.single fifth))))

/-- A character inside a string is read as its code unit. -/
theorem reads_escape (c : Char) (units : List Nat) :
    Reads ⟨.text units, expected⟩ (escape c) ⟨.text (c.toNat :: units), expected⟩ := by
  unfold escape
  split
  · rfl
  · rfl
  · rfl
  · rfl
  · rfl
  next quote backslash newline carriage tab =>
    have escaped : Reader.next? ⟨.text units, expected⟩ '\\' =
        some ⟨.escape units, expected⟩ := rfl
    split
    next eight =>
      refine .cons escaped (.single ?_)
      rw [eight]
      rfl
    · split
      next twelve =>
        refine .cons escaped (.single ?_)
        rw [twelve]
        rfl
      · split
        next small => exact .cons escaped (reads_hex small)
        next plain =>
          refine .single ?_
          rw [Reader.next?]
          dsimp only
          rw [if_neg quote, if_neg backslash, if_neg plain]

theorem reads_escapes (cs : List Char) (units : List Nat) :
    Reads ⟨.text units, expected⟩ (cs.flatMap escape)
      ⟨.text ((cs.map Char.toNat).reverse ++ units), expected⟩ := by
  induction cs generalizing units with
  | nil => exact .nil _
  | cons c rest ih =>
      rw [List.flatMap_cons, List.map_cons, List.reverse_cons, List.append_assoc]
      exact (reads_escape c units).append (ih (c.toNat :: units))

/-- A written string is read as the text that it was written for. -/
theorem reads_quote (text : String)
    (accepts : Reader.accept? expected (.text (some text)) = some after) :
    Reads ⟨.between, expected⟩ (quote text).toList after := by
  have opens : Reader.next? ⟨.between, expected⟩ '"' = some ⟨.text [], expected⟩ := rfl
  have closes : Reader.next? ⟨.text ((text.toList.map Char.toNat).reverse ++ []), expected⟩ '"' =
      some after := by
    rw [Reader.next?]
    dsimp only
    rw [if_pos rfl, List.append_nil, List.reverse_reverse, textToken_map_toNat, accepts]
  have spelled : (quote text).toList = '"' :: (text.toList.flatMap escape ++ ['"']) := by
    simp [quote]
  rw [spelled]
  exact .cons opens ((reads_escapes text.toList []).append (.single closes))

/-! ## Lists and records -/

/-- A document whose compact form is read as itself, wherever a value may stand. -/
def Readable (value : Document) : Prop :=
  ∀ expected frames, Expected.Admits expected frames →
    ∃ after, Reads ⟨.between, expected⟩ (compact value).toList after ∧ Closes after value frames

theorem toList_compactItems_cons (first second : Document) (rest : List Document) :
    (",".intercalate (compactItems (first :: second :: rest))).toList =
      (compact first).toList ++
        ',' :: (",".intercalate (compactItems (second :: rest))).toList := by
  simp only [compactItems, String.toList_intercalate, List.map_cons, List.intercalate_cons_cons,
    List.append_assoc]
  rfl

/-- The items of a list are read one after another, up to the end of the list. -/
theorem reads_items {item : Document} {rest items : List Document}
    (readable : ∀ other ∈ item :: rest, Readable other)
    (admits : expected.Admits (.list items :: frames)) :
    Reads ⟨.between, expected⟩ ((",".intercalate (compactItems (item :: rest))).toList ++ [']'])
      ⟨.between, .separator (.list (items.reverse ++ item :: rest)) frames⟩ := by
  induction rest generalizing item items expected with
  | nil =>
      obtain ⟨after, reads, closes⟩ := readable item List.mem_cons_self expected _ admits
      have only : (",".intercalate (compactItems [item])).toList = (compact item).toList := by
        simp [compactItems]
      rw [only, ← List.reverse_cons]
      exact reads.append (closes.reads (by simp) rfl)
  | cons second rest ih =>
      obtain ⟨after, reads, closes⟩ := readable item List.mem_cons_self expected _ admits
      have further : ∀ other ∈ second :: rest, Readable other :=
        fun other member => readable other (List.mem_cons_of_mem item member)
      have others := ih further (.value (.list (item :: items) :: frames))
      rw [List.reverse_cons, List.append_assoc] at others
      rw [toList_compactItems_cons, List.append_assoc]
      exact reads.append ((closes.reads (by simp) rfl).append others)

def namedFields (fields : List (String × Document)) : List (Option String × Document) :=
  fields.map fun field => (some field.1, field.2)

theorem recordOf_namedFields (fields : List (String × Document)) :
    recordOf (namedFields fields) = .record fields := by
  have named : (namedFields fields).mapM (fun field => field.1.map (·, field.2)) = some fields := by
    induction fields with
    | nil => rfl
    | cons field rest ih =>
        rw [namedFields, List.map_cons, List.mapM_cons, ← namedFields, ih]
        rfl
  rw [recordOf, named]

theorem toList_compactFields_cons (name : String) (value : Document)
    (second : String × Document) (rest : List (String × Document)) :
    (",".intercalate (compactFields ((name, value) :: second :: rest))).toList =
      (quote name).toList ++ ':' :: ((compact value).toList ++
        ',' :: (",".intercalate (compactFields (second :: rest))).toList) := by
  simp [compactFields, String.toList_intercalate]

/-- A field is read up to the colon and its value, whose end is still to come. -/
theorem reads_field {name : String} {fields : List (Option String × Document)}
    (readable : Readable value)
    (named :
      Expected.next? expected (.text (some name)) = some (.colon fields (some name) frames)) :
    ∃ after, Reads ⟨.between, expected⟩ ((quote name).toList ++ ':' :: (compact value).toList)
        after ∧ Closes after value (.record fields (some name) :: frames) := by
  have accepts : Reader.accept? expected (.text (some name)) =
      some ⟨.between, .colon fields (some name) frames⟩ := by
    rw [Reader.accept?, named]
    rfl
  have colon : Reader.next? ⟨.between, .colon fields (some name) frames⟩ ':' =
      some ⟨.between, .value (.record fields (some name) :: frames)⟩ := rfl
  obtain ⟨after, reads, closes⟩ := readable _ _ (.value (.record fields (some name) :: frames))
  exact ⟨after, (reads_quote name accepts).append (.cons colon reads), closes⟩

/-- A record is complete with its last field. -/
theorem recordOf_reverse (fields : List (String × Document)) (name : String) (value : Document) :
    recordOf ((some name, value) :: (namedFields fields).reverse).reverse =
      .record (fields ++ [(name, value)]) := by
  rw [← recordOf_namedFields]
  simp [namedFields]

/-- The fields of a record are read one after another, up to the end of the record. -/
theorem reads_fields {name : String} {rest fields : List (String × Document)}
    (readable : ∀ field ∈ (name, value) :: rest, Readable field.2)
    (named : ∀ name, Expected.next? expected (.text (some name)) =
      some (.colon (namedFields fields).reverse (some name) frames)) :
    Reads ⟨.between, expected⟩
      ((",".intercalate (compactFields ((name, value) :: rest))).toList ++ ['\x7d'])
      ⟨.between, .separator (.record (fields ++ (name, value) :: rest)) frames⟩ := by
  induction rest generalizing name value fields expected with
  | nil =>
      obtain ⟨after, reads, closes⟩ :=
        reads_field (readable (name, value) List.mem_cons_self) (named name)
      have only : (",".intercalate (compactFields [(name, value)])).toList =
          (quote name).toList ++ ':' :: (compact value).toList := by
        simp [compactFields]
      have ends : Reader.next? ⟨.between, .separator value
            (.record (namedFields fields).reverse (some name) :: frames)⟩ '\x7d' =
          some ⟨.between, .separator (.record (fields ++ [(name, value)])) frames⟩ := by
        rw [← recordOf_reverse]
        rfl
      rw [only]
      exact reads.append (closes.reads (by simp) ends)
  | cons second rest ih =>
      obtain ⟨following, other⟩ := second
      obtain ⟨after, reads, closes⟩ :=
        reads_field (readable (name, value) List.mem_cons_self) (named name)
      have further : ∀ field ∈ (following, other) :: rest, Readable field.2 :=
        fun field member => readable field (List.mem_cons_of_mem _ member)
      have goesOn : Reader.next? ⟨.between, .separator value
            (.record (namedFields fields).reverse (some name) :: frames)⟩ ',' =
          some ⟨.between, .key (namedFields (fields ++ [(name, value)])).reverse frames⟩ := by
        simp only [namedFields, List.map_append, List.map_singleton, List.reverse_append,
          List.reverse_singleton, List.singleton_append]
        rfl
      have others : Reads ⟨.between, .key (namedFields (fields ++ [(name, value)])).reverse frames⟩
          ((",".intercalate (compactFields ((following, other) :: rest))).toList ++ ['\x7d'])
          ⟨.between, .separator (.record (fields ++ [(name, value)] ++ (following, other) :: rest))
            frames⟩ := ih further fun _ => rfl
      rw [List.append_assoc, List.singleton_append] at others
      rw [toList_compactFields_cons]
      have whole := reads.append ((closes.reads (by simp) goesOn).append others)
      simpa only [List.append_assoc, List.cons_append, List.nil_append] using whole

mutual

/-- Whatever a plain document holds is read at the place where it stands. -/
theorem readable_of_plain : (document : Document) → document.Plain → Readable document
  | .null, _ => fun _ _ admits => reads_null admits
  | .boolean value, _ => fun _ _ admits => reads_boolean admits value
  | .integer value, _ => fun _ _ admits => reads_integer admits value
  | .text text, _ => by
      intro expected frames admits
      have accepts : Reader.accept? expected (.text (some text)) =
          some ⟨.between, .separator (.text text) frames⟩ := by
        rw [Reader.accept?, admits.next?_eq Token.noConfusion]
        rfl
      exact ⟨_, reads_quote text accepts, closes_complete _ _⟩
  | .list items, plain => by
      intro expected frames admits
      have opens : Reader.next? ⟨.between, expected⟩ '[' = some ⟨.between, .firstItem frames⟩ := by
        change Reader.accept? expected .openList = _
        rw [Reader.accept?, admits.next?_eq Token.noConfusion]
        rfl
      have readable := readable_items items plain
      refine ⟨⟨.between, .separator (.list items) frames⟩, ?_, closes_complete _ _⟩
      have spelled : (compact (.list items)).toList =
          '[' :: ((",".intercalate (compactItems items)).toList ++ [']']) := by
        simp [compact]
      rw [spelled]
      refine .cons opens ?_
      cases items with
      | nil => rfl
      | cons item rest => exact reads_items readable (.firstItem frames)
  | .record fields, plain => by
      intro expected frames admits
      have opens : Reader.next? ⟨.between, expected⟩ '\x7b' =
          some ⟨.between, .firstKey frames⟩ := by
        change Reader.accept? expected .openRecord = _
        rw [Reader.accept?, admits.next?_eq Token.noConfusion]
        rfl
      have readable := readable_fields fields plain
      refine ⟨⟨.between, .separator (.record fields) frames⟩, ?_, closes_complete _ _⟩
      have spelled : (compact (.record fields)).toList =
          '\x7b' :: ((",".intercalate (compactFields fields)).toList ++ ['\x7d']) := by
        simp [compact]
      rw [spelled]
      refine .cons opens ?_
      cases fields with
      | nil => rfl
      | cons field rest =>
          obtain ⟨name, value⟩ := field
          have named : ∀ name, Expected.next? (.firstKey frames) (.text (some name)) =
              some (.colon (namedFields []).reverse (some name) frames) := fun _ => rfl
          exact reads_fields readable named

theorem readable_items : (items : List Document) → Document.ItemsPlain items →
    ∀ item ∈ items, Readable item
  | [], _ => List.forall_mem_nil _
  | item :: rest, plain =>
      List.forall_mem_cons.mpr ⟨readable_of_plain item plain.1, readable_items rest plain.2⟩

theorem readable_fields : (fields : List (String × Document)) → Document.FieldsPlain fields →
    ∀ field ∈ fields, Readable field.2
  | [], _ => List.forall_mem_nil _
  | (_, value) :: rest, plain =>
      List.forall_mem_cons.mpr ⟨readable_of_plain value plain.1, readable_fields rest plain.2⟩

end

/-- A plain document is read again from what is written for it. -/
theorem read?_compact {document : Document} (plain : document.Plain) :
    read? (compact document) = some document := by
  obtain ⟨after, reads, closes⟩ := readable_of_plain document plain _ _ (.value [])
  rw [Reads] at reads
  rw [read?, Reader.start, reads]
  exact closes.finish

end Json

end PuzzleShell
