import Mathlib.Data.List.Basic
import PuzzleShell.Text.Base64
import PuzzleShell.Text.Blank

/-!
# The base64 form of a text

The digits of a byte sequence are the numeral to base 64 of the number that the bytes spell to base
256, once each padding character has put two more zero bits at its end.  That leaves one written
form of every byte sequence, and decoding accepts this one and nothing else.
-/

namespace PuzzleShell.Text.Base64

variable {bytes : List UInt8} {digits : List Char} {value : Nat} {w x y z : Char}

section Digits

/-- The value of a digit is where it stands in the alphabet. -/
theorem value?_eq_some_iff {c : Char} : value? c = some value ↔ value < 64 ∧ digit value = c := by
  have size : alphabet.length = 64 := by decide +kernel
  constructor
  · intro found
    obtain ⟨inside, here, -⟩ := List.findIdx?_eq_some_iff_getElem.1 found
    refine ⟨size ▸ inside, ?_⟩
    rw [digit, List.getD_eq_getElem?_getD, List.getElem?_eq_getElem inside]
    simpa using here
  · rintro ⟨below, rfl⟩
    have found : ∀ value ∈ List.range 64, value? (digit value) = some value := by
      decide +kernel
    exact found value (List.mem_range.2 below)

theorem digit_ne_padding (below : value < 64) : digit value ≠ '=' := by
  intro same
  have nothing : value? '=' = none := by decide +kernel
  have found := value?_eq_some_iff.2 ⟨below, same⟩
  rw [nothing] at found
  cases found

theorem digit_mem_alphabet (value : Nat) : digit value ∈ alphabet := by
  rw [digit, List.getD_eq_getElem?_getD]
  cases found : alphabet[value]? with
  | none => decide +kernel
  | some c => exact List.mem_of_getElem? found

theorem toNat_toUInt8 (fits : value < 256) : value.toUInt8.toNat = value := by
  rw [UInt8.toNat_ofNat']
  exact Nat.mod_eq_of_lt fits

theorem toUInt8_eq (byte : UInt8) (same : value = byte.toNat) : value.toUInt8 = byte := by
  rw [same]
  exact UInt8.ofNat_toNat

/-- The digits that stand for three bytes. -/
theorem group?_eq_some_iff :
    group? w x y z = some bytes ↔ ∃ a b c : UInt8, bytes = [a, b, c] ∧ w = digit (a.toNat / 4) ∧
      x = digit (a.toNat % 4 * 16 + b.toNat / 16) ∧ y = digit (b.toNat % 16 * 4 + c.toNat / 64) ∧
        z = digit (c.toNat % 64) := by
  simp only [group?, Option.bind_eq_bind, Option.bind_eq_some_iff, Option.some.injEq,
    value?_eq_some_iff]
  constructor
  · rintro ⟨w, ⟨first, rfl⟩, x, ⟨second, rfl⟩, y, ⟨third, rfl⟩, z, ⟨fourth, rfl⟩, rfl⟩
    refine ⟨_, _, _, rfl, ?_⟩
    rw [toNat_toUInt8 (by omega), toNat_toUInt8 (by omega), toNat_toUInt8 (by omega)]
    refine ⟨congrArg digit ?_, congrArg digit ?_, congrArg digit ?_, congrArg digit ?_⟩ <;> omega
  · rintro ⟨a, b, c, rfl, rfl, rfl, rfl, rfl⟩
    have first := a.toNat_lt
    have second := b.toNat_lt
    have third := c.toNat_lt
    refine ⟨_, ⟨?_, rfl⟩, _, ⟨?_, rfl⟩, _, ⟨?_, rfl⟩, _, ⟨?_, rfl⟩, ?_⟩
    · omega
    · omega
    · omega
    · omega
    · rw [toUInt8_eq a (by omega), toUInt8_eq b (by omega), toUInt8_eq c (by omega)]

/-- The digits that stand for two last bytes. -/
theorem lastTwo?_eq_some_iff :
    lastTwo? w x y = some bytes ↔ ∃ a b : UInt8, bytes = [a, b] ∧ w = digit (a.toNat / 4) ∧
      x = digit (a.toNat % 4 * 16 + b.toNat / 16) ∧ y = digit (b.toNat % 16 * 4) := by
  simp only [lastTwo?, Option.bind_eq_bind, Option.bind_eq_some_iff, Option.ite_none_right_eq_some,
    Option.some.injEq, value?_eq_some_iff]
  constructor
  · rintro ⟨w, ⟨first, rfl⟩, x, ⟨second, rfl⟩, y, ⟨third, rfl⟩, rest, rfl⟩
    refine ⟨_, _, rfl, ?_⟩
    rw [toNat_toUInt8 (by omega), toNat_toUInt8 (by omega)]
    refine ⟨congrArg digit ?_, congrArg digit ?_, congrArg digit ?_⟩ <;> omega
  · rintro ⟨a, b, rfl, rfl, rfl, rfl⟩
    have first := a.toNat_lt
    have second := b.toNat_lt
    refine ⟨_, ⟨?_, rfl⟩, _, ⟨?_, rfl⟩, _, ⟨?_, rfl⟩, ?_, ?_⟩
    · omega
    · omega
    · omega
    · omega
    · rw [toUInt8_eq a (by omega), toUInt8_eq b (by omega)]

/-- The digits that stand for one last byte. -/
theorem lastOne?_eq_some_iff :
    lastOne? w x = some bytes ↔ ∃ a : UInt8, bytes = [a] ∧ w = digit (a.toNat / 4) ∧
      x = digit (a.toNat % 4 * 16) := by
  simp only [lastOne?, Option.bind_eq_bind, Option.bind_eq_some_iff, Option.ite_none_right_eq_some,
    Option.some.injEq, value?_eq_some_iff]
  constructor
  · rintro ⟨w, ⟨first, rfl⟩, x, ⟨second, rfl⟩, rest, rfl⟩
    refine ⟨_, rfl, ?_⟩
    rw [toNat_toUInt8 (by omega)]
    refine ⟨congrArg digit ?_, congrArg digit ?_⟩ <;> omega
  · rintro ⟨a, rfl, rfl, rfl⟩
    have first := a.toNat_lt
    refine ⟨_, ⟨?_, rfl⟩, _, ⟨?_, rfl⟩, ?_, ?_⟩
    · omega
    · omega
    · omega
    · rw [toUInt8_eq a (by omega)]

end Digits

section Bytes

theorem decodeBytes?_encodeBytes (bytes : List UInt8) :
    decodeBytes? (encodeBytes bytes) = some bytes := by
  induction bytes using encodeBytes.induct with
  | case1 => rfl
  | case2 a =>
      rw [encodeBytes, decodeBytes?, if_pos ⟨rfl, rfl⟩, if_pos rfl, lastOne?_eq_some_iff]
      exact ⟨a, rfl, rfl, rfl⟩
  | case3 a b =>
      have second := b.toNat_lt
      rw [encodeBytes, decodeBytes?, if_pos ⟨rfl, rfl⟩, if_neg (digit_ne_padding (by omega)),
        lastTwo?_eq_some_iff]
      exact ⟨a, b, rfl, rfl, rfl, rfl⟩
  | case4 a b c rest ih =>
      have padded : ¬ (encodeBytes rest = [] ∧ digit (c.toNat % 64) = '=') := fun both =>
        digit_ne_padding (by omega) both.2
      have found := group?_eq_some_iff.2 ⟨a, b, c, rfl, rfl, rfl, rfl, rfl⟩
      rw [encodeBytes, decodeBytes?, if_neg padded, found, ih]
      rfl

theorem eq_encodeBytes_of_decodeBytes? (decoded : decodeBytes? digits = some bytes) :
    digits = encodeBytes bytes := by
  induction digits using decodeBytes?.induct generalizing bytes with
  | case1 =>
      cases decoded
      rfl
  | case2 w x z rest last =>
      rw [decodeBytes?, if_pos last, if_pos rfl, lastOne?_eq_some_iff] at decoded
      obtain ⟨a, rfl, rfl, rfl⟩ := decoded
      obtain ⟨rfl, rfl⟩ := last
      rfl
  | case3 w x y z rest last digit =>
      rw [decodeBytes?, if_pos last, if_neg digit, lastTwo?_eq_some_iff] at decoded
      obtain ⟨a, b, rfl, rfl, rfl, rfl⟩ := decoded
      obtain ⟨rfl, rfl⟩ := last
      rfl
  | case4 w x y z rest more ih =>
      rw [decodeBytes?, if_neg more] at decoded
      obtain ⟨three, group, decoded⟩ := Option.bind_eq_some_iff.1 decoded
      obtain ⟨others, found, whole⟩ := Option.bind_eq_some_iff.1 decoded
      obtain ⟨a, b, c, rfl, rfl, rfl, rfl, rfl⟩ := group?_eq_some_iff.1 group
      cases whole
      rw [ih found]
      rfl
  | case5 digits nonempty short =>
      rw [decodeBytes?] at decoded
      · cases decoded
      · exact nonempty
      · exact short

/-- Decoding accepts what encoding writes, and nothing else. -/
theorem decodeBytes?_eq_some_iff : decodeBytes? digits = some bytes ↔ digits = encodeBytes bytes :=
  ⟨eq_encodeBytes_of_decodeBytes?, fun same => same ▸ decodeBytes?_encodeBytes bytes⟩

end Bytes

section Numerals

variable {values others : List Nat} {sum other base : Nat}

/-- The number that a numeral to a base spells, if it goes on from another number. -/
def number (base sum : Nat) (numeral : List Nat) : Nat :=
  numeral.foldl (fun sum value => sum * base + value) sum

/--
Whether digits are the standard base64 form of bytes.  With two zero bits for every padding
character, the number to base 64 is the number of the bytes to base 256, and as many bits long.
-/
def Spells (digits : List Char) (bytes : List UInt8) : Prop :=
  ∃ values padding, digits = values.map digit ++ List.replicate padding '=' ∧
    (∀ value ∈ values, value < 64) ∧ padding < 3 ∧
    6 * values.length = 8 * bytes.length + 2 * padding ∧
    number 64 0 values = number 256 0 (bytes.map UInt8.toNat) <<< (2 * padding)

/-- Numerals of one length that spell the same number are the same. -/
theorem number_inj (below : ∀ value ∈ values, value < base) (too : ∀ value ∈ others, value < base)
    (length : values.length = others.length)
    (same : number base sum values = number base other others) : sum = other ∧ values = others := by
  induction values generalizing others sum other with
  | nil =>
      obtain rfl := List.eq_nil_of_length_eq_zero length.symm
      exact ⟨same, rfl⟩
  | cons value rest ih =>
      cases others with
      | nil => cases length
      | cons found more =>
          obtain ⟨first, later⟩ := List.forall_mem_cons.1 below
          obtain ⟨second, further⟩ := List.forall_mem_cons.1 too
          obtain ⟨sums, rfl⟩ := ih later further (Nat.succ.inj length) same
          have last := congrArg (· % base) sums
          simp only [Nat.mul_add_mod', Nat.mod_eq_of_lt first, Nat.mod_eq_of_lt second] at last
          subst last
          have positive : 0 < base := Nat.zero_lt_of_lt first
          exact ⟨Nat.eq_of_mul_eq_mul_right positive (Nat.add_right_cancel sums), rfl⟩

/-- The values of the digits that are written for bytes. -/
theorem exists_values_encodeBytes (bytes : List UInt8) :
    ∃ values padding, encodeBytes bytes = values.map digit ++ List.replicate padding '=' ∧
      (∀ value ∈ values, value < 64) ∧ padding < 3 ∧
      6 * values.length = 8 * bytes.length + 2 * padding ∧
      ∀ sum, number 64 sum values =
        number 256 sum (bytes.map UInt8.toNat) <<< (2 * padding) := by
  induction bytes using encodeBytes.induct with
  | case1 => exact ⟨[], 0, rfl, nofun, by decide, rfl, fun sum => rfl⟩
  | case2 a =>
      have first := a.toNat_lt
      refine ⟨[a.toNat / 4, a.toNat % 4 * 16], 2, rfl, ?_, by decide, rfl, fun sum => ?_⟩
      · simp only [List.forall_mem_cons, List.not_mem_nil, false_implies, implies_true, and_true]
        omega
      · simp only [number, List.map_cons, List.map_nil, List.foldl_cons, List.foldl_nil]
        omega
  | case3 a b =>
      have first := a.toNat_lt
      have second := b.toNat_lt
      refine ⟨[a.toNat / 4, a.toNat % 4 * 16 + b.toNat / 16, b.toNat % 16 * 4], 1, rfl, ?_,
        by decide, rfl, fun sum => ?_⟩
      · simp only [List.forall_mem_cons, List.not_mem_nil, false_implies, implies_true, and_true]
        omega
      · simp only [number, List.map_cons, List.map_nil, List.foldl_cons, List.foldl_nil]
        omega
  | case4 a b c rest ih =>
      have first := a.toNat_lt
      have second := b.toNat_lt
      have third := c.toNat_lt
      obtain ⟨values, padding, written, below, short, length, same⟩ := ih
      refine ⟨a.toNat / 4 :: (a.toNat % 4 * 16 + b.toNat / 16) ::
        (b.toNat % 16 * 4 + c.toNat / 64) :: (c.toNat % 64) :: values, padding, ?_, ?_, short, ?_,
        fun sum => ?_⟩
      · rw [encodeBytes, written]
        rfl
      · simp only [List.forall_mem_cons]
        exact ⟨by omega, by omega, by omega, by omega, below⟩
      · simp only [List.length_cons]
        omega
      · -- Four digits move the number on just as three bytes do.
        have moved : (((sum * 64 + a.toNat / 4) * 64 + (a.toNat % 4 * 16 + b.toNat / 16)) * 64 +
            (b.toNat % 16 * 4 + c.toNat / 64)) * 64 + c.toNat % 64 =
            ((sum * 256 + a.toNat) * 256 + b.toNat) * 256 + c.toNat := by
          omega
        simp only [number, List.map_cons, List.foldl_cons]
        rw [moved]
        exact same _

/-- Bytes have one base64 form, the one that is written for them. -/
theorem spells_iff : Spells digits bytes ↔ digits = encodeBytes bytes := by
  obtain ⟨values, padding, written, below, short, length, same⟩ := exists_values_encodeBytes bytes
  constructor
  · rintro ⟨others, pads, rfl, too, fewer, bits, number⟩
    obtain rfl : pads = padding := by omega
    obtain ⟨-, rfl⟩ := number_inj below too (by omega) ((same 0).trans number.symm)
    exact written.symm
  · rintro rfl
    exact ⟨values, padding, written, below, short, length, same 0⟩

end Numerals

section Texts

variable {written text : String}

def IsFormOf (written text : String) : Prop :=
  Spells written.toList text.toUTF8.data.toList

theorem isFormOf_iff : IsFormOf written text ↔ written = encode text := by
  rw [IsFormOf, spells_iff, encode, ← String.toList_inj, String.toList_ofList]

theorem mem_alphabet_or_padding {c : Char} (member : c ∈ encodeBytes bytes) :
    c ∈ '=' :: alphabet := by
  obtain ⟨values, padding, written, -⟩ := exists_values_encodeBytes bytes
  rw [written] at member
  rcases List.mem_append.1 member with inside | padded
  · obtain ⟨value, -, rfl⟩ := List.mem_map.1 inside
    exact List.mem_cons_of_mem _ (digit_mem_alphabet value)
  · rw [List.eq_of_mem_replicate padded]
    exact List.mem_cons_self

/-- Nothing is blank in a base64 form. -/
theorem withoutBlanks_encode (text : String) : withoutBlanks (encode text) = encode text := by
  have visible : (('=' :: alphabet).all fun c => !isBlank c) = true := by decide +kernel
  have kept : ∀ c ∈ (encode text).toList, (!isBlank c) = true := by
    intro c member
    rw [encode, String.toList_ofList] at member
    exact List.all_eq_true.1 visible c (mem_alphabet_or_padding member)
  rw [withoutBlanks, List.filter_eq_self.2 kept, String.ofList_toList]

theorem fromUTF8?_eq_some_iff {data : ByteArray} :
    String.fromUTF8? data = some text ↔ data = text.toUTF8 := by
  unfold String.fromUTF8?
  split
  next valid =>
    rw [Option.some.injEq]
    constructor
    · rintro rfl
      rfl
    · rintro rfl
      rfl
  next invalid =>
    refine iff_of_false nofun ?_
    rintro rfl
    exact invalid text.isValidUTF8

/-- A text is found again in its base64 form. -/
theorem encode_inj : encode written = encode text ↔ written = text := by
  refine ⟨fun same => ?_, congrArg encode⟩
  have digits := String.ofList_inj.1 same
  have bytes := congrArg decodeBytes? digits
  rw [decodeBytes?_encodeBytes, decodeBytes?_encodeBytes, Option.some.injEq,
    Array.toList_inj] at bytes
  exact String.toByteArray_inj.1 (ByteArray.ext bytes)

theorem isFormOf_withoutBlanks_encode (text : String) :
    IsFormOf (withoutBlanks (encode text)) text := by
  rw [withoutBlanks_encode, isFormOf_iff]

end Texts

end PuzzleShell.Text.Base64
