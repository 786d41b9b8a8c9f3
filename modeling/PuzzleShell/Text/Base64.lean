/-!
# Base64

The standard alphabet with padding.  Three bytes become four digits; a shorter rest is filled up
with `=`.  Decoding accepts the one written form of each byte sequence and nothing else: the
padding must be there, and the bits that it leaves over must be zero.
-/

namespace PuzzleShell.Text.Base64

def alphabet : List Char :=
  "ABCDEFGHIJKLMNOPQRSTUVWXYZabcdefghijklmnopqrstuvwxyz0123456789+/".toList

def digit (value : Nat) : Char :=
  alphabet.getD value 'A'

def value? (c : Char) : Option Nat :=
  alphabet.findIdx? (· == c)

def encodeBytes : List UInt8 → List Char
  | [] => []
  | [a] =>
      [digit (a.toNat / 4), digit (a.toNat % 4 * 16), '=', '=']
  | [a, b] =>
      [digit (a.toNat / 4), digit (a.toNat % 4 * 16 + b.toNat / 16),
       digit (b.toNat % 16 * 4), '=']
  | a :: b :: c :: rest =>
      digit (a.toNat / 4) :: digit (a.toNat % 4 * 16 + b.toNat / 16) ::
        digit (b.toNat % 16 * 4 + c.toNat / 64) :: digit (c.toNat % 64) :: encodeBytes rest

/-- The byte written by two digits and two padding characters. -/
def lastOne? (w x : Char) : Option (List UInt8) := do
  let w ← value? w
  let x ← value? x
  if x % 16 = 0 then some [(w * 4 + x / 16).toUInt8] else none

/-- The bytes written by three digits and one padding character. -/
def lastTwo? (w x y : Char) : Option (List UInt8) := do
  let w ← value? w
  let x ← value? x
  let y ← value? y
  if y % 4 = 0 then some [(w * 4 + x / 16).toUInt8, (x % 16 * 16 + y / 4).toUInt8] else none

def group? (w x y z : Char) : Option (List UInt8) := do
  let w ← value? w
  let x ← value? x
  let y ← value? y
  let z ← value? z
  some [(w * 4 + x / 16).toUInt8, (x % 16 * 16 + y / 4).toUInt8, (y % 4 * 64 + z).toUInt8]

def decodeBytes? : List Char → Option (List UInt8)
  | [] => some []
  | w :: x :: y :: z :: rest =>
      if rest = [] ∧ z = '=' then
        if y = '=' then lastOne? w x else lastTwo? w x y
      else do
        let bytes ← group? w x y z
        let others ← decodeBytes? rest
        some (bytes ++ others)
  | _ => none

def encode (text : String) : String :=
  String.ofList (encodeBytes text.toUTF8.data.toList)

example : encode "any carnal pleas" = "YW55IGNhcm5hbCBwbGVhcw==" := by cbv

end PuzzleShell.Text.Base64
