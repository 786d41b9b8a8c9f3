import Mathlib.Data.List.TakeWhile
import PuzzleShell.Json.Printer
import PuzzleShell.Json.Token

/-!
# What is written is a token again

The characters of a written string spell the text that was written, and the digits of a written
integer spell that integer.
-/

namespace PuzzleShell.Json

/-- No character is half of a surrogate pair. -/
theorem not_surrogate (c : Char) :
    isHighSurrogate c.toNat = false ∧ isLowSurrogate c.toNat = false := by
  have valid : c.toNat < 0xD800 ∨ 0xDFFF < c.toNat ∧ c.toNat < 0x110000 := c.valid
  simp only [isHighSurrogate, isLowSurrogate, Bool.and_eq_false_iff, decide_eq_false_iff_not]
  omega

/-- Characters are spelled by their own code units. -/
theorem charsOfUnits?_map_toNat (cs : List Char) :
    charsOfUnits? (cs.map Char.toNat) = some cs := by
  induction cs with
  | nil => rfl
  | cons c rest ih =>
      obtain ⟨notHigh, notLow⟩ := not_surrogate c
      cases rest with
      | nil => simp [charsOfUnits?, notHigh, notLow, Char.ofNat_toNat]
      | cons next rest =>
          rw [List.map_cons] at ih ⊢
          simp [charsOfUnits?, notHigh, notLow, ih, Char.ofNat_toNat]

theorem textToken_map_toNat (text : String) :
    textToken (text.toList.map Char.toNat) = .text (some text) := by
  rw [textToken, charsOfUnits?_map_toNat, Option.map_some, String.ofList_toList]

theorem hexValue?_hexDigit : ∀ value < 16, hexValue? (hexDigit value) = some value := by
  decide

/-- Digits spell the number that they are written for. -/
theorem natOfDigits_toDigits (n : Nat) : natOfDigits (Nat.toDigits 10 n) = n := by
  have spelled := @Nat.ofDigitChars_ten_toDigits n
  rw [Nat.ofDigitChars_eq_foldl] at spelled
  rw [natOfDigits]
  simp only [Nat.mul_comm _ 10]
  exact spelled

/-- Only the number zero is written with a zero in front. -/
theorem toDigits_eq_of_head? {n : Nat} (zero : (Nat.toDigits 10 n).head? = some '0') : n = 0 := by
  induction n using Nat.strongRecOn with
  | ind n ih =>
      rw [Nat.toDigits_eq_if (by decide)] at zero
      split at zero
      next small =>
        have digit : ∀ n < 10, Nat.digitChar n = '0' → n = 0 := by decide
        exact digit n small (Option.some.inj zero)
      next large =>
        obtain ⟨first, rest, spelled⟩ := List.exists_cons_of_ne_nil
          (@Nat.toDigits_ne_nil (n / 10) 10)
        have none : n / 10 = 0 := by
          refine ih (n / 10) (by omega) ?_
          rw [spelled] at zero ⊢
          exact zero
        omega

theorem isDigit_of_mem_toDigits (n : Nat) : ∀ c ∈ Nat.toDigits 10 n, c.isDigit = true :=
  fun _ member => Nat.isDigit_of_mem_toDigits (by decide) (by decide) member

theorem digits?_toDigits (n : Nat) :
    digits? (Nat.toDigits 10 n) = some (Nat.toDigits 10 n, []) := by
  have all := isDigit_of_mem_toDigits n
  unfold digits?
  rw [List.takeWhile_eq_self_iff.2 all, List.dropWhile_eq_nil_iff.2 all, if_neg]
  rw [List.isEmpty_iff]
  exact Nat.toDigits_ne_nil

/-- The digits of a number are read as that number, with its sign. -/
theorem unsigned?_toDigits {negative : Bool} {n : Nat} (signed : negative = true → n ≠ 0) :
    unsigned? negative (Nat.toDigits 10 n) =
      some (.integer (if negative then -(n : Int) else n)) := by
  have whole : ¬((Nat.toDigits 10 n).length ≠ 1 ∧ (Nat.toDigits 10 n).head? = some '0') := by
    rintro ⟨more, zero⟩
    rw [toDigits_eq_of_head? zero] at more
    exact more rfl
  have minusZero : ¬(negative = true ∧ Nat.toDigits 10 n = ['0']) := by
    rintro ⟨minus, zero⟩
    exact signed minus (toDigits_eq_of_head? (by rw [zero]; rfl))
  simp only [unsigned?, digits?_toDigits, bind, Option.bind]
  rw [if_neg whole, List.isEmpty_nil, if_pos rfl, if_neg minusZero, natOfDigits_toDigits]
  split <;> rfl

theorem toList_toString_natCast (n : Nat) : (toString (n : Int)).toList = Nat.toDigits 10 n := by
  rw [Int.toString_eq_repr]
  exact (congrArg String.toList Nat.repr_eq_ofList_toDigits).trans String.toList_ofList

theorem toList_toString_negSucc (n : Nat) :
    (toString (Int.negSucc n)).toList = '-' :: Nat.toDigits 10 (n + 1) := by
  rw [Int.toString_eq_repr]
  have spelled : (Int.negSucc n).repr = "-" ++ (n + 1).repr := rfl
  rw [spelled, String.toList_append, Nat.repr_eq_ofList_toDigits]
  exact congrArg ('-' :: ·) String.toList_ofList

/-- A written integer is read as that integer. -/
theorem number?_toString (value : Int) :
    number? (toString value).toList = some (.integer value) := by
  cases value with
  | ofNat n =>
      obtain ⟨first, rest, spelled⟩ := List.exists_cons_of_ne_nil (@Nat.toDigits_ne_nil n 10)
      have digit := isDigit_of_mem_toDigits n first (by rw [spelled]; exact List.mem_cons_self)
      have read := @unsigned?_toDigits false n Bool.noConfusion
      have digits := toList_toString_natCast n
      rw [Int.ofNat_eq_natCast, digits]
      rw [spelled] at read ⊢
      unfold number?
      split
      next minus =>
        cases minus
        cases digit
      · exact read
  | negSucc n =>
      rw [toList_toString_negSucc]
      exact unsigned?_toDigits fun _ => Nat.succ_ne_zero n

/-- A written integer begins with a digit or a sign and has nothing but digits after it. -/
theorem toList_toString_cons (value : Int) :
    ∃ first rest, (toString value).toList = first :: rest ∧
      (first.isDigit = true ∨ first = '-') ∧ ∀ c ∈ rest, c.isDigit = true := by
  cases value with
  | ofNat n =>
      obtain ⟨first, rest, spelled⟩ := List.exists_cons_of_ne_nil (@Nat.toDigits_ne_nil n 10)
      have all := isDigit_of_mem_toDigits n
      rw [spelled, List.forall_mem_cons] at all
      refine ⟨first, rest, ?_, Or.inl all.1, all.2⟩
      rw [Int.ofNat_eq_natCast, toList_toString_natCast, spelled]
  | negSucc n =>
      exact ⟨'-', Nat.toDigits 10 (n + 1), toList_toString_negSucc n, Or.inr rfl,
        isDigit_of_mem_toDigits (n + 1)⟩

end PuzzleShell.Json
