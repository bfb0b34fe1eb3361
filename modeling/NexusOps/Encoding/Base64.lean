import Mathlib.Algebra.Ring.Nat
import Mathlib.Data.List.Basic

/-!
# Base64

Three bytes as four characters of an alphabet of 64, the last group padded to four
characters (the standard alphabet). What is encoded can be decoded (`decode_encode`).
-/

namespace Encoding.Base64

/-- The alphabet. -/
def alphabet : List Char :=
  "ABCDEFGHIJKLMNOPQRSTUVWXYZabcdefghijklmnopqrstuvwxyz0123456789+/".toList

/-- The character of six bits. -/
def digit (n : Nat) : Char := alphabet.getD n 'A'

/-- The six bits of a character. -/
def value (c : Char) : Option Nat :=
  if c ∈ alphabet then some (alphabet.idxOf c) else none

theorem digit_spec : alphabet.length = 64 ∧ ∀ n : Fin 64,
    value (digit n) = some n.1 ∧ digit n ≠ '=' ∧ (digit n).utf8Size = 1 := by
  decide +kernel

theorem value_digit {n : Nat} (h : n < 64) : value (digit n) = some n := (digit_spec.2 ⟨n, h⟩).1

theorem digit_ne_pad {n : Nat} (h : n < 64) : digit n ≠ '=' := (digit_spec.2 ⟨n, h⟩).2.1

/-- The characters of a list of bytes. -/
def encodeChars : List UInt8 → List Char
  | [] => []
  | [a] => [digit (a.toNat / 4), digit (a.toNat % 4 * 16), '=', '=']
  | [a, b] =>
    [digit (a.toNat / 4), digit (a.toNat % 4 * 16 + b.toNat / 16), digit (b.toNat % 16 * 4), '=']
  | a :: b :: c :: bytes =>
    digit (a.toNat / 4) :: digit (a.toNat % 4 * 16 + b.toNat / 16) ::
      digit (b.toNat % 16 * 4 + c.toNat / 64) :: digit (c.toNat % 64) :: encodeChars bytes

/-- The bytes of a list of characters, if these are groups of four. -/
def decodeChars : List Char → Option (List UInt8)
  | [] => some []
  | w :: x :: y :: z :: cs => do
    let w ← value w
    let x ← value x
    let a := UInt8.ofNat (w * 4 + x / 16)
    if y = '=' ∧ z = '=' ∧ cs = [] then return [a]
    let y ← value y
    let b := UInt8.ofNat (x % 16 * 16 + y / 4)
    if z = '=' ∧ cs = [] then return [a, b]
    let z ← value z
    let c := UInt8.ofNat (y % 4 * 64 + z)
    let bytes ← decodeChars cs
    return a :: b :: c :: bytes
  | _ => none

/-- Encodes bytes. -/
def encode (bytes : List UInt8) : String := String.ofList (encodeChars bytes)

/-- Decodes bytes. -/
def decode (text : String) : Option (List UInt8) := decodeChars text.toList

theorem decodeChars_encodeChars (bytes : List UInt8) :
    decodeChars (encodeChars bytes) = some bytes := by
  fun_induction encodeChars bytes with
  | case1 => rfl
  | case2 a =>
    have ha := a.toNat_lt
    have h₁ := value_digit (n := a.toNat / 4) (by omega)
    have h₂ := value_digit (n := a.toNat % 4 * 16) (by omega)
    have hbyte : a.toNat / 4 * 4 + a.toNat % 4 * 16 / 16 = a.toNat := by omega
    simp only [decodeChars, h₁, h₂, Option.bind_eq_bind, Option.bind_some, hbyte, true_and, ite_true,
      UInt8.ofNat_toNat, Option.pure_def]
  | case3 a b =>
    have ha := a.toNat_lt
    have hb := b.toNat_lt
    have h₁ := value_digit (n := a.toNat / 4) (by omega)
    have h₂ := value_digit (n := a.toNat % 4 * 16 + b.toNat / 16) (by omega)
    have h₃ := value_digit (n := b.toNat % 16 * 4) (by omega)
    have hpad := digit_ne_pad (n := b.toNat % 16 * 4) (by omega)
    have hbyte : a.toNat / 4 * 4 + (a.toNat % 4 * 16 + b.toNat / 16) / 16 = a.toNat := by omega
    have hbyte' : (a.toNat % 4 * 16 + b.toNat / 16) % 16 * 16 + b.toNat % 16 * 4 / 4 = b.toNat := by
      omega
    simp only [decodeChars, h₁, h₂, h₃, hpad, Option.bind_eq_bind, Option.bind_some, hbyte, hbyte',
      false_and, ite_false, true_and, ite_true, UInt8.ofNat_toNat, Option.pure_def]
  | case4 a b c bytes ih =>
    have ha := a.toNat_lt
    have hb := b.toNat_lt
    have hc := c.toNat_lt
    have h₁ := value_digit (n := a.toNat / 4) (by omega)
    have h₂ := value_digit (n := a.toNat % 4 * 16 + b.toNat / 16) (by omega)
    have h₃ := value_digit (n := b.toNat % 16 * 4 + c.toNat / 64) (by omega)
    have h₄ := value_digit (n := c.toNat % 64) (by omega)
    have hpad := digit_ne_pad (n := b.toNat % 16 * 4 + c.toNat / 64) (by omega)
    have hpad' := digit_ne_pad (n := c.toNat % 64) (by omega)
    have hbyte : a.toNat / 4 * 4 + (a.toNat % 4 * 16 + b.toNat / 16) / 16 = a.toNat := by omega
    have hbyte' : (a.toNat % 4 * 16 + b.toNat / 16) % 16 * 16 +
        (b.toNat % 16 * 4 + c.toNat / 64) / 4 = b.toNat := by omega
    have hbyte'' : (b.toNat % 16 * 4 + c.toNat / 64) % 4 * 64 + c.toNat % 64 = c.toNat := by omega
    simp only [decodeChars, h₁, h₂, h₃, h₄, hpad, hpad', Option.bind_eq_bind, Option.bind_some, hbyte,
      hbyte', hbyte'', false_and, ite_false, ih, UInt8.ofNat_toNat, Option.pure_def]

/-- What is encoded can be decoded. -/
theorem decode_encode (bytes : List UInt8) : decode (encode bytes) = some bytes := by
  rw [decode, encode, String.toList_ofList]
  exact decodeChars_encodeChars bytes

/-! ## Lengths -/

theorem utf8Size_digit (n : Nat) : (digit n).utf8Size = 1 := by
  by_cases h : n < 64
  · exact (digit_spec.2 ⟨n, h⟩).2.2
  · have hlength := digit_spec.1
    rw [digit, List.getD_eq_getElem?_getD, List.getElem?_eq_none (by omega)]
    decide

theorem utf8Size_encodeChars (bytes : List UInt8) :
    ((encodeChars bytes).map Char.utf8Size).sum = 4 * ((bytes.length + 2) / 3) := by
  fun_induction encodeChars bytes with
  | case1 => rfl
  | case2 a => simp [utf8Size_digit, show ('=').utf8Size = 1 by decide]
  | case3 a b => simp [utf8Size_digit, show ('=').utf8Size = 1 by decide]
  | case4 a b c bytes ih =>
    simp only [List.map_cons, List.sum_cons, utf8Size_digit, ih, List.length_cons]
    omega

theorem utf8ByteSize_ofList (chars : List Char) :
    (String.ofList chars).utf8ByteSize = (chars.map Char.utf8Size).sum := by
  induction chars with
  | nil => rfl
  | cons c chars ih =>
    rw [String.ofList_cons]
    simp [ih]

/-- Each three bytes take four characters. -/
theorem utf8ByteSize_encode (bytes : List UInt8) :
    (encode bytes).utf8ByteSize = 4 * ((bytes.length + 2) / 3) := by
  rw [encode, utf8ByteSize_ofList, utf8Size_encodeChars]

end Encoding.Base64
