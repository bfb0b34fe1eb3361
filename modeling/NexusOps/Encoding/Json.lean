import Mathlib.Data.List.Basic
import Mathlib.Tactic.SplitIfs

/-!
# JSON strings

How the bytes of a text are written in a JSON string, by a compact writer: quotes, backslashes and
control characters are escaped, and all other bytes are copied. At worst, a byte takes six
(`length_string_le`).
-/

namespace Encoding.Json

def hexDigit (n : UInt8) : UInt8 := if n < 10 then 48 + n else 87 + n

/-- How a byte is written. -/
def escape (b : UInt8) : List UInt8 :=
  if b = 34 ∨ b = 92 then [92, b]
  else if b = 8 then [92, 98]
  else if b = 9 then [92, 116]
  else if b = 10 then [92, 110]
  else if b = 12 then [92, 102]
  else if b = 13 then [92, 114]
  else if b < 32 then [92, 117, 48, 48, hexDigit (b / 16), hexDigit (b % 16)]
  else [b]

/-- The bytes, in quotes. -/
def string (bytes : List UInt8) : List UInt8 := 34 :: bytes.flatMap escape ++ [34]

theorem length_escape_le (b : UInt8) : (escape b).length ≤ 6 := by
  rw [escape]
  split_ifs <;> simp

theorem length_string_le (bytes : List UInt8) : (string bytes).length ≤ 6 * bytes.length + 2 := by
  induction bytes with
  | nil => simp [string]
  | cons b bytes ih =>
    have hb := length_escape_le b
    simp only [string, List.flatMap_cons, List.length_cons, List.length_append, List.length_nil]
      at ih ⊢
    omega

end Encoding.Json
