import NexusOps.Model.Basic

/-!
# Hostnames

How a hostname is written: the text around it that is left out, the names that are
accepted, and the addresses. How an address is parsed and displayed is up to the standard
library (`IpAddrs`).
-/

namespace NexusOps

/-! ## Text -/

/-- The characters with the Unicode property `White_Space`. -/
def isWhitespace (c : Char) : Bool :=
  (9 ≤ c.toNat && c.toNat ≤ 13) || c.toNat = 0x20 || c.toNat = 0x85 || c.toNat = 0xA0 ||
    c.toNat = 0x1680 || (0x2000 ≤ c.toNat && c.toNat ≤ 0x200A) || c.toNat = 0x2028 ||
    c.toNat = 0x2029 || c.toNat = 0x202F || c.toNat = 0x205F || c.toNat = 0x3000

/-- Leaves out the characters that satisfy `p` at the end. -/
def trimEndMatches (p : Char → Bool) (text : List Char) : List Char :=
  (text.reverse.dropWhile p).reverse

/-- Leaves out surrounding whitespace. -/
def trim (text : List Char) : List Char := trimEndMatches isWhitespace (text.dropWhile isWhitespace)

/-- Whether a character is an ASCII letter or digit. -/
def isAsciiAlphanumeric (c : Char) : Bool := c.isAlphanum

/-- Whether a character is one of those, or an ASCII letter or digit. -/
def isAlphanumericOr (others : List Char) (c : Char) : Bool :=
  isAsciiAlphanumeric c || others.contains c

/-- The number of bytes of a text in UTF-8. -/
def byteLength (text : List Char) : Nat := (text.map Char.utf8Size).sum

/-- Replaces the ASCII upper case letters. -/
def toAsciiLowercase (text : List Char) : List Char := text.map Char.toLower

/-! ## Names and addresses -/

/-- Addresses, as the standard library parses and displays them. -/
class IpAddrs where
  IpAddr : Type
  parse : String → Option IpAddr
  display : IpAddr → String
  /-- An address is parsed as it is displayed. -/
  parse_display : ∀ address, parse (display address) = some address

/-- Whether a text is a label of a DNS name. -/
def isDnsLabel (label : List Char) : Bool :=
  !label.isEmpty && byteLength label ≤ 63 && label.head? ≠ some '-' && label.getLast? ≠ some '-' &&
    label.all (isAlphanumericOr ['-'])

/-- Whether a text is a DNS name. -/
def isDnsName (hostname : List Char) : Bool :=
  !hostname.isEmpty && byteLength hostname ≤ 253 && (hostname.splitOn '.').all isDnsLabel

end NexusOps
