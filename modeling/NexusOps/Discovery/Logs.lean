import NexusOps.Sftp.Path
import Mathlib.Tactic.SplitIfs

/-!
# Messages of the journal

How a message of the journal is shown (`logs.rs`). Characters that are not shown as they are, and
the backslash, are escaped, and a message that gets too long is omitted.

* `message_faithful`: what is shown is within the limit, has only safe characters, and can be read
  back; a message is omitted only if it gets too long.
-/

namespace NexusOps.Discovery

open Sftp (isControl)

def MAX_MESSAGE_BYTES : Nat := 4096
def MAX_DISPLAY_BYTES : Nat := 8192

/-- The journal could not be read. -/
def unavailable : AppError :=
  .new .discovery "System journal entries are unavailable for this connection."

/-- A JSON value. Only texts are read from it. -/
inductive Value
  | null
  | bool
  | number
  | string (text : String)
  | array
  | object
  deriving DecidableEq, Repr

/-- A field of an entry. -/
inductive Field
  | missing
  | present (value : Value)
  deriving DecidableEq, Repr

/-- What became of the message of an entry. -/
inductive SystemJournalMessageState
  | text
  | missing
  | omitted
  deriving DecidableEq, Repr

/-- The characters that are not shown, or change how a text is shown. -/
def unsafeDisplay (c : Char) : Bool :=
  isControl c || c.toNat ∈ [0xad, 0x34f, 0x61c, 0x115f, 0x1160, 0x17b4, 0x17b5, 0x3164, 0xfeff,
    0xffa0] ||
  [(0x180b, 0x180f), (0x200b, 0x200f), (0x2028, 0x202e), (0x2060, 0x206f), (0xfe00, 0xfe0f),
    (0xfff9, 0xfffb), (0x1bca0, 0x1bca3), (0x1d173, 0x1d17a), (0xe0000, 0xe0fff)].any
    fun (first, last) => first ≤ c.toNat && c.toNat ≤ last

/-- The hexadecimal digits of a number, at least four. -/
def hex (n : Nat) : List Char := List.leftpad 4 '0' (Nat.toDigits 16 n)

/-- A character as it is shown. -/
def escape (c : Char) : String :=
  if c = '\n' then "\\n"
  else if c = '\r' then "\\r"
  else if c = '\t' then "\\t"
  else if c = '\\' then "\\\\"
  else if unsafeDisplay c then String.ofList (['\\', 'u', '\x7b'] ++ hex c.toNat ++ ['\x7d'])
  else String.ofList [c]

/-- The message is shown character by character, until it is too long. -/
def displayLoop (display : String) : List Char → Option String
  | [] => some display
  | c :: chars =>
    let display := display ++ escape c
    if MAX_DISPLAY_BYTES < display.utf8ByteSize then none else displayLoop display chars

/-- The message of an entry, as it is shown. -/
def message : Field → Except AppError (SystemJournalMessageState × Option String)
  | .missing => .ok (.missing, none)
  | .present (.string value) =>
    if MAX_MESSAGE_BYTES < value.utf8ByteSize then .error unavailable
    else
      match displayLoop "" value.toList with
      | none => .ok (.omitted, none)
      | some display => .ok (.text, some display)
  | .present _ => .ok (.omitted, none)

/-- The message with all its characters as they are shown. -/
def escaped (value : String) : String := String.join (value.toList.map escape)

variable {c : Char} {chars : List Char} {n : Nat}

/-! ## The loop -/

variable (chars) in
/-- The loop ends early only if the whole text is too long, since it only grows. -/
theorem displayLoop_eq {display : String} (h : display.utf8ByteSize ≤ MAX_DISPLAY_BYTES) :
    displayLoop display chars =
      if MAX_DISPLAY_BYTES < (display ++ String.join (chars.map escape)).utf8ByteSize then none
      else some (display ++ String.join (chars.map escape)) := by
  induction chars generalizing display with
  | nil =>
    rw [List.map_nil, String.join_nil, String.append_empty, if_neg (Nat.not_lt.2 h)]
    rfl
  | cons c chars ih =>
    rw [List.map_cons, String.join_cons, ← String.append_assoc, displayLoop]
    split_ifs with hc htotal htotal
    · rfl
    · rw [String.utf8ByteSize_append] at htotal
      omega
    · rw [ih (Nat.not_lt.1 hc), if_pos htotal]
    · rw [ih (Nat.not_lt.1 hc), if_neg htotal]

theorem message_string {value : String} (h : value.utf8ByteSize ≤ MAX_MESSAGE_BYTES) :
    message (.present (.string value)) =
      if MAX_DISPLAY_BYTES < (escaped value).utf8ByteSize then .ok (.omitted, none)
      else .ok (.text, some (escaped value)) := by
  have hempty : "".utf8ByteSize ≤ MAX_DISPLAY_BYTES := by decide
  have hloop := displayLoop_eq value.toList hempty
  rw [String.empty_append, ← escaped] at hloop
  rw [message, if_neg (Nat.not_lt.2 h), hloop]
  split_ifs
  · rfl
  · rfl

/-! ## Safe characters -/

theorem toDigits_succ (n : Nat) : Nat.toDigits 16 n =
    (if n < 16 then [] else Nat.toDigits 16 (n / 16)) ++ [(n % 16).digitChar] := by
  rw [Nat.toDigits_eq_if (by decide)]
  split_ifs with h
  · rw [Nat.mod_eq_of_lt h]
    rfl
  · rfl

/-- A property of all digits is one of all numbers written in them. -/
theorem forall_mem_hex {p : Char → Prop} (h : ∀ d < 16, p d.digitChar) : ∀ d ∈ hex n, p d := by
  have hdigits : ∀ d ∈ Nat.toDigits 16 n, p d := by
    induction n using Nat.strong_induction_on with
    | h n ih =>
      rw [toDigits_succ, List.forall_mem_append, List.forall_mem_singleton]
      refine ⟨?_, h _ (Nat.mod_lt _ (by decide))⟩
      split_ifs with hn
      · exact nofun
      · exact ih _ (by omega)
  rw [hex, List.leftpad, List.forall_mem_append]
  exact ⟨fun d hd => List.eq_of_mem_replicate hd ▸ h 0 (by decide), hdigits⟩

/-- The characters that are escaped by a letter. -/
def letters : List (Char × Char) := [('\n', 'n'), ('\r', 'r'), ('\t', 't'), ('\\', '\\')]

/-- How a character can be shown. -/
inductive Shown (c : Char) : List Char → Prop
  | letter {d} (h : (c, d) ∈ letters) : Shown c ['\\', d]
  | code : Shown c ('\\' :: 'u' :: '\x7b' :: hex c.toNat ++ ['\x7d'])
  | plain (hsafe : unsafeDisplay c = false) (hne : c ≠ '\\') : Shown c [c]

theorem shown_escape (c : Char) : Shown c (escape c).toList := by
  rw [escape]
  split_ifs with hn hr ht hbackslash hunsafe
  · exact .letter (by rw [hn]; decide)
  · exact .letter (by rw [hr]; decide)
  · exact .letter (by rw [ht]; decide)
  · exact .letter (by rw [hbackslash]; decide)
  · rw [String.toList_ofList]
    exact .code
  · rw [String.toList_ofList]
    exact .plain (Bool.not_eq_true _ ▸ hunsafe) hbackslash

theorem Shown.safe (h : Shown c chars) : ∀ d ∈ chars, unsafeDisplay d = false := by
  cases h with
  | letter h =>
    have hletters : letters.all fun p => ['\\', p.2].all fun d => !unsafeDisplay d := by decide
    simpa using List.all_eq_true.1 hletters _ h
  | code =>
    have hdigits : ∀ d ∈ hex c.toNat, unsafeDisplay d = false := forall_mem_hex (by decide)
    simp only [List.forall_mem_append, List.forall_mem_cons]
    exact ⟨⟨by decide, by decide, by decide, hdigits⟩, by decide, nofun⟩
  | plain hsafe => exact List.forall_mem_singleton.2 hsafe

theorem toList_escaped (value : String) :
    (escaped value).toList = value.toList.flatMap fun c => (escape c).toList := by
  rw [escaped]
  induction value.toList with
  | nil => rfl
  | cons c chars ih =>
    rw [List.map_cons, String.join_cons, String.toList_append, ih, List.flatMap_cons]

/-! ## What is shown can be read back -/

/-- The value of a hexadecimal digit. -/
def digitValue (c : Char) : Nat := if c.toNat < 58 then c.toNat - 48 else c.toNat - 87

/-- Reads back what is shown; inside of braces, from what has been read of the number. -/
def unescapeFrom : Option Nat → List Char → List Char
  | _, [] => []
  | none, '\\' :: 'u' :: '\x7b' :: chars => unescapeFrom (some 0) chars
  | none, '\\' :: d :: chars =>
    ((letters.find? (·.2 = d)).elim d Prod.fst) :: unescapeFrom none chars
  | none, c :: chars => c :: unescapeFrom none chars
  | some n, c :: chars =>
    if c = '\x7d' then Char.ofNat n :: unescapeFrom none chars
    else unescapeFrom (some (16 * n + digitValue c)) chars

/-- Reads back what is shown. -/
def unescape (display : String) : String := String.ofList (unescapeFrom none display.toList)

variable {rest : List Char}

theorem unescapeFrom_digits (h : ∀ d ∈ chars, d ≠ '\x7d') :
    unescapeFrom (some n) (chars ++ '\x7d' :: rest) =
      Char.ofNat (chars.foldl (fun n d => 16 * n + digitValue d) n) :: unescapeFrom none rest := by
  induction chars generalizing n with
  | nil => rfl
  | cons d chars ih =>
    rw [List.forall_mem_cons] at h
    rw [List.cons_append, unescapeFrom, if_neg h.1, ih h.2]
    rfl

theorem foldl_hex : (hex n).foldl (fun n d => 16 * n + digitValue d) 0 = n := by
  have hdigit : ∀ d < 16, digitValue d.digitChar = d := by decide
  have hzeros : ∀ k, (List.replicate k '0').foldl (fun n d => 16 * n + digitValue d) 0 = 0 := by
    intro k
    induction k with
    | zero => rfl
    | succ k ih => exact ih
  rw [hex, List.leftpad, List.foldl_append, hzeros]
  induction n using Nat.strong_induction_on with
  | h n ih =>
    rw [toDigits_succ, List.foldl_append, List.foldl_cons, List.foldl_nil,
      hdigit _ (Nat.mod_lt _ (by decide))]
    split_ifs with hn
    · rw [List.foldl_nil, Nat.mod_eq_of_lt hn, Nat.mul_zero, Nat.zero_add]
    · rw [ih _ (by omega)]
      omega

theorem Shown.unescape (h : Shown c chars) :
    unescapeFrom none (chars ++ rest) = c :: unescapeFrom none rest := by
  cases h with
  | letter h =>
    simp only [letters, List.mem_cons, Prod.mk.injEq, List.not_mem_nil, or_false] at h
    rcases h with ⟨rfl, rfl⟩ | ⟨rfl, rfl⟩ | ⟨rfl, rfl⟩ | ⟨rfl, rfl⟩
    all_goals rfl
  | code =>
    have hdigits : ∀ d ∈ hex c.toNat, d ≠ '\x7d' := forall_mem_hex (by decide)
    rw [List.append_assoc, List.cons_append, List.cons_append, List.cons_append, unescapeFrom,
      List.singleton_append, unescapeFrom_digits hdigits, foldl_hex, Char.ofNat_toNat]
  | plain hsafe hne =>
    rw [List.singleton_append, unescapeFrom]
    · exact fun _ h => absurd h hne
    · exact fun _ _ h => absurd h hne

theorem unescape_escaped (value : String) : unescape (escaped value) = value := by
  have hchars : ∀ chars, unescapeFrom none (chars.flatMap fun c => (escape c).toList) = chars := by
    intro chars
    induction chars with
    | nil => rfl
    | cons c chars ih => rw [List.flatMap_cons, (shown_escape c).unescape, ih]
  rw [unescape, toList_escaped, hchars, String.ofList_toList]

theorem of_message_text {value display : String}
    (h : message (.present (.string value)) = .ok (.text, some display)) :
    display = escaped value := by
  rcases Nat.lt_or_ge MAX_MESSAGE_BYTES value.utf8ByteSize with hsize | hsize
  · rw [message, if_pos hsize] at h
    exact nomatch h
  · rw [message_string hsize] at h
    split_ifs at h
    · exact nomatch h
    · exact (Option.some.inj (Prod.mk.inj (Except.ok.inj h)).2).symm

/-- A message is shown safely and faithfully, or is omitted because it gets too long. -/
theorem message_faithful (value : String) (h : value.utf8ByteSize ≤ MAX_MESSAGE_BYTES) :
    (message (.present (.string value)) = .ok (.omitted, none) ∨
      ∃ display, message (.present (.string value)) = .ok (.text, some display) ∧
        display.utf8ByteSize ≤ MAX_DISPLAY_BYTES ∧
        (∀ c ∈ display.toList, unsafeDisplay c = false) ∧ unescape display = value) ∧
    -- different messages are not shown alike
    (∀ value' display, message (.present (.string value)) = .ok (.text, some display) →
      message (.present (.string value')) = .ok (.text, some display) → value = value') ∧
    (message (.present (.string value)) = .ok (.omitted, none) ↔
      MAX_DISPLAY_BYTES < (escaped value).utf8ByteSize) := by
  refine ⟨?_, fun value' display hshown hshown' => ?_, ?_⟩
  · rw [message_string h]
    split_ifs with hlong
    · exact .inl rfl
    · refine .inr ⟨_, rfl, Nat.not_lt.1 hlong, fun c hc => ?_, unescape_escaped value⟩
      rw [toList_escaped, List.mem_flatMap] at hc
      obtain ⟨d, -, hc⟩ := hc
      exact (shown_escape d).safe c hc
  · have heq := (of_message_text hshown).symm.trans (of_message_text hshown')
    rw [← unescape_escaped value, heq, unescape_escaped]
  · rw [message_string h]
    split_ifs with hlong
    · exact iff_of_true rfl hlong
    · exact iff_of_false nofun hlong

/-- A message with a line break is shown. -/
theorem message_faithful_lines : "a\nb".utf8ByteSize ≤ MAX_MESSAGE_BYTES ∧
    (message (.present (.string "a\nb")) = .ok (.omitted, none) ↔
      MAX_DISPLAY_BYTES < (escaped "a\nb").utf8ByteSize) := by
  have hsize : "a\nb".utf8ByteSize ≤ MAX_MESSAGE_BYTES := by decide
  exact ⟨hsize, (message_faithful "a\nb" hsize).2.2⟩

end NexusOps.Discovery
