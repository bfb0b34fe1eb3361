import NexusOps.Encoding.Utf8
import NexusOps.Sftp.Plans

/-!
# The text of the editor

A file is opened in the editor as a text whose lines end with a line feed, and the text is saved
with the ends of lines and the mark that the file had (`editor.rs`).

* `decodeText_lossless`: which files can be opened, and that saving one without an edit writes
  the same bytes;
* `encodeText_reopens_iff`: when a text that has been saved is opened as the same text. A text
  without a mark that starts with the character of the mark is not: that character is taken for a
  mark.
-/

namespace NexusOps.Sftp

open Encoding

/-! ## Ends of lines -/

/-- A carriage return is followed by a line feed. -/
def HasCrLf (chars : List Char) : Prop :=
  ∃ k, chars[k]? = some '\r' ∧ chars[k + 1]? = some '\n'

/-- A carriage return is not followed by a line feed. -/
def HasLoneCr (chars : List Char) : Prop :=
  ∃ k, chars[k]? = some '\r' ∧ chars[k + 1]? ≠ some '\n'

/-- A line feed does not follow a carriage return. -/
def HasLoneLf (chars : List Char) : Prop :=
  ∃ k, chars[k]? = some '\n' ∧ ∀ j, k = j + 1 → chars[j]? ≠ some '\r'

section

variable {c : Char} {chars : List Char}

theorem hasCrLf_cons :
    HasCrLf (c :: chars) ↔ (c = '\r' ∧ chars[0]? = some '\n') ∨ HasCrLf chars := by
  constructor
  · rintro ⟨k, hk, hk'⟩
    cases k with
    | zero => exact .inl ⟨Option.some.inj hk, hk'⟩
    | succ k => exact .inr ⟨k, hk, hk'⟩
  · rintro (⟨rfl, h⟩ | ⟨k, hk, hk'⟩)
    · exact ⟨0, rfl, h⟩
    · exact ⟨k + 1, hk, hk'⟩

theorem hasLoneCr_cons :
    HasLoneCr (c :: chars) ↔ (c = '\r' ∧ chars[0]? ≠ some '\n') ∨ HasLoneCr chars := by
  constructor
  · rintro ⟨k, hk, hk'⟩
    cases k with
    | zero => exact .inl ⟨Option.some.inj hk, hk'⟩
    | succ k => exact .inr ⟨k, hk, hk'⟩
  · rintro (⟨rfl, h⟩ | ⟨k, hk, hk'⟩)
    · exact ⟨0, rfl, h⟩
    · exact ⟨k + 1, hk, hk'⟩

theorem hasLoneLf_cons (h : ¬ (c = '\r' ∧ chars[0]? = some '\n')) :
    HasLoneLf (c :: chars) ↔ c = '\n' ∨ HasLoneLf chars := by
  constructor
  · rintro ⟨k, hk, hk'⟩
    cases k with
    | zero => exact .inl (Option.some.inj hk)
    | succ k => exact .inr ⟨k, hk, fun j hj => hk' (j + 1) (congrArg _ hj)⟩
  · rintro (rfl | ⟨k, hk, hk'⟩)
    · exact ⟨0, rfl, fun j hj => absurd hj (by omega)⟩
    · refine ⟨k + 1, hk, fun j hj => ?_⟩
      obtain rfl : k = j := Nat.succ.inj hj
      cases k with
      | zero => exact fun hc => h ⟨Option.some.inj hc, hk⟩
      | succ k => exact hk' k rfl

theorem hasLoneLf_crLf : HasLoneLf ('\r' :: '\n' :: chars) ↔ HasLoneLf chars := by
  constructor
  · rintro ⟨k, hk, hk'⟩
    match k with
    | 0 => exact absurd (Option.some.inj hk) (by decide)
    | 1 => exact absurd rfl (hk' 0 rfl)
    | k + 2 => exact ⟨k, hk, fun j hj => hk' (j + 2) (congrArg (· + 2) hj)⟩
  · rintro ⟨k, hk, hk'⟩
    refine ⟨k + 2, hk, fun j hj => ?_⟩
    match j with
    | 0 => omega
    | 1 => exact fun h => absurd (Option.some.inj h) (by decide)
    | j + 2 => exact hk' j (by omega)

end

variable {chars : List Char}

theorem infix_crLf_iff : ['\r', '\n'] <:+: chars ↔ HasCrLf chars := by
  induction chars with
  | nil =>
    refine ⟨fun h => absurd h (by decide), ?_⟩
    rintro ⟨k, hk, -⟩
    exact absurd hk (by simp)
  | cons c chars ih =>
    rw [List.infix_cons_iff, hasCrLf_cons, ih]
    refine or_congr ?_ Iff.rfl
    cases chars with
    | nil => simp
    | cons d chars => simp [List.cons_prefix_cons, eq_comm]

variable {c : Char}

section

variable {replacement chars : List Char}

theorem replaceCrLf_nil : replaceCrLf replacement [] = [] := rfl

theorem replaceCrLf_crLf :
    replaceCrLf replacement ('\r' :: '\n' :: chars) =
      replacement ++ replaceCrLf replacement chars := rfl

theorem replaceCrLf_cons (h : ¬ (c = '\r' ∧ chars[0]? = some '\n')) :
    replaceCrLf replacement (c :: chars) = c :: replaceCrLf replacement chars := by
  rw [replaceCrLf]
  rintro chars' rfl rfl
  exact h ⟨rfl, rfl⟩

end

/-- A text is read from the left: a `"\r\n"`, or a character that does not start one. -/
theorem crLf_induction {motive : List Char → Prop} (nil : motive [])
    (crLf : ∀ chars, motive chars → motive ('\r' :: '\n' :: chars))
    (cons : ∀ c chars, ¬ (c = '\r' ∧ chars[0]? = some '\n') → motive chars → motive (c :: chars))
    (chars : List Char) : motive chars := by
  induction chars using replaceCrLf.induct with
  | case1 chars ih => exact crLf chars ih
  | case2 c chars h ih =>
    refine cons c chars ?_ ih
    rintro ⟨rfl, hhead⟩
    cases chars with
    | nil => nomatch hhead
    | cons d chars => exact h chars rfl (by rw [Option.some.inj hhead])
  | case3 => exact nil

/-! ### What is left without the ends of lines -/

section

variable {chars : List Char}

theorem cr_mem_replaceCrLf : '\r' ∈ replaceCrLf [] chars ↔ HasLoneCr chars := by
  induction chars using crLf_induction with
  | nil =>
    refine ⟨fun h => absurd h (by simp [replaceCrLf_nil]), ?_⟩
    rintro ⟨k, hk, -⟩
    exact absurd hk (by simp)
  | crLf chars ih =>
    rw [replaceCrLf_crLf, List.nil_append, ih, hasLoneCr_cons, hasLoneCr_cons]
    simp
  | cons c chars h ih =>
    rw [replaceCrLf_cons h, List.mem_cons, ih, hasLoneCr_cons]
    refine or_congr ⟨fun hc => ⟨hc.symm, fun hlf => h ⟨hc.symm, hlf⟩⟩, fun hc => hc.1.symm⟩ Iff.rfl

theorem lf_mem_replaceCrLf : '\n' ∈ replaceCrLf [] chars ↔ HasLoneLf chars := by
  induction chars using crLf_induction with
  | nil =>
    refine ⟨fun h => absurd h (by simp [replaceCrLf_nil]), ?_⟩
    rintro ⟨k, hk, -⟩
    exact absurd hk (by simp)
  | crLf chars ih => rw [replaceCrLf_crLf, List.nil_append, ih, hasLoneLf_crLf]
  | cons c chars h ih =>
    rw [replaceCrLf_cons h, List.mem_cons, ih, hasLoneLf_cons h]
    exact or_congr eq_comm Iff.rfl

/-- A text without carriage returns at the ends of lines is left as it is. -/
theorem replaceCrLf_of_not_hasCrLf {replacement : List Char} (h : ¬ HasCrLf chars) :
    replaceCrLf replacement chars = chars := by
  induction chars using crLf_induction with
  | nil => rw [replaceCrLf_nil]
  | crLf chars => exact absurd ⟨0, rfl, rfl⟩ h
  | cons c chars hc ih =>
    rw [replaceCrLf_cons hc, ih fun hchars => h (hasCrLf_cons.2 (.inr hchars))]

/-- Other characters are not affected. -/
theorem mem_replaceCrLf_lf (hc : c ≠ '\n') :
    c ∈ replaceCrLf ['\n'] chars ↔ c ∈ replaceCrLf [] chars := by
  induction chars using crLf_induction with
  | nil => rw [replaceCrLf_nil, replaceCrLf_nil]
  | crLf chars ih => simpa [replaceCrLf_crLf, hc] using ih
  | cons d chars h ih =>
    rw [replaceCrLf_cons h, replaceCrLf_cons h, List.mem_cons, List.mem_cons, ih]

theorem mem_of_mem_replaceCrLf (h : c ∈ replaceCrLf [] chars) : c ∈ chars := by
  induction chars using crLf_induction with
  | nil => exact absurd h (by simp [replaceCrLf_nil])
  | crLf chars ih =>
    rw [replaceCrLf_crLf] at h
    exact List.mem_cons_of_mem _ (List.mem_cons_of_mem _ (ih h))
  | cons d chars hd ih =>
    rw [replaceCrLf_cons hd] at h
    rcases List.mem_cons.1 h with rfl | h
    · exact List.mem_cons_self
    · exact List.mem_cons_of_mem _ (ih h)

/-! ### Back and forth -/

/-- The ends of lines of a text in which all of them are a `"\r\n"`. -/
theorem encodeNewlines_replaceCrLf (hcr : ¬ HasLoneCr chars) (hlf : ¬ HasLoneLf chars) :
    encodeNewlines .crLf (replaceCrLf ['\n'] chars) = chars := by
  induction chars using crLf_induction with
  | nil => rfl
  | crLf chars ih =>
    rw [hasLoneCr_cons, hasLoneCr_cons] at hcr
    rw [hasLoneLf_crLf] at hlf
    rw [replaceCrLf_crLf]
    exact congrArg ('\r' :: '\n' :: ·) (ih (fun h => hcr (.inr (.inr h))) hlf)
  | cons c chars h ih =>
    rw [hasLoneCr_cons] at hcr
    rw [hasLoneLf_cons h] at hlf
    have hc : c ≠ '\n' := fun hc => hlf (.inl hc)
    rw [replaceCrLf_cons h, encodeNewlines, List.flatMap_cons, if_neg hc]
    exact congrArg (c :: ·) (ih (fun h => hcr (.inr h)) fun h => hlf (.inr h))

theorem encodeNewlines_crLf_cons : encodeNewlines .crLf (c :: chars) =
      (if c = '\n' then ['\r', '\n'] else [c]) ++ encodeNewlines .crLf chars :=
  List.flatMap_cons

/-- What is inserted for a line feed is a `"\r\n"`. -/
theorem replaceCrLf_encodeNewlines {replacement : List Char} (hcr : '\r' ∉ chars) :
    replaceCrLf replacement (encodeNewlines .crLf chars) =
      chars.flatMap fun c => if c = '\n' then replacement else [c] := by
  induction chars with
  | nil => rfl
  | cons c chars ih =>
    have hc : c ≠ '\r' := fun hc => hcr (hc ▸ List.mem_cons_self)
    replace ih := ih fun h => hcr (List.mem_cons_of_mem _ h)
    rw [encodeNewlines_crLf_cons, List.flatMap_cons]
    split_ifs with hlf
    · exact replaceCrLf_crLf.trans (congrArg _ ih)
    · rw [List.singleton_append, replaceCrLf_cons fun h => hc h.1, ih, List.singleton_append]

theorem hasCrLf_encodeNewlines (hcr : '\r' ∉ chars) :
    HasCrLf (encodeNewlines .crLf chars) ↔ '\n' ∈ chars := by
  induction chars with
  | nil =>
    refine ⟨?_, fun h => absurd h (by simp)⟩
    rintro ⟨k, hk, -⟩
    exact absurd hk (by simp [encodeNewlines])
  | cons c chars ih =>
    have hc : c ≠ '\r' := fun hc => hcr (hc ▸ List.mem_cons_self)
    replace ih := ih fun h => hcr (List.mem_cons_of_mem _ h)
    rw [encodeNewlines_crLf_cons, List.mem_cons]
    split_ifs with hlf
    · exact ⟨fun _ => .inl hlf.symm, fun _ => ⟨0, rfl, rfl⟩⟩
    · rw [List.singleton_append, hasCrLf_cons, ih]
      exact or_congr ⟨fun h => absurd h.1 hc, fun h => absurd h.symm hlf⟩ Iff.rfl

end

/-! ## Files -/

/-- The file starts with a mark. -/
def hasMark (bytes : List UInt8) : Bool := (byteOrderMark true).isPrefixOf bytes

/-- What follows the mark, if there is one. -/
def textBody (bytes : List UInt8) : List UInt8 := if hasMark bytes then bytes.drop 3 else bytes

/-- The file can be opened: it is not too large, and it is a text in UTF-8 without NUL, in which
    carriage returns are only at the ends of lines, of all of them or of none. -/
structure Editable (bytes : List UInt8) (chars : List Char) : Prop where
  size : bytes.length ≤ MAX_REMOTE_EDITOR_BYTES
  body : textBody bytes = Utf8.bytes chars
  nul : '\x00' ∉ chars
  cr : ¬ HasLoneCr chars
  newlines : ¬ (HasCrLf chars ∧ HasLoneLf chars)

/-- The text of the editor for the characters of a file, and how its lines end. -/
inductive Opened (chars : List Char) : String → TextNewline → Prop
  | crLf (h : HasCrLf chars) : Opened chars (String.ofList (replaceCrLf ['\n'] chars)) .crLf
  | lf (h : ¬ HasCrLf chars) : Opened chars (String.ofList chars) .lf

section

variable {bytes : List UInt8} {text : String} {newline : TextNewline} {bom : Bool}

theorem decodeText_eq_ok : decodeText bytes = .ok (text, newline, bom) ↔
    ∃ chars, Editable bytes chars ∧ bom = hasMark bytes ∧ Opened chars text newline := by
  have hbody : (if (byteOrderMark true).isPrefixOf bytes then bytes.drop 3 else bytes) =
      textBody bytes := rfl
  rw [decodeText]
  simp only [hbody]
  constructor
  · intro h
    split_ifs at h with hsize
    split at h
    · nomatch h
    next original horiginal =>
    have horiginal := Utf8.fromUTF8?_eq_some.1 horiginal
    split_ifs at h with hnul hmixed hcrLf <;>
      rw [cr_mem_replaceCrLf, lf_mem_replaceCrLf, infix_crLf_iff] at hmixed <;>
      rw [infix_crLf_iff] at hcrLf
    · obtain ⟨rfl, rfl, rfl⟩ : _ = text ∧ _ = newline ∧ _ = bom := by simpa using h
      exact ⟨original.toList, ⟨not_lt.1 hsize, horiginal, hnul, fun hc => hmixed (.inl hc),
        fun hc => hmixed (.inr hc)⟩, rfl, .crLf hcrLf⟩
    · obtain ⟨rfl, rfl, rfl⟩ : original = text ∧ _ = newline ∧ _ = bom := by simpa using h
      refine ⟨original.toList, ⟨not_lt.1 hsize, horiginal, hnul, fun hc => hmixed (.inl hc),
        fun hc => hmixed (.inr hc)⟩, rfl, ?_⟩
      have hlf := Opened.lf hcrLf
      rwa [String.ofList_toList] at hlf
  · rintro ⟨chars, hfile, rfl, hopened⟩
    have hdecoded : String.fromUTF8? ⟨(textBody bytes).toArray⟩ = some (String.ofList chars) :=
      Utf8.fromUTF8?_eq_some.2 (by rw [hfile.body, String.toList_ofList])
    have hmixed : ¬ ('\r' ∈ replaceCrLf [] chars ∨
        ['\r', '\n'] <:+: chars ∧ '\n' ∈ replaceCrLf [] chars) := by
      rw [cr_mem_replaceCrLf, lf_mem_replaceCrLf, infix_crLf_iff]
      exact fun h => h.elim hfile.cr hfile.newlines
    rw [if_neg (not_lt.2 hfile.size), hdecoded]
    simp only [String.toList_ofList]
    rw [if_neg hfile.nul, if_neg hmixed]
    cases hopened with
    | crLf h =>
      rw [if_pos (infix_crLf_iff.2 h)]
      rfl
    | lf h =>
      rw [if_neg fun hinfix => h (infix_crLf_iff.1 hinfix)]
      rfl

theorem length_encodeNewlines_le (chars : List Char) :
    (Utf8.bytes chars).length ≤ (Utf8.bytes (encodeNewlines newline chars)).length := by
  cases newline with
  | lf => exact le_rfl
  | crLf =>
    induction chars with
    | nil => exact le_rfl
    | cons c chars ih =>
      rw [encodeNewlines_crLf_cons, ← List.singleton_append, Utf8.bytes_append, Utf8.bytes_append,
        List.length_append, List.length_append]
      refine Nat.add_le_add ?_ ih
      split_ifs with hc
      · subst hc
        decide
      · exact le_rfl

theorem encodeText_eq_ok : encodeText text newline bom = .ok bytes ↔
    '\x00' ∉ text.toList ∧ '\r' ∉ text.toList ∧ bytes.length ≤ MAX_REMOTE_EDITOR_BYTES ∧
      bytes = byteOrderMark bom ++ Utf8.bytes (encodeNewlines newline text.toList) := by
  have hlength : _ ≤ (Utf8.bytes (encodeNewlines newline text.toList)).length :=
    length_encodeNewlines_le text.toList
  rw [Utf8.length_bytes_toList] at hlength
  rw [encodeText]
  change (if MAX_REMOTE_EDITOR_BYTES < text.utf8ByteSize + (byteOrderMark bom).length then _
    else if _ then _ else if MAX_REMOTE_EDITOR_BYTES <
      (Utf8.bytes (encodeNewlines newline text.toList)).length + (byteOrderMark bom).length then _
    else Except.ok (byteOrderMark bom ++ Utf8.bytes (encodeNewlines newline text.toList))) = _ ↔ _
  constructor
  · intro h
    split_ifs at h with hsize hchars hbody
    obtain ⟨⟩ := h
    refine ⟨fun hnul => hchars (.inl hnul), fun hcr => hchars (.inr hcr), ?_, rfl⟩
    rw [List.length_append]
    omega
  · rintro ⟨hnul, hcr, hsize, rfl⟩
    rw [List.length_append] at hsize
    rw [if_neg (by omega), if_neg fun h => h.elim hnul hcr, if_neg (by omega)]

/-- The mark and what follows it. -/
theorem byteOrderMark_append_textBody (bytes : List UInt8) :
    byteOrderMark (hasMark bytes) ++ textBody bytes = bytes := by
  cases h : hasMark bytes with
  | false => simp [byteOrderMark, textBody, h]
  | true =>
    obtain ⟨rest, rfl⟩ := List.isPrefixOf_iff_prefix.1 h
    rw [textBody, if_pos h]
    rfl

end

/-- A file that is opened and saved as it is remains the same. -/
theorem decodeText_lossless (bytes : List UInt8) :
    ((∃ result, decodeText bytes = .ok result) ↔ ∃ chars, Editable bytes chars) ∧
    ∀ text newline bom, decodeText bytes = .ok (text, newline, bom) →
      encodeText text newline bom = .ok bytes := by
  refine ⟨⟨?_, ?_⟩, fun text newline bom h => ?_⟩
  · rintro ⟨⟨text, newline, bom⟩, h⟩
    obtain ⟨chars, hfile, -⟩ := decodeText_eq_ok.1 h
    exact ⟨chars, hfile⟩
  · rintro ⟨chars, hfile⟩
    by_cases hcrLf : HasCrLf chars
    · exact ⟨_, decodeText_eq_ok.2 ⟨chars, hfile, rfl, .crLf hcrLf⟩⟩
    · exact ⟨_, decodeText_eq_ok.2 ⟨chars, hfile, rfl, .lf hcrLf⟩⟩
  · obtain ⟨chars, hfile, rfl, hopened⟩ := decodeText_eq_ok.1 h
    refine encodeText_eq_ok.2 ?_
    cases hopened with
    | crLf hcrLf =>
      have hlf : ¬ HasLoneLf chars := fun hlf => hfile.newlines ⟨hcrLf, hlf⟩
      rw [String.toList_ofList, encodeNewlines_replaceCrLf hfile.cr hlf, ← hfile.body,
        byteOrderMark_append_textBody, mem_replaceCrLf_lf (by decide),
        mem_replaceCrLf_lf (by decide)]
      exact ⟨fun h => hfile.nul (mem_of_mem_replaceCrLf h),
        fun h => hfile.cr (cr_mem_replaceCrLf.1 h), hfile.size, rfl⟩
    | lf hcrLf =>
      have hcr : '\r' ∉ chars := by
        have hsame : replaceCrLf [] chars = chars := replaceCrLf_of_not_hasCrLf hcrLf
        rw [← hsame]
        exact fun h => hfile.cr (cr_mem_replaceCrLf.1 h)
      rw [String.toList_ofList, encodeNewlines, ← hfile.body, byteOrderMark_append_textBody]
      exact ⟨hfile.nul, hcr, hfile.size, rfl⟩

/-! ## Texts that have been saved -/

/-- The character of the mark. -/
def markChar : Char := '\uFEFF'

theorem bytes_markChar : String.utf8EncodeChar markChar = byteOrderMark true := by decide

section

variable {text : String} {newline : TextNewline} {bom : Bool} {bytes : List UInt8}

/-- What is inserted at the ends of lines does not change the first character. -/
theorem head?_encodeNewlines :
    (encodeNewlines newline chars).head? = some markChar ↔ chars.head? = some markChar := by
  cases newline with
  | lf => exact Iff.rfl
  | crLf =>
    cases chars with
    | nil => exact Iff.rfl
    | cons c chars =>
      rw [encodeNewlines_crLf_cons]
      split_ifs with hc
      · subst hc
        exact ⟨fun h => absurd (Option.some.inj h) (by decide),
          fun h => absurd (Option.some.inj h) (by decide)⟩
      · exact Iff.rfl

theorem nul_mem_encodeNewlines : '\x00' ∈ encodeNewlines newline chars ↔ '\x00' ∈ chars := by
  cases newline with
  | lf => exact Iff.rfl
  | crLf =>
    induction chars with
    | nil => exact Iff.rfl
    | cons c chars ih =>
      rw [encodeNewlines_crLf_cons, List.mem_append, ih, List.mem_cons]
      refine or_congr ?_ Iff.rfl
      split_ifs with hc
      · subst hc
        decide
      · exact List.mem_singleton

/-- The mark that is found in a file that has been saved. -/
theorem hasMark_encode :
    hasMark (byteOrderMark bom ++ Utf8.bytes (encodeNewlines newline chars)) = true ↔
      bom = true ∨ chars.head? = some markChar := by
  cases bom with
  | true =>
    exact ⟨fun _ => .inl rfl, fun _ => List.isPrefixOf_iff_prefix.2 (List.prefix_append _ _)⟩
  | false =>
    rw [hasMark, ← bytes_markChar]
    change (String.utf8EncodeChar markChar).isPrefixOf (Utf8.bytes _) = true ↔ _
    rw [Utf8.isPrefixOf_bytes, head?_encodeNewlines]
    exact ⟨.inr, fun h => h.resolve_left (by decide)⟩

/-- The characters of a text that is saved can be opened. -/
theorem opened_encodeNewlines (hcr : '\r' ∉ text.toList) :
    ¬ HasLoneCr (encodeNewlines newline text.toList) ∧
    ¬ (HasCrLf (encodeNewlines newline text.toList) ∧
      HasLoneLf (encodeNewlines newline text.toList)) ∧
    ∃ newline', Opened (encodeNewlines newline text.toList) text newline' ∧
      ('\n' ∈ text.toList → newline' = newline) := by
  have hplain : ¬ HasCrLf text.toList := fun ⟨k, hk, _⟩ => hcr (List.mem_of_getElem? hk)
  cases newline with
  | lf =>
    refine ⟨fun ⟨k, hk, _⟩ => hcr (List.mem_of_getElem? hk), fun h => hplain h.1, .lf, ?_,
      fun _ => rfl⟩
    have hopened := Opened.lf hplain
    rwa [String.ofList_toList] at hopened
  | crLf =>
    have hremoved : replaceCrLf [] (encodeNewlines .crLf text.toList) = _ :=
      replaceCrLf_encodeNewlines hcr
    have hreplaced : replaceCrLf ['\n'] (encodeNewlines .crLf text.toList) = text.toList := by
      rw [replaceCrLf_encodeNewlines hcr]
      conv_rhs => rw [← List.flatMap_singleton' text.toList]
      refine List.flatMap_congr fun c _ => ?_
      split_ifs with hc
      · rw [hc]
      · rfl
    refine ⟨?_, ?_, ?_⟩
    · rw [← cr_mem_replaceCrLf, hremoved, List.mem_flatMap]
      rintro ⟨c, hmem, hc⟩
      split_ifs at hc with hlf
      · exact absurd hc (by simp)
      · exact hcr (List.mem_singleton.1 hc ▸ hmem)
    · rw [← lf_mem_replaceCrLf, hremoved, List.mem_flatMap]
      rintro ⟨-, c, hmem, hc⟩
      split_ifs at hc with hlf
      · exact absurd hc (by simp)
      · exact hlf (List.mem_singleton.1 hc).symm
    · by_cases hlf : '\n' ∈ text.toList
      · have hopened := Opened.crLf ((hasCrLf_encodeNewlines hcr).2 hlf)
        rw [hreplaced, String.ofList_toList] at hopened
        exact ⟨.crLf, hopened, fun _ => rfl⟩
      · have hnone : ¬ HasCrLf (encodeNewlines .crLf text.toList) :=
          fun h => hlf ((hasCrLf_encodeNewlines hcr).1 h)
        have htext : String.ofList (encodeNewlines .crLf text.toList) = text := by
          rw [← replaceCrLf_of_not_hasCrLf hnone, hreplaced, String.ofList_toList]
        have hopened := Opened.lf hnone
        rw [htext] at hopened
        exact ⟨.lf, hopened, fun h => absurd h hlf⟩

/-- A text that is opened is one without its mark. -/
theorem textBody_encode (h : bom = true ∨ chars.head? ≠ some markChar) :
    textBody (byteOrderMark bom ++ Utf8.bytes (encodeNewlines newline chars)) =
      Utf8.bytes (encodeNewlines newline chars) := by
  cases bom with
  | true =>
    rw [textBody, if_pos (hasMark_encode.2 (.inl rfl))]
    rfl
  | false =>
    have hchars : ¬ (false = true ∨ chars.head? = some markChar) :=
      fun hmark => hmark.elim nofun (h.resolve_left nofun)
    rw [textBody, if_neg (mt hasMark_encode.1 hchars)]
    rfl

/-- A text that has been saved is opened as the same text, with the same mark and, if it has more
    than one line, the same ends of lines, unless it starts with the character of a mark that it
    was saved without. -/
theorem encodeText_reopens_iff (h : encodeText text newline bom = .ok bytes) :
    (∃ newline', decodeText bytes = .ok (text, newline', bom) ∧
      ('\n' ∈ text.toList → newline' = newline)) ↔
    (bom = true ∨ text.toList.head? ≠ some markChar) := by
  obtain ⟨hnul, hcr, hsize, rfl⟩ := encodeText_eq_ok.1 h
  constructor
  · rintro ⟨newline', hdecoded, -⟩
    obtain ⟨chars, -, hbom, -⟩ := decodeText_eq_ok.1 hdecoded
    by_contra hmark
    obtain ⟨hfalse, hhead⟩ := not_or.1 hmark
    exact hfalse (hbom.trans (hasMark_encode.2 (.inr (not_not.1 hhead))))
  · intro hmark
    obtain ⟨hlone, hnewlines, newline', hopened, hsame⟩ := opened_encodeNewlines hcr
    refine ⟨newline', decodeText_eq_ok.2 ⟨encodeNewlines newline text.toList,
      ⟨hsize, textBody_encode hmark, ?_, hlone, hnewlines⟩, ?_, hopened⟩, hsame⟩
    · exact mt (nul_mem_encodeNewlines).1 hnul
    · rw [Bool.eq_iff_iff, hasMark_encode]
      exact ⟨.inl, fun hfound => hfound.elim id fun hhead => hmark.resolve_right (not_not.2 hhead)⟩

end

/-- A mark that the text was saved without. -/
theorem encodeText_marked :
    encodeText (String.ofList [markChar]) .lf false = .ok [0xef, 0xbb, 0xbf] ∧
      decodeText [0xef, 0xbb, 0xbf] = .ok ("", .lf, true) := by
  refine ⟨encodeText_eq_ok.2 ?_, decodeText_eq_ok.2 ⟨[], ?_, rfl, .lf ?_⟩⟩
  · rw [String.toList_ofList]
    exact ⟨by decide, by decide, by decide, by decide⟩
  · refine ⟨by decide, rfl, List.not_mem_nil, ?_, ?_⟩
    · rintro ⟨k, hk, -⟩
      exact absurd hk (by simp)
    · rintro ⟨⟨k, hk, -⟩, -⟩
      exact absurd hk (by simp)
  · rintro ⟨k, hk, -⟩
    exact absurd hk (by simp)

theorem encodeText_lines_reopens :
    encodeText (String.ofList ['a', '\n']) .crLf false = .ok [0x61, 0x0d, 0x0a] ∧
      ∃ newline, decodeText [0x61, 0x0d, 0x0a] =
          .ok (String.ofList ['a', '\n'], newline, false) ∧
        ('\n' ∈ (String.ofList ['a', '\n']).toList → newline = .crLf) := by
  have hencoded : encodeText (String.ofList ['a', '\n']) .crLf false = .ok [0x61, 0x0d, 0x0a] := by
    refine encodeText_eq_ok.2 ?_
    rw [String.toList_ofList]
    exact ⟨by decide, by decide, by decide, by decide⟩
  refine ⟨hencoded, (encodeText_reopens_iff hencoded).2 (.inr ?_)⟩
  rw [String.toList_ofList]
  decide

end NexusOps.Sftp
