import NexusOps.Encoding.Shell
import NexusOps.Ssh.SystemdDispatch

/-!
# Commands of systemd operations

The command of an operation is a text that the login shell of the host splits into words. The name
of the unit is the last one of them, whatever it is, and nothing else (`command_words`).
-/

namespace NexusOps.RemoteOperations

open Encoding

/-! ## Occurrences of a pattern -/

section

variable {c : Char} {tail chars : List Char}

theorem countMatches_skip (pattern before : List Char) :
    countMatches pattern before.length (before ++ chars) = countMatches pattern 0 chars := by
  induction before with
  | nil => rfl
  | cons d before ih => exact ih

/-- A match that starts with a character that it does not contain again skips no other match. -/
theorem countMatches_cons (h : c ∉ tail) (d : Char) : countMatches (c :: tail) 0 (d :: chars) =
    (if (c :: tail) <+: d :: chars then 1 else 0) + countMatches (c :: tail) 0 chars := by
  rw [countMatches]
  simp only [← List.isPrefixOf_iff_prefix]
  split_ifs with hmatch
  · obtain ⟨rest, hrest⟩ := List.isPrefixOf_iff_prefix.1 hmatch
    obtain ⟨rfl, rfl⟩ := List.cons.inj hrest
    have hskip : ∀ {tail' : List Char}, c ∉ tail' →
        countMatches (c :: tail) 0 (tail' ++ rest) = countMatches (c :: tail) 0 rest := by
      intro tail' htail
      induction tail' with
      | nil => rfl
      | cons d tail' ih =>
        obtain ⟨hne, htail⟩ := not_or.1 (mt List.mem_cons.2 htail)
        rw [List.cons_append, countMatches, if_neg, ih htail]
        exact fun h => hne (List.cons_prefix_cons.1 (List.isPrefixOf_iff_prefix.1 h)).1
    exact congrArg (1 + ·) ((countMatches_skip _ tail).trans (hskip h).symm)
  · rw [Nat.zero_add]

/-- Each match is counted. -/
theorem countMatches_append_le (h : c ∉ tail) (before : List Char) :
    countMatches (c :: tail) 0 chars ≤ countMatches (c :: tail) 0 (before ++ chars) := by
  induction before with
  | nil => exact le_rfl
  | cons d before ih =>
    rw [List.cons_append, countMatches_cons h]
    omega

/-- A pattern that is counted once is nowhere but at the end, if it is there. -/
theorem eq_nil_of_countMatches (h : c ∉ tail) {before after : List Char}
    (hend : c :: tail <:+ before ++ c :: tail ++ after)
    (hcount : countMatches (c :: tail) 0 (before ++ c :: tail ++ after) = 1) : after = [] := by
  by_contra hne
  have hlast : c :: tail <:+ tail ++ after := by
    refine List.suffix_of_suffix_length_le hend ⟨before ++ [c], by simp⟩ ?_
    have hpos := List.length_pos_iff.2 hne
    rw [List.length_append, List.length_cons]
    omega
  obtain ⟨rest, hrest⟩ := hlast
  have hone : 1 ≤ countMatches (c :: tail) 0 (tail ++ after) := by
    refine le_trans ?_ (hrest ▸ countMatches_append_le h rest)
    rw [countMatches_cons h, if_pos (List.prefix_refl _)]
    omega
  have htwo : countMatches (c :: tail) 0 (c :: (tail ++ after)) ≤ 1 := by
    rw [← hcount, List.append_assoc]
    exact countMatches_append_le h before
  rw [countMatches_cons h, if_pos ⟨after, rfl⟩] at htwo
  omega

end

/-! ## Names of units -/

theorem isPlain_of_isAsciiAlphanumeric {c : Char} (h : isAsciiAlphanumeric c = true) :
    Shell.isPlain c = true ∧ c ≠ '-' := by
  simp only [isAsciiAlphanumeric, Bool.and_eq_true, decide_eq_true_eq] at h
  have hall : ∀ n < 128, (Char.ofNat n).isAlphanum = true →
      Shell.isPlain (Char.ofNat n) = true ∧ Char.ofNat n ≠ '-' := by decide +kernel
  rw [← Char.ofNat_toNat c] at h ⊢
  exact hall c.toNat (by simpa using h.1) h.2

theorem isPlain_of_validPart {part : List Char} (h : validPart part = true) :
    part.head? ≠ some '-' ∧ part ≠ [] ∧ ∀ c ∈ part, Shell.isPlain c = true := by
  cases part with
  | nil => nomatch h
  | cons c rest =>
    rw [validPart, Bool.and_eq_true, List.all_eq_true] at h
    obtain ⟨hplain, hne⟩ := isPlain_of_isAsciiAlphanumeric h.1
    refine ⟨fun heq => hne (Option.some.inj heq), List.cons_ne_nil c rest, fun d hd => ?_⟩
    rcases List.mem_cons.1 hd with rfl | hd
    · exact hplain
    · have hd := h.2 d hd
      simp only [Bool.or_eq_true, beq_iff_eq] at hd
      rcases hd with (((hd | rfl) | rfl) | rfl) | rfl
      · exact (isPlain_of_isAsciiAlphanumeric hd).1
      all_goals decide

/-- A name that is accepted. -/
structure UnitName (name : String) : Prop where
  plain : ∀ c ∈ name.toList, Shell.isPlain c = true
  start : name.toList.head? ≠ some '-'
  size : name.utf8ByteSize ≤ 255
  suffix : SUFFIX.toList <:+ name.toList
  once : ∀ before after, name.toList = before ++ SUFFIX.toList ++ after → after = []

/-- The parts of a name, with what is between them. -/
theorem isPlain_of_splitOn {stem : List Char} (h : (match stem.splitOn '@' with
      | [first] => validPart first
      | [first, second] => validPart first && validPart second
      | _ => false) = true) :
    stem.head? ≠ some '-' ∧ stem ≠ [] ∧ ∀ c ∈ stem, Shell.isPlain c = true := by
  have hjoin : ['@'].intercalate (stem.splitOn '@') = stem := List.intercalate_splitOn '@'
  split at h
  · next first hsplit =>
    obtain rfl : first = stem := by simpa [hsplit] using hjoin
    exact isPlain_of_validPart h
  · next first second hsplit =>
    obtain rfl : first ++ '@' :: second = stem := by simpa [hsplit] using hjoin
    rw [Bool.and_eq_true] at h
    obtain ⟨hhead, hne, hplain⟩ := isPlain_of_validPart h.1
    obtain ⟨-, -, hplain'⟩ := isPlain_of_validPart h.2
    rw [List.head?_append_of_ne_nil _ hne]
    refine ⟨hhead, by simp, fun c hc => ?_⟩
    rcases List.mem_append.1 hc with hc | hc
    · exact hplain c hc
    · rcases List.mem_cons.1 hc with rfl | hc
      · decide
      · exact hplain' c hc
  · nomatch h

def suffixTail : List Char := ['s', 'e', 'r', 'v', 'i', 'c', 'e']

theorem toList_SUFFIX : SUFFIX.toList = '.' :: suffixTail := by decide +kernel

theorem unitName_of_valid {name : String} (h : validUnitName name = true) : UnitName name := by
  rw [validUnitName, toList_SUFFIX] at h
  split_ifs at h with hcond
  simp only [Bool.or_eq_true, not_or, decide_eq_true_eq, Bool.not_eq_true', Bool.not_eq_false,
    bne_iff_ne, ne_eq, not_not, List.isSuffixOf_iff_suffix] at hcond
  obtain ⟨⟨⟨⟨-, hsize⟩, -⟩, hsuffix⟩, hcount⟩ := hcond
  obtain ⟨hhead, hne, hplain⟩ := isPlain_of_splitOn h
  have hchars := List.suffix_iff_eq_append.1 hsuffix
  refine ⟨fun c hc => ?_, ?_, not_lt.1 hsize, toList_SUFFIX ▸ hsuffix, fun before after heq => ?_⟩
  · rw [← hchars] at hc
    rcases List.mem_append.1 hc with hc | hc
    · exact hplain c hc
    · have hall : ('.' :: suffixTail).all Shell.isPlain := by decide
      exact List.all_eq_true.1 hall c hc
  · rw [← hchars, List.head?_append_of_ne_nil _ hne]
    exact hhead
  · rw [toList_SUFFIX] at heq
    rw [heq] at hsuffix hcount
    exact eq_nil_of_countMatches (by decide) hsuffix hcount

end NexusOps.RemoteOperations

namespace NexusOps.Ssh

open Encoding RemoteOperations

/-! ## Commands -/

/-- The verb of an operation. -/
def verb : SystemdOperation → List Char
  | .start => "start".toList
  | .reload => "reload".toList
  | .resetFailed => "reset-failed".toList
  | .tryRestart => "try-restart".toList

/-- What is assigned for a command. -/
def environment : List (List Char × List Char) :=
  [("LC_ALL".toList, ['C']), ("SYSTEMD_COLORS".toList, ['0']), ("SYSTEMD_URLIFY".toList, ['0'])]

/-- The arguments of a command before the unit. -/
def arguments (o : SystemdOperation) : List (List Char) :=
  ["systemctl".toList, "--system".toList, "--no-pager".toList, "--no-ask-password".toList, verb o,
    ['-', '-']]

/-- The words of a command before the unit. -/
def prefixWords (o : SystemdOperation) : List (List Char) :=
  environment.map (fun x => x.1 ++ '=' :: x.2) ++ arguments o

theorem toList_command (o : SystemdOperation) (u : SystemdServiceUnitName) :
    (command o u).toList = Shell.unwords (prefixWords o ++ [u.value.toList]) := by
  have hprefix : ∀ o, (COMMAND_PREFIX o).toList = Shell.unwords (prefixWords o ++ [[]]) := by
    intro o
    cases o <;> decide +kernel
  have hunwords : ∀ ws w, Shell.unwords (ws ++ [w]) = Shell.unwords (ws ++ [[]]) ++ w := by
    intro ws w
    induction ws with
    | nil => rfl
    | cons v ws ih =>
      cases ws with
      | nil => simp [Shell.unwords]
      | cons v' ws =>
        change v ++ ' ' :: Shell.unwords (v' :: ws ++ [w]) = _
        rw [ih]
        simp [Shell.unwords]
  rw [command, String.toList_append, hprefix, ← hunwords]

/-- The command of an operation on a unit is the one of the operation with the name of the unit as
    its last argument. -/
theorem command_words (o : SystemdOperation) {value : String} {unit : SystemdServiceUnitName}
    (h : SystemdServiceUnitName.parse value = .ok unit) :
    Shell.command (command o unit).toList =
      some ⟨environment, arguments o ++ [value.toList]⟩ ∧ UnitName value := by
  obtain rfl := SystemdServiceUnitName.parse_eq_ok h
  have hunit := unitName_of_valid unit.valid
  have hne : unit.value.toList ≠ [] := fun hnil =>
    absurd (hnil ▸ hunit.suffix).length_le (by decide +kernel)
  refine ⟨?_, hunit⟩
  have hfixed : ∀ o, ∀ w ∈ prefixWords o, w ≠ [] ∧ ∀ c ∈ w, Shell.isPlain c = true := by
    intro o w hw
    have hall : (prefixWords o).all fun w => decide (w ≠ []) && w.all Shell.isPlain := by
      cases o <;> decide +kernel
    simpa using List.all_eq_true.1 hall w hw
  rw [toList_command, Shell.command, Shell.words_unwords _ fun w hw => ?_]
  · generalize unit.value.toList = name
    cases o <;> rfl
  · rcases List.mem_append.1 hw with hw | hw
    · exact hfixed o w hw
    · exact List.mem_singleton.1 hw ▸ ⟨hne, hunit.plain⟩

theorem command_words_nginx : ∃ unit, SystemdServiceUnitName.parse "nginx.service" = .ok unit ∧
    Shell.command (command .start unit).toList =
      some ⟨environment, arguments .start ++ ["nginx.service".toList]⟩ :=
  have h : SystemdServiceUnitName.parse "nginx.service" =
      .ok ⟨"nginx.service", by decide +kernel⟩ := by rfl
  ⟨_, h, (command_words .start h).1⟩

end NexusOps.Ssh
