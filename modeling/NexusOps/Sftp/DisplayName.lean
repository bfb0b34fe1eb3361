import NexusOps.Sftp.Path
import Mathlib.Data.String.Basic

/-!
# Names as they are shown

Control characters and characters that change the direction of a text are shown escaped
(`display_name`). A backslash is not, so what looks like an escape may be one, or be written out in
the name. A name is the only one that is shown as it is if it has none of these look-alikes, and
if it is so long that no escape of it could be written out: `displayName_identifies_iff`.
-/

namespace NexusOps.Sftp

/-- The character is shown escaped. -/
def Escaped (c : Char) : Prop := (isControl c || isBidiControl c) = true

instance (c : Char) : Decidable (Escaped c) := inferInstanceAs (Decidable (_ = _))

/-- How the characters of a name are shown. -/
def display (chars : List Char) : List Char :=
  chars.flatMap fun c => if Escaped c then escapeChar c else [c]

variable {c d : Char} {a b u v w : List Char}

theorem toList_displayName (name : String) : (displayName name).toList = display name.toList :=
  String.toList_ofList

theorem display_append : display (u ++ v) = display u ++ display v := List.flatMap_append

theorem display_cons_escaped (h : Escaped c) : display (c :: a) = escapeChar c ++ display a := by
  rw [display, List.flatMap_cons, if_pos h]
  rfl

theorem display_cons (h : ¬ Escaped c) : display (c :: a) = c :: display a := by
  rw [display, List.flatMap_cons, if_neg h]
  rfl

/-! ## Escapes -/

theorem Escaped.toNat_lt (h : Escaped c) : c.toNat < 65536 := by
  simp only [Escaped, isControl, isBidiControl, Bool.or_eq_true, Bool.and_eq_true,
    decide_eq_true_eq, beq_iff_eq, Char.toNat, UInt32.lt_iff_toNat_lt, UInt32.le_iff_toNat_le] at h
  have h₁ : (0x20 : UInt32).toNat = 32 := rfl
  have h₂ : (0x9f : UInt32).toNat = 159 := rfl
  rw [Char.toNat]
  omega

theorem hexDigit_inj {m n : Nat} (hm : m < 16) (hn : n < 16) (h : hexDigit m = hexDigit n) :
    m = n := by
  have hinj : ∀ m < 16, ∀ n < 16, hexDigit m = hexDigit n → m = n := by decide
  exact hinj m hm n hn h

theorem escapeChar_inj (hc : Escaped c) (hd : Escaped d) (h : escapeChar c = escapeChar d) :
    c = d := by
  simp only [escapeChar, List.cons.injEq, and_true, true_and] at h
  obtain ⟨h₁, h₂, h₃, h₄⟩ := h
  have hc := hc.toNat_lt
  have hd := hd.toNat_lt
  have h₁ := hexDigit_inj (by omega) (by omega) h₁
  have h₂ := hexDigit_inj (by omega) (by omega) h₂
  have h₃ := hexDigit_inj (by omega) (by omega) h₃
  have h₄ := hexDigit_inj (by omega) (by omega) h₄
  exact Char.toNat_inj.1 (by omega)

/-- What an escape consists of is shown as it is. -/
theorem not_escaped_hexDigit {n : Nat} (hn : n < 16) : ¬ Escaped (hexDigit n) := by
  have hall : ∀ n < 16, ¬ Escaped (hexDigit n) := by decide
  exact hall n hn

theorem display_escapeChar (h : Escaped c) : display (escapeChar c) = escapeChar c := by
  have hlt := h.toNat_lt
  rw [escapeChar, display_cons (by decide), display_cons (by decide), display_cons (by decide),
    display_cons (not_escaped_hexDigit (by omega)), display_cons (not_escaped_hexDigit (by omega)),
    display_cons (not_escaped_hexDigit (by omega)), display_cons (not_escaped_hexDigit (by omega)),
    display_cons (by decide)]
  rfl

theorem hexDigit_ne {n : Nat} (hn : n < 16) :
    hexDigit n ≠ '\\' ∧ hexDigit n ≠ '/' ∧ hexDigit n ≠ '\x00' ∧ (hexDigit n).utf8Size = 1 := by
  have hall : ∀ n < 16, hexDigit n ≠ '\\' ∧ hexDigit n ≠ '/' ∧ hexDigit n ≠ '\x00' ∧
      (hexDigit n).utf8Size = 1 := by decide
  exact hall n hn

/-- The only backslash of an escape is its first character. -/
theorem escapeChar_eq (h : Escaped c) : ∃ w, escapeChar c = '\\' :: w ∧ '\\' ∉ w ∧
    '/' ∉ escapeChar c ∧ '\x00' ∉ escapeChar c ∧ String.utf8Len (escapeChar c) = 8 := by
  have hlt := h.toNat_lt
  obtain ⟨h₁, h₂, h₃, h₄⟩ := hexDigit_ne (n := c.toNat / 4096) (by omega)
  obtain ⟨k₁, k₂, k₃, k₄⟩ := hexDigit_ne (n := c.toNat / 256 % 16) (by omega)
  obtain ⟨l₁, l₂, l₃, l₄⟩ := hexDigit_ne (n := c.toNat / 16 % 16) (by omega)
  obtain ⟨m₁, m₂, m₃, m₄⟩ := hexDigit_ne (n := c.toNat % 16) (by omega)
  refine ⟨_, rfl, ?_, ?_, ?_, ?_⟩
  · simp [Ne.symm h₁, Ne.symm k₁, Ne.symm l₁, Ne.symm m₁]
  · simp [escapeChar, Ne.symm h₂, Ne.symm k₂, Ne.symm l₂, Ne.symm m₂]
  · simp [escapeChar, Ne.symm h₃, Ne.symm k₃, Ne.symm l₃, Ne.symm m₃]
  · simp only [escapeChar, String.utf8Len_cons, String.utf8Len_nil, h₄, k₄, l₄, m₄]
    decide

/-! ## Look-alikes -/

/-- No escape of a character that a name may have is written out. -/
def Plain (chars : List Char) : Prop :=
  ∀ c, Escaped c → c ≠ '\x00' → ¬ escapeChar c <:+: chars

theorem Plain.of_cons (h : Plain (c :: a)) : Plain a :=
  fun d hd hne hinfix => h d hd hne (List.infix_cons hinfix)

/-- What is shown without a backslash is there as it is shown. -/
theorem of_display_eq_append (hw : '\\' ∉ w) (h : display b = w ++ v) :
    ∃ b', b = w ++ b' ∧ v = display b' := by
  induction w generalizing b with
  | nil => exact ⟨b, rfl, h.symm⟩
  | cons x w ih =>
    obtain ⟨hx, hrest⟩ := not_or.1 (mt List.mem_cons.2 hw)
    cases b with
    | nil => nomatch h
    | cons y b =>
      by_cases hy : Escaped y
      · rw [display_cons_escaped hy] at h
        exact absurd (List.cons.inj h).1 hx
      · rw [display_cons hy] at h
        obtain ⟨rfl, htail⟩ := List.cons.inj h
        obtain ⟨b', rfl, hb'⟩ := ih hrest htail
        exact ⟨b', rfl, hb'⟩

/-- A character that is shown as it is where another is shown escaped starts a look-alike. -/
theorem infix_of_display_eq (hc : Escaped c) (hd : ¬ Escaped d)
    (h : display (c :: a) = display (d :: b)) : escapeChar c <:+: d :: b := by
  obtain ⟨w, hescape, hw, -⟩ := escapeChar_eq hc
  rw [display_cons_escaped hc, display_cons hd, hescape] at h
  obtain ⟨rfl, htail⟩ := List.cons.inj h
  obtain ⟨b', rfl, -⟩ := of_display_eq_append hw htail.symm
  exact (hescape ▸ List.prefix_append _ b' : escapeChar c <+: '\\' :: w ++ b').isInfix

theorem display_ne_nil : display (c :: a) ≠ [] := by
  by_cases hc : Escaped c
  · rw [display_cons_escaped hc]
    exact nofun
  · rw [display_cons hc]
    exact nofun

/-- Names without look-alikes are shown differently. -/
theorem display_inj (ha : Plain a) (hb : Plain b) (hnul : '\x00' ∉ a) (hnul' : '\x00' ∉ b)
    (h : display a = display b) : a = b := by
  induction a generalizing b with
  | nil =>
    cases b with
    | nil => rfl
    | cons d b => exact absurd h.symm display_ne_nil
  | cons c a ih =>
    cases b with
    | nil => exact absurd h display_ne_nil
    | cons d b =>
      obtain ⟨hc, ha'⟩ := not_or.1 (mt List.mem_cons.2 hnul)
      obtain ⟨hd, hb'⟩ := not_or.1 (mt List.mem_cons.2 hnul')
      by_cases hce : Escaped c <;> by_cases hde : Escaped d
      · rw [display_cons_escaped hce, display_cons_escaped hde] at h
        obtain ⟨hescape, htail⟩ := List.append_inj h rfl
        rw [escapeChar_inj hce hde hescape, ih ha.of_cons hb.of_cons ha' hb' htail]
      · exact absurd (infix_of_display_eq hce hde h) (hb c hce (Ne.symm hc))
      · exact absurd (infix_of_display_eq hde hce h.symm) (ha d hde (Ne.symm hd))
      · rw [display_cons hce, display_cons hde] at h
        obtain ⟨rfl, htail⟩ := List.cons.inj h
        rw [ih ha.of_cons hb.of_cons ha' hb' htail]

/-! ## Names -/

theorem childName_ofList : ChildName (String.ofList a) ↔ a ≠ [] ∧ a ≠ ['.'] ∧ a ≠ ['.', '.'] ∧
    '/' ∉ a ∧ '\x00' ∉ a ∧ String.utf8Len a ≤ 255 := by
  constructor
  · rintro ⟨h₁, h₂, h₃, h₄, h₅, h₆⟩
    rw [String.toList_ofList] at h₁ h₂ h₃ h₄ h₅
    rw [String.utf8ByteSize_ofList] at h₆
    exact ⟨h₁, h₂, h₃, h₄, h₅, h₆⟩
  · rintro ⟨h₁, h₂, h₃, h₄, h₅, h₆⟩
    rw [← String.toList_ofList (l := a)] at h₁ h₂ h₃ h₄ h₅
    rw [← String.utf8ByteSize_ofList] at h₆
    exact ⟨h₁, h₂, h₃, h₄, h₅, h₆⟩

theorem utf8Len_append_cons :
    String.utf8Len (u ++ c :: v) = String.utf8Len u + String.utf8Len v + c.utf8Size := by
  rw [String.utf8Len_append, String.utf8Len_cons, Nat.add_assoc]

theorem utf8Len_escape (h : Escaped c) :
    String.utf8Len (u ++ escapeChar c ++ v) = String.utf8Len u + String.utf8Len v + 8 := by
  obtain ⟨-, -, -, -, -, hlen⟩ := escapeChar_eq h
  rw [String.utf8Len_append, String.utf8Len_append, hlen]
  omega

theorem display_escape (h : Escaped c) :
    display (u ++ escapeChar c ++ v) = display (u ++ c :: v) := by
  rw [display_append, display_append, display_append, display_escapeChar h,
    display_cons_escaped h, List.append_assoc]

/-- A look-alike can be replaced by the character. -/
theorem ChildName.collapse (hc : Escaped c) (hnul : c ≠ '\x00')
    (h : ChildName (String.ofList (u ++ escapeChar c ++ v))) :
    ChildName (String.ofList (u ++ c :: v)) := by
  obtain ⟨-, -, -, hslash, hnone, hsize⟩ := childName_ofList.1 h
  simp only [List.mem_append, not_or] at hslash hnone
  have hmem : c ∈ u ++ c :: v := List.mem_append_right u List.mem_cons_self
  have hne : ∀ {chars : List Char}, (∀ d ∈ chars, d = '.') → u ++ c :: v ≠ chars := by
    rintro chars hdots rfl
    rw [hdots c hmem] at hc
    exact absurd hc (by decide)
  refine childName_ofList.2 ⟨fun hnil => absurd (hnil ▸ hmem) List.not_mem_nil,
    hne (by simp), hne (by simp), ?_, ?_, ?_⟩
  · simp only [List.mem_append, List.mem_cons, not_or]
    exact ⟨hslash.1.1, fun heq => absurd (heq ▸ hc) (by decide), hslash.2⟩
  · simp only [List.mem_append, List.mem_cons, not_or]
    exact ⟨hnone.1.1, Ne.symm hnul, hnone.2⟩
  · rw [utf8Len_escape hc] at hsize
    rw [utf8Len_append_cons]
    have hle := c.utf8Size_le_four
    omega

/-- A character can be replaced by its escape, if there is room for it. -/
theorem ChildName.expand (hc : Escaped c) (h : ChildName (String.ofList (u ++ c :: v)))
    (hroom : String.utf8Len u + String.utf8Len v + 8 ≤ 255) :
    ChildName (String.ofList (u ++ escapeChar c ++ v)) := by
  obtain ⟨-, -, -, hslash, hnul, -⟩ := childName_ofList.1 h
  obtain ⟨-, -, -, hslash', hnul', -⟩ := escapeChar_eq hc
  simp only [List.mem_append, List.mem_cons, not_or] at hslash hnul
  have hlong : ∀ {chars : List Char}, chars.length < 8 → u ++ escapeChar c ++ v ≠ chars := by
    rintro chars hlt rfl
    rw [List.length_append, List.length_append] at hlt
    have hlength : (escapeChar c).length = 8 := rfl
    omega
  refine childName_ofList.2 ⟨hlong (by decide), hlong (by decide), hlong (by decide), ?_, ?_, ?_⟩
  · simp only [List.mem_append, not_or]
    exact ⟨⟨hslash.1, hslash'⟩, hslash.2.2⟩
  · simp only [List.mem_append, not_or]
    exact ⟨⟨hnul.1, hnul'⟩, hnul.2.2⟩
  · rwa [utf8Len_escape hc]

/-- Another name without look-alikes is shown like one that has some, one of which is the escape of
    a character of it. -/
theorem exists_plain (h : ChildName (String.ofList a)) (hplain : ¬ Plain a) : ∃ u c v,
    Escaped c ∧ Plain (u ++ c :: v) ∧ ChildName (String.ofList (u ++ c :: v)) ∧
      ChildName (String.ofList (u ++ escapeChar c ++ v)) ∧ display (u ++ c :: v) = display a := by
  -- One look-alike after the other is replaced.
  induction hn : a.length using Nat.strongRecOn generalizing a with
  | ind n ih =>
    simp only [Plain, not_forall, not_not] at hplain
    obtain ⟨c, hc, hnul, u, v, rfl⟩ := hplain
    have hname := h.collapse hc hnul
    have hdisplay : display (u ++ c :: v) = display (u ++ escapeChar c ++ v) :=
      (display_escape hc).symm
    by_cases hplain : Plain (u ++ c :: v)
    · exact ⟨u, c, v, hc, hplain, hname, h, hdisplay⟩
    · have hlt : (u ++ c :: v).length < n := by
        rw [← hn, List.length_append, List.length_append, List.length_append, List.length_cons]
        have hlength : (escapeChar c).length = 8 := rfl
        omega
      obtain ⟨u', c', v', hc', hplain', hname', hname'', hsame⟩ := ih _ hlt hname hplain rfl
      exact ⟨u', c', v', hc', hplain', hname', hname'', hsame.trans hdisplay⟩

/-- A name is the only one that is shown as it is if it has no look-alike, and no room for one. -/
theorem displayName_identifies_iff {a : String} (ha : ChildName a) :
    (∀ b, ChildName b → displayName a = displayName b → a = b) ↔
      Plain a.toList ∧ ∀ c ∈ a.toList, Escaped c → 255 + c.utf8Size < a.utf8ByteSize + 8 := by
  have hdisplay : ∀ {a b : String}, displayName a = displayName b ↔
      display a.toList = display b.toList := by
    intro a b
    rw [← toList_displayName, ← toList_displayName, String.toList_inj]
  obtain ⟨chars, rfl⟩ : ∃ chars, a = String.ofList chars := ⟨a.toList, String.ofList_toList.symm⟩
  simp only [hdisplay, String.toList_ofList, String.utf8ByteSize_ofList]
  constructor
  · intro h
    refine ⟨?_, fun c hmem hc => ?_⟩
    · by_contra hplain
      obtain ⟨u, c, v, -, hplain', hname, -, hsame⟩ := exists_plain ha hplain
      have heq := h _ hname (by rw [String.toList_ofList, hsame])
      rw [String.ofList_inj] at heq
      exact hplain (heq ▸ hplain')
    · by_contra hroom
      obtain ⟨u, v, rfl⟩ := List.append_of_mem hmem
      rw [utf8Len_append_cons] at hroom
      have heq := h _ (ha.expand hc (by omega)) (by rw [String.toList_ofList, display_escape hc])
      rw [String.ofList_inj] at heq
      have hlength := congrArg List.length heq
      rw [List.length_append, List.length_append, List.length_append, List.length_cons] at hlength
      have height : (escapeChar c).length = 8 := rfl
      omega
  · rintro ⟨hplain, hroom⟩ b hb hsame
    have hnul : ∀ {x}, ChildName (String.ofList x) → '\x00' ∉ x :=
      fun h => (childName_ofList.1 h).2.2.2.2.1
    obtain ⟨chars', rfl⟩ : ∃ chars, b = String.ofList chars :=
      ⟨b.toList, String.ofList_toList.symm⟩
    rw [String.toList_ofList] at hsame
    by_cases hplain' : Plain chars'
    · rw [display_inj hplain hplain' (hnul ha) (hnul hb) hsame]
    · -- The name would be the one without look-alikes, and there would be room for one.
      obtain ⟨u, c, v, hc, hplain', hname, hname', hsame'⟩ := exists_plain hb hplain'
      obtain rfl := display_inj hplain hplain' (hnul ha) (hnul hname) (hsame.trans hsame'.symm)
      have hlong := hroom c (List.mem_append_right u List.mem_cons_self) hc
      have hsize := (childName_ofList.1 hname').2.2.2.2.2
      rw [utf8Len_append_cons] at hlong
      rw [utf8Len_escape hc] at hsize
      omega

/-- A line feed, and its escape written out. -/
theorem displayName_lineFeed : ChildName (String.ofList ['\n']) ∧
    ChildName (String.ofList ['\\', 'u', '{', '0', '0', '0', 'A', '}']) ∧
    displayName (String.ofList ['\n']) =
      displayName (String.ofList ['\\', 'u', '{', '0', '0', '0', 'A', '}']) ∧
    String.ofList ['\n'] ≠ String.ofList ['\\', 'u', '{', '0', '0', '0', 'A', '}'] :=
  ⟨childName_ofList.2 (by decide), childName_ofList.2 (by decide), by decide, by decide⟩

theorem displayName_letter : ChildName (String.ofList ['a']) ∧
    ∀ b, ChildName b → displayName (String.ofList ['a']) = displayName b →
      String.ofList ['a'] = b := by
  have hname : ChildName (String.ofList ['a']) := childName_ofList.2 (by decide)
  refine ⟨hname, (displayName_identifies_iff hname).2 ⟨fun c _ _ hinfix => ?_, ?_⟩⟩
  · have hle : 8 ≤ (String.ofList ['a']).toList.length := hinfix.length_le
    rw [String.toList_ofList] at hle
    exact absurd hle (by decide)
  · rw [String.toList_ofList]
    exact List.forall_mem_singleton.2 (by decide)

end NexusOps.Sftp
