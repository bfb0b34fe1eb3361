import NexusOps.Model.Basic
import Mathlib.Data.List.DropRight

/-!
# Remote paths

The paths of an SFTP server (`path.rs`): what is accepted as a path or as the name of
a child or of a local file, and how a path is joined to a name and taken apart.
-/

namespace NexusOps.Sftp

/-- The greatest length of a remote path. -/
def MAX_REMOTE_PATH_BYTES : Nat := 4096

/-- A path or a name is not accepted. -/
def policy (message : String) : AppError := .new .filePolicy message

/-- Accepts a remote path. -/
def validateRemotePath (path : String) : Except AppError Unit :=
  let chars := path.toList
  if chars.isEmpty ∨ MAX_REMOTE_PATH_BYTES < path.utf8ByteSize ∨ '\x00' ∈ chars then
    .error (policy "The remote path is empty, contains NUL, or exceeds 4096 bytes.")
  else .ok ()

/-- Accepts the name of a child. -/
def validateChildName (name : String) : Except AppError Unit :=
  let chars := name.toList
  if chars.isEmpty ∨ chars = ['.'] ∨ chars = ['.', '.'] ∨ '/' ∈ chars ∨ '\x00' ∈ chars ∨
      255 < name.utf8ByteSize then
    .error (policy "The server returned an unsafe child entry name.")
  else .ok ()

/-- A path without its trailing slashes. -/
def trimEndSlashes (chars : List Char) : List Char := chars.rdropWhile (· == '/')

/-- What is before and after the last slash. -/
def rsplitOnceSlash (chars : List Char) : Option (List Char × List Char) :=
  match chars.reverse.dropWhile (· != '/') with
  | [] => none
  | _ :: before => some (before.reverse, (chars.reverse.takeWhile (· != '/')).reverse)

/-- The path of a child. -/
def joinRemote (parent child : String) : Except AppError String := do
  validateRemotePath parent
  validateChildName child
  let joined :=
    if parent.toList = ['/'] then String.ofList ('/' :: child.toList)
    else String.ofList (trimEndSlashes parent.toList ++ '/' :: child.toList)
  validateRemotePath joined
  return joined

/-- The directory of a path. -/
def parentRemote (path : String) : Except AppError String := do
  validateRemotePath path
  if path.toList = ['/'] then
    return "/"
  else
    match rsplitOnceSlash (trimEndSlashes path.toList) with
    | none => return "."
    | some (parent, _) => return if parent.isEmpty then "/" else String.ofList parent

/-! ### What is accepted -/

section

variable {path name parent child : String}

theorem validateRemotePath_eq_ok : validateRemotePath path = .ok () ↔
    path.toList ≠ [] ∧ path.utf8ByteSize ≤ MAX_REMOTE_PATH_BYTES ∧ '\x00' ∉ path.toList := by
  rw [validateRemotePath]
  split_ifs with h
  · rw [List.isEmpty_iff] at h
    refine ⟨nofun, fun ⟨hempty, hsize, hnul⟩ => ?_⟩
    exact (h.elim hempty fun h => h.elim (not_lt.2 hsize) hnul).elim
  · rw [List.isEmpty_iff] at h
    exact ⟨fun _ => ⟨fun hempty => h (.inl hempty), not_lt.1 fun hsize => h (.inr (.inl hsize)),
      fun hnul => h (.inr (.inr hnul))⟩, fun _ => rfl⟩

/-- A name of a child: not that of the directory itself or of the one above it, and one name
    only. -/
structure ChildName (name : String) : Prop where
  ne_nil : name.toList ≠ []
  ne_dot : name.toList ≠ ['.']
  ne_dots : name.toList ≠ ['.', '.']
  slash : '/' ∉ name.toList
  nul : '\x00' ∉ name.toList
  size : name.utf8ByteSize ≤ 255

theorem validateChildName_eq_ok : validateChildName name = .ok () ↔ ChildName name := by
  rw [validateChildName]
  split_ifs with h
  · rw [List.isEmpty_iff] at h
    refine ⟨nofun, fun hname => ?_⟩
    rcases h with h | h | h | h | h | h
    · exact absurd h hname.ne_nil
    · exact absurd h hname.ne_dot
    · exact absurd h hname.ne_dots
    · exact absurd h hname.slash
    · exact absurd h hname.nul
    · exact absurd h (not_lt.2 hname.size)
  · rw [List.isEmpty_iff] at h
    simp only [not_or] at h
    obtain ⟨hempty, hdot, hdots, hslash, hnul, hsize⟩ := h
    exact ⟨fun _ => ⟨hempty, hdot, hdots, hslash, hnul, not_lt.1 hsize⟩, fun _ => rfl⟩

/-- The path of a child is that of the directory, without slashes at its end, and the name. -/
theorem joinRemote_eq_ok : joinRemote parent child = .ok path ↔
    validateRemotePath parent = .ok () ∧ ChildName child ∧ validateRemotePath path = .ok () ∧
      path.toList = trimEndSlashes parent.toList ++ '/' :: child.toList := by
  have hjoined : (if parent.toList = ['/'] then String.ofList ('/' :: child.toList)
      else String.ofList (trimEndSlashes parent.toList ++ '/' :: child.toList)) =
      String.ofList (trimEndSlashes parent.toList ++ '/' :: child.toList) := by
    split_ifs with hroot
    · rw [hroot]
      rfl
    · rfl
  have hpath : path.toList = trimEndSlashes parent.toList ++ '/' :: child.toList ↔
      String.ofList (trimEndSlashes parent.toList ++ '/' :: child.toList) = path := by
    rw [← String.toList_inj, String.toList_ofList, eq_comm]
  rw [joinRemote, hjoined, hpath, ← validateChildName_eq_ok]
  constructor
  · intro h
    obtain ⟨⟨⟩, hparent, h⟩ := of_bind_eq_ok h
    obtain ⟨⟨⟩, hchild, h⟩ := of_bind_eq_ok h
    obtain ⟨⟨⟩, hvalid, h⟩ := of_bind_eq_ok h
    obtain ⟨⟩ := h
    exact ⟨hparent, hchild, hvalid, rfl⟩
  · rintro ⟨hparent, hchild, hvalid, rfl⟩
    rw [hparent, hchild, ok_bind, ok_bind]
    dsimp only
    rw [hvalid]
    rfl

end

/-! ### Taking a path apart -/

section

variable {before after chars : List Char}

theorem rsplitOnceSlash_append (h : '/' ∉ after) :
    rsplitOnceSlash (before ++ '/' :: after) = some (before, after) := by
  have hafter : ∀ c ∈ after.reverse, (c != '/') = true := fun c hc =>
    bne_iff_ne.2 fun heq => h (heq ▸ List.mem_reverse.1 hc)
  have hreverse : (before ++ '/' :: after).reverse = after.reverse ++ '/' :: before.reverse := by
    simp
  rw [rsplitOnceSlash, hreverse, List.dropWhile_append_of_pos hafter,
    List.takeWhile_append_of_pos hafter]
  simp

/-- A path that ends with a name has no slash to be trimmed. -/
theorem trimEndSlashes_append (hslash : '/' ∉ after) (hne : after ≠ []) :
    trimEndSlashes (before ++ '/' :: after) = before ++ '/' :: after := by
  refine List.rdropWhile_eq_self_iff.2 fun hl hlast => ?_
  rw [List.getLast_append_of_ne_nil _ (List.cons_ne_nil _ _), List.getLast_cons hne] at hlast
  exact hslash (beq_iff_eq.1 hlast ▸ List.getLast_mem hne)

theorem trimEndSlashes_trimEndSlashes :
    trimEndSlashes (trimEndSlashes chars) = trimEndSlashes chars :=
  List.rdropWhile_idempotent _ chars

end

/-- The directory of the path of a child. -/
theorem parentRemote_of_joinRemote {parent child path : String}
    (h : joinRemote parent child = .ok path) : parentRemote path =
      .ok (if trimEndSlashes parent.toList = [] then "/"
        else String.ofList (trimEndSlashes parent.toList)) := by
  obtain ⟨-, hchild, hvalid, hpath⟩ := joinRemote_eq_ok.1 h
  have hroot : path.toList ≠ ['/'] := by
    intro hroot
    have hlength := congrArg List.length (hpath.symm.trans hroot)
    rw [List.length_append, List.length_cons, List.length_singleton] at hlength
    have hchars := List.length_pos_iff.2 hchild.ne_nil
    omega
  rw [parentRemote, hvalid, ok_bind, if_neg hroot, hpath,
    trimEndSlashes_append hchild.slash hchild.ne_nil, rsplitOnceSlash_append hchild.slash]
  simp only [List.isEmpty_iff]
  rfl

/-- The directory of a child, without slashes at its end, is a path unless it is empty. -/
theorem joinRemote_trimEndSlashes {parent child path : String}
    (hjoin : joinRemote parent child = .ok path) (hparent : trimEndSlashes parent.toList ≠ []) :
    joinRemote (String.ofList (trimEndSlashes parent.toList)) child = .ok path := by
  obtain ⟨hvalid, hchild, hpathValid, hpath⟩ := joinRemote_eq_ok.1 hjoin
  refine joinRemote_eq_ok.2 ⟨validateRemotePath_eq_ok.2 ?_, hchild, hpathValid, ?_⟩
  · obtain ⟨-, hsize, hnul⟩ := validateRemotePath_eq_ok.1 hvalid
    have htrimmed : trimEndSlashes parent.toList <+: parent.toList := List.rdropWhile_prefix _ _
    obtain ⟨slashes, hslashes⟩ := id htrimmed
    have hlength : (String.ofList (trimEndSlashes parent.toList) ++
        String.ofList slashes).utf8ByteSize = parent.utf8ByteSize := by
      rw [← String.ofList_append, hslashes, String.ofList_toList]
    rw [String.utf8ByteSize_append] at hlength
    rw [String.toList_ofList]
    exact ⟨hparent, by omega, fun hmem => hnul (htrimmed.subset hmem)⟩
  · rw [String.toList_ofList, trimEndSlashes_trimEndSlashes, hpath]

/-- A name can be taken off and joined again: the directory is the one it was joined to, without
    slashes at its end, or the root. -/
theorem joinRemote_parentRemote {parent child path : String}
    (h : joinRemote parent child = .ok path) :
    parentRemote path = .ok (if parent.toList.all (· = '/') then "/"
      else String.ofList (trimEndSlashes parent.toList)) ∧
    (∃ before, rsplitOnceSlash path.toList = some (before, child.toList)) ∧
    (path.toList.head? = some '/' ↔ parent.toList.head? = some '/') ∧
    (parentRemote path >>= fun directory => joinRemote directory child) = .ok path := by
  obtain ⟨hvalid, hchild, hpathValid, hpath⟩ := joinRemote_eq_ok.1 h
  have hparent := parentRemote_of_joinRemote h
  have hroot : trimEndSlashes parent.toList = [] ↔ parent.toList.all (· = '/') := by
    simp [trimEndSlashes, List.rdropWhile_eq_nil_iff]
  refine ⟨?_, ⟨trimEndSlashes parent.toList, ?_⟩, ?_, ?_⟩
  · simp only [← hroot]
    exact hparent
  · rw [hpath, rsplitOnceSlash_append hchild.slash]
  · obtain ⟨slashes, hslashes⟩ : trimEndSlashes parent.toList <+: parent.toList :=
      List.rdropWhile_prefix _ _
    rw [hpath]
    cases htrimmed : trimEndSlashes parent.toList with
    | nil =>
      obtain ⟨c, rest, hchars⟩ := List.exists_cons_of_ne_nil (validateRemotePath_eq_ok.1 hvalid).1
      have hc := List.all_eq_true.1 (hroot.1 htrimmed) c (hchars ▸ List.mem_cons_self)
      rw [hchars, of_decide_eq_true hc]
      exact Iff.rfl
    | cons c rest =>
      rw [← hslashes, htrimmed]
      exact Iff.rfl
  · rw [hparent, ok_bind]
    split_ifs with htrimmed
    · -- the root is joined without a second slash
      refine joinRemote_eq_ok.2 ⟨by decide, hchild, hpathValid, ?_⟩
      rw [hpath, htrimmed]
      rfl
    · exact joinRemote_trimEndSlashes h htrimmed

theorem joinRemote_parentRemote_slashes : joinRemote "/srv//" "a" = .ok "/srv/a" ∧
    (parentRemote "/srv/a" >>= fun directory => joinRemote directory "a") = .ok "/srv/a" := by
  have h : joinRemote "/srv//" "a" = .ok "/srv/a" := by decide +kernel
  exact ⟨h, (joinRemote_parentRemote h).2.2.2⟩

/-! ## Local files -/

/-- The control characters of Unicode. -/
def isControl (c : Char) : Bool := c.val < 0x20 || (0x7f ≤ c.val && c.val ≤ 0x9f)

/-- The characters that change the direction of a text. -/
def isBidiControl (c : Char) : Bool :=
  c.toNat == 0x061C || c.toNat == 0x200E || c.toNat == 0x200F ||
    (0x202A ≤ c.toNat && c.toNat ≤ 0x202E) || (0x2066 ≤ c.toNat && c.toNat ≤ 0x2069)

/-- A hexadecimal digit. -/
def hexDigit (n : Nat) : Char := Char.ofNat (if n < 10 then 48 + n else 55 + n)

/-- The escape of a character, with the four digits that a character of up to two bytes has. -/
def escapeChar (c : Char) : List Char :=
  ['\\', 'u', '{', hexDigit (c.toNat / 4096), hexDigit (c.toNat / 256 % 16),
    hexDigit (c.toNat / 16 % 16), hexDigit (c.toNat % 16), '}']

/-- A name as it is shown. -/
def displayName (value : String) : String :=
  String.ofList (value.toList.flatMap fun c =>
    if isControl c || isBidiControl c then escapeChar c else [c])

/-- The names of devices. -/
def isDeviceName : List Char → Bool
  | ['C', 'O', 'N'] | ['P', 'R', 'N'] | ['A', 'U', 'X'] | ['N', 'U', 'L'] => true
  | ['C', 'O', 'M', d] | ['L', 'P', 'T', d] => '1' ≤ d && d ≤ '9'
  | _ => false

/-- Accepts the name of a local file. -/
def validateWindowsFileName (name : String) : Except AppError Unit := do
  validateChildName name
  let chars := name.toList
  if chars.getLast? = some '.' ∨ chars.getLast? = some ' ' ∨
      (chars.any fun c => c ∈ ['\\', ':', '*', '?', '"', '<', '>', '|'] || isControl c) = true then
    .error (policy ("The remote name is not a valid Windows file name. " ++
      "Rename it explicitly before download."))
  else
    let stem := (chars.takeWhile (· != '.')).rdropWhile fun c => c == '.' || c == ' '
    if isDeviceName (stem.map Char.toUpper) then
      .error (policy ("The remote name is reserved by Windows. " ++
        "Rename it explicitly before download."))
    else .ok ()

end NexusOps.Sftp
