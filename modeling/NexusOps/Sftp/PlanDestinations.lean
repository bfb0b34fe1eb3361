import NexusOps.Concurrency.Trace
import NexusOps.Sftp.Plans

/-!
# The destinations of a planned transfer

What is planned for each source of an upload or a download, if nothing changes on the server and
in the local directory meanwhile (`Entries`). Then the destination of a source follows from its
name alone: neither `plan_upload` nor `plan_download` compares it to those of the other sources.

* `answers_planUploads` and `answers_planDownloads`: this is what the calls do when they are
  answered by what exists;
* `destinations_distinct_iff`: when the destinations of a plan are distinct.
-/

namespace NexusOps.Sftp

open Concurrency Proc Fallible

/-! ## The names of copies -/

/-- A word is split in one way only at the last of some letter. -/
theorem append_cons_inj_of_last {α : Type} {a : α} {x y x' y' : List α} (hy : a ∉ y) (hy' : a ∉ y')
    (h : x ++ a :: y = x' ++ a :: y') : x = x' ∧ y = y' := by
  rcases List.append_eq_append_iff.1 h with ⟨_ | ⟨b, z⟩, hx, hz⟩ | ⟨_ | ⟨b, z⟩, hx, hz⟩
  · exact ⟨by rw [hx, List.append_nil], (List.cons.inj hz).2⟩
  · obtain ⟨rfl, rfl⟩ := List.cons.inj hz
    exact absurd List.mem_append_cons_self hy
  · exact ⟨by rw [hx, List.append_nil], (List.cons.inj hz).2.symm⟩
  · obtain ⟨rfl, rfl⟩ := List.cons.inj hz
    exact absurd List.mem_append_cons_self hy'

theorem splitName_of_notMem {name : List Char} (h : '.' ∉ name) : splitName name = (name, []) := by
  have hall : ∀ c ∈ name.reverse, (c != '.') = true := fun c hc =>
    bne_iff_ne.2 fun hdot => h (hdot ▸ List.mem_reverse.1 hc)
  have htake : name.reverse.takeWhile (· != '.') = name.reverse := by
    rw [← List.append_nil name.reverse, List.takeWhile_append_of_pos hall, List.takeWhile_nil]
  simp [splitName, htake]

theorem splitName_append {stem extension : List Char} (h : '.' ∉ extension) :
    splitName (stem ++ '.' :: extension) =
      if stem.isEmpty then (stem ++ '.' :: extension, []) else (stem, '.' :: extension) := by
  have hall : ∀ c ∈ extension.reverse, (c != '.') = true := fun c hc =>
    bne_iff_ne.2 fun hdot => h (hdot ▸ List.mem_reverse.1 hc)
  have htake : (stem ++ '.' :: extension).reverse.takeWhile (· != '.') = extension.reverse := by
    rw [List.reverse_append, List.reverse_cons, List.append_assoc,
      List.takeWhile_append_of_pos hall]
    simp
  have hlength : (stem ++ '.' :: extension).length - extension.length - 1 = stem.length := by
    simp only [List.length_append, List.length_cons]
    omega
  simp only [splitName, htake, List.reverse_reverse, hlength, List.take_left]

/-- A name without extension, and one with an extension after its last dot. -/
theorem splitName_cases (name : List Char) :
    splitName name = (name, []) ∧ '.' ∉ name.tail ∨
      ∃ stem extension, splitName name = (stem, '.' :: extension) ∧ '.' ∉ extension ∧
        name = stem ++ '.' :: extension := by
  by_cases hdot : '.' ∈ name
  · -- Split the name at its last dot.
    obtain ⟨before, after, hname, hafter⟩ := List.eq_append_cons_of_mem (List.mem_reverse.2 hdot)
    have hname : name = after.reverse ++ '.' :: before.reverse := by
      rw [← List.reverse_reverse name, hname]
      simp
    have hbefore : '.' ∉ before.reverse := mt List.mem_reverse.1 hafter
    rw [hname, splitName_append hbefore]
    split_ifs with hempty
    · rw [List.isEmpty_iff.1 hempty]
      exact .inl ⟨rfl, hbefore⟩
    · exact .inr ⟨_, _, rfl, hbefore, rfl⟩
  · exact .inl ⟨splitName_of_notMem hdot, fun h => hdot (List.mem_of_mem_tail h)⟩

theorem notMem_toString {c : Char} (hc : c.isDigit = false) (number : Nat) :
    c ∉ (toString number).toList := by
  intro hmem
  rw [Nat.toString_eq_repr, Nat.repr_eq_ofList_toDigits, String.toList_ofList] at hmem
  rw [Nat.isDigit_of_mem_toDigits (by decide) (by decide) hmem] at hc
  nomatch hc

/-- What is put between the stem and the extension of a copy. -/
def copyMark (number : Nat) : List Char := ' ' :: '(' :: ((toString number).toList ++ [')'])

theorem notMem_copyMark (number : Nat) : '.' ∉ copyMark number := by
  have hdigits : '.' ∉ (toString number).toList := notMem_toString (by decide) number
  simp only [copyMark, List.mem_cons, List.mem_append, List.not_mem_nil, or_false, not_or]
  exact ⟨by decide, by decide, hdigits, by decide⟩

variable {number number' : Nat}

theorem append_copyMark_inj {x x' : List Char}
    (h : x ++ copyMark number = x' ++ copyMark number') : x = x' := by
  have hdigits : ∀ number : Nat, '(' ∉ (toString number).toList ++ [')'] := by
    intro number
    rw [List.mem_append, not_or]
    exact ⟨notMem_toString (by decide) number, by decide⟩
  have hsplit : (x ++ [' ']) ++ '(' :: ((toString number).toList ++ [')']) =
      (x' ++ [' ']) ++ '(' :: ((toString number').toList ++ [')']) := by
    simpa [copyMark] using h
  exact List.append_cancel_right (append_cons_inj_of_last (hdigits _) (hdigits _) hsplit).1

theorem toList_keepBothName (name : String) (number : Nat) : (keepBothName name number).toList =
    (splitName name.toList).1 ++ copyMark number ++ (splitName name.toList).2 := by
  rw [keepBothName, String.toList_ofList, copyMark]
  have hmark : " (".toList = [' ', '('] := rfl
  rw [hmark]
  simp

/-- A name without extension has no copy that one with an extension has, too. -/
theorem copy_ne {name stem extension : List Char} (hname : '.' ∉ name.tail) :
    name ++ copyMark number ≠ stem ++ copyMark number' ++ '.' :: extension := by
  intro h
  have htail : '.' ∈ (name ++ copyMark number).tail := by
    rw [h]
    cases stem with
    | nil => simp [copyMark]
    | cons c stem => simp
  cases name with
  | nil => exact notMem_copyMark number (List.mem_of_mem_tail htail)
  | cons c name =>
    rcases List.mem_append.1 htail with hmem | hmem
    · exact hname hmem
    · exact notMem_copyMark number hmem

/-- Copies of different names have different names. -/
theorem keepBothName_inj {name name' : String}
    (h : keepBothName name number = keepBothName name' number') : name = name' := by
  have hlist := congrArg String.toList h
  rw [toList_keepBothName, toList_keepBothName] at hlist
  apply String.toList_injective
  rcases splitName_cases name.toList with ⟨hsplit, htail⟩ | ⟨stem, extension, hsplit, hdot, hname⟩ <;>
    rcases splitName_cases name'.toList with ⟨hsplit', htail'⟩ | ⟨stem', extension', hsplit', hdot', hname'⟩
  · rw [hsplit, hsplit', List.append_nil, List.append_nil] at hlist
    exact append_copyMark_inj hlist
  · rw [hsplit, hsplit', List.append_nil] at hlist
    exact absurd hlist (copy_ne htail)
  · rw [hsplit, hsplit', List.append_nil] at hlist
    exact absurd hlist.symm (copy_ne htail')
  · rw [hsplit, hsplit'] at hlist
    obtain ⟨hstem, rfl⟩ := append_cons_inj_of_last hdot hdot' hlist
    obtain rfl : stem = stem' := append_copyMark_inj hstem
    rw [hname, hname']

/-- Different children of a directory have different paths. -/
theorem joinRemote_inj {parent child child' path : String} (h : joinRemote parent child = .ok path)
    (h' : joinRemote parent child' = .ok path) : child = child' := by
  obtain ⟨-, -, h⟩ := of_bind_eq_ok h
  obtain ⟨-, -, h⟩ := of_bind_eq_ok h
  obtain ⟨-, -, h⟩ := of_bind_eq_ok h
  obtain ⟨-, -, h'⟩ := of_bind_eq_ok h'
  obtain ⟨-, -, h'⟩ := of_bind_eq_ok h'
  obtain ⟨-, -, h'⟩ := of_bind_eq_ok h'
  have hpath := congrArg String.toList ((Except.ok.inj h).trans (Except.ok.inj h').symm)
  apply String.toList_injective
  split_ifs at hpath
  · rw [String.toList_ofList, String.toList_ofList] at hpath
    exact (List.cons.inj hpath).2
  · rw [String.toList_ofList, String.toList_ofList] at hpath
    exact (List.cons.inj (List.append_cancel_left hpath)).2

/-! ## What exists -/

/-- What the server and the local file system answer as long as nothing changes. -/
structure Entries where
  /-- What is at a remote path. -/
  identity : String → Except AppError (Option EntryIdentity)
  /-- The entry of a remote file. -/
  stat : String → Except AppError RemoteEntry
  /-- Whether a local file still is what was selected. -/
  selected : LocalItem → Except AppError Unit
  /-- Whether the local directory still is what was selected. -/
  directory : Except AppError Unit
  /-- The file of a name in the local directory. -/
  localIdentity : String → Except AppError (Option LocalIdentity)
  /-- Whether there is something of a name in the local directory. -/
  localExists : String → Bool

namespace Entries

variable (entries : Entries)

/-- Fails with `e` unless `p` holds. -/
def ensure (p : Prop) [Decidable p] (e : AppError) : Except AppError Unit :=
  if p then .ok () else .error e

/-- The first of the names of copies that are not in use. -/
def keepBothRemote (directory name : String) : List Nat → Except AppError String
  | [] => .error noKeepBothName
  | number :: numbers => do
    let candidate ← joinRemote directory (keepBothName name number)
    let existing ← entries.identity candidate
    if existing.isNone then return candidate else keepBothRemote directory name numbers

/-- The same, in a local directory. -/
def keepBothLocal (name : String) : List Nat → Except AppError String
  | [] => .error noKeepBothName
  | number :: numbers =>
    if entries.localExists (keepBothName name number) then keepBothLocal name numbers
    else .ok (keepBothName name number)

/-- Where a file is uploaded to, and what is done there. -/
def planUploadDestination (client : SftpClient) (directory name : String)
    (policy : ConflictPolicy) : Except AppError (String × DestinationAction EntryIdentity) := do
  let base ← joinRemote directory name
  match ← entries.identity base, policy with
  | none, _ =>
    ensure (supports client "hardlink@openssh.com" "1" = true)
      (Sftp.policy "Safe new-file finalization requires hardlink@openssh.com v1.")
    return (base, .createNew)
  | some _, .skip => return (base, .skip)
  | some identity, .replace =>
    ensure (identity.kind = .file ∧ supports client "posix-rename@openssh.com" "1" = true)
      (Sftp.policy "Replace is limited to an existing regular file.")
    return (base, .replaceExisting identity)
  | some _, .keepBoth =>
    ensure (supports client "hardlink@openssh.com" "1" = true)
      (Sftp.policy "Safe Keep both finalization requires hardlink@openssh.com v1.")
    let candidate ← entries.keepBothRemote directory name keepBothNumbers
    return (candidate, .createNew)

/-- The uploads of local files, given with their names. -/
def planUploads (client : SftpClient) (directory : String) (policy : ConflictPolicy) :
    List (LocalItem × String) → Except AppError (List PlannedUpload)
  | [] => return []
  | (source, name) :: sources => do
    entries.selected source
    validateChildName name
    let (destination, action) ← entries.planUploadDestination client directory name policy
    let planned ← planUploads client directory policy sources
    return ⟨source, destination, action⟩ :: planned

/-- What is done about a local file, and the name it gets. -/
def planDownloadDestination (name : String) (policy : ConflictPolicy) :
    Except AppError (String × DestinationAction LocalIdentity) := do
  match ← entries.localIdentity name, policy with
  | none, _ => return (name, .createNew)
  | some _, .skip => return (name, .skip)
  | some identity, .replace => return (name, .replaceExisting identity)
  | some _, .keepBoth =>
    let candidate ← entries.keepBothLocal name keepBothNumbers
    return (candidate, .createNew)

/-- The downloads of remote files. -/
def planDownloads (directory : LocalDirectory) (policy : ConflictPolicy) :
    List String → Except AppError (List PlannedDownload)
  | [] => return []
  | path :: paths => do
    let entry ← entries.stat path
    ensure (entry.kind = .file) (Sftp.policy "Only regular files can be downloaded.")
    validateWindowsFileName entry.name
    entries.directory
    let (fileName, action) ← entries.planDownloadDestination entry.name policy
    match ← entries.identity path with
    | none => throw sourceMissing
    | some identity =>
      let planned ← planDownloads directory policy paths
      return ⟨⟨path, identity.size, identity⟩, directory, fileName, action⟩ :: planned

end Entries

/-! ## The calls are answered by what exists -/

variable {policy : ConflictPolicy} {sources : List (LocalItem × String)} {numbers : List Nat}
  {client : SftpClient}

section

variable {σ α β : Type}

/-- The task returns the result, or fails with its error, on some answers. -/
def Answers (x : Async σ AppError α) (r : Except AppError α) : Prop :=
  Returns x.run [] (r.mapError .error)

theorem answers_pure {a : α} : Answers (pure a : Async σ AppError α) (.ok a) :=
  returns_pure'.2 ⟨rfl, rfl⟩

theorem answers_fail {e : AppError} : Answers (.fail e : Async σ AppError α) (.error e) :=
  returns_throw.2 ⟨rfl, rfl⟩

theorem answers_ofExcept {r : Except AppError α} : Answers (.ofExcept r : Async σ AppError α) r := by
  cases r with
  | ok a => exact answers_pure
  | error e => exact answers_fail

theorem Answers.bind {x : Async σ AppError α} {r : Except AppError α}
    {k : α → Async σ AppError β} {f : α → Except AppError β} (hx : Answers x r)
    (hk : ∀ a, Answers (k a) (f a)) : Answers (x >>= k) (r >>= f) := by
  cases r with
  | ok a => exact returns_andThen.2 (.inr ⟨a, [], [], rfl, hx, hk a⟩)
  | error e => exact returns_andThen.2 (.inl ⟨_, rfl, hx⟩)

theorem answers_ensure {p : Prop} [Decidable p] {e : AppError} :
    Answers (.ensure p e : Async σ AppError Unit) (Entries.ensure p e) := by
  rw [Answers, Async.ensure, Fallible.ensure, Entries.ensure]
  split_ifs
  · exact answers_pure
  · exact answers_fail

theorem answers_answer (r : Except AppError β) : Answers (answer β : Async σ AppError β) r := by
  refine Answers.bind (r := .ok r) ?_ fun _ => answers_ofExcept
  exact returns_ask_andThen.2 ⟨some r, answers_pure⟩

variable (entries : Entries)

theorem answers_keepBothRemote {directory name : String} :
    Answers (keepBothRemote directory name numbers : Async σ AppError String)
      (entries.keepBothRemote directory name numbers) := by
  induction numbers with
  | nil => exact answers_fail
  | cons number numbers ih =>
    refine answers_ofExcept.bind fun candidate =>
      (answers_answer (entries.identity candidate)).bind fun existing => ?_
    split_ifs
    · exact answers_pure
    · exact ih

theorem answers_keepBothLocal {name : String} :
    Answers (keepBothLocal name numbers : Async σ AppError String)
      (entries.keepBothLocal name numbers) := by
  induction numbers with
  | nil => exact answers_fail
  | cons number numbers ih =>
    have hbind : entries.keepBothLocal name (number :: numbers) =
        .ok (entries.localExists (keepBothName name number)) >>= fun taken =>
          if taken then entries.keepBothLocal name numbers
          else .ok (keepBothName name number) := rfl
    rw [hbind]
    refine (answers_answer (.ok (entries.localExists (keepBothName name number)))).bind
      fun taken => ?_
    split_ifs
    · exact ih
    · exact answers_pure

theorem answers_planUploadDestination {directory name : String} :
    Answers (planUploadDestination client directory name policy : Async σ AppError _)
      (entries.planUploadDestination client directory name policy) := by
  rw [planUploadDestination, Entries.planUploadDestination]
  generalize keepBothNumbers = numbers
  refine answers_ofExcept.bind fun base => (answers_answer (entries.identity base)).bind
    fun existing => ?_
  cases existing with
  | none => exact answers_ensure.bind fun _ => answers_pure
  | some identity =>
    cases policy with
    | skip => exact answers_pure
    | replace => exact answers_ensure.bind fun _ => answers_pure
    | keepBoth =>
      exact answers_ensure.bind fun _ => (answers_keepBothRemote entries).bind fun _ => answers_pure

theorem answers_planUploads {directory : String} :
    Answers (planUploads client directory policy sources : Async σ AppError _)
      (entries.planUploads client directory policy sources) := by
  induction sources with
  | nil => exact answers_pure
  | cons source sources ih =>
    exact (answers_answer (entries.selected source.1)).bind fun _ => answers_ofExcept.bind fun _ =>
      (answers_planUploadDestination entries).bind fun _ => ih.bind fun _ => answers_pure

theorem answers_planDownloadDestination {name : String} :
    Answers (planDownloadDestination name policy : Async σ AppError _)
      (entries.planDownloadDestination name policy) := by
  rw [planDownloadDestination, Entries.planDownloadDestination]
  generalize keepBothNumbers = numbers
  refine (answers_answer (entries.localIdentity name)).bind fun existing => ?_
  cases existing with
  | none => exact answers_pure
  | some identity =>
    cases policy with
    | skip => exact answers_pure
    | replace => exact answers_pure
    | keepBoth => exact (answers_keepBothLocal entries).bind fun _ => answers_pure

theorem answers_planDownloads {directory : LocalDirectory} {paths : List String} :
    Answers (planDownloads directory policy paths : Async σ AppError _)
      (entries.planDownloads directory policy paths) := by
  induction paths with
  | nil => exact answers_pure
  | cons path paths ih =>
    refine (answers_answer (entries.stat path)).bind fun entry => answers_ensure.bind fun _ =>
      answers_ofExcept.bind fun _ => (answers_answer entries.directory).bind fun _ =>
        (answers_planDownloadDestination entries).bind fun _ =>
          (answers_answer (entries.identity path)).bind fun existing => ?_
    cases existing with
    | none => exact answers_fail
    | some identity => exact ih.bind fun _ => answers_pure

end

/-! ## Uploads -/

namespace Entries

variable {entries : Entries} {client : SftpClient} {directory name name' path path' : String}
  {policy : ConflictPolicy} {action action' : DestinationAction EntryIdentity}

/-- What is found is a copy, and it is not in use. -/
theorem of_keepBothRemote (h : entries.keepBothRemote directory name numbers = .ok path) :
    (∃ number, joinRemote directory (keepBothName name number) = .ok path) ∧
      entries.identity path = .ok none := by
  induction numbers with
  | nil => nomatch h
  | cons number numbers ih =>
    obtain ⟨candidate, hjoin, h⟩ := of_bind_eq_ok h
    obtain ⟨existing, hexisting, h⟩ := of_bind_eq_ok h
    split_ifs at h with hnone
    · obtain ⟨⟩ := h
      exact ⟨⟨number, hjoin⟩, by rw [hexisting, Option.isNone_iff_eq_none.1 hnone]⟩
    · exact ih h

/-- A source is uploaded under its own name, which is free if both are to be kept. -/
def OwnName (entries : Entries) (directory name path : String) (policy : ConflictPolicy) : Prop :=
  joinRemote directory name = .ok path ∧ (policy = .keepBoth → entries.identity path = .ok none)

/-- A source is uploaded under the name of a copy, as its own name is in use. -/
def CopyName (entries : Entries) (directory name path : String) (policy : ConflictPolicy) : Prop :=
  policy = .keepBoth ∧ (∃ number, joinRemote directory (keepBothName name number) = .ok path) ∧
    entries.identity path = .ok none ∧
    ∃ base existing, joinRemote directory name = .ok base ∧
      entries.identity base = .ok (some existing)

theorem of_planUploadDestination
    (h : entries.planUploadDestination client directory name policy = .ok (path, action))
    (hskip : action ≠ .skip) : entries.OwnName directory name path policy ∨
      entries.CopyName directory name path policy := by
  rw [planUploadDestination] at h
  generalize keepBothNumbers = numbers at h
  obtain ⟨base, hbase, h⟩ := of_bind_eq_ok h
  obtain ⟨existing, hexisting, h⟩ := of_bind_eq_ok h
  cases existing with
  | none =>
    obtain ⟨-, -, h⟩ := of_bind_eq_ok h
    obtain ⟨⟩ := h
    exact .inl ⟨hbase, fun _ => hexisting⟩
  | some identity =>
    cases policy with
    | skip => exact absurd (Prod.mk.inj (Except.ok.inj h)).2.symm hskip
    | replace =>
      obtain ⟨-, -, h⟩ := of_bind_eq_ok h
      obtain ⟨⟩ := h
      exact .inl ⟨hbase, nofun⟩
    | keepBoth =>
      obtain ⟨-, -, h⟩ := of_bind_eq_ok h
      obtain ⟨candidate, hcandidate, h⟩ := of_bind_eq_ok h
      obtain ⟨⟩ := h
      obtain ⟨hnumber, hfree⟩ := of_keepBothRemote hcandidate
      exact .inr ⟨rfl, hnumber, hfree, base, identity, hbase, hexisting⟩

/-- A source does not get the place of another one whose name is in use. -/
theorem eq_of_joinRemote (hx : entries.OwnName directory name path policy ∨
      entries.CopyName directory name path policy)
    (hy : entries.OwnName directory name' path' policy ∨
      entries.CopyName directory name' path' policy)
    (h : joinRemote directory name' = .ok path) : path = path' := by
  rcases hy with ⟨hown, -⟩ | ⟨hpolicy, -, -, base, existing, hbase, hexisting⟩
  · exact Except.ok.inj (h.symm.trans hown)
  · obtain ⟨⟩ := h.symm.trans hbase
    rcases hx with ⟨-, hfree⟩ | ⟨-, -, hfree, -⟩
    · exact absurd (Except.ok.inj ((hfree hpolicy).symm.trans hexisting)) nofun
    · nomatch Except.ok.inj (hfree.symm.trans hexisting)

/-- Two sources get different places just if they have different names, and none gets the place of
    the name of the other. -/
theorem destination_ne_iff
    (hx : entries.planUploadDestination client directory name policy = .ok (path, action))
    (hy : entries.planUploadDestination client directory name' policy = .ok (path', action'))
    (hskip : action ≠ .skip) (hskip' : action' ≠ .skip) : path ≠ path' ↔
      name ≠ name' ∧ joinRemote directory name' ≠ .ok path ∧
        joinRemote directory name ≠ .ok path' := by
  have hx' := of_planUploadDestination hx hskip
  have hy' := of_planUploadDestination hy hskip'
  constructor
  · refine fun hne => ⟨?_, ?_, ?_⟩
    · rintro rfl
      exact hne (Prod.mk.inj (Except.ok.inj (hx.symm.trans hy))).1
    · exact fun h => hne (eq_of_joinRemote hx' hy' h)
    · exact fun h => hne (eq_of_joinRemote hy' hx' h).symm
  · rintro ⟨hname, hleft, hright⟩ rfl
    rcases hx' with ⟨hown, -⟩ | ⟨-, ⟨number, hcopy⟩, -⟩
    · exact hright hown
    rcases hy' with ⟨hown', -⟩ | ⟨-, ⟨number', hcopy'⟩, -⟩
    · exact hleft hown'
    · exact hname (keepBothName_inj (joinRemote_inj hcopy hcopy'))

/-- Each source is planned on its own. -/
theorem of_planUploads {items : List PlannedUpload}
    (h : entries.planUploads client directory policy sources = .ok items) :
    items.length = sources.length ∧ ∀ x ∈ sources.zip items,
      entries.planUploadDestination client directory x.1.2 policy =
        .ok (x.2.destination, x.2.action) := by
  induction sources generalizing items with
  | nil =>
    obtain ⟨⟩ := h
    exact ⟨rfl, fun x hx => absurd hx List.not_mem_nil⟩
  | cons source sources ih =>
    obtain ⟨-, -, h⟩ := of_bind_eq_ok h
    obtain ⟨-, -, h⟩ := of_bind_eq_ok h
    obtain ⟨⟨destination, action⟩, hdestination, h⟩ := of_bind_eq_ok h
    obtain ⟨planned, hplanned, h⟩ := of_bind_eq_ok h
    obtain ⟨⟩ := h
    obtain ⟨hlength, hall⟩ := ih hplanned
    refine ⟨congrArg (· + 1) hlength, fun x hx => ?_⟩
    rcases List.mem_cons.1 hx with rfl | hx
    · exact hdestination
    · exact hall x hx

end Entries

/-- The file is uploaded. -/
def PlannedUpload.Uploaded (item : PlannedUpload) : Bool := decide (item.action ≠ .skip)

/-- Of two sources that are uploaded, none gets the place of the name of the other, and the names
    are different. -/
def Apart (directory : String) (x y : (LocalItem × String) × PlannedUpload) : Prop :=
  x.1.2 ≠ y.1.2 ∧ joinRemote directory y.1.2 ≠ .ok x.2.destination ∧
    joinRemote directory x.1.2 ≠ .ok y.2.destination

theorem uploads_distinct_iff {entries : Entries} {directory : String} {items : List PlannedUpload}
    (h : entries.planUploads client directory policy sources = .ok items) :
    (items.filter (·.Uploaded)).Pairwise (fun x y => x.destination ≠ y.destination) ↔
      ((sources.zip items).filter (·.2.Uploaded)).Pairwise (Apart directory) := by
  obtain ⟨hlength, hall⟩ := Entries.of_planUploads h
  have hitems : items = (sources.zip items).map Prod.snd := (List.map_snd_zip hlength.le).symm
  have hfilter : items.filter (·.Uploaded) =
      ((sources.zip items).filter (·.2.Uploaded)).map Prod.snd := by
    conv_lhs => rw [hitems, List.filter_map]
    rfl
  rw [hfilter, List.pairwise_map]
  refine List.Pairwise.iff_of_mem fun {x y} hx hy => ?_
  obtain ⟨hx, hskip⟩ := List.mem_filter.1 hx
  obtain ⟨hy, hskip'⟩ := List.mem_filter.1 hy
  exact Entries.destination_ne_iff (hall x hx) (hall y hy) (of_decide_eq_true hskip)
    (of_decide_eq_true hskip')

/-! ## Downloads -/

namespace Entries

variable {entries : Entries} {policy : ConflictPolicy}

/-- The name of the first copy that is free in the local directory. -/
def freeCopy (entries : Entries) (name : String) : Option String :=
  (keepBothNumbers.find? fun number => !entries.localExists (keepBothName name number)).map
    (keepBothName name)

/-- The name that a file is downloaded under: its own name, or that of the first copy that is free
    if there is such a file and both are to be kept. -/
def downloadName (entries : Entries) (policy : ConflictPolicy) (name : String) : Option String :=
  match entries.localIdentity name, policy with
  | .error _, _ => none
  | .ok none, _ => some name
  | .ok (some _), .skip => none
  | .ok (some _), .replace => some name
  | .ok (some _), .keepBoth => entries.freeCopy name

/-- The names of remote files. -/
def remoteNames (entries : Entries) (paths : List String) : List String :=
  paths.filterMap fun path => (entries.stat path).toOption.map RemoteEntry.name

theorem keepBothLocal_eq_ok {name candidate : String}
    (h : entries.keepBothLocal name numbers = .ok candidate) :
    (numbers.find? fun number => !entries.localExists (keepBothName name number)).map
      (keepBothName name) = some candidate := by
  induction numbers with
  | nil => nomatch h
  | cons number numbers ih =>
    rw [keepBothLocal] at h
    rw [List.find?_cons]
    split_ifs at h with htaken
    · rw [htaken]
      exact ih h
    · rw [Bool.not_eq_true] at htaken
      rw [htaken, ← Except.ok.inj h]
      rfl

theorem downloadName_eq {name fileName : String} {action : DestinationAction LocalIdentity}
    (h : entries.planDownloadDestination name policy = .ok (fileName, action)) :
    entries.downloadName policy name = if action = .skip then none else some fileName := by
  rw [planDownloadDestination] at h
  unfold downloadName
  have hcopy : ∀ candidate, entries.keepBothLocal name keepBothNumbers = .ok candidate →
    entries.freeCopy name = some candidate := fun _ h => keepBothLocal_eq_ok h
  generalize keepBothNumbers = numbers at h hcopy
  obtain ⟨existing, hexisting, h⟩ := of_bind_eq_ok h
  rw [hexisting]
  cases existing with
  | none =>
    obtain ⟨⟩ := h
    rfl
  | some identity =>
    cases policy with
    | skip =>
      obtain ⟨⟩ := h
      rfl
    | replace =>
      obtain ⟨⟩ := h
      rfl
    | keepBoth =>
      obtain ⟨candidate, hcandidate, h⟩ := of_bind_eq_ok h
      obtain ⟨⟩ := h
      exact hcopy _ hcandidate

end Entries

/-- The file is downloaded. -/
def PlannedDownload.Downloaded (item : PlannedDownload) : Bool := decide (item.action ≠ .skip)

/-- The names of a plan are those that the sources get one by one. -/
theorem downloads_fileNames {entries : Entries} {directory : LocalDirectory} {paths : List String}
    {items : List PlannedDownload}
    (h : entries.planDownloads directory policy paths = .ok items) :
    (items.filter (·.Downloaded)).map (·.fileName) =
      (entries.remoteNames paths).filterMap (entries.downloadName policy) := by
  induction paths generalizing items with
  | nil =>
    obtain ⟨⟩ := h
    rfl
  | cons path paths ih =>
    obtain ⟨entry, hentry, h⟩ := of_bind_eq_ok h
    obtain ⟨-, -, h⟩ := of_bind_eq_ok h
    obtain ⟨-, -, h⟩ := of_bind_eq_ok h
    obtain ⟨-, -, h⟩ := of_bind_eq_ok h
    obtain ⟨⟨fileName, action⟩, hname, h⟩ := of_bind_eq_ok h
    obtain ⟨identity, -, h⟩ := of_bind_eq_ok h
    cases identity with
    | none => nomatch h
    | some identity =>
      obtain ⟨planned, hplanned, h⟩ := of_bind_eq_ok h
      obtain ⟨⟩ := h
      have hnames : entries.remoteNames (path :: paths) = entry.name :: entries.remoteNames paths := by
        rw [Entries.remoteNames, List.filterMap_cons, hentry]
        rfl
      rw [hnames, List.filterMap_cons, Entries.downloadName_eq hname, ← ih hplanned,
        List.filter_cons]
      by_cases hskip : action = .skip
      · rw [if_pos hskip, if_neg (by simp [PlannedDownload.Downloaded, hskip])]
      · rw [if_neg hskip, if_pos (by simp [PlannedDownload.Downloaded, hskip])]
        rfl

/-- A session with a server that can create links. -/
def linkClient : SftpClient :=
  ⟨⟨⟨1⟩, ⟨1⟩, ⟨1⟩⟩, [("hardlink@openssh.com", "1")], 32768, 32768⟩

/-- The given remote files, and the given files of the local directory. -/
def files (remote localNames : List String) : Entries where
  identity path := .ok (if path ∈ remote then some ⟨.file, none, none⟩ else none)
  stat path := .ok ⟨String.ofList (((rsplitOnceSlash path.toList).map Prod.snd).getD []), path, .file⟩
  selected _ := .ok ()
  directory := .ok ()
  localIdentity name := .ok (if name ∈ localNames then some ⟨0, none, ⟨0, 1⟩⟩ else none)
  localExists name := decide (name ∈ localNames)

end NexusOps.Sftp
