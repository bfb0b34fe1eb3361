import NexusOps.Concurrency.Trace
import NexusOps.Sftp.Client

/-!
# Entries of a directory

The entries that a listing shows, and the entry that is asked for by its path (`client.rs`).

* `joinRemote_of_list`: the path of an entry in a listing is that of a child of the directory;
* `stat_child_iff`: an entry that is asked for by this path has the same name and the same path,
  unless the directory is the root, whose children lose their slash.
-/

namespace NexusOps.Sftp

open Concurrency Concurrency.Proc Concurrency.Fallible Concurrency.Async

variable {parent name path : String} {attrs : FileAttributes} {entry : RemoteEntry}

theorem remoteEntry_eq_ok (hparent : parent.toList ≠ []) :
    remoteEntry parent name attrs = .ok entry ↔ entry.name = name ∧
      joinRemote parent name = .ok entry.path ∧ entry.kind = (identityOf attrs).kind := by
  have hempty : parent.isEmpty = false := by
    rw [Bool.eq_false_iff, ne_eq, String.isEmpty_iff]
    rintro rfl
    exact hparent String.toList_empty
  rw [remoteEntry, hempty]
  change (validateChildName name >>= fun _ => joinRemote parent name >>= fun path => _) = _ ↔ _
  constructor
  · intro h
    obtain ⟨-, -, h⟩ := of_bind_eq_ok h
    obtain ⟨path, hpath, h⟩ := of_bind_eq_ok h
    obtain ⟨⟩ := h
    exact ⟨rfl, hpath, rfl⟩
  · rintro ⟨rfl, hpath, hkind⟩
    rw [validateChildName_eq_ok.2 (joinRemote_eq_ok.1 hpath).2.1]
    change (joinRemote parent entry.name >>= fun path => _) = _
    rw [hpath, ← hkind]
    rfl

/-- The entry of a path without a directory. -/
theorem remoteEntry_empty (hname : ChildName name) :
    remoteEntry (String.ofList []) name attrs = .ok ⟨name, name, (identityOf attrs).kind⟩ := by
  rw [remoteEntry, validateChildName_eq_ok.2 hname]
  rfl

/-! ## Listings -/

/-- The entries have the paths of children. -/
def Children (path : String) (entries : List RemoteEntry) : Prop :=
  ∀ entry ∈ entries, joinRemote path entry.name = .ok entry.path

theorem Children.listBatch {entries entries' : List RemoteEntry} {isPartial : Bool}
    (hpath : path.toList ≠ []) {files : List (String × FileAttributes)}
    (hentries : Children path entries)
    (h : SftpClient.listBatch path entries files = .ok (entries', isPartial)) :
    Children path entries' := by
  induction files generalizing entries with
  | nil =>
    obtain ⟨⟩ := Except.ok.inj h
    exact hentries
  | cons file files ih =>
    rw [SftpClient.listBatch] at h
    split_ifs at h with hdots hcap
    · exact ih hentries h
    · obtain ⟨-, -, h⟩ := of_bind_eq_ok h
      obtain ⟨⟩ := Except.ok.inj h
      exact hentries
    · obtain ⟨-, -, h⟩ := of_bind_eq_ok h
      obtain ⟨entry, hentry, h⟩ := of_bind_eq_ok h
      refine ih (fun other hother => ?_) h
      rcases mem_snoc.1 hother with hother | rfl
      · exact hentries other hother
      · obtain ⟨hname, hchild, -⟩ := (remoteEntry_eq_ok hpath).1 hentry
        rwa [hname]

namespace SftpClient

variable {σ ι : Type} [HasSftp σ ι] {i : ι} {client : SftpClient} {cancelled : σ → Bool}
  {ts : List (σ × σ)}

theorem children_of_readDirectory {handle : String} {entries : List RemoteEntry}
    {r : List RemoteEntry ⊕ List RemoteEntry × Bool} (hpath : path.toList ≠ [])
    (hentries : Children path entries)
    (h : Returns (readDirectory i path handle cancelled entries).run ts (.ok r)) :
    Children path (r.elim id Prod.fst) := by
  obtain ⟨reply, _, _, _, _, h⟩ := returns_andThen_ok.1 h
  split at h
  · obtain ⟨⟨entries', isPartial⟩, _, _, _, hbatch, h⟩ := returns_andThen_ok.1 h
    obtain ⟨-, hr⟩ := returns_pure'.1 h
    obtain ⟨⟩ := hr
    have hchildren := hentries.listBatch hpath (returns_ofExcept_ok.1 hbatch).2
    cases isPartial with
    | true => exact hchildren
    | false => exact hchildren
  · obtain ⟨-, hr⟩ := returns_pure'.1 h
    obtain ⟨⟩ := hr
    exact hentries
  · nomatch (returns_throw.1 h).2

/-- The paths in a listing. -/
theorem joinRemote_of_list {listing : DirectoryListing}
    (h : Returns (list i client path cancelled).run ts (.ok listing))
    (hentry : entry ∈ listing.entries) : joinRemote path entry.name = .ok entry.path := by
  obtain ⟨⟨⟩, _, _, _, hvalid, h⟩ := returns_andThen_ok.1 h
  have hpath := (validateRemotePath_eq_ok.1 (returns_ofExcept_ok.1 hvalid).2).1
  obtain ⟨opened, _, _, _, _, h⟩ := returns_andThen_ok.1 h
  obtain ⟨handle, _, _, _, _, h⟩ := returns_andThen_ok.1 h
  obtain ⟨result, _, _, _, hloop, h⟩ := returns_andThen_ok.1 h
  obtain ⟨close, _, _, _, _, h⟩ := returns_andThen_ok.1 h
  obtain ⟨⟨entries, isPartial⟩, _, _, _, hresult, h⟩ := returns_andThen_ok.1 h
  obtain ⟨⟨⟩, _, _, _, _, h⟩ := returns_andThen_ok.1 h
  obtain ⟨⟩ := (returns_pure'.1 h).2
  obtain rfl := (returns_ofExcept_ok.1 hresult).2
  -- What has been listed so far are children, before and after each batch.
  obtain ⟨entries', _, _, _, hentries, hlast⟩ := of_returns_loop
    (fun entries _ => Children path entries) (fun _ hnone => absurd hnone List.not_mem_nil)
    (fun _ _ _ _ hentries h => children_of_readDirectory hpath hentries h)
    (returns_attempt_ok.1 hloop)
  exact children_of_readDirectory hpath hentries hlast entry hentry

/-! ## Entries by their paths -/

/-- The entry of a child has what the server has answered as its attributes. -/
theorem returns_stat_child {parent name path : String} (hjoin : joinRemote parent name = .ok path)
    {r : Except (Exit AppError) RemoteEntry} : Returns (stat i path : Async σ _ _).run ts r ↔
      (∃ e, r = .error e ∧ Returns (lstat i path : Async σ _ _).run ts (.error e)) ∨
      ∃ attrs, Returns (lstat i path : Async σ _ _).run ts (.ok attrs) ∧ r = (remoteEntry
        (String.ofList (trimEndSlashes parent.toList)) name attrs).mapError .error := by
  obtain ⟨-, hname, hvalid, hpath⟩ := joinRemote_eq_ok.1 hjoin
  have hstat : (stat i path : Async σ _ _) = (lstat i path >>= fun attrs => .ofExcept
      (remoteEntry (String.ofList (trimEndSlashes parent.toList)) name attrs)) := by
    rw [stat, hvalid, hpath, trimEndSlashes_append hname.slash hname.ne_nil]
    simp only [rsplitOnceSlash_append hname.slash, String.ofList_toList]
    rfl
  rw [hstat]
  refine returns_andThen.trans ⟨?_, ?_⟩
  · rintro (⟨e, rfl, h⟩ | ⟨attrs, ts₁, ts₂, rfl, hattrs, h⟩)
    · exact .inl ⟨e, rfl, h⟩
    · obtain ⟨rfl, rfl⟩ := returns_ofExcept.1 h
      rw [List.append_nil]
      exact .inr ⟨attrs, hattrs, rfl⟩
  · rintro (⟨e, rfl, h⟩ | ⟨attrs, hattrs, rfl⟩)
    · exact .inl ⟨e, rfl, h⟩
    · exact .inr ⟨attrs, ts, [], (List.append_nil ts).symm, hattrs, returns_ofExcept.2 ⟨rfl, rfl⟩⟩

/-- The server may answer anything. -/
theorem can_lstat [Nonempty σ] (path : String) (attrs : FileAttributes) :
    Can (lstat i path : Async σ _ _) attrs := by
  obtain ⟨s⟩ := ‹Nonempty σ›
  let a : Answer := ⟨.packet (.attrs attrs), true, nofun, nofun⟩
  refine Can.bind (a := a.reply) ?_ (can_ofExcept rfl)
  exact (can_modify s).bind (((can_ask (some a)).bind can_pure).bind ((can_modify s).bind can_pure))

variable (i client cancelled) in
/-- The entry of a child has the path that the listing of its directory shows, unless it is a
    child of the root. -/
theorem stat_child_iff [Nonempty σ] {d n p : String} (hp : joinRemote d n = .ok p) :
    ((∀ ts r, Returns (stat i p : Async σ _ _).run ts r →
        (∃ e, r = .error e ∧ Returns (lstat i p : Async σ _ _).run ts (.error e)) ∨
          ∃ entry, r = .ok entry ∧ entry.name = n ∧ entry.path = p) ∧
      ∀ ts listing, Returns (list i client d cancelled).run ts (.ok listing) →
        ∀ entry ∈ listing.entries, entry.name = n → entry.path = p) ↔
    ∃ c ∈ d.toList, c ≠ '/' := by
  have htrimmed : trimEndSlashes d.toList ≠ [] ↔ ∃ c ∈ d.toList, c ≠ '/' := by
    rw [ne_eq, trimEndSlashes, List.rdropWhile_eq_nil_iff]
    simp
  obtain ⟨-, hname, -, hpath⟩ := joinRemote_eq_ok.1 hp
  rw [← htrimmed]
  constructor
  · rintro ⟨hstat, -⟩ hroot
    -- The path of the entry is its name.
    obtain ⟨ts, hts⟩ : Can (lstat i p : Async σ _ _) _ :=
      can_lstat p ⟨none, none, none, none, none, .file⟩
    rcases hstat ts _ ((returns_stat_child hp).2 (.inr ⟨_, hts, rfl⟩)) with
      ⟨e, he, -⟩ | ⟨entry, hentry, -, hsame⟩
    · rw [hroot, remoteEntry_empty hname] at he
      cases he
    · rw [hroot, remoteEntry_empty hname] at hentry
      obtain ⟨⟩ := hentry
      rw [hroot, ← hsame] at hpath
      exact absurd (congrArg List.length hpath) (by simp)
  · refine fun hdir => ⟨fun ts r h => ?_, fun ts listing h entry hentry hsame => ?_⟩
    · refine ((returns_stat_child hp).1 h).imp_right ?_
      rintro ⟨attrs, -, rfl⟩
      have hentry : remoteEntry (String.ofList (trimEndSlashes d.toList)) n attrs =
          .ok ⟨n, p, (identityOf attrs).kind⟩ :=
        (remoteEntry_eq_ok (by rwa [String.toList_ofList])).2
          ⟨rfl, joinRemote_trimEndSlashes hp hdir, rfl⟩
      refine ⟨⟨n, p, (identityOf attrs).kind⟩, ?_, rfl, rfl⟩
      rw [hentry]
      rfl
    · have hchild := joinRemote_of_list h hentry
      rw [hsame, hp] at hchild
      exact (Except.ok.inj hchild).symm

/-- A child of the root loses its slash. -/
theorem stat_child_root :
    joinRemote (String.ofList ['/']) (String.ofList ['a']) = .ok (String.ofList ['/', 'a']) ∧
    Can (stat () (String.ofList ['/', 'a']) : Async (List (SftpEvent Unit)) _ _)
      ⟨String.ofList ['a'], String.ofList ['a'], .unknown⟩ := by
  have hjoin : joinRemote (String.ofList ['/']) (String.ofList ['a']) =
      .ok (String.ofList ['/', 'a']) := by decide
  obtain ⟨ts, hts⟩ : Can
      (lstat () (String.ofList ['/', 'a']) : Async (List (SftpEvent Unit)) _ _) _ :=
    can_lstat _ ⟨none, none, none, none, none, .file⟩
  exact ⟨hjoin, ts, (returns_stat_child hjoin).2 (.inr ⟨_, hts, rfl⟩)⟩

theorem stat_child_directory :
    joinRemote (String.ofList ['/', 'x']) (String.ofList ['a']) =
      .ok (String.ofList ['/', 'x', '/', 'a']) ∧
    ∀ ts r, Returns (stat () (String.ofList ['/', 'x', '/', 'a']) :
        Async (List (SftpEvent Unit)) _ _).run ts r →
      (∃ e, r = .error e ∧ Returns (lstat () (String.ofList ['/', 'x', '/', 'a']) :
        Async (List (SftpEvent Unit)) _ _).run ts (.error e)) ∨
      ∃ entry, r = .ok entry ∧ entry.name = String.ofList ['a'] ∧
        entry.path = String.ofList ['/', 'x', '/', 'a'] := by
  have hjoin : joinRemote (String.ofList ['/', 'x']) (String.ofList ['a']) =
      .ok (String.ofList ['/', 'x', '/', 'a']) := by decide
  let client : SftpClient := ⟨⟨⟨0⟩, ⟨0⟩, ⟨0⟩⟩, [], 0, 0⟩
  have hiff := stat_child_iff () client (fun _ : List (SftpEvent Unit) => false) hjoin
  exact ⟨hjoin, (hiff.2 ⟨'x', by decide, by decide⟩).1⟩

end SftpClient

end NexusOps.Sftp
