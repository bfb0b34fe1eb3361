import NexusOps.Sftp.Stream
import NexusOps.Sftp.Transfer

/-!
# Streaming

The loops of downloads, of uploads and of reads into the editor keep the offset and what has been
moved in step, whatever the lengths of the pieces.

* `SftpClient.streaming_exact`: a download, an upload or a read into the editor that succeeds has
  moved exactly the contents of the file, at contiguous offsets from 0, and its loop ends; and the
  editor never asks for more than one byte above its limit.

The reader of an upload can be any that reads a file in pieces (`LocalReader`): a local file, or
the text of the editor.
-/

namespace NexusOps.Sftp

open Concurrency Protocol Proc Fallible Async SftpEvent
open SftpLog (events events_record)

variable {σ ι α : Type} [HasSftp σ ι] [SftpLog σ ι] {ts ts' : List (σ × σ)} {i : ι}

/-! ## Downloads -/

variable {n : Nat}

namespace SftpClient

variable {client : SftpClient} {cancelled : σ → Bool} {progress : Nat → Proc σ Unit}
  {handle : String} {files : String → List UInt8}

theorem of_returns_writeLocal {data : List UInt8} {u : Unit}
    (h : Returns (writeLocal i data : Async σ AppError Unit).run ts (.ok u)) :
    observed ts = [.wrote i data] := by
  obtain ⟨ok, ts₁, ts₂, rfl, h₁, h₂⟩ := returns_andThen_ok.1 h
  obtain rfl := of_returns_awaitOrDrop h₁
  cases ok with
  | true =>
    obtain ⟨_, -, h₂⟩ := returns_lift.1 h₂
    exact of_returns_note h₂
  | false => nomatch (returns_throw.1 h₂).2

omit [HasSftp σ ι] [SftpLog σ ι] in
theorem of_checkedAdd {a b c : Nat} (h : checkedAdd a b = .ok c) : c = a + b := by
  unfold checkedAdd at h
  split_ifs at h
  · exact (Except.ok.inj h).symm

/-- A round of a download: bytes are read and written to the local file, or there are no more. -/
theorem of_returns_downloadChunk (hprogress : ∀ n, Callback (progress n)) {confirmed : Nat}
    {r : Nat ⊕ Nat}
    (h : Returns (downloadChunk i client cancelled progress handle confirmed).run ts (.ok r)) :
    ∃ a : Answer,
      (∃ data, data ≠ [] ∧ a.reply = .packet (.data data) ∧ r = .inl (confirmed + data.length) ∧
        observed ts = [.request i (.read handle confirmed client.readChunk),
          .answered i (.read handle confirmed client.readChunk) a, .wrote i data]) ∨
      (a.reply.Ends ∧ r = .inr confirmed ∧
        observed ts = [.request i (.read handle confirmed client.readChunk),
          .answered i (.read handle confirmed client.readChunk) a]) := by
  obtain ⟨reply, ts₁, ts₂, rfl, h₁, h₂⟩ := returns_andThen_ok.1 h
  obtain ⟨a, rfl, hobserved⟩ := of_returns_requestUnless h₁
  refine ⟨a, ?_⟩
  rw [observed_append, hobserved]
  split at h₂
  · next heq =>
    obtain ⟨rfl, hr⟩ := returns_pure'.1 h₂
    exact .inr ⟨.inl (Reply.of_intoData_ok heq), Except.ok.inj hr, rfl⟩
  · next data hne heq =>
    obtain ⟨_, ts₂, ts₃, rfl, hwrite, h₃⟩ := returns_andThen_ok.1 h₂
    obtain ⟨_, hadd, h₄⟩ := of_returns_ofExceptThen h₃
    obtain rfl := of_checkedAdd hadd
    obtain ⟨_, ts₄, ts₅, rfl, hnote, h₅⟩ := returns_andThen_ok.1 h₄
    obtain ⟨_, -, hnote⟩ := returns_lift.1 hnote
    obtain ⟨rfl, hr⟩ := returns_pure'.1 h₅
    refine .inl ⟨data, hne, Reply.of_intoData_ok heq, Except.ok.inj hr, ?_⟩
    rw [observed_append, of_returns_writeLocal hwrite, List.append_nil, (hprogress _).silent hnote]
    rfl
  · next heq =>
    obtain ⟨rfl, hr⟩ := returns_pure'.1 h₂
    exact .inr ⟨.inr (Reply.of_intoData_status heq), Except.ok.inj hr, rfl⟩
  · nomatch (returns_throw.1 h₂).2

variable {count : Nat}

/-- What has been downloaded before a round, if the server is honest. -/
theorem download_loop (hprogress : ∀ n, Callback (progress n))
    (h : Returns (Fallible.loop (downloadChunk i client cancelled progress handle) 0).run ts
      (.ok count)) (hhonest : ∀ e ∈ observed ts, e.Honest files) :
    written (observed ts) = files handle ∧ count = (files handle).length ∧
      Streamed (files handle) count (observed ts) := by
  let I (confirmed : Nat) (ts : List (σ × σ)) : Prop :=
    (∀ e ∈ observed ts, e.Honest files) → Streamed (files handle) confirmed (observed ts) ∧
      written (observed ts) = (files handle).take confirmed
  have hnext : ∀ confirmed confirmed' ts ts', I confirmed ts →
      Returns (downloadChunk i client cancelled progress handle confirmed).run ts'
        (.ok (.inl confirmed')) → I confirmed' (ts ++ ts') := by
    intro confirmed confirmed' ts ts' hI h hhonest
    obtain ⟨a, ⟨data, -, ha, hr, hobserved⟩ | ⟨-, hr, -⟩⟩ := of_returns_downloadChunk hprogress h
    · obtain ⟨⟩ := hr
      rw [observed_append, hobserved] at hhonest ⊢
      rw [List.forall_mem_append] at hhonest
      obtain ⟨hstreamed, hwritten⟩ := hI hhonest.1
      have hpiece := (hhonest.2 _ (List.mem_cons_of_mem _ List.mem_cons_self)).1 data ha
      constructor
      · have hread := hstreamed.read i handle ha hpiece
        have happend : Streamed _ _ (_ ++ [wrote i data]) := hread.append ⟨nofun, trivial⟩ rfl
        rwa [List.append_assoc] at happend
      · rw [written_append, hwritten, ← hpiece.take_append]
        simp [written, localBytes]
    · cases hr
  obtain ⟨confirmed, ts₁, ts₂, rfl, hI, h₂⟩ :=
    of_returns_loop I (fun _ => ⟨.nil, rfl⟩) hnext h
  rw [observed_append] at hhonest ⊢
  rw [List.forall_mem_append] at hhonest
  obtain ⟨hstreamed, hwritten⟩ := hI hhonest.1
  obtain ⟨a, ⟨_, -, -, hr, -⟩ | ⟨hends, hr, hobserved⟩⟩ := of_returns_downloadChunk hprogress h₂
  · cases hr
  · obtain ⟨⟩ := hr
    rw [hobserved] at hhonest ⊢
    have hend := (hhonest.2 _ (List.mem_cons_of_mem _ List.mem_cons_self)).of_ends hends
    have hcount := hstreamed.offset_eq hend
    refine ⟨?_, hcount, hstreamed.ends i handle hends⟩
    rw [written_append, hwritten, List.take_of_length_le hend]
    simp [written, localBytes]

variable {path : String}

/-- Nothing is read or written while a file is opened. -/
theorem of_returns_openRead
    (h : Returns (openRead i path : Async σ AppError String).run ts (.ok handle)) :
    ∃ a : Answer, a.reply = .packet (.handle handle) ∧
      observed ts = [.request i (.openRead path), .answered i (.openRead path) a] := by
  obtain ⟨reply, ts₁, ts₂, rfl, h₁, h₂⟩ := returns_andThen_ok.1 h
  obtain ⟨a, rfl, hobserved⟩ := of_returns_request h₁
  obtain ⟨rfl, hhandle⟩ := returns_ofExcept_ok.1 h₂
  refine ⟨a, Reply.of_intoHandle_ok ?_, by rwa [List.append_nil]⟩
  cases hreply : a.reply.intoHandle with
  | ok handle' =>
    rw [hreply] at hhandle
    rw [Except.ok.inj hhandle]
  | error e =>
    rw [hreply] at hhandle
    nomatch hhandle

/-- The file was opened for reading, with this handle. -/
def Opened (i : ι) (path handle : String) (es : List (SftpEvent ι)) : Prop :=
  ∃ a : Answer, a.reply = .packet (.handle handle) ∧ .answered i (.openRead path) a ∈ es

/-- A download that succeeds has written the contents of the file. -/
theorem of_returns_download (hprogress : ∀ n, Callback (progress n)) {remote : String}
    (h : Returns (download i client remote cancelled progress).run ts (.ok count))
    (hhonest : ∀ e ∈ observed ts, e.Honest files) :
    ∃ handle, Opened i remote handle (observed ts) ∧ written (observed ts) = files handle ∧
      count = (files handle).length ∧ Streamed (files handle) count (observed ts) := by
  obtain ⟨-, -, h⟩ := of_returns_ofExceptThen h
  obtain ⟨entry, ts₁, ts₂, rfl, hstat, h⟩ := returns_andThen_ok.1 h
  obtain ⟨-, h⟩ := of_returns_ensureThen h
  obtain ⟨handle, ts₃, ts₄, rfl, hopen, h⟩ := returns_andThen_ok.1 h
  obtain ⟨result, ts₄, ts₅, rfl, hloop, h⟩ := returns_andThen_ok.1 h
  obtain ⟨close, ts₅, ts₆, rfl, hclose, h⟩ := returns_andThen_ok.1 h
  obtain ⟨bytes, rfl, hk₁⟩ := of_returns_ofExceptThen h
  obtain ⟨-, -, hk₂⟩ := of_returns_ofExceptThen hk₁
  obtain ⟨flushed, ts₆, ts₇, rfl, hflush, hk₃⟩ := returns_andThen_ok.1 hk₂
  obtain rfl := of_returns_awaitOrDrop hflush
  have hcount : ts₇ = [] ∧ count = bytes := by
    cases flushed with
    | true => exact (returns_pure'.1 hk₃).imp_right Except.ok.inj
    | false => nomatch (returns_throw.1 hk₃).2
  obtain ⟨rfl, rfl⟩ := hcount
  obtain ⟨a, hhandle, hopened⟩ := of_returns_openRead hopen
  have hbefore : ∀ e ∈ observed (ts₁ ++ ts₃), e.plain := by
    rw [observed_append, hopened, List.forall_mem_append]
    exact ⟨forall_observed (hstat.within (logs_stat (P := fun e => e.plain) fun _ h => h)),
      by simp [plain]⟩
  have hafter : ∀ e ∈ observed ts₅, e.plain :=
    forall_observed (hclose.within (logs_closeHandle (P := fun e => e.plain) fun _ h => h).attempt)
  have hts : observed (ts₁ ++ (ts₃ ++ (ts₄ ++ (ts₅ ++ ([] ++ []))))) =
      observed (ts₁ ++ ts₃) ++ (observed ts₄ ++ observed ts₅) := by
    simp [observed_append]
  rw [hts] at hhonest ⊢
  simp only [List.forall_mem_append] at hhonest
  obtain ⟨hwritten, hcount, hstreamed⟩ :=
    download_loop hprogress (returns_attempt_ok.1 hloop) hhonest.2.1
  refine ⟨handle, ⟨a, hhandle, ?_⟩, ?_, hcount, hstreamed.surround hbefore hafter⟩
  · simp [observed_append, hopened]
  · rw [written_append, written_append, written_of_plain hbefore, written_of_plain hafter, hwritten]
    simp

/-! ## Reads into the editor -/

/-- The request for the next bytes of the editor. -/
def editorRequest (client : SftpClient) (handle : String) (bytes : List UInt8) : SftpRequest :=
  .read handle bytes.length (min client.readChunk (MAX_REMOTE_EDITOR_BYTES + 1 - bytes.length))

variable {bytes : List UInt8}

/-- A round of a read into the editor: bytes are read, or there are no more, or too many. -/
theorem of_returns_readEditorChunk {r : List UInt8 ⊕ List UInt8}
    (h : Returns (readEditorChunk i client handle bytes).run ts (.ok r)) :
    (MAX_REMOTE_EDITOR_BYTES < bytes.length ∧ r = .inr bytes ∧ observed ts = []) ∨
    ∃ a : Answer, observed ts = [.request i (editorRequest client handle bytes),
        .answered i (editorRequest client handle bytes) a] ∧
      ((∃ data, data ≠ [] ∧ a.reply = .packet (.data data) ∧ r = .inl (bytes ++ data)) ∨
        (a.reply.Ends ∧ r = .inr bytes)) := by
  unfold readEditorChunk at h
  split_ifs at h with hlimit
  · obtain ⟨rfl, hr⟩ := returns_pure'.1 h
    exact .inl ⟨hlimit, Except.ok.inj hr, rfl⟩
  obtain ⟨reply, ts₁, ts₂, rfl, h₁, h₂⟩ := returns_andThen_ok.1 h
  obtain ⟨a, rfl, hobserved⟩ := of_returns_request h₁
  refine .inr ⟨a, ?_⟩
  rw [observed_append, hobserved]
  split at h₂
  · next heq =>
    obtain ⟨rfl, hr⟩ := returns_pure'.1 h₂
    exact ⟨rfl, .inr ⟨.inl (Reply.of_intoData_ok heq), Except.ok.inj hr⟩⟩
  · next data hne heq =>
    obtain ⟨-, h₃⟩ := of_returns_ensureThen h₂
    obtain ⟨rfl, hr⟩ := returns_pure'.1 h₃
    exact ⟨rfl, .inl ⟨data, hne, Reply.of_intoData_ok heq, Except.ok.inj hr⟩⟩
  · next heq =>
    obtain ⟨rfl, hr⟩ := returns_pure'.1 h₂
    exact ⟨rfl, .inr ⟨.inr (Reply.of_intoData_status heq), Except.ok.inj hr⟩⟩
  · nomatch (returns_throw.1 h₂).2

/-- What has been read before a round, if the server is honest. -/
theorem readEditor_loop
    (h : Returns (Fallible.loop (readEditorChunk i client handle) []).run ts (.ok bytes))
    (hhonest : ∀ e ∈ observed ts, e.Honest files) (hbytes : bytes.length ≤ MAX_REMOTE_EDITOR_BYTES) :
    bytes = files handle ∧ Streamed (files handle) bytes.length (observed ts) := by
  let I (bytes : List UInt8) (ts : List (σ × σ)) : Prop :=
    (∀ e ∈ observed ts, e.Honest files) →
      Streamed (files handle) bytes.length (observed ts) ∧ bytes = (files handle).take bytes.length
  have hnext : ∀ bytes bytes' ts ts', I bytes ts →
      Returns (readEditorChunk i client handle bytes).run ts' (.ok (.inl bytes')) →
      I bytes' (ts ++ ts') := by
    intro bytes bytes' ts ts' hI h hhonest
    rcases of_returns_readEditorChunk h with
      ⟨-, hr, -⟩ | ⟨a, hobserved, ⟨data, -, ha, hr⟩ | ⟨-, hr⟩⟩
    · nomatch hr
    · obtain ⟨⟩ := hr
      rw [observed_append, hobserved] at hhonest ⊢
      rw [List.forall_mem_append] at hhonest
      obtain ⟨hstreamed, heq⟩ := hI hhonest.1
      have hpiece := (hhonest.2 _ (List.mem_cons_of_mem _ List.mem_cons_self)).1 data ha
      rw [List.length_append]
      refine ⟨hstreamed.read i handle ha hpiece, ?_⟩
      rw [← hpiece.take_append, ← heq]
    · nomatch hr
  obtain ⟨bytes', ts₁, ts₂, rfl, hI, h₂⟩ := of_returns_loop I (fun _ => ⟨.nil, rfl⟩) hnext h
  rw [observed_append] at hhonest ⊢
  rw [List.forall_mem_append] at hhonest
  obtain ⟨hstreamed, heq⟩ := hI hhonest.1
  rcases of_returns_readEditorChunk h₂ with
    ⟨hlimit, hr, -⟩ | ⟨a, hobserved, ⟨data, -, -, hr⟩ | ⟨hends, hr⟩⟩
  · obtain ⟨⟩ := hr
    exact absurd hlimit (Nat.not_lt.2 hbytes)
  · nomatch hr
  · obtain ⟨⟩ := hr
    rw [hobserved] at hhonest ⊢
    have hend := (hhonest.2 _ (List.mem_cons_of_mem _ List.mem_cons_self)).of_ends hends
    exact ⟨heq.trans (List.take_of_length_le hend), hstreamed.ends i handle hends⟩

/-- A read of an open file into the editor. -/
theorem of_returns_readEditorFile {before : EditorRevision}
    (h : Returns (readEditorFile i client before handle).run ts (.ok bytes)) :
    bytes.length ≤ MAX_REMOTE_EDITOR_BYTES ∧ ((∀ e ∈ observed ts, e.Honest files) →
      bytes = files handle ∧ Streamed (files handle) bytes.length (observed ts)) := by
  obtain ⟨_, ts₁, ts₂, rfl, hopened, h⟩ := returns_andThen_ok.1 h
  obtain ⟨-, h⟩ := of_returns_ensureThen h
  obtain ⟨bytes', ts₃, ts₄, rfl, hloop, h⟩ := returns_andThen_ok.1 h
  obtain ⟨hlength, h⟩ := of_returns_ensureThen h
  obtain ⟨_, ts₅, ts₆, rfl, hfinished, h⟩ := returns_andThen_ok.1 h
  obtain ⟨-, h⟩ := of_returns_ensureThen h
  obtain ⟨rfl, hbytes⟩ := returns_pure'.1 h
  obtain ⟨⟩ := hbytes
  refine ⟨hlength, fun hhonest => ?_⟩
  have hbefore : ∀ e ∈ observed ts₁, e.plain :=
    forall_observed (hopened.within (logs_fstat (P := fun e => e.plain) fun _ h => h))
  have hafter : ∀ e ∈ observed ts₅, e.plain :=
    forall_observed (hfinished.within (logs_fstat (P := fun e => e.plain) fun _ h => h))
  have hts : observed (ts₁ ++ (ts₃ ++ (ts₅ ++ []))) = observed ts₁ ++
      (observed ts₃ ++ observed ts₅) := by
    simp [observed_append]
  rw [hts] at hhonest ⊢
  simp only [List.forall_mem_append] at hhonest
  obtain ⟨heq, hstreamed⟩ := readEditor_loop hloop hhonest.2.1 hlength
  exact ⟨heq, hstreamed.surround hbefore hafter⟩

/-- A read into the editor that succeeds is bounded, and has read the contents of the file. -/
theorem of_returns_readEditorBytes (files : String → List UInt8)
    (h : Returns (readEditorBytes i client path).run ts (.ok bytes)) :
    bytes.length ≤ MAX_REMOTE_EDITOR_BYTES ∧ ((∀ e ∈ observed ts, e.Honest files) →
      ∃ handle, Opened i path handle (observed ts) ∧ bytes = files handle ∧
        Streamed (files handle) bytes.length (observed ts)) := by
  obtain ⟨-, -, h⟩ := of_returns_ofExceptThen h
  obtain ⟨before, ts₁, ts₂, rfl, hrevision, h⟩ := returns_andThen_ok.1 h
  obtain ⟨-, h⟩ := of_returns_ensureThen h
  obtain ⟨handle, ts₃, ts₄, rfl, hopen, h⟩ := returns_andThen_ok.1 h
  obtain ⟨result, ts₄, ts₅, rfl, hread, h⟩ := returns_andThen_ok.1 h
  obtain ⟨close, ts₅, ts₆, rfl, hclose, h⟩ := returns_andThen_ok.1 h
  obtain ⟨bytes', rfl, hk₁⟩ := of_returns_ofExceptThen h
  obtain ⟨-, -, hk₂⟩ := of_returns_ofExceptThen hk₁
  obtain ⟨rfl, hbytes'⟩ := returns_pure'.1 hk₂
  obtain ⟨⟩ := hbytes'
  have hfile : bytes.length ≤ MAX_REMOTE_EDITOR_BYTES ∧
      ((∀ e ∈ observed ts₄, e.Honest files) → _) :=
    of_returns_readEditorFile (returns_attempt_ok.1 hread)
  refine ⟨hfile.1, fun hhonest => ?_⟩
  obtain ⟨a, hhandle, hopened⟩ := of_returns_openRead hopen
  have hbefore : ∀ e ∈ observed (ts₁ ++ ts₃), e.plain := by
    rw [observed_append, hopened, List.forall_mem_append]
    exact ⟨forall_observed (hrevision.within (logs_editorRevision (P := fun e => e.plain)
      fun _ h => h)), by simp [plain]⟩
  have hafter : ∀ e ∈ observed ts₅, e.plain :=
    forall_observed (hclose.within (logs_closeHandle (P := fun e => e.plain) fun _ h => h).attempt)
  have hts : observed (ts₁ ++ (ts₃ ++ (ts₄ ++ (ts₅ ++ [])))) =
      observed (ts₁ ++ ts₃) ++ (observed ts₄ ++ observed ts₅) := by
    simp [observed_append]
  rw [hts] at hhonest ⊢
  simp only [List.forall_mem_append] at hhonest
  obtain ⟨heq, hstreamed⟩ := hfile.2 hhonest.2.1
  refine ⟨handle, ⟨a, hhandle, ?_⟩, heq, hstreamed.surround hbefore hafter⟩
  simp [observed_append, hopened]

/-- The editor stays within its limit, whatever the server does. -/
theorem logs_readEditorBytes :
    Within (Logs WithinEditor) (readEditorBytes i client path : Async σ AppError _).run := by
  have hplain : ∀ e : SftpEvent ι, e.plain → e.WithinEditor := by
    rintro (⟨_, _ | _⟩ | _ | _ | _ | _) he
    all_goals trivial
  have hchunk : ∀ handle bytes, Within (Logs WithinEditor)
      (readEditorChunk i client handle bytes : Async σ AppError _).run := by
    intro handle bytes
    unfold readEditorChunk
    split_ifs with hlimit
    · exact obeys_pure
    have hwithin : bytes.length + min client.readChunk (MAX_REMOTE_EDITOR_BYTES + 1 - bytes.length) ≤
        MAX_REMOTE_EDITOR_BYTES + 1 := by omega
    refine Obeys.andThen (logs_request hwithin (fun _ => trivial) trivial) fun reply => ?_
    split
    · exact obeys_pure
    · exact Obeys.andThen obeys_ensure fun _ => obeys_pure
    · exact obeys_pure
    · exact obeys_throw
  have hfile : ∀ before handle, Within (Logs WithinEditor)
      (readEditorFile i client before handle : Async σ AppError _).run := by
    intro before handle
    refine Obeys.andThen (logs_fstat hplain) fun _ => Obeys.andThen obeys_ensure fun _ => ?_
    refine Obeys.andThen (Obeys.loop (hchunk handle)) fun _ => ?_
    refine Obeys.andThen obeys_ensure fun _ => Obeys.andThen (logs_fstat hplain) fun _ => ?_
    exact Obeys.andThen obeys_ensure fun _ => obeys_pure
  refine Obeys.andThen obeys_ofExcept fun _ => Obeys.andThen (logs_editorRevision hplain) fun _ => ?_
  refine Obeys.andThen obeys_ensure fun _ => Obeys.andThen (logs_openRead hplain) fun handle => ?_
  refine Obeys.andThen (hfile _ handle).attempt fun _ => ?_
  refine Obeys.andThen (logs_closeHandle hplain).attempt fun _ => ?_
  exact Obeys.andThen obeys_ofExcept fun _ => Obeys.andThen obeys_ofExcept fun _ => obeys_pure

/-! ## Uploads

The reader of an upload can be any. -/

section

variable (i client cancelled progress) (read : Nat → Nat → Async σ AppError (List UInt8))

/-- A round of an upload from any reader. -/
def uploadChunkFrom (handle : String) (confirmed : Nat) : Async σ AppError (Nat ⊕ Nat) := do
  .act fun s => if cancelled s then some (.error (.error transferCancelled), s)
    else some (.ok (), s)
  let bytes ← read confirmed client.writeChunk
  if bytes.isEmpty then
    return .inr confirmed
  else
    let reply ← request i (.write handle confirmed bytes)
    .ofExcept (statusOk reply.intoStatus)
    let confirmed ← .ofExcept (checkedAdd confirmed bytes.length)
    .lift (progress confirmed)
    return .inl confirmed

/-- The upload of a file from any reader. -/
def uploadFileFrom (handle : String) : Async σ AppError Nat := do
  let confirmed ← Fallible.loop (uploadChunkFrom i client cancelled progress read handle) 0
  if client.supports "fsync@openssh.com" "1" then
    let reply ← request i (.fsync handle)
    .ofExcept (statusOk reply.intoStatus)
  return confirmed

/-- The upload of a staging file from any reader. -/
def uploadStagedFrom (staging : String) (markOwned : Proc σ Unit) :
    Async σ AppError (Except StagedUploadFailure Nat) := do
  match validateRemotePath staging with
  | .error e => return .error (.notCreated e)
  | .ok () =>
    let reply ← request i (.openExclusive staging 0o100600)
    match reply.intoHandle with
    | .error (.status code) => return .error (.notCreated (mapStatus code))
    | .error _ => return .error (.creationOutcomeUnknown (.new .outcomeUnknown
        "The staging-file create reply was lost; ownership cannot be established."))
    | .ok handle =>
      .lift markOwned
      let result ← .attempt (uploadFileFrom i client cancelled progress read handle)
      let close ← .attempt (closeHandle i handle)
      match result, close with
      | .ok confirmed, .ok () => return .ok confirmed
      | .error e, _ => return .error (.ownedFailure e)
      | .ok _, .error e => return .error (.ownedFailure e)

omit [SftpLog σ ι] in
/-- An upload is one from its reader. -/
theorem uploadStaged_eq (reader : Reader) (staging : String) (markOwned : Proc σ Unit) :
    uploadStaged i client reader staging markOwned cancelled progress =
      uploadStagedFrom i client cancelled progress (reader.read i) staging markOwned := rfl

end

/-- The staging file was created, with this handle. -/
def Created (i : ι) (staging handle : String) (es : List (SftpEvent ι)) : Prop :=
  ∃ a : Answer, a.reply = .packet (.handle handle) ∧
    .answered i (.openExclusive staging 0o100600) a ∈ es

/-- The upload of a file is its loop, and nothing is written after that. -/
theorem of_returns_uploadFile {read : Nat → Nat → Async σ AppError (List UInt8)}
    (h : Returns (uploadFileFrom i client cancelled progress read handle).run ts (.ok count)) :
    ∃ ts₁ ts₂, ts = ts₁ ++ ts₂ ∧
      Returns (Fallible.loop (uploadChunkFrom i client cancelled progress read handle) 0).run ts₁
        (.ok count) ∧ ∀ e ∈ observed ts₂, e.plain := by
  obtain ⟨confirmed, ts₁, ts₂, rfl, hloop, hk₁⟩ := returns_andThen_ok.1 h
  dsimp only at hk₁
  split_ifs at hk₁
  · obtain ⟨reply, ts₂, ts₃, rfl, hsync, hk₂⟩ := returns_andThen_ok.1 hk₁
    obtain ⟨-, -, hk₃⟩ := of_returns_ofExceptThen hk₂
    obtain ⟨rfl, hcount⟩ := returns_pure'.1 hk₃
    obtain ⟨⟩ := hcount
    obtain ⟨a, -, hobserved⟩ := of_returns_request hsync
    refine ⟨ts₁, _, rfl, hloop, ?_⟩
    simp [hobserved, plain]
  · obtain ⟨rfl, hcount⟩ := returns_pure'.1 hk₁
    obtain ⟨⟩ := hcount
    exact ⟨ts₁, [], rfl, hloop, fun e he => absurd he List.not_mem_nil⟩

/-- The reader reads the contents of a file, in any pieces. -/
structure LocalReader (content : List UInt8)
    (read : Nat → Nat → Async σ AppError (List UInt8)) : Prop where
  piece : ∀ {offset length ts bytes}, 1 ≤ length →
    Returns (read offset length).run ts (.ok bytes) →
    Piece content offset length bytes ∧ observed ts = []
  unblocked : ∀ offset length, Unblocked (fun _ _ => True) (read offset length).run

section

variable {read : Nat → Nat → Async σ AppError (List UInt8)} {content : List UInt8}
  (hread : LocalReader content read) (hchunk : 1 ≤ client.writeChunk)
  (hprogress : ∀ n, Callback (progress n))

include hread hchunk hprogress

/-- A round of an upload: bytes are read and written to the staging file, or there are no more. -/
theorem of_returns_uploadChunk {confirmed : Nat} {r : Nat ⊕ Nat}
    (h : Returns (uploadChunkFrom i client cancelled progress read handle confirmed).run ts
      (.ok r)) :
    (content.length ≤ confirmed ∧ r = .inr confirmed ∧ observed ts = []) ∨
    ∃ bytes, ∃ a : Answer, bytes ≠ [] ∧ Piece content confirmed client.writeChunk bytes ∧
      a.reply = .packet (.status .ok) ∧ r = .inl (confirmed + bytes.length) ∧
      observed ts = [.request i (.write handle confirmed bytes),
        .answered i (.write handle confirmed bytes) a] := by
  obtain ⟨_, ts₀, ts₁, rfl, hrunning, hk₀⟩ := returns_andThen_ok.1 h
  have hrunning : observed ts₀ = [] := by
    obtain ⟨s, s', rfl, hf⟩ := returns_act'.1 hrunning
    split_ifs at hf
    · nomatch (Proc.result_inj hf).1
    · obtain ⟨⟩ := hf
      rw [observed, List.flatMap_singleton, logged_self]
  obtain ⟨bytes, ts₁, ts₂, rfl, hbytes, hk₁⟩ := returns_andThen_ok.1 hk₀
  obtain ⟨hpiece, hsilent⟩ := hread.piece hchunk hbytes
  rw [observed_append, observed_append, hrunning, hsilent]
  split_ifs at hk₁ with hempty
  · obtain ⟨rfl, hr⟩ := returns_pure'.1 hk₁
    exact .inl ⟨hpiece.of_empty (List.isEmpty_iff.1 hempty), Except.ok.inj hr, rfl⟩
  obtain ⟨reply, ts₂, ts₃, rfl, hwrite, hk₂⟩ := returns_andThen_ok.1 hk₁
  obtain ⟨a, rfl, hobserved⟩ := of_returns_request hwrite
  obtain ⟨_, hok, hk₃⟩ := of_returns_ofExceptThen hk₂
  obtain ⟨_, hadd, hk₄⟩ := of_returns_ofExceptThen hk₃
  obtain rfl := of_checkedAdd hadd
  obtain ⟨_, ts₅, ts₆, rfl, hnote, hk₅⟩ := returns_andThen_ok.1 hk₄
  obtain ⟨_, -, hnote⟩ := returns_lift.1 hnote
  obtain ⟨rfl, hr⟩ := returns_pure'.1 hk₅
  refine .inr ⟨bytes, a, mt List.isEmpty_iff.2 hempty, hpiece, confirmed_of_statusOk hok,
    Except.ok.inj hr, ?_⟩
  simp [observed_append, hobserved, (hprogress _).silent hnote]

/-- What has been uploaded. -/
theorem upload_loop
    (h : Returns (Fallible.loop (uploadChunkFrom i client cancelled progress read handle) 0).run ts
      (.ok count)) : stored handle (observed ts) = content ∧ count = content.length ∧
      Streamed content count (observed ts) := by
  let I (confirmed : Nat) (ts : List (σ × σ)) : Prop :=
    Streamed content confirmed (observed ts) ∧ stored handle (observed ts) = content.take confirmed
  have hnext : ∀ confirmed confirmed' ts ts', I confirmed ts →
      Returns (uploadChunkFrom i client cancelled progress read handle confirmed).run ts'
        (.ok (.inl confirmed')) → I confirmed' (ts ++ ts') := by
    intro confirmed confirmed' ts ts' hI h
    obtain ⟨hstreamed, hstored⟩ := hI
    rcases of_returns_uploadChunk hread hchunk hprogress h with
      ⟨-, hr, -⟩ | ⟨bytes, a, -, hpiece, ha, hr, hobserved⟩
    · nomatch hr
    obtain ⟨⟩ := hr
    have hlength : (content.take confirmed).length = confirmed :=
      List.length_take_of_le hstreamed.offset_le
    constructor
    · rw [observed_append, hobserved]
      exact hstreamed.write i handle hpiece
    · rw [observed_append, stored_append, hobserved, hstored, ← hpiece.take_append]
      simp only [List.foldl_cons, List.foldl_nil, apply, ha, and_self, if_true]
      exact store_end bytes hlength.symm
  obtain ⟨confirmed, ts₁, ts₂, rfl, ⟨hstreamed, hstored⟩, h₂⟩ :=
    of_returns_loop I ⟨.nil, rfl⟩ hnext h
  rcases of_returns_uploadChunk hread hchunk hprogress h₂ with
    ⟨hend, hr, hobserved⟩ | ⟨_, _, -, -, -, hr, -⟩
  · obtain ⟨⟩ := hr
    rw [observed_append, hobserved, List.append_nil]
    exact ⟨hstored.trans (List.take_of_length_le hend), hstreamed.offset_eq hend, hstreamed⟩
  · nomatch hr

/-- An upload that succeeds has stored the contents of the reader in the staging file, which it
    has created. -/
theorem of_returns_uploadStaged {staging : String} {markOwned : Proc σ Unit}
    (hmark : Callback markOwned)
    (h : Returns (uploadStagedFrom i client cancelled progress read staging markOwned).run ts
      (.ok (.ok count))) :
    ∃ handle, Created i staging handle (observed ts) ∧ stored handle (observed ts) = content ∧
      count = content.length ∧ Streamed content count (observed ts) := by
  unfold uploadStagedFrom at h
  split at h
  · nomatch Except.ok.inj (returns_pure'.1 h).2
  obtain ⟨reply, ts₁, ts₂, rfl, hcreate, hk₁⟩ := returns_andThen_ok.1 h
  obtain ⟨a, rfl, hobserved⟩ := of_returns_request hcreate
  split at hk₁
  · nomatch Except.ok.inj (returns_pure'.1 hk₁).2
  · nomatch Except.ok.inj (returns_pure'.1 hk₁).2
  next handle hhandle =>
  obtain ⟨_, ts₂, ts₃, rfl, hmarked, hk₂⟩ := returns_andThen_ok.1 hk₁
  obtain ⟨_, -, hmarked⟩ := returns_lift.1 hmarked
  obtain ⟨result, ts₃, ts₄, rfl, hfile, hk₃⟩ := returns_andThen_ok.1 hk₂
  obtain ⟨close, ts₄, ts₅, rfl, hclose, hk₄⟩ := returns_andThen_ok.1 hk₃
  have hresult : ts₅ = [] ∧ result = .ok count := by
    split at hk₄
    · obtain ⟨rfl, hr⟩ := returns_pure'.1 hk₄
      exact ⟨rfl, congrArg Except.ok (Except.ok.inj (Except.ok.inj hr)).symm⟩
    · nomatch Except.ok.inj (returns_pure'.1 hk₄).2
    · nomatch Except.ok.inj (returns_pure'.1 hk₄).2
  obtain ⟨rfl, rfl⟩ := hresult
  obtain ⟨ts₆, ts₇, rfl, hloop, hsync⟩ := of_returns_uploadFile (returns_attempt_ok.1 hfile)
  obtain ⟨hstored, hcount, hstreamed⟩ := upload_loop hread hchunk hprogress hloop
  have hbefore : ∀ e ∈ observed (ts₁ ++ ts₂), e.plain := by
    rw [observed_append, hobserved, hmark.silent hmarked]
    simp [plain]
  have hafter : ∀ e ∈ observed (ts₇ ++ ts₄), e.plain := by
    rw [observed_append, List.forall_mem_append]
    exact ⟨hsync, forall_observed
      (hclose.within (logs_closeHandle (P := fun e => e.plain) fun _ h => h).attempt)⟩
  have hts : observed (ts₁ ++ (ts₂ ++ (ts₆ ++ ts₇ ++ (ts₄ ++ [])))) =
      observed (ts₁ ++ ts₂) ++ (observed ts₆ ++ observed (ts₇ ++ ts₄)) := by
    simp [observed_append]
  rw [hts]
  refine ⟨handle, ⟨a, Reply.of_intoHandle_ok hhandle, ?_⟩, ?_, hcount,
    hstreamed.surround hbefore hafter⟩
  · simp [observed_append, hobserved]
  · rw [stored_append, List.foldl_append, stored, foldl_of_plain hbefore, foldl_of_plain hafter]
    exact hstored

end

/-! ## The loops end -/

section

variable {G : σ → σ → Prop}

omit [SftpLog σ ι] in
theorem unblocked_awaitOrDrop :
    Unblocked G (awaitOrDrop i α : Async σ AppError α).run :=
  unblocked_await unblocked_modify

omit [SftpLog σ ι] in
theorem unblocked_request {r : SftpRequest} :
    Unblocked G (request i r : Async σ AppError Reply).run := by
  refine unblocked_andThen (unblocked_lift unblocked_modify) fun _ _ _ _ => ?_
  refine unblocked_andThen unblocked_awaitOrDrop fun _ _ _ _ => ?_
  exact unblocked_andThen (unblocked_lift unblocked_modify) fun _ _ _ _ => unblocked_pure

omit [HasSftp σ ι] [SftpLog σ ι] in
/-- Whether it is cancelled does not block a task. -/
theorem unblocked_unless {e : AppError} {a : α} {f : σ → σ} :
    Unblocked G (Fallible.act fun s => if cancelled s then some (.error (.error e), s)
      else some (.ok a, f s) : Async σ AppError α).run := by
  refine unblocked_act fun s => ?_
  split_ifs
  · exact Option.some_ne_none _
  · exact Option.some_ne_none _

variable (hprogress : ∀ n, Callback (progress n))

include hprogress

theorem unblocked_noteProgress :
    Unblocked G (Fallible.lift (progress n) : Async σ AppError Unit).run :=
  unblocked_lift ((hprogress n).unblocked.mono fun _ _ _ => trivial)

/-- The loop of a download ends, if the server is honest. -/
theorem unblocked_download (hn : (files handle).length < n) :
    Unblocked (Logs (Honest files))
      (Fallible.iterate (downloadChunk i client cancelled progress handle) n 0).run := by
  refine unblocked_iterate (· ≤ (files handle).length)
    (fun confirmed => (files handle).length - confirmed) (fun confirmed _ => ?_)
    (fun confirmed confirmed' ts hle h hts => ?_) (Nat.zero_le _) hn
  · refine unblocked_andThen (unblocked_andThen unblocked_unless fun _ _ _ _ =>
      unblocked_andThen unblocked_awaitOrDrop fun _ _ _ _ => unblocked_unless) fun reply _ _ _ => ?_
    split
    · exact unblocked_pure
    · refine unblocked_andThen (unblocked_andThen unblocked_awaitOrDrop fun ok _ _ _ => ?_)
        fun _ _ _ _ => ?_
      · cases ok with
        | true => exact unblocked_lift unblocked_modify
        | false => exact unblocked_pure
      · refine unblocked_andThen unblocked_ofExcept fun _ _ _ _ => ?_
        exact unblocked_andThen (unblocked_noteProgress hprogress) fun _ _ _ _ => unblocked_pure
    · exact unblocked_pure
    · exact unblocked_pure
  · -- what has been read is a piece, and it is not empty
    obtain ⟨a, ⟨data, hne, ha, hr, hobserved⟩ | ⟨-, hr, -⟩⟩ := of_returns_downloadChunk hprogress h
    · obtain ⟨⟩ := hr
      have hhonest := forall_observed hts
      rw [hobserved] at hhonest
      have hpiece := (hhonest _ (List.mem_cons_of_mem _ List.mem_cons_self)).1 data ha
      have hend := hpiece.end_le hle
      have hpos := List.length_pos_of_ne_nil hne
      exact ⟨hend, by omega⟩
    · nomatch hr

/-- The loop of an upload ends. -/
theorem unblocked_upload {read : Nat → Nat → Async σ AppError (List UInt8)} {content : List UInt8}
    (hread : LocalReader content read) (hchunk : 1 ≤ client.writeChunk) (hn : content.length < n) :
    Unblocked (fun _ _ => True)
      (Fallible.iterate (uploadChunkFrom i client cancelled progress read handle) n 0).run := by
  refine unblocked_iterate (· ≤ content.length) (fun confirmed => content.length - confirmed)
    (fun confirmed _ => ?_) (fun confirmed confirmed' ts hle h _ => ?_) (Nat.zero_le _) hn
  · refine unblocked_andThen unblocked_unless fun _ _ _ _ => ?_
    refine unblocked_andThen (hread.unblocked _ _) fun bytes _ _ _ => ?_
    split_ifs
    · exact unblocked_pure
    · refine unblocked_andThen unblocked_request fun _ _ _ _ => ?_
      refine unblocked_andThen unblocked_ofExcept fun _ _ _ _ => ?_
      refine unblocked_andThen unblocked_ofExcept fun _ _ _ _ => ?_
      exact unblocked_andThen (unblocked_noteProgress hprogress) fun _ _ _ _ => unblocked_pure
  · rcases of_returns_uploadChunk hread hchunk hprogress h with
      ⟨-, hr, -⟩ | ⟨bytes, a, hne, hpiece, -, hr, -⟩
    · nomatch hr
    · obtain ⟨⟩ := hr
      have hend := hpiece.end_le hle
      have hpos := List.length_pos_of_ne_nil hne
      exact ⟨hend, by omega⟩

omit hprogress

/-- The loop of a read into the editor ends, if the server is honest. -/
theorem unblocked_readEditor (hn : (files handle).length < n) :
    Unblocked (Logs (Honest files))
      (Fallible.iterate (readEditorChunk i client handle : _ → Async σ _ _) n []).run := by
  refine unblocked_iterate (fun bytes => bytes.length ≤ (files handle).length)
    (fun bytes => (files handle).length - bytes.length) (fun bytes _ => ?_)
    (fun bytes bytes' ts hle h hts => ?_) (Nat.zero_le _) hn
  · unfold readEditorChunk
    split_ifs
    · exact unblocked_pure
    refine unblocked_andThen unblocked_request fun reply _ _ _ => ?_
    split
    · exact unblocked_pure
    · exact unblocked_andThen unblocked_ensure fun _ _ _ _ => unblocked_pure
    · exact unblocked_pure
    · exact unblocked_pure
  · rcases of_returns_readEditorChunk h with
      ⟨-, hr, -⟩ | ⟨a, hobserved, ⟨data, hne, ha, hr⟩ | ⟨-, hr⟩⟩
    · nomatch hr
    · obtain ⟨⟩ := hr
      have hhonest := forall_observed hts
      rw [hobserved] at hhonest
      have hpiece := (hhonest _ (List.mem_cons_of_mem _ List.mem_cons_self)).1 data ha
      have hend := hpiece.end_le hle
      have hpos := List.length_pos_of_ne_nil hne
      rw [List.length_append]
      exact ⟨hend, by omega⟩
    · nomatch hr

end

/-! ## Readers -/

/-- The text of the editor is read in pieces that fill the buffer. -/
theorem localReader_memory (content : List UInt8) :
    LocalReader content ((Reader.memory content).read i : _ → _ → Async σ _ _) where
  piece := by
    intro offset length ts bytes hlength h
    obtain ⟨rfl, hbytes⟩ := returns_pure'.1 h
    obtain ⟨⟩ := hbytes
    refine ⟨⟨List.length_take_le _ _, (by simp), fun hempty => ?_⟩, rfl⟩
    rcases List.take_eq_nil_iff.1 hempty with hzero | hdrop
    · omega
    · exact List.drop_eq_nil_iff.1 hdrop
  unblocked _ _ := unblocked_pure

variable (i) in
/-- A local file is read in pieces of any length: how much is available is not known. -/
def readFile (content : List UInt8) (offset length : Nat) : Async σ AppError (List UInt8) := do
  match ← awaitOrDrop i (Option Nat) with
  | some available => return (content.drop offset).take (min (available + 1) length)
  | none => .fail localIo

theorem localReader_file (content : List UInt8) :
    LocalReader content (readFile i content : _ → _ → Async σ _ _) where
  piece := by
    intro offset length ts bytes hlength h
    obtain ⟨available, ts₁, ts₂, rfl, hawait, hk⟩ := returns_andThen_ok.1 h
    obtain rfl := of_returns_awaitOrDrop hawait
    cases available with
    | none => nomatch (returns_throw.1 hk).2
    | some available =>
      obtain ⟨rfl, hbytes⟩ := returns_pure'.1 hk
      obtain ⟨⟩ := hbytes
      refine ⟨⟨(List.length_take_le _ _).trans (Nat.min_le_right _ _), by simp, fun hempty => ?_⟩, rfl⟩
      rcases List.take_eq_nil_iff.1 hempty with hzero | hdrop
      · omega
      · exact List.drop_eq_nil_iff.1 hdrop
  unblocked offset length := by
    refine unblocked_andThen unblocked_awaitOrDrop fun available _ _ _ => ?_
    cases available with
    | some _ => exact unblocked_pure
    | none => exact unblocked_pure

omit [SftpLog σ ι] in
/-- The bytes of a local file are among those that the reader of an upload may get. -/
theorem returns_read_file {content bytes : List UInt8} {offset length : Nat}
    (h : Returns (readFile i content offset length : Async σ _ _).run ts (.ok bytes)) :
    Returns (Reader.file.read i offset length).run ts (.ok bytes) := by
  obtain ⟨available, ts₁, ts₂, rfl, hawait, hk⟩ := returns_andThen_ok.1 h
  obtain rfl := of_returns_awaitOrDrop hawait
  cases available with
  | none => nomatch (returns_throw.1 hk).2
  | some available =>
    obtain ⟨rfl, hbytes⟩ := returns_pure'.1 hk
    obtain ⟨⟩ := hbytes
    have hlength := (List.length_take_le (min (available + 1) length) (content.drop offset)).trans
      (Nat.min_le_right _ _)
    refine returns_andThen_ok.2 ⟨some ⟨_, hlength⟩, [], [], rfl, ?_, returns_pure'.2 ⟨rfl, rfl⟩⟩
    exact returns_ask_andThen.2 ⟨some (some ⟨_, hlength⟩), returns_pure'.2 ⟨rfl, rfl⟩⟩

/-! ## Exactness -/

variable {read : Nat → Nat → Async σ AppError (List UInt8)} {content : List UInt8}
  {markOwned : Proc σ Unit}

/-- Streaming is exact, for all contents of the files, all lengths of the pieces, and whatever
    happens to the state meanwhile. -/
theorem streaming_exact (hprogress : ∀ n, Callback (progress n)) (hmark : Callback markOwned)
    (hread : LocalReader content read) (hchunk : 1 ≤ client.writeChunk) :
    -- a download has written the contents of the file it has opened
    (∀ remote ts count, Returns (download i client remote cancelled progress).run ts (.ok count) →
      (∀ e ∈ observed ts, e.Honest files) →
      ∃ handle, Opened i remote handle (observed ts) ∧ written (observed ts) = files handle ∧
        count = (files handle).length ∧ Streamed (files handle) count (observed ts)) ∧
    -- an upload has stored the contents of the reader in the file it has created
    (∀ staging ts count,
      Returns (uploadStagedFrom i client cancelled progress read staging markOwned).run ts
        (.ok (.ok count)) →
      ∃ handle, Created i staging handle (observed ts) ∧ stored handle (observed ts) = content ∧
        count = content.length ∧ Streamed content count (observed ts)) ∧
    -- a read into the editor has returned the contents of the file it has opened
    (∀ path (ts : List (σ × σ)) bytes, Returns (readEditorBytes i client path).run ts (.ok bytes) →
      (∀ e ∈ observed ts, e.Honest files) →
      ∃ handle, Opened i path handle (observed ts) ∧ bytes = files handle ∧
        Streamed (files handle) bytes.length (observed ts)) ∧
    -- it is bounded, whatever the server does
    (∀ path (ts : List (σ × σ)) bytes, Returns (readEditorBytes i client path).run ts (.ok bytes) →
      bytes.length ≤ MAX_REMOTE_EDITOR_BYTES) ∧
    (∀ path (ts : List (σ × σ)) q, Trace (readEditorBytes i client path).run ts q →
      ∀ e ∈ observed ts, e.WithinEditor) ∧
    -- the loops end
    (∀ handle n, (files handle).length < n → Unblocked (Logs (SftpEvent.Honest files))
      (Fallible.iterate (downloadChunk i client cancelled progress handle) n 0).run) ∧
    (∀ handle n, content.length < n → Unblocked (fun _ _ => True)
      (Fallible.iterate (uploadChunkFrom i client cancelled progress read handle) n 0).run) ∧
    (∀ handle n, (files handle).length < n → Unblocked (Logs (SftpEvent.Honest files))
      (Fallible.iterate (readEditorChunk i client handle : _ → Async σ _ _) n []).run) := by
  exact ⟨fun _ _ _ h hhonest => of_returns_download hprogress h hhonest,
    fun _ _ _ h => of_returns_uploadStaged hread hchunk hprogress hmark h,
    fun _ _ _ h hhonest => (of_returns_readEditorBytes files h).2 hhonest,
    fun _ _ _ h => (of_returns_readEditorBytes files h).1,
    fun _ _ _ h => forall_observed (h.within logs_readEditorBytes),
    fun _ _ hn => unblocked_download hprogress hn,
    fun _ _ hn => unblocked_upload hprogress hread hchunk hn,
    fun _ _ hn => unblocked_readEditor hn⟩

end SftpClient

/-! ## Transfers -/

/-- A request of a job, or of the cleanup after it. -/
def TransferEvent.toSftp : TransferEvent → Option (SftpEvent TransferTask)
  | sftp e => some e
  | _ => none

instance : SftpLog TransferManager TransferTask where
  events s := s.log.filterMap TransferEvent.toSftp
  events_record s e := by simp [TransferEvent.toSftp]

namespace TransferManager

/-- A section that does not log anything. -/
theorem callback_modify {f : TransferManager → TransferManager} (h : ∀ s, (f s).log = s.log) :
    Callback (.modify f) where
  silent := by
    intro ts u hts
    obtain ⟨s, rfl⟩ := returns_modify.1 hts
    rw [observed, List.flatMap_singleton, logged]
    dsimp only [events]
    rw [h, List.drop_length]
  unblocked := unblocked_modify

theorem callback_progress {id : TransferJobId} : Callback (progress id n) :=
  callback_modify fun _ => rfl

theorem callback_markOwned {id : TransferJobId} : Callback (markOwned id) :=
  callback_modify fun _ => rfl

/-- A packet is the answer. -/
def answerOf (p : Packet) : Answer where
  reply := .packet p
  applied := p = .status .ok
  of_confirmed h := by simpa using h
  of_refused code h hcode := by simp_all

/-- A file with two bytes. -/
def streamedAttrs : FileAttributes := ⟨some 2, some 0, some 0, some 0o100644, some 1, .file⟩

def streamingClient : SftpClient := ⟨⟨⟨1⟩, ⟨1⟩, ⟨1⟩⟩, [], 32768, 32768⟩

/-- The events of a download in two pieces. -/
def streamedEvents (i : TransferTask) : List (SftpEvent TransferTask) :=
  [.request i (.lstat "/a"), .answered i (.lstat "/a") (answerOf (.attrs streamedAttrs)),
    .request i (.openRead "/a"), .answered i (.openRead "/a") (answerOf (.handle "h")),
    .request i (.read "h" 0 32768), .answered i (.read "h" 0 32768) (answerOf (.data [97])),
    .wrote i [97],
    .request i (.read "h" 1 32768), .answered i (.read "h" 1 32768) (answerOf (.data [98])),
    .wrote i [98],
    .request i (.read "h" 2 32768), .answered i (.read "h" 2 32768) (answerOf (.status .eof)),
    .request i (.close "h"), .answered i (.close "h") (answerOf (.status .ok))]

open SftpClient

section

variable {i : TransferTask}

theorem succeeds_answer (r : SftpRequest) (p : Packet) :
    Succeeds (request i r : Transfer Reply) [.request i r, .answered i r (answerOf p)] (.packet p) :=
  succeeds_request new r (answerOf p)

theorem succeeds_progress (n : Nat) : Succeeds (.lift (progress ⟨1⟩ n)) [] () := by
  have hprogress : Returns (progress ⟨1⟩ n) [(new, _)] () := returns_modify.2 ⟨new, rfl⟩
  exact ⟨_, returns_lift.2 ⟨(), rfl, hprogress⟩, callback_progress.silent hprogress⟩

theorem succeeds_writeLocal (data : List UInt8) :
    Succeeds (writeLocal i data : Transfer Unit) [.wrote i data] () :=
  (succeeds_awaitOrDrop true).bind (succeeds_note new _)

/-- A byte is read and written. -/
theorem succeeds_downloadChunk (hn : n < 2) (b : UInt8) :
    Succeeds (downloadChunk i streamingClient (fun s => s.cancelled ⟨1⟩) (progress ⟨1⟩) "h" n)
      [.request i (.read "h" n 32768), .answered i (.read "h" n 32768) (answerOf (.data [b])),
        .wrote i [b]] (.inl (n + 1)) := by
  have hadd : checkedAdd n 1 = .ok (n + 1) := if_pos (by omega)
  have hrest : Succeeds (do
      let confirmed ← Async.ofExcept (checkedAdd n 1)
      Fallible.lift (progress ⟨1⟩ confirmed)
      return .inl confirmed : Transfer (Nat ⊕ Nat)) [] (.inl (n + 1)) :=
    (succeeds_ofExcept hadd).bind ((succeeds_progress _).bind succeeds_pure)
  exact (succeeds_requestUnless new rfl _ (answerOf (.data [b]))).bind
    ((succeeds_writeLocal [b]).bind hrest)

/-- The two bytes are read and written, and then there are no more. -/
theorem succeeds_downloadLoop : Succeeds (Fallible.loop
    (downloadChunk i streamingClient (fun s => s.cancelled ⟨1⟩) (progress ⟨1⟩) "h") 0)
    [.request i (.read "h" 0 32768), .answered i (.read "h" 0 32768) (answerOf (.data [97])),
      .wrote i [97],
      .request i (.read "h" 1 32768), .answered i (.read "h" 1 32768) (answerOf (.data [98])),
      .wrote i [98],
      .request i (.read "h" 2 32768), .answered i (.read "h" 2 32768) (answerOf (.status .eof))]
    2 := by
  let body := downloadChunk i streamingClient (fun s => s.cancelled ⟨1⟩) (progress ⟨1⟩) "h"
  have hend : Succeeds (body 2) _ (.inr 2) :=
    (succeeds_requestUnless new rfl _ (answerOf (.status .eof))).bind succeeds_pure
  have hlast : Succeeds (Fallible.iterate body 1 2) _ 2 := hend.bind succeeds_pure
  have hrounds : Succeeds (Fallible.iterate body 3 0) _ 2 :=
    (succeeds_downloadChunk (by decide) 97).bind ((succeeds_downloadChunk (by decide) 98).bind hlast)
  exact ((succeeds_ask 3).bind hrounds).logging rfl

theorem succeeds_download : Succeeds (download i streamingClient "/a"
    (fun s => s.cancelled ⟨1⟩) (progress ⟨1⟩)) (streamedEvents i) 2 := by
  have hpath : validateRemotePath "/a" = .ok () := by decide +kernel
  have hlstat : Succeeds (lstat i "/a" : Transfer FileAttributes) _ streamedAttrs :=
    (succeeds_answer _ (.attrs streamedAttrs)).bind (succeeds_ofExcept rfl)
  have hstat : Succeeds (stat i "/a" : Transfer RemoteEntry) _ ⟨"a", "a", .file⟩ :=
    (succeeds_ofExcept hpath).bind (hlstat.bind (succeeds_ofExcept (by decide +kernel)))
  have hopen : Succeeds (openRead i "/a" : Transfer String) _ "h" :=
    (succeeds_answer _ (.handle "h")).bind (succeeds_ofExcept rfl)
  have hclose : Succeeds (closeHandle i "h" : Transfer Unit) _ () :=
    (succeeds_answer _ (.status .ok)).bind (succeeds_ofExcept rfl)
  have hrest : Succeeds (do
      let bytes ← Async.ofExcept (.ok 2)
      Async.ofExcept (.ok ())
      if ← awaitOrDrop i Bool then
        return bytes
      else
        .fail localIo : Transfer Nat) _ 2 :=
    (succeeds_ofExcept rfl).bind ((succeeds_ofExcept (a := ()) rfl).bind
      ((succeeds_awaitOrDrop true).bind succeeds_pure))
  exact ((succeeds_ofExcept hpath).bind (hstat.bind ((succeeds_ensure rfl).bind (hopen.bind
    (succeeds_downloadLoop.attempt.bind (hclose.attempt.bind hrest)))))).logging rfl

/-- The server reads the two bytes honestly. -/
theorem honest_streamedEvents : ∀ e ∈ streamedEvents i, e.Honest fun _ => [97, 98] := by
  simp only [streamedEvents, List.forall_mem_cons]
  refine ⟨trivial, trivial, trivial, trivial, trivial, ⟨?_, nofun⟩, trivial, trivial, ⟨?_, nofun⟩,
    trivial, trivial, ⟨nofun, fun _ => by decide⟩, trivial, trivial, by simp⟩
  · rintro _ ⟨⟩
    exact ⟨by decide, rfl, nofun⟩
  · rintro _ ⟨⟩
    exact ⟨by decide, rfl, nofun⟩

/-- The download of the two bytes is exact. -/
theorem streaming_exact_download : ∃ ts, ∃ handle,
    Returns (download (.job ⟨1⟩) streamingClient "/a" (fun s => s.cancelled ⟨1⟩) (progress ⟨1⟩)).run
      ts (.ok 2) ∧ SftpClient.Opened (.job ⟨1⟩) "/a" handle (observed ts) ∧ written (observed ts) = [97, 98] ∧
      Streamed [97, 98] 2 (observed ts) := by
  obtain ⟨ts, hts, hobserved⟩ := succeeds_download (i := .job ⟨1⟩)
  have hhonest : ∀ e ∈ observed ts, e.Honest fun _ => [97, 98] := by
    rw [hobserved]
    exact honest_streamedEvents
  have hprogress : ∀ n, Callback (progress ⟨1⟩ n) := fun _ => callback_progress
  have hmark : Callback (markOwned ⟨1⟩) := callback_markOwned
  have hread : LocalReader [97, 98] (readFile (.job ⟨1⟩) [97, 98] : _ → _ → Transfer _) :=
    localReader_file _
  obtain ⟨handle, hopened, hwritten, -, hstreamed⟩ :=
    (streaming_exact hprogress hmark hread (by decide)).1 "/a" ts 2 hts hhonest
  exact ⟨ts, handle, hts, hopened, hwritten, hstreamed⟩

end

end TransferManager

end NexusOps.Sftp
