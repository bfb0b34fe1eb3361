import NexusOps.Concurrency.Unblocked
import NexusOps.Sftp.Client

/-!
# Streams

A file is read and written piece by piece, and the server may shorten each of them. What is known
of the pieces that are read is what an honest server guarantees (`SftpEvent.Honest`): a piece is a
part of the contents at the offset that was asked for, and it is empty only at the end.

What a task has asked for and got is seen from the events that its sections have logged
(`observed`). They make a stream (`Streamed`) if each request is for the offset where the bytes
before it end.
-/

namespace NexusOps.Sftp

open Concurrency Protocol Proc Fallible Async

/-! ## Contents and pieces -/

/-- A piece of the contents at an offset, of at most the given length. It is empty only at the
    end. -/
structure Piece (content : List UInt8) (offset length : Nat) (data : List UInt8) : Prop where
  length_le : data.length ≤ length
  eq_take : data = (content.drop offset).take data.length
  of_empty : data = [] → content.length ≤ offset

/-- A piece that follows what there is so far. -/
theorem Piece.take_append {content data : List UInt8} {offset length : Nat}
    (h : Piece content offset length data) :
    content.take offset ++ data = content.take (offset + data.length) := by
  rw [List.take_add, ← h.eq_take]

theorem Piece.end_le {content data : List UInt8} {offset length : Nat}
    (h : Piece content offset length data) (hoffset : offset ≤ content.length) :
    offset + data.length ≤ content.length := by
  have hlength := congrArg List.length h.eq_take
  rw [List.length_take, List.length_drop] at hlength
  omega

/-- A file after bytes have been written at an offset. -/
def store (file : List UInt8) (offset : Nat) (data : List UInt8) : List UInt8 :=
  file.take offset ++ List.replicate (offset - file.length) 0 ++ data ++
    file.drop (offset + data.length)

/-- Bytes that are written at the end. -/
theorem store_end {file : List UInt8} {offset : Nat} (data : List UInt8)
    (h : offset = file.length) : store file offset data = file ++ data := by
  simp [store, h]

/-! ## Events of a stream -/

variable {σ ι α : Type}

/-- The bytes of a reply. -/
def Reply.received : Reply → List UInt8
  | .packet (.data data) => data
  | _ => []

/-- There are no more bytes. -/
def Reply.Ends (reply : Reply) : Prop :=
  reply = .packet (.data []) ∨ reply = .packet (.status .eof)

theorem Reply.of_intoData_ok {reply : Reply} {data : List UInt8} (h : reply.intoData = .ok data) :
    reply = .packet (.data data) := by
  rcases reply with (_ | _ | _ | _ | _ | _) | _ | _ | _
  all_goals simp_all [intoData, intoPacket, Packet.into, Except.bind]

theorem Reply.of_intoData_status {reply : Reply} {code : StatusCode}
    (h : reply.intoData = .error (.status code)) : reply = .packet (.status code) := by
  rcases reply with (_ | _ | _ | _ | _ | _) | _ | _ | _
  all_goals simp_all [intoData, intoPacket, Packet.into, Except.bind]

theorem confirmed_of_statusOk {reply : Reply} {u : Unit}
    (h : statusOk reply.intoStatus = .ok u) : reply = .packet (.status .ok) := by
  unfold statusOk at h
  split at h
  · next hstatus => exact (Reply.of_intoStatus_ok hstatus).2
  all_goals nomatch h

namespace SftpEvent

/-- The event is not about the bytes of a file. -/
def plain : SftpEvent ι → Bool
  | request _ (.read _ _ _) => false
  | request _ (.write _ _ _) => false
  | answered _ (.read _ _ _) _ => false
  | answered _ (.write _ _ _) _ => false
  | wrote _ _ => false
  | _ => true

/-- The offset that is asked for. -/
def offset : SftpEvent ι → Option Nat
  | request _ (.read _ offset _) => some offset
  | request _ (.write _ offset _) => some offset
  | _ => none

/-- The number of bytes that have been read or written. -/
def moved : SftpEvent ι → Nat
  | answered _ (.read _ _ _) a => a.reply.received.length
  | answered _ (.write _ _ data) _ => data.length
  | _ => 0

/-- The bytes that have been written to the local file. -/
def localBytes : SftpEvent ι → List UInt8
  | wrote _ data => data
  | _ => []

/-- The open file `handle` after a write to it that has been confirmed. -/
def apply (handle : String) (file : List UInt8) : SftpEvent ι → List UInt8
  | answered _ (.write handle' offset data) a =>
    if handle' = handle ∧ a.reply = .packet (.status .ok) then store file offset data else file
  | _ => file

/-- The server reads the open files honestly. -/
def Honest (files : String → List UInt8) : SftpEvent ι → Prop
  | answered _ (.read handle offset length) a =>
    (∀ data, a.reply = .packet (.data data) → Piece (files handle) offset length data) ∧
      (a.reply = .packet (.status .eof) → (files handle).length ≤ offset)
  | _ => True

/-- The editor does not ask for more than one byte above its limit. -/
def WithinEditor : SftpEvent ι → Prop
  | request _ (.read _ offset length) => offset + length ≤ MAX_REMOTE_EDITOR_BYTES + 1
  | _ => True

end SftpEvent

section

variable {es es' : List (SftpEvent ι)} {handle : String} {offset : Nat}

/-- Each offset asked for is where the bytes before it end. -/
def Contiguous (offset : Nat) : List (SftpEvent ι) → Prop
  | [] => True
  | e :: es => (∀ o, e.offset = some o → o = offset) ∧ Contiguous (offset + e.moved) es

/-- The number of bytes that have been read or written. -/
def moved (es : List (SftpEvent ι)) : Nat := (es.map SftpEvent.moved).sum

/-- The local file. -/
def written (es : List (SftpEvent ι)) : List UInt8 := es.flatMap SftpEvent.localBytes

/-- An open file that was empty, after the writes to it that have been confirmed. -/
def stored (handle : String) (es : List (SftpEvent ι)) : List UInt8 :=
  es.foldl (SftpEvent.apply handle) []

theorem moved_append : moved (es ++ es') = moved es + moved es' := by
  simp [moved]

theorem written_append : written (es ++ es') = written es ++ written es' := by
  simp [written]

theorem stored_append :
    stored handle (es ++ es') = es'.foldl (SftpEvent.apply handle) (stored handle es) :=
  List.foldl_append

theorem contiguous_append :
    Contiguous offset (es ++ es') ↔ Contiguous offset es ∧ Contiguous (offset + moved es) es' := by
  induction es generalizing offset with
  | nil => simp [Contiguous, moved]
  | cons e es ih => simp [Contiguous, moved, ih, and_assoc, Nat.add_assoc]

/-- What events that are not about the bytes of a file leave as it is. -/
theorem SftpEvent.of_plain (handle : String) {e : SftpEvent ι} (h : e.plain) : e.offset = none ∧ e.moved = 0 ∧
    e.localBytes = [] ∧ ∀ file, e.apply handle file = file := by
  rcases e with ⟨_, _ | _⟩ | ⟨_, _ | _⟩ | _ | _ | _
  all_goals first
    | exact ⟨rfl, rfl, rfl, fun _ => rfl⟩
    | nomatch h

variable (h : ∀ e ∈ es, e.plain)

include h

theorem moved_of_plain : moved es = 0 := by
  induction es with
  | nil => rfl
  | cons e es ih =>
    rw [List.forall_mem_cons] at h
    rw [moved, List.map_cons, List.sum_cons, (SftpEvent.of_plain "" h.1).2.1, Nat.zero_add]
    exact ih h.2

theorem written_of_plain : written es = [] := by
  rw [written, List.flatMap_eq_nil_iff]
  exact fun e he => (SftpEvent.of_plain "" (h e he)).2.2.1

theorem foldl_of_plain (file : List UInt8) : es.foldl (SftpEvent.apply handle) file = file := by
  induction es with
  | nil => rfl
  | cons e es ih =>
    rw [List.forall_mem_cons] at h
    rw [List.foldl_cons, (SftpEvent.of_plain handle h.1).2.2.2, ih h.2]

theorem contiguous_of_plain : Contiguous offset es := by
  induction es with
  | nil => trivial
  | cons e es ih =>
    rw [List.forall_mem_cons] at h
    obtain ⟨hoffset, hmoved, -⟩ := SftpEvent.of_plain "" h.1
    refine ⟨fun o ho => ?_, ?_⟩
    · rw [hoffset] at ho
      nomatch ho
    · rw [hmoved]
      exact ih h.2

end

/-! ## Streams -/

/-- The bytes up to an offset have been read or written, one after the other. -/
structure Streamed (content : List UInt8) (offset : Nat) (es : List (SftpEvent ι)) : Prop where
  offset_le : offset ≤ content.length
  contiguous : Contiguous 0 es
  moved_eq : moved es = offset

namespace Streamed

variable {content data : List UInt8} {offset length : Nat} {es es' : List (SftpEvent ι)} {i : ι}
  {handle : String} {a : Answer}

theorem nil : Streamed content 0 ([] : List (SftpEvent ι)) := ⟨Nat.zero_le _, trivial, rfl⟩

/-- Events that neither ask for bytes nor move any. -/
theorem append (h : Streamed content offset es) (hes' : Contiguous offset es')
    (hmoved : moved es' = 0) : Streamed content offset (es ++ es') where
  offset_le := h.offset_le
  contiguous := by
    rw [contiguous_append, h.moved_eq, Nat.zero_add]
    exact ⟨h.contiguous, hes'⟩
  moved_eq := by rw [moved_append, h.moved_eq, hmoved, Nat.add_zero]

variable (i handle)

/-- Bytes have been read. -/
theorem read (h : Streamed content offset es) (ha : a.reply = .packet (.data data))
    (hpiece : Piece content offset length data) :
    Streamed content (offset + data.length) (es ++ [SftpEvent.request i (.read handle offset length),
      SftpEvent.answered i (.read handle offset length) a]) where
  offset_le := hpiece.end_le h.offset_le
  contiguous := by
    rw [contiguous_append, h.moved_eq]
    refine ⟨h.contiguous, fun o ho => ?_, fun o ho => absurd ho nofun, trivial⟩
    rw [← Option.some.inj ho, Nat.zero_add]
  moved_eq := by
    rw [moved_append, h.moved_eq]
    simp [moved, SftpEvent.moved, ha, Reply.received]

/-- No more bytes have been read. -/
theorem ends (h : Streamed content offset es) (ha : a.reply.Ends) :
    Streamed content offset (es ++ [SftpEvent.request i (.read handle offset length),
      SftpEvent.answered i (.read handle offset length) a]) := by
  refine h.append ⟨fun o ho => (Option.some.inj ho).symm, fun o ho => absurd ho nofun, trivial⟩ ?_
  rcases ha with ha | ha
  all_goals simp [moved, SftpEvent.moved, ha, Reply.received]

/-- Bytes have been written. -/
theorem write (h : Streamed content offset es) (hpiece : Piece content offset length data) :
    Streamed content (offset + data.length) (es ++ [SftpEvent.request i (.write handle offset data),
      SftpEvent.answered i (.write handle offset data) a]) where
  offset_le := hpiece.end_le h.offset_le
  contiguous := by
    rw [contiguous_append, h.moved_eq]
    refine ⟨h.contiguous, fun o ho => ?_, fun o ho => absurd ho nofun, trivial⟩
    rw [← Option.some.inj ho, Nat.zero_add]
  moved_eq := by
    rw [moved_append, h.moved_eq]
    simp [moved, SftpEvent.moved]

/-- Events around a stream that are not about the bytes of a file. -/
theorem surround {pre post : List (SftpEvent ι)} (h : Streamed content offset es)
    (hpre : ∀ e ∈ pre, e.plain) (hpost : ∀ e ∈ post, e.plain) :
    Streamed content offset (pre ++ (es ++ post)) where
  offset_le := h.offset_le
  contiguous := by
    rw [contiguous_append, moved_of_plain hpre]
    exact ⟨contiguous_of_plain hpre,
      contiguous_append.2 ⟨h.contiguous, contiguous_of_plain hpost⟩⟩
  moved_eq := by
    rw [moved_append, moved_append, moved_of_plain hpre, moved_of_plain hpost, h.moved_eq]
    omega

/-- At the end, all bytes have been read or written. -/
theorem offset_eq (h : Streamed content offset es) (hend : content.length ≤ offset) :
    offset = content.length :=
  Nat.le_antisymm h.offset_le hend

end Streamed

/-- There are no more bytes where an honest server says so. -/
theorem SftpEvent.Honest.of_ends {files : String → List UInt8} {i : ι} {handle : String}
    {offset length : Nat} {a : Answer}
    (h : (SftpEvent.answered i (.read handle offset length) a).Honest files) (ha : a.reply.Ends) :
    (files handle).length ≤ offset := by
  rcases ha with ha | ha
  · exact (h.1 [] ha).of_empty rfl
  · exact h.2 ha

/-! ## What is observed of a task -/

/-- A state from whose log the events can be read. -/
class SftpLog (σ : Type) (ι : outParam Type) [HasSftp σ ι] where
  events : σ → List (SftpEvent ι)
  events_record : ∀ s e, events (record s e) = events s ++ [e]

open SftpLog (events events_record)

variable [HasSftp σ ι] [SftpLog σ ι] {ts ts' : List (σ × σ)} {i : ι}

/-- The events that a section has logged. -/
def logged (x : σ × σ) : List (SftpEvent ι) := (events x.2).drop (events x.1).length

/-- The events that the sections of a task have logged. -/
def observed (ts : List (σ × σ)) : List (SftpEvent ι) := ts.flatMap logged

theorem logged_record (s : σ) (e : SftpEvent ι) : logged (s, record s e) = [e] := by
  rw [logged, events_record, List.drop_left]

theorem logged_self (s : σ) : logged (s, s) = [] := List.drop_length

theorem observed_append : observed (ts ++ ts') = observed ts ++ observed ts' :=
  List.flatMap_append

/-- What is called on the way logs no events, and is not blocked. -/
structure Callback (p : Proc σ Unit) : Prop where
  silent : ∀ {ts u}, Returns p ts u → observed ts = []
  unblocked : Unblocked (fun _ _ => True) p

theorem of_returns_note {e : SftpEvent ι} {u : Unit} (h : Returns (note e : Proc σ Unit) ts u) :
    observed ts = [e] := by
  obtain ⟨s, rfl⟩ := returns_modify.1 h
  rw [observed, List.flatMap_singleton, logged_record]

omit [SftpLog σ ι] in
theorem of_returns_awaitOrDrop {b : α}
    (h : Returns (awaitOrDrop i α : Async σ AppError α).run ts (.ok b)) : ts = [] := by
  obtain ⟨r, h⟩ := returns_ask_andThen.1 h
  cases r with
  | some b => exact (returns_pure'.1 h).1
  | none =>
    obtain ⟨_, ts₁, ts₂, -, -, h₂⟩ := returns_andThen_ok.1 h
    nomatch (returns_throw.1 h₂).2

theorem of_returns_request {r : SftpRequest} {reply : Reply}
    (h : Returns (request i r : Async σ AppError Reply).run ts (.ok reply)) :
    ∃ a : Answer, a.reply = reply ∧ observed ts = [.request i r, .answered i r a] := by
  obtain ⟨_, ts₁, ts₂, rfl, h₁, h⟩ := returns_andThen_ok.1 h
  obtain ⟨a, ts₂, ts₃, rfl, h₂, h⟩ := returns_andThen_ok.1 h
  obtain ⟨_, ts₃, ts₄, rfl, h₃, h₄⟩ := returns_andThen_ok.1 h
  obtain ⟨_, -, h₁⟩ := returns_lift.1 h₁
  obtain rfl := of_returns_awaitOrDrop h₂
  obtain ⟨_, -, h₃⟩ := returns_lift.1 h₃
  obtain ⟨rfl, hreply⟩ := returns_pure'.1 h₄
  refine ⟨a, (Except.ok.inj hreply).symm, ?_⟩
  rw [observed_append, of_returns_note h₁, List.nil_append, List.append_nil, of_returns_note h₃]
  rfl

theorem of_returns_requestUnless {cancelled : σ → Bool} {e : AppError} {r : SftpRequest}
    {reply : Reply} (h : Returns (requestUnless i cancelled e r).run ts (.ok reply)) :
    ∃ a : Answer, a.reply = reply ∧ observed ts = [.request i r, .answered i r a] := by
  obtain ⟨_, ts₁, ts₂, rfl, h₁, h⟩ := returns_andThen_ok.1 h
  obtain ⟨a, ts₂, ts₃, rfl, h₂, h₃⟩ := returns_andThen_ok.1 h
  obtain ⟨s₁, s₁', rfl, hf₁⟩ := returns_act'.1 h₁
  obtain rfl := of_returns_awaitOrDrop h₂
  obtain ⟨s₃, s₃', rfl, hf₃⟩ := returns_act'.1 h₃
  split_ifs at hf₁
  · nomatch (Proc.result_inj hf₁).1
  obtain ⟨⟩ := hf₁
  split_ifs at hf₃
  · nomatch (Proc.result_inj hf₃).1
  obtain ⟨hreply, rfl⟩ := Proc.result_inj hf₃
  refine ⟨a, Except.ok.inj hreply, ?_⟩
  simp [observed, logged_record]

/-! ## Tasks that succeed -/

section

variable {β : Type} {x : Async σ AppError α} {a : α} {es es' : List (SftpEvent ι)}

/-- The task can succeed with the result, if it gets the right answers, and logs the events. -/
def Succeeds (x : Async σ AppError α) (es : List (SftpEvent ι)) (a : α) : Prop :=
  ∃ ts, Returns x.run ts (.ok a) ∧ observed ts = es

theorem succeeds_pure : Succeeds (pure a : Async σ AppError α) [] a :=
  ⟨[], returns_pure'.2 ⟨rfl, rfl⟩, rfl⟩

theorem Succeeds.bind {k : α → Async σ AppError β} {b : β} (hx : Succeeds x es a)
    (hk : Succeeds (k a) es' b) : Succeeds (x >>= k) (es ++ es') b := by
  obtain ⟨ts₁, h₁, rfl⟩ := hx
  obtain ⟨ts₂, h₂, rfl⟩ := hk
  exact ⟨ts₁ ++ ts₂, returns_andThen_ok.2 ⟨a, ts₁, ts₂, rfl, h₁, h₂⟩, observed_append⟩

/-- The events that are logged. -/
theorem Succeeds.logging (h : Succeeds x es a) (hes : es = es') : Succeeds x es' a := hes ▸ h

theorem succeeds_ask (b : β) : Succeeds (.ask β : Async σ AppError β) [] b :=
  ⟨[], returns_ask'.2 ⟨rfl, b, rfl⟩, rfl⟩

theorem succeeds_ensure {p : Prop} [Decidable p] {e : AppError} (hp : p) :
    Succeeds (.ensure p e : Async σ AppError Unit) [] () :=
  ⟨[], returns_ensure_ok.2 ⟨rfl, hp⟩, rfl⟩

theorem succeeds_ofExcept {r : Except AppError α} (h : r = .ok a) :
    Succeeds (.ofExcept r : Async σ AppError α) [] a :=
  ⟨[], returns_ofExcept_ok.2 ⟨rfl, h⟩, rfl⟩

theorem Succeeds.attempt (hx : Succeeds x es a) : Succeeds (Async.attempt x) es (.ok a) := by
  obtain ⟨ts, h, rfl⟩ := hx
  exact ⟨ts, returns_attempt_ok.2 h, rfl⟩

theorem succeeds_awaitOrDrop (a : α) : Succeeds (awaitOrDrop i α : Async σ AppError α) [] a :=
  (succeeds_ask (some a)).bind succeeds_pure

theorem succeeds_note (s : σ) (e : SftpEvent ι) :
    Succeeds (.lift (note e) : Async σ AppError Unit) [e] () := by
  refine ⟨[(s, record s e)], returns_lift.2 ⟨(), rfl, returns_modify.2 ⟨s, rfl⟩⟩, ?_⟩
  rw [observed, List.flatMap_singleton, logged_record]

theorem succeeds_request (s : σ) (r : SftpRequest) (a : Answer) :
    Succeeds (request i r : Async σ AppError Reply) [.request i r, .answered i r a] a.reply :=
  (succeeds_note s _).bind ((succeeds_awaitOrDrop a).bind ((succeeds_note s _).bind succeeds_pure))

theorem succeeds_requestUnless {cancelled : σ → Bool} {e : AppError} (s : σ)
    (hs : cancelled s = false) (r : SftpRequest) (a : Answer) :
    Succeeds (requestUnless i cancelled e r) [.request i r, .answered i r a] a.reply := by
  have hact : ∀ {β : Type} (b : β) e' , Succeeds (Fallible.act fun s => if cancelled s then
      some (.error (.error e), s) else some (.ok b, record s e')) [e'] b := by
    intro β b e'
    refine ⟨[(s, record s e')], returns_act'.2 ⟨s, _, rfl, by rw [hs]; rfl⟩, ?_⟩
    rw [observed, List.flatMap_singleton, logged_record]
  exact (hact () _).bind ((succeeds_awaitOrDrop a).bind (hact _ _))

end

/-! ## Tasks that log only certain events -/

section

variable {P : SftpEvent ι → Prop}

/-- All events of a section are of a certain kind. -/
def Logs (P : SftpEvent ι → Prop) (s s' : σ) : Prop := ∀ e ∈ logged (s, s'), P e

theorem forall_observed (h : ∀ x ∈ ts, Logs P x.1 x.2) : ∀ e ∈ observed ts, P e := by
  intro e he
  obtain ⟨x, hx, hex⟩ := List.mem_flatMap.1 he
  exact h x hx e hex

theorem logs_note {e : SftpEvent ι} (he : P e) : Within (Logs P) (note e : Proc σ Unit) := by
  refine obeys_modify fun s _ => ⟨trivial, fun e' he' => ?_⟩
  rw [logged_record] at he'
  rwa [List.mem_singleton.1 he']

theorem logs_request {r : SftpRequest} (hr : P (.request i r)) (ha : ∀ a, P (.answered i r a))
    (hdropped : P (.dropped i)) : Within (Logs P) (request i r : Async σ AppError Reply).run := by
  refine Obeys.andThen (obeys_lift (logs_note hr)) fun _ => ?_
  refine Obeys.andThen (obeys_await (logs_note hdropped)) fun a => ?_
  exact Obeys.andThen (obeys_lift (logs_note (ha a))) fun _ => obeys_pure

namespace SftpClient

variable (hplain : ∀ e : SftpEvent ι, e.plain → P e)

include hplain

theorem logs_closeHandle {handle : String} :
    Within (Logs P) (closeHandle i handle : Async σ AppError Unit).run :=
  Obeys.andThen (logs_request (hplain _ rfl) (fun _ => hplain _ rfl) (hplain _ rfl))
    fun _ => obeys_ofExcept

theorem logs_lstat {path : String} :
    Within (Logs P) (lstat i path : Async σ AppError FileAttributes).run :=
  Obeys.andThen (logs_request (hplain _ rfl) (fun _ => hplain _ rfl) (hplain _ rfl))
    fun _ => obeys_ofExcept

theorem logs_stat {path : String} :
    Within (Logs P) (stat i path : Async σ AppError RemoteEntry).run :=
  Obeys.andThen obeys_ofExcept fun _ => Obeys.andThen (logs_lstat hplain) fun _ => obeys_ofExcept

theorem logs_fstat {handle : String} :
    Within (Logs P) (fstat i handle : Async σ AppError FileAttributes).run :=
  Obeys.andThen (logs_request (hplain _ rfl) (fun _ => hplain _ rfl) (hplain _ rfl))
    fun _ => obeys_ofExcept

theorem logs_openRead {path : String} :
    Within (Logs P) (openRead i path : Async σ AppError String).run :=
  Obeys.andThen (logs_request (hplain _ rfl) (fun _ => hplain _ rfl) (hplain _ rfl))
    fun _ => obeys_ofExcept

theorem logs_editorRevision {path : String} :
    Within (Logs P) (editorRevision i path : Async σ AppError EditorRevision).run :=
  Obeys.andThen obeys_ofExcept fun _ => Obeys.andThen (logs_lstat hplain) fun _ => obeys_ofExcept

end SftpClient

end

end NexusOps.Sftp
