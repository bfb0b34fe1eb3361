import NexusOps.Encoding.Base64
import NexusOps.Model.Terminal

/-!
# Terminals in the renderer

How the renderer writes a batch of output to the terminal it shows, and how it merges what it
learns about the terminal (`terminalFlow.ts`): a batch that exceeds the limits is refused, and
polls and renames can be answered in any order (`mergeTerminalSession_confluent`).
-/

namespace NexusOps.Desktop

open Encoding

def INPUT_CHUNK_BYTES : Nat := 16 * 1024
def MAX_OUTPUT_BATCH_BYTES : Nat := 64 * 1024

/-- Decodes a chunk. -/
def base64ToBytes (value : String) : Except String (List UInt8) :=
  match Base64.decode value with
  | some bytes => .ok bytes
  | none => .error "InvalidCharacterError"

/-- What is written to the terminal for a batch, after `total` bytes. -/
def writeAfter (total : Nat) : List String → Except String (List (List UInt8))
  | [] => .ok []
  | encoded :: chunksBase64 => do
    let bytes ← base64ToBytes encoded
    if INPUT_CHUNK_BYTES < bytes.length ∨ MAX_OUTPUT_BATCH_BYTES < total + bytes.length then
      .error "The terminal output batch exceeded its renderer limit."
    else
      let rest ← writeAfter (total + bytes.length) chunksBase64
      return bytes :: rest

/-- What is written to the terminal for a batch. -/
def writeConsumed (chunksBase64 : List String) : Except String (List (List UInt8)) :=
  writeAfter 0 chunksBase64

/-- The bytes of a batch. -/
def decodeAll (chunksBase64 : List String) : List UInt8 :=
  chunksBase64.flatMap fun chunk => (Base64.decode chunk).getD []

theorem writeAfter_eq_ok {chunksBase64 : List String} {total : Nat}
    (hchunk : ∀ text ∈ chunksBase64, ∃ chunk, Base64.decode text = some chunk ∧
      chunk.length ≤ INPUT_CHUNK_BYTES)
    (htotal : total + (decodeAll chunksBase64).length ≤ MAX_OUTPUT_BATCH_BYTES) :
    ∃ written, writeAfter total chunksBase64 = .ok written ∧
      written.flatten = decodeAll chunksBase64 := by
  induction chunksBase64 generalizing total with
  | nil => exact ⟨[], rfl, rfl⟩
  | cons text chunksBase64 ih =>
    obtain ⟨chunk, hdecode, hlength⟩ := hchunk text List.mem_cons_self
    have hall : decodeAll (text :: chunksBase64) = chunk ++ decodeAll chunksBase64 := by
      rw [decodeAll, List.flatMap_cons, hdecode]
      rfl
    rw [hall, List.length_append] at htotal
    have hrest :
        total + chunk.length + (decodeAll chunksBase64).length ≤ MAX_OUTPUT_BATCH_BYTES := by
      omega
    obtain ⟨written, hwritten, hflatten⟩ :=
      ih (fun text h => hchunk text (List.mem_cons_of_mem _ h)) hrest
    have hlimit : ¬(INPUT_CHUNK_BYTES < chunk.length ∨
        MAX_OUTPUT_BATCH_BYTES < total + chunk.length) := by omega
    have hbytes : base64ToBytes text = .ok chunk := by rw [base64ToBytes, hdecode]
    refine ⟨chunk :: written, ?_, by rw [List.flatten_cons, hflatten, hall]⟩
    rw [writeAfter, hbytes]
    simp only [bind, Except.bind, if_neg hlimit, hwritten]
    rfl

/-- A batch within the limits is written as it is. -/
theorem writeConsumed_eq_ok {chunksBase64 : List String}
    (hchunk : ∀ text ∈ chunksBase64, ∃ chunk, Base64.decode text = some chunk ∧
      chunk.length ≤ INPUT_CHUNK_BYTES)
    (htotal : (decodeAll chunksBase64).length ≤ MAX_OUTPUT_BATCH_BYTES) :
    ∃ written, writeConsumed chunksBase64 = .ok written ∧
      written.flatten = decodeAll chunksBase64 :=
  writeAfter_eq_ok hchunk (by rwa [Nat.zero_add])

/-! ## The session as it is shown

Polls and renames are answered in any order. An answer to a poll decides about the state and the
error, one to a rename about the label. -/

inductive SessionUpdateSource
  | poll
  | rename
  deriving DecidableEq, Repr

/-- The terminal does not change any more. -/
def isEnded (state : TerminalState) : Bool :=
  state = .closed || state = .failed || state = .disconnected

/-- The session that is shown after an answer. -/
def mergeTerminalSession (current next : TerminalSession) (source : SessionUpdateSource) :
    TerminalSession :=
  if current.id ≠ next.id ∨ current.hostId ≠ next.hostId ∨
      current.hostSessionId ≠ next.hostSessionId then
    current
  else if source = .rename then
    if next.label = current.label then current else { current with label := next.label }
  else if isEnded current.state then
    current
  else
    let state :=
      if current.state = .closing ∧ next.state = .open then current.state else next.state
    let error :=
      if state = current.state ∧ next.error = current.error then current.error else next.error
    if state = current.state ∧ error = current.error then current
    else { current with state, error }

/-- An answer. -/
structure SessionUpdate where
  next : TerminalSession
  source : SessionUpdateSource
  deriving DecidableEq, Repr

/-- The session that is shown after some answers. -/
def mergeAll (current : TerminalSession) (updates : List SessionUpdate) : TerminalSession :=
  updates.foldl (fun current u => mergeTerminalSession current u.next u.source) current

/-- The answer is about the terminal that is shown. -/
def SameTerminal (current next : TerminalSession) : Prop :=
  current.id = next.id ∧ current.hostId = next.hostId ∧ current.hostSessionId = next.hostSessionId

instance (current next : TerminalSession) : Decidable (SameTerminal current next) :=
  inferInstanceAs (Decidable (_ ∧ _))

/-- The answers from a source about the terminal that is shown. -/
def matching (current : TerminalSession) (source : SessionUpdateSource) :
    List SessionUpdate → List SessionUpdate :=
  List.filter fun u => u.source = source ∧ SameTerminal current u.next

variable {s s' next : TerminalSession} {source : SessionUpdateSource} {u : SessionUpdate}
  {us : List SessionUpdate}

/-- The session with another label. -/
def relabel (s : TerminalSession) (label : String) : TerminalSession := { s with label }

theorem merge_of_other (h : ¬ SameTerminal s next) : mergeTerminalSession s next source = s := by
  rw [SameTerminal, not_and_or, not_and_or] at h
  exact if_pos h

theorem merge_rename (h : SameTerminal s next) :
    mergeTerminalSession s next .rename = relabel s next.label := by
  rw [mergeTerminalSession, if_neg (by simp [h.1, h.2.1, h.2.2]), if_pos rfl]
  split_ifs with hlabel
  · rw [hlabel]
    rfl
  · rfl

/-- A poll does not reopen a terminal that is being closed. -/
def polled (s next : TerminalSession) : TerminalState :=
  if s.state = .closing ∧ next.state = .open then s.state else next.state

theorem merge_poll (h : SameTerminal s next) : mergeTerminalSession s next .poll =
    if isEnded s.state then s else { s with state := polled s next, error := next.error } := by
  rw [mergeTerminalSession, if_neg (by simp [h.1, h.2.1, h.2.2]), if_neg nofun]
  refine if_congr Iff.rfl rfl ?_
  have herror : (if polled s next = s.state ∧ next.error = s.error then s.error else next.error) =
      next.error := ite_eq_right_iff.2 fun h => h.2.symm
  dsimp only
  rw [← polled, herror]
  split_ifs with hsame
  · rw [hsame.1, hsame.2]
  · rfl

variable (s next source) in
/-- What an answer does not change. -/
theorem merge_keeps :
    (SameTerminal (mergeTerminalSession s next source) s ∧
      (mergeTerminalSession s next source).size = s.size) ∧
    (source = .poll → (mergeTerminalSession s next source).label = s.label) := by
  by_cases h : SameTerminal s next
  · cases source with
    | rename =>
      rw [merge_rename h]
      exact ⟨⟨⟨rfl, rfl, rfl⟩, rfl⟩, nofun⟩
    | poll =>
      rw [merge_poll h]
      cases isEnded s.state with
      | true => exact ⟨⟨⟨rfl, rfl, rfl⟩, rfl⟩, fun _ => rfl⟩
      | false => exact ⟨⟨⟨rfl, rfl, rfl⟩, rfl⟩, fun _ => rfl⟩
  · rw [merge_of_other h]
    exact ⟨⟨⟨rfl, rfl, rfl⟩, rfl⟩, fun _ => rfl⟩

variable (next source) in
/-- A terminal that has ended stays so. -/
theorem merge_of_ended (h : isEnded s.state = true) :
    ∃ label, mergeTerminalSession s next source = relabel s label := by
  by_cases hsame : SameTerminal s next
  · cases source with
    | rename => exact ⟨_, merge_rename hsame⟩
    | poll => exact ⟨s.label, (merge_poll hsame).trans (if_pos h)⟩
  · exact ⟨s.label, merge_of_other hsame⟩

/-- A poll does not depend on the label. -/
theorem merge_relabel {label : String} : mergeTerminalSession (relabel s label) next .poll =
    relabel (mergeTerminalSession s next .poll) label := by
  by_cases h : SameTerminal s next
  · have h' : SameTerminal (relabel s label) next := h
    rw [merge_poll h, merge_poll h']
    change (if isEnded s.state then _ else _) = _
    split_ifs
    · rfl
    · rfl
  · have h' : ¬ SameTerminal (relabel s label) next := h
    rw [merge_of_other h, merge_of_other h']

theorem mergeAll_cons :
    mergeAll s (u :: us) = mergeAll (mergeTerminalSession s u.next u.source) us := rfl

theorem mergeAll_append {vs : List SessionUpdate} :
    mergeAll s (us ++ vs) = mergeAll (mergeAll s us) vs :=
  List.foldl_append

theorem mergeAll_keeps : SameTerminal (mergeAll s us) s ∧ (mergeAll s us).size = s.size := by
  induction us generalizing s with
  | nil => exact ⟨⟨rfl, rfl, rfl⟩, rfl⟩
  | cons u us ih =>
    obtain ⟨⟨⟨hid, hhost, hsession⟩, hsize⟩, -⟩ := merge_keeps s u.next u.source
    obtain ⟨⟨hid', hhost', hsession'⟩, hsize'⟩ := ih (s := mergeTerminalSession s u.next u.source)
    exact ⟨⟨hid'.trans hid, hhost'.trans hhost, hsession'.trans hsession⟩, hsize'.trans hsize⟩

variable (us) in
theorem mergeAll_of_ended (h : isEnded s.state = true) :
    ∃ label, mergeAll s us = relabel s label := by
  induction us generalizing s with
  | nil => exact ⟨s.label, rfl⟩
  | cons u us ih =>
    obtain ⟨label, hmerge⟩ := merge_of_ended u.next u.source h
    obtain ⟨label', hmerge'⟩ := ih (s := relabel s label) h
    exact ⟨label', by rw [mergeAll_cons, hmerge, hmerge']; rfl⟩

theorem matching_congr (h : SameTerminal s s') : matching s source us = matching s' source us := by
  obtain ⟨hid, hhost, hsession⟩ := h
  refine List.filter_congr fun u _ => decide_eq_decide.2 ?_
  rw [SameTerminal, SameTerminal, hid, hhost, hsession]

theorem mergeAll_relabel {label : String} (h : ∀ u ∈ us, u.source = .poll) :
    mergeAll (relabel s label) us = relabel (mergeAll s us) label := by
  induction us generalizing s with
  | nil => rfl
  | cons u us ih =>
    rw [List.forall_mem_cons] at h
    rw [mergeAll_cons, mergeAll_cons, h.1, merge_relabel, ih h.2]

/-- The label that is shown is that of the last rename. -/
def lastLabel (s : TerminalSession) (us : List SessionUpdate) : String :=
  ((matching s .rename us).getLast?.map (·.next.label)).getD s.label

/-- The polls and the renames are independent. -/
theorem mergeAll_eq :
    mergeAll s us = relabel (mergeAll s (matching s .poll us)) (lastLabel s us) := by
  induction us generalizing s with
  | nil => rfl
  | cons u us ih =>
    obtain ⟨⟨hsame, -⟩, hlabel⟩ := merge_keeps s u.next u.source
    rw [mergeAll_cons, ih, lastLabel, lastLabel, matching_congr hsame, matching_congr hsame]
    rw [matching, matching]
    by_cases hu : SameTerminal s u.next
    · cases hsource : u.source with
      | poll =>
        rw [List.filter_cons_of_pos (by simp [hsource, hu]), mergeAll_cons, hsource,
          List.filter_cons_of_neg (by simp [hsource]), ← hsource, hlabel hsource]
      | rename =>
        rw [List.filter_cons_of_neg (by simp [hsource]),
          List.filter_cons_of_pos (by simp [hsource, hu]), merge_rename hu, List.getLast?_cons,
          mergeAll_relabel fun u hu => (of_decide_eq_true (List.mem_filter.1 hu).2).1]
        cases (us.filter _).getLast? with
        | none => rfl
        | some _ => rfl
    · rw [List.filter_cons_of_neg (by simp [hu]), List.filter_cons_of_neg (by simp [hu]),
        merge_of_other hu]

/-- The session that is shown after any answers in any order: the state and the error are those of
    the polls, the label is that of the last rename, and a terminal that has ended stays so. -/
theorem mergeTerminalSession_confluent (s : TerminalSession) (us : List SessionUpdate) :
    ((mergeAll s us).state = (mergeAll s (matching s .poll us)).state ∧
      (mergeAll s us).error = (mergeAll s (matching s .poll us)).error) ∧
    (mergeAll s us).label = ((matching s .rename us).getLast?.map (·.next.label)).getD s.label ∧
    (SameTerminal (mergeAll s us) s ∧ (mergeAll s us).size = s.size) ∧
    -- a rename and a poll can be swapped
    (∀ rename poll vs, mergeAll s (us ++ ⟨rename, .rename⟩ :: ⟨poll, .poll⟩ :: vs) =
      mergeAll s (us ++ ⟨poll, .poll⟩ :: ⟨rename, .rename⟩ :: vs)) ∧
    (isEnded (mergeAll s us).state = true → ∀ vs,
      (mergeAll s (us ++ vs)).state = (mergeAll s us).state ∧
        (mergeAll s (us ++ vs)).error = (mergeAll s us).error) := by
  refine ⟨?_, ?_, mergeAll_keeps, fun rename poll vs => ?_, fun hended vs => ?_⟩
  · rw [mergeAll_eq]
    exact ⟨rfl, rfl⟩
  · rw [mergeAll_eq]
    rfl
  · have hpolls : matching s .poll (us ++ ⟨rename, .rename⟩ :: ⟨poll, .poll⟩ :: vs) =
        matching s .poll (us ++ ⟨poll, .poll⟩ :: ⟨rename, .rename⟩ :: vs) := by
      simp [matching, List.filter_cons]
    have hrenames : matching s .rename (us ++ ⟨rename, .rename⟩ :: ⟨poll, .poll⟩ :: vs) =
        matching s .rename (us ++ ⟨poll, .poll⟩ :: ⟨rename, .rename⟩ :: vs) := by
      simp [matching, List.filter_cons]
    rw [mergeAll_eq, hpolls, lastLabel, hrenames, ← lastLabel, ← mergeAll_eq]
  · obtain ⟨label, hlabel⟩ := mergeAll_of_ended vs hended
    rw [mergeAll_append, hlabel]
    exact ⟨rfl, rfl⟩

end NexusOps.Desktop
