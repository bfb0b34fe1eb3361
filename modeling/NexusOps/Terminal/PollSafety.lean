import NexusOps.Terminal.PumpSafety

/-!
# Safety of polling and closing

A call that polls a terminal takes what was left over and then what is in the queue, and
reports the batch as the last one only if there is nothing left (`safe_takeBatch`). A call
that closes a terminal discards all of it (`safe_closeEntry`).
-/

namespace NexusOps.Terminal

open Concurrency Protocol Encoding Function

/-! ## Batches -/

/-- What has been collected are these bytes, within the limits. -/
structure Collects (batch : Collected) (taken : List UInt8) : Prop where
  bytes : (batch.chunksBase64.flatMap fun text => (Base64.decode text).getD []) = taken
  total : batch.total = taken.length
  total_le : batch.total ≤ OUTPUT_BATCH_BYTES
  chunk : ∀ text ∈ batch.chunksBase64, ∃ chunk, Base64.decode text = some chunk ∧ IsChunk chunk

theorem collects_nil : Collects ⟨[], 0⟩ [] := ⟨rfl, rfl, Nat.zero_le _, nofun⟩

/-- A chunk is added, as far as it fits. -/
theorem Collects.append {batch : Collected} {taken chunk : List UInt8}
    {c : Option (List UInt8)} (h : Collects batch taken) (hchunk : IsChunk chunk) :
    Collects (appendOutputChunk chunk batch c).1
      (taken ++ chunk.take (OUTPUT_BATCH_BYTES - batch.total)) := by
  have htotal := h.total
  have hle := h.total_le
  have hlength : (chunk.take (OUTPUT_BATCH_BYTES - batch.total)).length ≤
      OUTPUT_BATCH_BYTES - batch.total := List.length_take_le ..
  have hlength' : (chunk.take (OUTPUT_BATCH_BYTES - batch.total)).length ≤ OUTPUT_CHUNK_BYTES :=
    (List.length_take_le' ..).trans hchunk.length_le
  simp only [appendOutputChunk]
  refine ⟨?_, ?_, by dsimp only; omega, fun text htext => ?_⟩
  · split_ifs with hnil
    · rw [List.isEmpty_iff.1 hnil, List.append_nil]
      exact h.bytes
    · rw [List.flatMap_append, h.bytes, List.flatMap_singleton, Base64.decode_encode]
      rfl
  · rw [List.length_append, htotal]
  · split_ifs at htext with hnil
    · exact h.chunk text htext
    · rcases mem_snoc.1 htext with htext | rfl
      · exact h.chunk text htext
      · exact ⟨_, Base64.decode_encode _, fun hnil' => hnil (List.isEmpty_iff.2 hnil'), hlength'⟩

variable {chunk : List UInt8}

/-- Something is left over only if the batch is full. -/
theorem total_of_carryover {batch : Collected} (hle : batch.total ≤ OUTPUT_BATCH_BYTES)
    (h : (appendOutputChunk chunk batch none).2 ≠ none) :
    (appendOutputChunk chunk batch none).1.total = OUTPUT_BATCH_BYTES := by
  simp only [appendOutputChunk] at h ⊢
  split_ifs at h with hlt
  · rw [List.length_take]
    omega
  · exact absurd rfl h

/-- What was left over is a chunk. -/
theorem isChunk_carryover {batch : Collected} {chunk rest : List UInt8} (hchunk : IsChunk chunk)
    (h : (appendOutputChunk chunk batch none).2 = some rest) : IsChunk rest := by
  simp only [appendOutputChunk] at h
  split_ifs at h with hlt
  · obtain ⟨⟩ := h
    refine ⟨fun hnil => ?_, ?_⟩
    · exact absurd (List.drop_eq_nil_iff.1 hnil) (Nat.not_le.2 hlt)
    · rw [List.length_drop]
      exact (Nat.sub_le ..).trans hchunk.length_le

/-- A chunk is either added or left over. -/
theorem take_append_carryover (batch : Collected) (chunk : List UInt8) :
    chunk.take (OUTPUT_BATCH_BYTES - batch.total) ++
      (appendOutputChunk chunk batch none).2.getD [] = chunk := by
  simp only [appendOutputChunk]
  split_ifs with hlt
  · exact List.take_append_drop ..
  · rw [List.take_of_length_le (Nat.not_lt.1 hlt)]
    exact List.append_nil _

/-- What was left over fits into a batch. -/
theorem IsChunk.fits (h : IsChunk chunk) :
    chunk.take (OUTPUT_BATCH_BYTES - 0) = chunk ∧ (appendOutputChunk chunk ⟨[], 0⟩ none).2 = none := by
  have hlength : chunk.length ≤ OUTPUT_BATCH_BYTES := h.length_le.trans (by decide)
  exact ⟨List.take_of_length_le hlength, if_neg (Nat.not_lt.2 hlength)⟩

/-- A batch without bytes has no chunks. -/
theorem WithinLimits.chunks_eq_nil {batch : TerminalOutputBatch} (h : WithinLimits batch)
    (hbytes : batchBytes batch = []) : batch.chunksBase64 = [] := by
  rw [List.eq_nil_iff_forall_not_mem]
  intro text htext
  obtain ⟨chunk, hdecode, hchunk⟩ := h.chunk text htext
  have hnil := List.flatMap_eq_nil_iff.1 hbytes text htext
  rw [hdecode] at hnil
  exact hchunk.ne_nil hnil

/-- A terminal is about to be closed. -/
theorem EntryOk.closing {log : List TerminalEvent} {e : EntryId} {x : Entry}
    (hok : EntryOk log e x) : EntryOk (log ++ [TerminalEvent.closing e]) e x := by
  have hclosing : TerminalEvent.closing e ∈ log ++ [TerminalEvent.closing e] := by simp
  have hnoread : ∀ r, .read e r ∉ [TerminalEvent.closing e] := by simp
  have hnobatch : ∀ batch, .polled e batch ∉ [TerminalEvent.closing e] := by simp
  refine ⟨hok.receiver, hok.carryover, fun hc => absurd hclosing hc, hok.unlocked,
    fun hc => absurd hclosing hc, fun hsender hreads => ?_, fun _ _ => hclosing, fun hdrained => ?_,
    fun hc => absurd hclosing hc⟩
  · rw [reads_append, reads_eq_nil hnoread, List.append_nil] at hreads
    exact ⟨(hok.spawned hsender hreads).1, fun hc => absurd hclosing hc⟩
  · rw [Drained, batches_append, batches_eq_nil hnobatch, List.append_nil] at hdrained
    exact hok.drained hdrained

/-- What holds of a terminal that is being closed. -/
theorem EntryOk.of_closing {log : List TerminalEvent} {e : EntryId} {x x' : Entry} (hok : EntryOk log e x) (hclosing : .closing e ∈ log)
    (hreceiver : x'.receiver <:+ x.receiver)
    (hcarryover : x'.carryover = x.carryover ∨ x'.carryover = none)
    (hunlocked : x'.outputLock = none → x'.taken = []) (hsender : x'.sender = x.sender)
    (hunsent : x'.unsent = x.unsent) (htaken : x'.taken = x.taken) : EntryOk log e x' where
  receiver chunk hmem := hok.receiver chunk (hreceiver.subset hmem)
  carryover chunk h := by
    rcases hcarryover with heq | hnone
    · exact hok.carryover chunk (heq.symm.trans h)
    · nomatch hnone.symm.trans h
  conserved hc := absurd hclosing hc
  unlocked := hunlocked
  ended hc := absurd hclosing hc
  spawned h hreads := by
    obtain ⟨h', -⟩ := hok.spawned (hsender ▸ h) hreads
    exact ⟨hunsent.trans h', fun hc => absurd hclosing hc⟩
  cancelled _ _ := hclosing
  drained hdrained := by
    obtain ⟨h₁, h₂, h₃, h₄⟩ := hok.drained hdrained
    rw [h₂] at hreceiver
    refine ⟨hsender.trans h₁, List.suffix_nil.1 hreceiver, ?_, htaken.trans h₄⟩
    exact hcarryover.elim (fun h => h.trans h₃) id
  outcome hc := absurd hclosing hc

namespace TerminalManager

variable {calls : TaskId → TerminalRequest} {s : TerminalManager} {i : TerminalTask}
  {e : EntryId} {x x' : Entry} {log : List TerminalEvent} {taken : List UInt8}
  {carryover : Option (List UInt8)} {bs : List TerminalOutputBatch} {batch : Collected}

/-! ## What a call with the lock knows -/

/-- The task holds the lock of the output, and has taken these bytes. -/
structure Holding (i : TerminalTask) (e : EntryId) (taken : List UInt8)
    (carryover : Option (List UInt8)) (bs : List TerminalOutputBatch) (x : Entry)
    (log : List TerminalEvent) : Prop where
  lock : x.outputLock = some i
  taken : x.taken = taken
  carryover : x.carryover = carryover
  batches : batches log e = bs

theorem Others.holding {log' : List TerminalEvent} (h : Others i e log log' x x')
    (hx : Holding i e taken carryover bs x log) : Holding i e taken carryover bs x' log' := by
  obtain ⟨hlock, htaken, hcarryover⟩ := h.lock hx.lock
  exact ⟨hlock, htaken.trans hx.taken, hcarryover.trans hx.carryover,
    (h.batches hx.lock).trans hx.batches⟩

theorem stable_holding : (protocol calls).Stable i (At e (Holding i e taken carryover bs)) :=
  stable_at fun _ _ _ _ h hx => h.holding hx

/-- A task with the lock is free to take output. -/
theorem EntryStep.of_lock (h : x.outputLock = some i) (hsender : x'.sender = x.sender)
    (hunsent : x'.unsent = x.unsent) (hreceiver : x'.receiver <:+ x.receiver)
    (hview : x'.view = x.view) (hcancelled : x'.cancelled = x.cancelled)
    (hcarryover : x.carryover ≠ none → x'.carryover = x.carryover ∨ x'.carryover = none) :
    EntryStep i s e x x' :=
  ⟨fun _ => ⟨hsender, hunsent, hreceiver⟩, fun _ => .inl (congrArg _ hview),
    fun _ h => .inl (hcancelled ▸ h),
    fun _ hj hlock => absurd (Option.mem_unique hlock h) hj, hcarryover⟩

theorem safe_lockOutput {A : TerminalManager → Prop} (hA : (protocol calls).Stable i A) (h : A s)
    (hset : ∀ s x, A s → A (s.setEntry e x)) : (protocol calls).Safe i
      (fun _ s => A s ∧ ∃ carryover bs, At e (Holding i e [] carryover bs) s) (lockOutput i e) s := by
  refine safe_entrySection hA h fun s x b x' hs hi hx hb => ?_
  split_ifs at hb with hlock
  obtain ⟨-, rfl⟩ := Proc.result_inj hb
  have hok := hi.entry e x hx
  refine ⟨⟨hok.receiver, hok.carryover, hok.conserved, nofun, hok.ended, hok.spawned, hok.cancelled,
    hok.drained, hok.outcome⟩, ⟨fun _ => ⟨rfl, rfl, List.suffix_rfl⟩, fun _ => .inl rfl, fun _ => .inl,
    fun _ _ hj => absurd (hlock.symm.trans hj) nofun, fun _ => .inl rfl⟩, hset s _ hs,
    x.carryover, batches s.log e, _, update_self .., rfl, hok.unlocked hlock, rfl, rfl⟩

/-! ## Polling -/

/-- A chunk that was left over, or comes next in the queue, is added to the batch. -/
theorem Holding.append {chunks : List (List UInt8)}
    (h : Holding i e taken none bs x log) (hok : EntryOk log e x)
    (hx : x.receiver = chunk :: chunks) :
    EntryOk log e ({ x with receiver := chunks }.append chunk batch).2 where
  receiver c hc := hok.receiver c (hx ▸ List.mem_cons_of_mem _ hc)
  carryover c hc := by
    have hchunk := hok.receiver chunk (hx ▸ List.mem_cons_self)
    simp only [Entry.append, h.carryover] at hc
    exact isChunk_carryover hchunk hc
  conserved hc := by
    have hsplit := take_append_carryover batch chunk
    have hcons := hok.conserved hc
    simp only [Entry.append, h.carryover] at hcons ⊢
    rw [hcons, hx, List.flatten_cons]
    nth_rewrite 1 [← hsplit]
    simp
  unlocked hlock := nomatch h.lock.symm.trans hlock
  ended := hok.ended
  spawned := hok.spawned
  cancelled := hok.cancelled
  drained hdrained := by
    rw [(hok.drained hdrained).2.1] at hx
    nomatch hx
  outcome := hok.outcome

theorem Holding.takeCarryover (h : Holding i e [] (some chunk) bs x log) (hok : EntryOk log e x) :
    EntryOk log e ({ x with carryover := none }.append chunk ⟨[], 0⟩).2 := by
  obtain ⟨hall, hnone⟩ := (hok.carryover chunk h.carryover).fits
  have htaken : ({ x with carryover := none }.append chunk ⟨[], 0⟩).2.taken =
      x.taken ++ chunk.take (OUTPUT_BATCH_BYTES - 0) := rfl
  refine ⟨hok.receiver, fun c hc => ?_, fun hc => ?_, fun hlock => ?_, hok.ended, hok.spawned,
    hok.cancelled, fun hdrained => ?_, hok.outcome⟩
  · nomatch hnone.symm.trans hc
  · have hcarryover : ({ x with carryover := none }.append chunk ⟨[], 0⟩).2.carryover = none := hnone
    rw [hok.conserved hc, htaken, hall, hcarryover, h.carryover, h.taken]
    simp [Entry.append]
  · nomatch h.lock.symm.trans hlock
  · nomatch h.carryover.symm.trans (hok.drained hdrained).2.2.1

theorem safe_takeCarryover (h : At e (Holding i e [] carryover bs) s) :
    (protocol calls).Safe i (fun batch s => ∃ taken, Collects batch taken ∧
      At e (Holding i e taken none bs) s) (takeCarryover e) s := by
  refine safe_entrySection stable_holding h fun s x b x' ⟨y, hy, hhold⟩ hi hx hb => ?_
  obtain rfl := Option.mem_unique hx hy
  have hok := hi.entry e x hx
  cases carryover with
  | none =>
    rw [hhold.carryover] at hb
    obtain ⟨⟩ := hb
    exact ⟨hok, .refl, [], collects_nil, x, update_self .., hhold⟩
  | some chunk =>
    rw [hhold.carryover] at hb
    obtain ⟨⟩ := hb
    have hchunk := hok.carryover chunk hhold.carryover
    obtain ⟨hall, hnone⟩ := hchunk.fits
    have hcollects := collects_nil.append (c := none) hchunk
    refine ⟨hhold.takeCarryover hok, .of_lock hhold.lock rfl rfl List.suffix_rfl rfl rfl
      fun _ => .inr hnone, _, hcollects, _, update_self .., hhold.lock, ?_, hnone,
      hhold.batches⟩
    rw [← hhold.taken]

/-- What has been collected so far. -/
def Collecting (i : TerminalTask) (e : EntryId) (bs : List TerminalOutputBatch) (batch : Collected)
    (s : TerminalManager) : Prop :=
  ∃ taken carryover, Collects batch taken ∧
    (carryover ≠ none → batch.total = OUTPUT_BATCH_BYTES) ∧
    At e (Holding i e taken carryover bs) s

theorem safe_takeChunk (h : Collecting i e bs batch s) (hlt : batch.total < OUTPUT_BATCH_BYTES) :
    (protocol calls).Safe i (fun r s => r.elim (Collecting i e bs · s) (Collecting i e bs · s))
      (takeChunk e batch) s := by
  obtain ⟨taken, carryover, hcollects, hfull, h⟩ := h
  obtain rfl : carryover = none := by
    by_contra hne
    exact absurd (hfull hne) (Nat.ne_of_lt hlt)
  refine safe_entrySection stable_holding h fun s x b x' ⟨y, hy, hhold⟩ hi hx hb => ?_
  obtain rfl := Option.mem_unique hx hy
  have hok := hi.entry e x hx
  split at hb
  · obtain ⟨⟩ := hb
    exact ⟨hok, .refl, taken, none, hcollects, hfull, x, update_self .., hhold⟩
  · next chunk chunks hreceiver =>
    obtain ⟨⟩ := hb
    have hchunk := hok.receiver chunk (hreceiver ▸ List.mem_cons_self)
    refine ⟨hhold.append hok hreceiver, .of_lock hhold.lock rfl rfl ?_ rfl rfl
      fun hne => absurd hhold.carryover hne, _, _, hcollects.append (c := none) hchunk,
      total_of_carryover hcollects.total_le, _, update_self .., hhold.lock, ?_, ?_,
      hhold.batches⟩
    · rw [hreceiver]
      exact List.suffix_cons ..
    · rw [← hhold.taken]
    · rw [← hhold.carryover]
      rfl

theorem safeOr_takeChunks (h : Collecting i e bs batch s) :
    (protocol calls).SafeOr i (fun batch => Collecting i e bs batch) (fun _ _ => False)
      (takeChunks e batch) s := by
  refine safeOr_loop (I := fun batch => Collecting i e bs batch) (fun batch s h => ?_) h
  split_ifs with hlt
  · exact safeOr_lift.2 (safe_takeChunk h hlt)
  · exact h

/-- There is nothing left, and nothing will come. -/
structure Exhausted (x : Entry) : Prop where
  carryover : x.carryover = none
  sender : x.sender = none
  receiver : x.receiver = []

theorem Others.exhausted {log' : List TerminalEvent} (h : Others i e log log' x x')
    (hlock : x.outputLock = some i) (hx : Exhausted x) : Exhausted x' := by
  obtain ⟨hsender, hreceiver⟩ := h.dropped hx.sender
  refine ⟨(h.lock hlock).2.2.trans hx.carryover, hsender, ?_⟩
  rw [hx.receiver] at hreceiver
  exact List.suffix_nil.1 hreceiver

/-- What is known once it has been checked whether there is anything left. -/
structure Checked (i : TerminalTask) (e : EntryId) (taken : List UInt8)
    (carryover : Option (List UInt8)) (bs : List TerminalOutputBatch) (drained : Bool) (x : Entry)
    (log : List TerminalEvent) : Prop extends Holding i e taken carryover bs x log where
  exhausted : drained = true → Exhausted x
  again : (∃ batch ∈ bs, batch.outputDrained = true) → drained = true

theorem stable_checked {drained : Bool} :
    (protocol calls).Stable i (At e (Checked i e taken carryover bs drained)) :=
  stable_at fun _ _ _ _ h hx => ⟨h.holding hx.toHolding, fun hd =>
    h.exhausted hx.lock (hx.exhausted hd), hx.again⟩

/-- A batch that was reported as the last one. -/
theorem Holding.drained (h : Holding i e taken carryover bs x log) (hok : EntryOk log e x)
    (hbs : ∃ batch ∈ bs, batch.outputDrained = true) :
    x.sender = none ∧ x.receiver = [] ∧ x.carryover = none ∧ x.taken = [] := by
  rw [← h.batches] at hbs
  exact hok.drained hbs

theorem safe_outputDrained (h : At e (Holding i e taken carryover bs) s) :
    (protocol calls).Safe i (fun drained => At e (Checked i e taken carryover bs drained))
      (outputDrained e) s := by
  let again : Prop := ∃ batch ∈ bs, batch.outputDrained = true
  have hnot : ∀ {s : TerminalManager}, (again → false = true) →
      At e (Holding i e taken carryover bs) s →
      At e (Checked i e taken carryover bs false) s := fun hagain ⟨x, hx, hhold⟩ =>
    ⟨x, hx, hhold, nofun, hagain⟩
  refine Safe.bind (R := fun b s => b = carryover.isNone ∧ (again → b = true) ∧
    At e (Holding i e taken carryover bs) s) (safe_look stable_holding h ?_) ?_
  · rintro s x ⟨y, hy, hhold⟩ hi hx
    obtain rfl := Option.mem_unique hx hy
    refine ⟨by rw [hhold.carryover], fun hagain => ?_, x, hx, hhold⟩
    rw [(hhold.drained (hi.entry e x hx) hagain).2.2.1]
    rfl
  rintro b s ⟨hb, hagain, h⟩
  cases b with
  | false => exact hnot hagain h
  | true =>
    -- Once there is no sender, there will be none later, and what is in the queue is all.
    have hstable : (protocol calls).Stable i (At e fun x log =>
        Holding i e taken carryover bs x log ∧ x.sender = none) :=
      stable_at fun _ _ _ _ h ⟨hhold, hsender⟩ => ⟨h.holding hhold, (h.dropped hsender).1⟩
    refine Safe.bind (R := fun b s => (again → b = true) ∧ At e (fun x log =>
      Holding i e taken carryover bs x log ∧ (b = true → x.sender = none)) s)
      (safe_look stable_holding h ?_) ?_
    · rintro s x ⟨y, hy, hhold⟩ hi hx
      obtain rfl := Option.mem_unique hx hy
      refine ⟨fun hagain => ?_, x, hx, hhold, Option.isNone_iff_eq_none.1⟩
      rw [(hhold.drained (hi.entry e x hx) hagain).1]
      rfl
    rintro b s ⟨hagain, x, hx, hhold, hsender⟩
    cases b with
    | false => exact hnot hagain ⟨x, hx, hhold⟩
    | true =>
      refine safe_look hstable ⟨x, hx, hhold, hsender rfl⟩ fun s x ⟨y, hy, hhold, hsender⟩ hi hx => ?_
      obtain rfl := Option.mem_unique hx hy
      refine ⟨x, hx, hhold, fun hempty => ⟨?_, hsender, List.isEmpty_iff.1 hempty⟩, fun hagain => ?_⟩
      · rw [hhold.carryover]
        exact Option.isNone_iff_eq_none.1 hb.symm
      · rw [(hhold.drained (hi.entry e x hx) hagain).2.1]
        rfl

/-- What is known of a batch before it is returned. -/
structure Complete (i : TerminalTask) (e : EntryId) (batch : TerminalOutputBatch) (x : Entry)
    (log : List TerminalEvent) : Prop where
  lock : x.outputLock = some i
  taken : x.taken = batchBytes batch
  limits : WithinLimits batch
  exhausted : batch.outputDrained = true → Exhausted x
  again : Drained log e → batch.outputDrained = true
  state : .closing e ∉ log → batch.outputDrained = true → ¬batch.session.state.Live

variable {batch : TerminalOutputBatch}

theorem stable_complete : (protocol calls).Stable i (At e (Complete i e batch)) := by
  refine stable_at fun log log' x x' h hx => ?_
  obtain ⟨hlock, htaken, -⟩ := h.lock hx.lock
  refine ⟨hlock, htaken.trans hx.taken, hx.limits, fun hd => h.exhausted hx.lock (hx.exhausted hd),
    fun hd => hx.again ?_, fun hc => hx.state fun hmem => hc (h.closing hmem)⟩
  rwa [Drained, h.batches hx.lock] at hd

/-- The rule of batches. -/
theorem Complete.rule (h : Complete i e batch x log)
    (hok : EntryOk log e x) : Rule log (.polled e batch) := by
  refine ⟨h.limits, h.state, fun hdrained => ⟨h.limits.chunks_eq_nil ?_, h.again hdrained⟩⟩
  rw [← h.taken]
  exact (hok.drained hdrained).2.2.2

/-- What is known of a terminal after it has been polled. -/
theorem Complete.polled (h : Complete i e batch x log) (hok : EntryOk log e x) :
    EntryOk (log ++ [TerminalEvent.polled e batch]) e { x with outputLock := none, taken := [] } := by
  have hclosing : TerminalEvent.closing e ∈ log ++ [TerminalEvent.polled e batch] ↔ .closing e ∈ log := by simp
  have hopened : TerminalEvent.opened e ∈ log ++ [TerminalEvent.polled e batch] ↔ .opened e ∈ log := by simp
  have hnone : ∀ r, .read e r ∉ [TerminalEvent.polled e batch] := by simp
  have hreads : reads (log ++ [TerminalEvent.polled e batch]) e = reads log e := by
    rw [reads_append, reads_eq_nil hnone, List.append_nil]
  refine ⟨hok.receiver, hok.carryover, fun hc => ?_, fun _ => rfl, ?_, ?_, ?_, fun hd => ?_, ?_⟩
  · rw [hclosing] at hc
    rw [received, hreads, delivered, batches_append, batches_polled, List.flatMap_append,
      List.flatMap_singleton, ← h.taken]
    simpa [received, delivered] using hok.conserved hc
  · rw [hclosing, hopened, hreads]
    exact hok.ended
  · rw [hclosing, hreads]
    exact hok.spawned
  · rw [hclosing]
    exact hok.cancelled
  · obtain ⟨batch', hmem, hd⟩ := hd
    rw [batches_append, batches_polled, List.mem_append, List.mem_singleton] at hmem
    rcases hmem with hmem | rfl
    · obtain ⟨h₁, h₂, h₃, -⟩ := hok.drained ⟨batch', hmem, hd⟩
      exact ⟨h₁, h₂, h₃, rfl⟩
    · obtain ⟨h₁, h₂, h₃⟩ := h.exhausted hd
      exact ⟨h₂, h₃, h₁, rfl⟩
  · rw [hclosing, hopened, hreads]
    exact hok.outcome

theorem safe_finishBatch (h : At e (Complete i e batch) s) :
    (protocol calls).Safe i (fun _ _ => True) (finishBatch e batch) s := by
  refine safe_act (k := .ret) stable_complete h fun s₁ b s₂ ⟨x, hx, hcomplete⟩ hi hact => ?_
  rw [hx, Option.map_some] at hact
  obtain ⟨⟩ := hact
  have hok := hi.entry e x hx
  have hlogs : ∀ event ∈ [TerminalEvent.polled e batch], event.entry = e ∧ Logs i s₁ event := by
    intro event hevent
    rw [List.mem_singleton.1 hevent]
    exact ⟨rfl, x, hx, hcomplete.lock⟩
  obtain ⟨hi', hg⟩ : ((s₁.setEntry e { x with outputLock := none, taken := [] }).record
      (.polled e batch)).Inv ∧ Guarantee i s₁ _ := step_entry hi hx rfl rfl hlogs
    (justified_snoc.2 ⟨hi.rule, hcomplete.rule hok⟩) (hcomplete.polled hok)
    (.of_lock hcomplete.lock rfl rfl List.suffix_rfl rfl rfl fun _ => .inl rfl)
  exact ⟨hi', hg, trivial⟩

/-- A call that polls a terminal. -/
theorem safe_takeBatch : (protocol calls).Safe i (fun _ _ => True) (takeBatch i e) s := by
  refine Safe.bind (safe_lockOutput stable_true trivial fun _ _ _ => trivial)
    fun _ s ⟨_, carryover, bs, h⟩ => ?_
  refine Safe.bind (safe_takeCarryover h) fun batch s ⟨taken, hcollects, h⟩ => ?_
  have hcollecting : Collecting i e bs batch s := ⟨taken, none, hcollects, nofun, h⟩
  refine Safe.bind (safeOr_takeChunks hcollecting) fun r s hr => ?_
  rcases r with e | batch
  · exact hr.elim
  obtain ⟨taken, carryover, hcollects, -, h⟩ := hr
  refine Safe.bind (safe_outputDrained h) fun drained s h => ?_
  refine Safe.bind (R := fun view => At e (Complete i e
    ⟨view, batch.chunksBase64, drained⟩)) (safe_look stable_checked h ?_) fun view s h => ?_
  · rintro s x ⟨y, hy, hchecked⟩ hi hx
    obtain rfl := Option.mem_unique hx hy
    have hok := hi.entry e x hx
    refine ⟨x, hx, hchecked.lock, hchecked.taken.trans hcollects.bytes.symm, ⟨?_, hcollects.chunk⟩,
      hchecked.exhausted, fun hd => hchecked.again ?_, fun hc hd => ?_⟩
    · rw [batchBytes, hcollects.bytes, ← hcollects.total]
      exact hcollects.total_le
    · rwa [Drained, hchecked.batches] at hd
    · exact (hok.ended hc (hchecked.exhausted hd).sender).2.1
  · exact Safe.bind (safe_finishBatch h) fun _ _ _ => trivial

/-! ## Closing -/

/-- The terminal is being closed. -/
def Closing (e : EntryId) (_ : Entry) (log : List TerminalEvent) : Prop := .closing e ∈ log

theorem stable_closing : (protocol calls).Stable i (At e (Closing e)) :=
  stable_at fun _ _ _ _ h hx => h.closing hx

/-- The terminal is being closed by the task that has the lock of its output. -/
structure Discarding (i : TerminalTask) (e : EntryId) (x : Entry) (log : List TerminalEvent) :
    Prop where
  lock : x.outputLock = some i
  taken : x.taken = []
  closing : .closing e ∈ log

theorem stable_discarding : (protocol calls).Stable i (At e (Discarding i e)) := by
  refine stable_at fun log log' x x' h hx => ?_
  obtain ⟨hlock, htaken, -⟩ := h.lock hx.lock
  exact ⟨hlock, htaken.trans hx.taken, h.closing hx.closing⟩

/-- A step on a terminal that is being closed. -/
theorem EntryStep.of_closing (hclosing : .closing e ∈ s.log) (hreceiver : x'.receiver <:+ x.receiver)
    (hsender : x'.sender = x.sender) (hunsent : x'.unsent = x.unsent)
    (hlock : ∀ j, j ≠ i → x.outputLock = some j →
      x'.outputLock = some j ∧ x'.taken = x.taken ∧ x'.carryover = x.carryover)
    (hcarryover : x'.carryover = x.carryover ∨ x'.carryover = none) : EntryStep i s e x x' :=
  ⟨fun _ => ⟨hsender, hunsent, hreceiver⟩, fun _ => .inr hclosing, fun _ _ => .inr hclosing, hlock,
    fun _ => hcarryover⟩

theorem safe_beginClose {finalState : TerminalState} :
    (protocol calls).Safe i (fun b s => b = true → At e (Closing e) s)
      (beginClose e finalState) s := by
  refine safe_act (k := .ret) stable_true trivial fun s₁ b s₂ _ hi hact => ?_
  obtain ⟨x, hx, hact⟩ := Option.map_eq_some_iff.1 hact
  split_ifs at hact
  · obtain ⟨⟩ := hact
    exact ⟨hi, .refl, nofun⟩
  · obtain ⟨⟩ := hact
    have hmem : TerminalEvent.closing e ∈ s₁.log ++ [TerminalEvent.closing e] := by simp
    have hok := (hi.entry e x hx).closing
    have hlogs : ∀ event ∈ [TerminalEvent.closing e], event.entry = e ∧ Logs i s₁ event := by
      intro event hevent
      rw [List.mem_singleton.1 hevent]
      exact ⟨rfl, trivial⟩
    obtain ⟨hi', hg⟩ : ((s₁.setEntry e (x.setState .closing)).record (.closing e)).Inv ∧
        Guarantee i s₁ _ := step_entry hi hx rfl rfl hlogs
      (justified_snoc.2 ⟨hi.rule, trivial⟩)
      (hok.of_closing hmem List.suffix_rfl (.inl rfl) hok.unlocked rfl rfl rfl)
      (.of_closing hmem List.suffix_rfl rfl rfl (fun _ _ h => ⟨h, rfl, rfl⟩) (.inl rfl))
    exact ⟨hi', hg, fun _ => ⟨_, update_self .., hmem⟩⟩

/-- A change of a terminal that is being closed. -/
theorem safe_changeClosing {K : Entry → List TerminalEvent → Prop} {f : Entry → Entry}
    (hstable : (protocol calls).Stable i (At e K)) (hK : ∀ x log, K x log → .closing e ∈ log)
    (hf : ∀ x log, K x log → K (f x) log)
    (hview : ∀ x, ∃ view cancelled, f x = { x with view := view, cancelled := cancelled })
    (h : At e K s) : (protocol calls).Safe i (fun _ => At e K) (change e f) s := by
  refine safe_change hstable h fun s x ⟨y, hy, hx'⟩ hi hx => ?_
  obtain rfl := Option.mem_unique hx hy
  have hK' := hf x s.log hx'
  obtain ⟨view, cancelled, heq⟩ := hview x
  rw [heq] at hK' ⊢
  have hok := hi.entry e x hx
  have hclosing := hK x s.log hx'
  exact ⟨hok.of_closing hclosing List.suffix_rfl (.inl rfl) hok.unlocked rfl rfl rfl,
    .of_closing hclosing List.suffix_rfl rfl rfl (fun _ _ h => ⟨h, rfl, rfl⟩) (.inl rfl),
    _, update_self .., hK'⟩

/-- What the task with the lock discards. -/
theorem Discarding.step (h : Discarding i e x log) (hok : EntryOk log e x)
    (hreceiver : x'.receiver <:+ x.receiver)
    (hcarryover : x'.carryover = x.carryover ∨ x'.carryover = none)
    (hsender : x'.sender = x.sender) (hunsent : x'.unsent = x.unsent)
    (htaken : x'.taken = x.taken) (hlog : s.log = log) :
    EntryOk log e x' ∧ EntryStep i s e x x' := by
  refine ⟨hok.of_closing h.closing hreceiver hcarryover (fun _ => htaken.trans h.taken) hsender hunsent
    htaken, .of_closing (hlog ▸ h.closing) hreceiver hsender hunsent (fun j hj hlock => ?_) hcarryover⟩
  exact absurd (Option.mem_unique hlock h.lock) hj

theorem safeOr_discardOutput (h : At e (Discarding i e) s) :
    (protocol calls).SafeOr i (fun _ => At e (Discarding i e)) (fun _ _ => False)
      (discardOutput e) s := by
  refine safeOr_loop (I := fun _ => At e (Discarding i e)) (fun _ s h => ?_) h
  refine SafeOr.bind (R := fun _ => At e (Discarding i e)) (safeOr_lift.2
    (safe_entrySection stable_discarding h fun s x b x' ⟨y, hy, hd⟩ hi hx hb => ?_)) fun r s h => ?_
  · obtain rfl := Option.mem_unique hx hy
    have hok := hi.entry e x hx
    split at hb
    · obtain ⟨⟩ := hb
      exact ⟨hok, .refl, x, update_self .., hd⟩
    · next chunk chunks hreceiver =>
      obtain ⟨⟩ := hb
      have hsuffix : chunks <:+ x.receiver := by
        rw [hreceiver]
        exact List.suffix_cons ..
      obtain ⟨hok', hstep⟩ : EntryOk s.log e { x with receiver := chunks } ∧ EntryStep i s e x _ :=
        hd.step hok hsuffix (.inl rfl) rfl rfl rfl rfl
      exact ⟨hok', hstep, _, update_self .., hd.lock, hd.taken, hd.closing⟩
  · cases r with
    | none => exact h
    | some => exact h

/-- A call that closes a terminal. -/
theorem safe_closeEntry {finalState : TerminalState} :
    (protocol calls).Safe i (fun _ _ => True) (closeEntry i e finalState) s := by
  refine Safe.bind safe_beginClose fun b s h => ?_
  cases b with
  | false => trivial
  | true =>
    refine Safe.bind (safe_changeClosing stable_closing (fun _ _ h => h)
      (fun _ _ h => h) (fun x => ⟨x.view, true, rfl⟩) (h rfl)) fun _ s h => ?_
    refine Safe.bind (safe_closeChannel stable_closing (fun _ _ _ _ h => h) h)
      fun _ s h => ?_
    refine Safe.bind (safe_lockOutput stable_closing h fun s x ⟨y, hy, h⟩ =>
      ⟨x, update_self .., h⟩) fun _ s ⟨⟨x, hx, hc⟩, _, _, y, hy, hhold⟩ => ?_
    obtain rfl := Option.mem_unique hx hy
    have hdiscarding : At e (Discarding i e) s := ⟨x, hx, hhold.lock, hhold.taken, hc⟩
    refine Safe.bind (R := fun _ => At e (Discarding i e)) (safe_change
      stable_discarding hdiscarding fun s x ⟨y, hy, hd⟩ hi hx => ?_) fun _ s h => ?_
    · obtain rfl := Option.mem_unique hx hy
      obtain ⟨hok, hstep⟩ : EntryOk s.log e { x with carryover := none } ∧ EntryStep i s e x _ :=
        hd.step (hi.entry e x hx) List.suffix_rfl (.inr rfl) rfl rfl rfl rfl
      exact ⟨hok, hstep, _, update_self .., hd.lock, hd.taken, hd.closing⟩
    refine Safe.bind (safeOr_discardOutput h) fun r s hr => ?_
    cases r with
    | error e => exact hr.elim
    | ok =>
      refine Safe.bind (safe_changeClosing stable_discarding (fun _ _ h => h.closing)
        (fun _ _ h => ⟨h.lock, h.taken, h.closing⟩) (fun x => ⟨_, x.cancelled, rfl⟩) hr) fun _ s h => ?_
      refine safe_change stable_discarding h fun s x ⟨y, hy, hd⟩ hi hx => ?_
      obtain rfl := Option.mem_unique hx hy
      obtain ⟨hok, hstep⟩ : EntryOk s.log e { x with outputLock := none } ∧ EntryStep i s e x _ :=
        hd.step (hi.entry e x hx) List.suffix_rfl (.inl rfl) rfl rfl rfl rfl
      exact ⟨hok, hstep, trivial⟩

end TerminalManager

end NexusOps.Terminal
