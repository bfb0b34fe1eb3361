import NexusOps.Terminal.Steps

/-!
# Safety of the task that reads the output

The task that reads the output of a terminal puts everything it reads into the queue, in
chunks (`safe_pumpOutput`), unless the terminal is closed meanwhile.
-/

namespace NexusOps.Terminal

open Concurrency Protocol Function

theorem isChunk_of_mem_chunks {l chunk : List UInt8} (h : chunk ∈ chunks OUTPUT_CHUNK_BYTES l) :
    IsChunk chunk := by
  obtain ⟨hne, hlength⟩ := of_mem_chunks (by decide) h
  exact ⟨hne, hlength⟩

namespace TerminalManager

variable {calls : TaskId → TerminalRequest} {s : TerminalManager} {i : TerminalTask}
  {e : EntryId} {x x' : Entry} {log log' : List TerminalEvent} {cs : List (List UInt8)}
  {r : Except AppError TerminalRead}

/-! ## What the task knows -/

/-- The terminal is open, and these chunks are still to be put into the queue. -/
structure Pumping (e : EntryId) (cs : List (List UInt8)) (x : Entry) (log : List TerminalEvent) :
    Prop where
  sender : x.sender = some (.pump e)
  unsent : x.unsent = cs.flatten
  reads : ∀ r ∈ reads log e, IsData r
  state : .closing e ∉ log → x.view.state = .open

/-- The end of the output has been read. -/
structure AtEnd (e : EntryId) (r : Except AppError TerminalRead) (x : Entry)
    (log : List TerminalEvent) : Prop where
  sender : x.sender = some (.pump e)
  unsent : x.unsent = []
  reads : Ended (reads log e)
  read : r ∈ Terminal.reads log e ∧ ¬IsData r
  state : .closing e ∉ log → x.view.state = .open

/-- The terminal has ended. -/
structure Finished (e : EntryId) (x : Entry) (log : List TerminalEvent) : Prop where
  sender : x.sender = some (.pump e)
  ended : .closing e ∉ log → x.unsent = [] ∧ ¬x.view.state.Live ∧ Ended (reads log e)

/-- The state of a terminal, if only others are at work. -/
theorem Others.state_of {p : TerminalState → Prop} (h : Others i e log log' x x')
    (hsender : x.sender = some i) (hp : .closing e ∉ log → p x.view.state)
    (hclosing : .closing e ∉ log') : p x'.view.state := by
  rw [(h.state hsender).resolve_right hclosing]
  exact hp fun hmem => hclosing (h.closing hmem)

theorem stable_pumping : (protocol calls).Stable (.pump e) (At e (Pumping e cs)) := by
  refine stable_at fun log log' x x' h ⟨hsender, hunsent, hreads, hstate⟩ => ?_
  obtain ⟨hsender', hunsent'⟩ := h.sender hsender
  refine ⟨hsender', hunsent'.trans hunsent, ?_, h.state_of (p := (· = .open)) hsender hstate⟩
  rwa [h.reads (.inl rfl)]

theorem stable_atEnd : (protocol calls).Stable (.pump e) (At e (AtEnd e r)) := by
  refine stable_at fun log log' x x' h ⟨hsender, hunsent, hreads, hread, hstate⟩ => ?_
  obtain ⟨hsender', hunsent'⟩ := h.sender hsender
  have heq := h.reads (.inl rfl)
  exact ⟨hsender', hunsent'.trans hunsent, heq ▸ hreads, heq ▸ hread,
    h.state_of (p := (· = .open)) hsender hstate⟩

theorem stable_finished : (protocol calls).Stable (.pump e) (At e (Finished e)) := by
  refine stable_at fun log log' x x' h ⟨hsender, hended⟩ => ?_
  obtain ⟨hsender', hunsent'⟩ := h.sender hsender
  refine ⟨hsender', fun hclosing => ?_⟩
  obtain ⟨hunsent, -, hreads⟩ := hended fun hmem => hclosing (h.closing hmem)
  refine ⟨hunsent'.trans hunsent, ?_, ?_⟩
  · exact h.state_of (p := fun state => ¬state.Live) hsender (fun hc => (hended hc).2.1) hclosing
  · rwa [h.reads (.inl rfl)]

/-- A task with the sender is free to do anything but take output. -/
theorem EntryStep.of_sender (h : x.sender = some i) (hlock : x'.outputLock = x.outputLock)
    (htaken : x'.taken = x.taken) (hcarryover : x'.carryover = x.carryover) :
    EntryStep i s e x x' :=
  ⟨fun hne => absurd h hne, fun hne => absurd h hne, fun hne => absurd h hne,
    fun _ _ hj => ⟨hlock.trans hj, htaken, hcarryover⟩, fun _ => .inl hcarryover⟩

/-- A terminal that was cancelled is being closed. -/
theorem Pumping.finished (h : Pumping e cs x log) (hok : EntryOk log e x)
    (hcancelled : x.cancelled = true) : Finished e x log :=
  ⟨h.sender, fun hclosing => absurd (hok.cancelled hcancelled h.sender) hclosing⟩

/-! ## Sending chunks -/

theorem Pumping.trySend {chunk : List UInt8} (h : Pumping e (chunk :: cs) x log)
    (hok : EntryOk log e x) (hchunk : IsChunk chunk) :
    EntryOk log e { x with
      receiver := x.receiver ++ [chunk]
      unsent := x.unsent.drop chunk.length } where
  receiver c hc := by
    rcases mem_snoc.1 hc with hc | rfl
    · exact hok.receiver c hc
    · exact hchunk
  carryover := hok.carryover
  conserved hclosing := by
    rw [hok.conserved hclosing, h.unsent]
    simp
  unlocked := hok.unlocked
  ended _ hnone := nomatch h.sender.symm.trans hnone
  spawned hsender hreads := by
    obtain ⟨hunsent, hstate⟩ := hok.spawned hsender hreads
    exact ⟨by rw [hunsent, List.drop_nil], hstate⟩
  cancelled := hok.cancelled
  drained hdrained := absurd hdrained (hok.not_drained h.sender)
  outcome := hok.outcome

theorem safeOr_sendChunks (hcs : ∀ chunk ∈ cs, IsChunk chunk) (h : At e (Pumping e cs) s) :
    (protocol calls).SafeOr (.pump e) (fun _ => At e (Pumping e []))
      (fun _ => At e (Finished e)) (sendChunks e cs) s := by
  induction cs generalizing s with
  | nil => exact h
  | cons chunk cs ih =>
    refine SafeOr.bind (R := fun r s => r.elim (At e (Finished e) s) fun _ =>
      At e (Pumping e cs) s) (safeOr_select stable_pumping h ?_ fun s h => ?_) fun r s hr => ?_
    · intro s x ⟨y, hy, hpump⟩ hi hx hcancelled
      obtain rfl := Option.mem_unique hx hy
      exact ⟨x, hx, hpump.finished (hi.entry e x hx) hcancelled⟩
    · refine safeOr_lift.2 (safe_entrySection stable_pumping h fun s x b x' ⟨y, hy, hpump⟩ hi hx hb => ?_)
      obtain rfl := Option.mem_unique hx hy
      have hok := hi.entry e x hx
      split_ifs at hb with hroom
      · obtain ⟨⟩ := hb
        refine ⟨hpump.trySend hok (hcs chunk List.mem_cons_self),
          .of_sender hpump.sender rfl rfl rfl, _, update_self .., hpump.sender, ?_,
          hpump.reads, hpump.state⟩
        rw [hpump.unsent]
        simp
      · obtain ⟨⟩ := hb
        exact ⟨hok, .refl, x, update_self .., hpump⟩
    · cases r with
      | none => exact hr
      | some => exact ih (fun c hc => hcs c (List.mem_cons_of_mem _ hc)) hr

/-! ## Reading -/

theorem received_read (h : ∀ r ∈ reads log e, IsData r) :
    received (log ++ [TerminalEvent.read e r]) e = received log e ++ readData r := by
  rw [received, reads_append, reads_read, dataOf_append h, dataOf_singleton]
  rfl

/-- What is known of a terminal after it has been read. -/
theorem Pumping.read (h : Pumping e [] x log)
    (hok : EntryOk log e x) : EntryOk (log ++ [TerminalEvent.read e r]) e { x with unsent := readData r } := by
  have hclosing : TerminalEvent.closing e ∈ log ++ [TerminalEvent.read e r] ↔ .closing e ∈ log := by simp
  have hnone : ∀ batch, .polled e batch ∉ [TerminalEvent.read e r] := by simp
  have hbatches : batches (log ++ [TerminalEvent.read e r]) e = batches log e := by
    rw [batches_append, batches_eq_nil hnone, List.append_nil]
  refine ⟨hok.receiver, hok.carryover, fun hc => ?_, hok.unlocked, fun _ hnone => ?_,
    fun _ hreads => ?_, fun hcancelled hsender => ?_, fun hdrained => ?_,
    fun hc _ => .inl (h.state (mt hclosing.2 hc))⟩
  · rw [hclosing] at hc
    have hunsent : x.unsent = [] := h.unsent
    rw [received_read h.reads, hok.conserved hc, hunsent, delivered, delivered, hbatches,
      List.append_nil]
  · cases h.sender.symm.trans hnone
  · rw [reads_append, reads_read] at hreads
    exact absurd hreads (by simp)
  · exact hclosing.2 (hok.cancelled hcancelled hsender)
  · rw [Drained, hbatches] at hdrained
    exact absurd hdrained (hok.not_drained h.sender)

/-- What follows a result. -/
def AfterRead (e : EntryId) (r : Except AppError TerminalRead) (x : Entry)
    (log : List TerminalEvent) : Prop :=
  match r with
  | .ok (.data data) => Pumping e (chunks OUTPUT_CHUNK_BYTES data) x log
  | r => AtEnd e r x log

theorem Pumping.afterRead (h : Pumping e [] x log) :
    AfterRead e r { x with unsent := readData r } (log ++ [TerminalEvent.read e r]) := by
  have hstate : TerminalEvent.closing e ∉ log ++ [TerminalEvent.read e r] → x.view.state = .open := fun hc =>
    h.state fun hmem => hc (List.mem_append_left _ hmem)
  have hreads : Terminal.reads (log ++ [TerminalEvent.read e r]) e = Terminal.reads log e ++ [r] := by
    rw [reads_append, reads_read]
  have hend : ¬IsData r → AtEnd e r { x with unsent := readData r } (log ++ [TerminalEvent.read e r]) :=
    fun hr => ⟨h.sender, readData_eq_nil hr, ⟨_, r, hreads, h.reads, hr⟩,
      ⟨hreads ▸ List.mem_append_cons_self, hr⟩, hstate⟩
  rcases r with error | data | status | _
  · exact hend nofun
  · refine ⟨h.sender, (flatten_chunks (by decide) data).symm, ?_, hstate⟩
    rw [hreads]
    intro r hr
    rcases mem_snoc.1 hr with hr | hr
    · exact h.reads r hr
    · exact ⟨data, hr⟩
  · exact hend nofun
  · exact hend nofun

theorem safe_noteRead (h : At e (Pumping e []) s) :
    (protocol calls).Safe (.pump e) (fun _ => At e (AfterRead e r)) (noteRead e r) s := by
  refine safe_act (k := .ret) stable_pumping h fun s₁ b s₂ ⟨x, hx, hpump⟩ hi hact => ?_
  rw [hx, Option.map_some] at hact
  obtain ⟨⟩ := hact
  have hlogs : ∀ event ∈ [TerminalEvent.read e r], event.entry = e ∧ Logs (.pump e) s₁ event := by
    intro event hevent
    rw [List.mem_singleton.1 hevent]
    exact ⟨rfl, rfl, x, hx, hpump.sender⟩
  obtain ⟨hi', hg⟩ : ((s₁.setEntry e { x with unsent := readData r }).record (.read e r)).Inv ∧
      Guarantee (.pump e) s₁ _ := step_entry hi hx rfl rfl hlogs
    (justified_snoc.2 ⟨hi.rule, trivial⟩) (hpump.read (hi.entry e x hx))
    (.of_sender hpump.sender rfl rfl rfl)
  exact ⟨hi', hg, _, update_self .., hpump.afterRead⟩

theorem not_live_endState : ¬(endState r).Live := by
  cases r with
  | ok => exact (by decide : ¬TerminalState.closed.Live)
  | error error =>
    rw [endState, failedState]
    split_ifs
    · decide
    · decide

/-- The state of a terminal is changed when it has ended. -/
theorem safe_end {f : Entry → Entry} (h : At e (AtEnd e r) s)
    (hf : ∀ x, ∃ view, f x = { x with view := view } ∧
      (x.view.state = .open → view.state = endState r)) :
    (protocol calls).Safe (.pump e) (fun _ => At e (Finished e)) (change e f) s := by
  refine safe_change stable_atEnd h fun s x ⟨y, hy, hend⟩ hi hx => ?_
  obtain rfl := Option.mem_unique hx hy
  obtain ⟨view, hview, hend'⟩ := hf x
  have hok := hi.entry e x hx
  have hne : reads s.log e ≠ [] := by
    obtain ⟨rs, r, hrs, -⟩ := hend.reads
    rw [hrs]
    exact List.append_ne_nil_of_right_ne_nil _ nofun
  rw [hview]
  refine ⟨⟨hok.receiver, hok.carryover, hok.conserved, hok.unlocked, fun _ hnone => ?_,
    fun _ hreads => absurd hreads hne, hok.cancelled, hok.drained, fun hc _ => ?_⟩,
    .of_sender hend.sender rfl rfl rfl, _, update_self .., hend.sender, fun hc => ?_⟩
  · nomatch hend.sender.symm.trans hnone
  · exact .inr ⟨r, hend.read.1, hend.read.2, hend' (hend.state hc)⟩
  · exact ⟨hend.unsent, hend' (hend.state hc) ▸ not_live_endState, hend.reads⟩

theorem safeOr_handleRead (h : At e (AfterRead e r) s) :
    (protocol calls).SafeOr (.pump e) (fun _ => At e (Pumping e []))
      (fun _ => At e (Finished e)) (handleRead e r) s := by
  have hclosed : ∀ x : Entry, ∃ view,
      (if x.view.state = .open then x.setState .closed else x) = { x with view := view } ∧
        (x.view.state = .open → view.state = .closed) := by
    intro x
    split_ifs with hopen
    · exact ⟨_, rfl, fun _ => rfl⟩
    · exact ⟨x.view, rfl, fun h => absurd h hopen⟩
  rcases r with error | data | status | _
  · refine safeOr_bind.2 (safeOr_lift.2 (safe_end h fun x => ?_))
    split_ifs with hopen
    · exact ⟨_, rfl, fun _ => rfl⟩
    · exact ⟨x.view, rfl, fun h => absurd h hopen⟩
  · exact safeOr_sendChunks (fun chunk => isChunk_of_mem_chunks) h
  · exact safeOr_bind.2 (safeOr_lift.2 (safe_end h hclosed))
  · exact safeOr_bind.2 (safeOr_lift.2 (safe_end h hclosed))

theorem safeOr_pumpLoop (h : At e (Pumping e []) s) :
    (protocol calls).SafeOr (.pump e) (fun _ => At e (Finished e)) (fun _ => At e (Finished e))
      (pumpLoop e) s := by
  refine safeOr_loop (I := fun _ => At e (Pumping e [])) (fun _ s h => ?_) h
  refine SafeOr.bind (R := fun r s => r.elim (At e (Finished e) s) fun _ =>
    At e (Pumping e []) s) (safeOr_select stable_pumping h ?_ fun s h => ?_) fun r s hr => ?_
  · intro s x ⟨y, hy, hpump⟩ hi hx hcancelled
    obtain rfl := Option.mem_unique hx hy
    exact ⟨x, hx, hpump.finished (hi.entry e x hx) hcancelled⟩
  · refine safeOr_ask fun r => ?_
    cases r <;> exact h
  · cases r with
    | none => exact hr
    | some r =>
      refine safeOr_liftThen (safe_noteRead hr) fun _ s h => ?_
      exact SafeOr.bind (safeOr_handleRead h) fun _ s h => h

/-! ## The task -/

/-- The channel is closed. -/
theorem safe_closeChannel {K : Entry → List TerminalEvent → Prop}
    (hstable : (protocol calls).Stable i (At e K))
    (hK : ∀ x log channel lock, K x log → K { x with channel := channel, channelLock := lock } log)
    (h : At e K s) : (protocol calls).Safe i (fun _ => At e K) (closeChannel i e) s := by
  have hchange : ∀ {s : TerminalManager} {x : Entry} {channel lock}, At e K s → s.Inv →
      s.entries e = some x →
      EntryOk s.log e { x with channel := channel, channelLock := lock } ∧
        EntryStep i s e x { x with channel := channel, channelLock := lock } ∧
        At e K (s.setEntry e { x with channel := channel, channelLock := lock }) := by
    rintro s x channel lock ⟨y, hy, h⟩ hi hx
    obtain rfl := Option.mem_unique hx hy
    obtain ⟨h₁, h₂, h₃, h₄, h₅, h₆, h₇, h₈, h₉⟩ := hi.entry e x hx
    exact ⟨⟨h₁, h₂, h₃, h₄, h₅, h₆, h₇, h₈, h₉⟩,
      ⟨fun _ => ⟨rfl, rfl, List.suffix_rfl⟩, fun _ => .inl rfl, fun _ => .inl,
        fun _ _ h => ⟨h, rfl, rfl⟩, fun _ => .inl rfl⟩,
      _, update_self .., hK x s.log channel lock h⟩
  have hunlock : ∀ {s : TerminalManager}, At e K s → (protocol calls).Safe i (fun _ => At e K)
      (change e fun x => { x with channelLock := none }) s := fun h =>
    safe_change hstable h fun s x h hi hx => hchange h hi hx
  refine Safe.bind (R := fun _ => At e K)
    (safe_entrySection hstable h fun s x b x' h hi hx hb => ?_) fun b s h => ?_
  · split_ifs at hb
    obtain ⟨⟩ := hb
    exact hchange h hi hx
  · cases b with
    | true => exact safe_bind.2 (safe_ask fun _ => hunlock h)
    | false => exact hunlock h

/-- Only the task itself reads the output. -/
theorem stable_noReads : (protocol calls).Stable (.pump e) fun s => reads s.log e = [] := by
  rintro s s' ⟨-, -, henv | ⟨j, hj, hg⟩⟩ h
  · exact henv.elim
  · obtain ⟨es, hlog, hes⟩ := hg.log
    rw [hlog, reads_append, h, reads_eq_nil fun r hr => hj (hes _ hr).1]
    rfl

/-- The task that reads the output of a terminal. -/
theorem safe_pumpOutput (h : reads s.log e = []) :
    (protocol calls).Safe (.pump e) (fun _ _ => True) (pumpOutput e) s := by
  refine Safe.bind (R := fun _ => At e (Pumping e []))
    (safe_entrySection stable_noReads h fun s x b x' hreads hi hx hb => ?_) fun _ s h => ?_
  · split_ifs at hb with hsender
    obtain ⟨⟩ := hb
    have hok := hi.entry e x hx
    obtain ⟨hunsent, hstate⟩ := hok.spawned hsender hreads
    refine ⟨hok, .refl, x, update_self .., hsender, hunsent, ?_, hstate⟩
    rw [setEntry_self hx, hreads]
    exact fun r hr => absurd hr List.not_mem_nil
  · have hend : ∀ {s : TerminalManager}, At e (Finished e) s →
        (protocol calls).Safe (.pump e) (fun _ _ => True)
          (change e fun x => { x with sender := none }) s := fun h => by
      refine safe_change stable_finished h fun s x ⟨y, hy, hfin⟩ hi hx => ?_
      obtain rfl := Option.mem_unique hx hy
      have hok := hi.entry e x hx
      refine ⟨⟨hok.receiver, hok.carryover, hok.conserved, hok.unlocked, fun hc _ => ?_, nofun,
        fun _ => nofun, fun hdrained => ?_, hok.outcome⟩, .of_sender hfin.sender rfl rfl rfl,
        trivial⟩
      · obtain ⟨hunsent, hlive, hreads⟩ := hfin.ended hc
        exact ⟨hunsent, hlive, fun _ => hreads⟩
      · exact absurd hdrained (hok.not_drained hfin.sender)
    have hclose : ∀ {s : TerminalManager}, At e (Finished e) s →
        (protocol calls).Safe (.pump e) (fun _ => At e (Finished e))
          (closeChannel (.pump e) e) s := fun h =>
      safe_closeChannel stable_finished (fun x log _ _ ⟨h₁, h₂⟩ => ⟨h₁, h₂⟩) h
    refine Safe.bind (safeOr_pumpLoop h) fun r s hr => ?_
    rcases r with (_ | _) | _
    · exact Safe.bind (hclose hr) fun _ s h => hend h
    · exact hend hr
    · exact Safe.bind (hclose hr) fun _ s h => hend h

end TerminalManager

end NexusOps.Terminal
