import NexusOps.Desktop.TerminalFlow
import NexusOps.Terminal.PollSafety

/-!
# Safety of the terminal manager

Every task keeps to the protocol (`sound_protocol`). Therefore, in every run, what is
delivered of the output of a terminal is what has been read from it, in the same order and
without gaps (`output_of_run`), unless the terminal is closed.
-/

namespace NexusOps.Terminal

open Concurrency Protocol Encoding Function

/-- The renderer accepts a batch. -/
theorem WithinLimits.writeConsumed {batch : TerminalOutputBatch}
    (h : WithinLimits batch) : ∃ written,
      Desktop.writeConsumed batch.chunksBase64 = .ok written ∧
        written.flatten = batchBytes batch := by
  refine Desktop.writeConsumed_eq_ok (fun text htext => ?_) h.length_le
  obtain ⟨chunk, hdecode, hchunk⟩ := h.chunk text htext
  exact ⟨chunk, hdecode, hchunk.length_le⟩

namespace TerminalManager

variable {calls : TaskId → TerminalRequest} {s : TerminalManager} {t : TaskId}
  {i : TerminalTask} {e : EntryId} {x x' : Entry} {log : List TerminalEvent}
  {p q : TerminalState → Prop} {id : TerminalSessionId}

/-! ## Opening a terminal -/

/-- The terminal is being opened by the call, and is in such a state. -/
structure Opening (t : TaskId) (e : EntryId) (p : TerminalState → Prop) (x : Entry)
    (log : List TerminalEvent) : Prop where
  sender : x.sender = some (.call t)
  unsent : x.unsent = []
  reads : reads log e = []
  opened : .opened e ∉ log
  state : .closing e ∉ log → p x.view.state

/-- The terminal has not been cancelled, as far as the call knows. -/
structure Starting (t : TaskId) (e : EntryId) (x : Entry) (log : List TerminalEvent) : Prop extends
    Opening t e (· = .creating) x log where
  cancelled : .closing e ∉ log → x.cancelled = false

/-- The terminal could not be opened. -/
abbrev Unopened (t : TaskId) (e : EntryId) : Entry → List TerminalEvent → Prop :=
  Opening t e fun state => ¬state.Live

theorem Others.opening {log' : List TerminalEvent} (h : Others (.call t) e log log' x x')
    (hx : Opening t e p x log) : Opening t e p x' log' := by
  obtain ⟨hsender, hunsent⟩ := h.sender hx.sender
  exact ⟨hsender, hunsent.trans hx.unsent, (h.reads (.inr hx.sender)).trans hx.reads,
    fun hmem => hx.opened (h.opened hx.sender hmem), h.state_of hx.sender hx.state⟩

theorem stable_opening : (protocol calls).Stable (.call t) (At e (Opening t e p)) :=
  stable_at fun _ _ _ _ h hx => h.opening hx

/-- Others only cancel a terminal to close it. -/
theorem Others.not_cancelled {log' : List TerminalEvent} (h : Others i e log log' x x')
    (hsender : x.sender = some i) (hx : .closing e ∉ log → x.cancelled = false)
    (hc : .closing e ∉ log') : x'.cancelled = false := by
  by_contra hcancelled
  rcases h.cancelled hsender (by simpa using hcancelled) with hcancelled | hclosing
  · rw [hx fun hmem => hc (h.closing hmem)] at hcancelled
    nomatch hcancelled
  · exact hc hclosing

theorem stable_starting : (protocol calls).Stable (.call t) (At e (Starting t e)) :=
  stable_at fun _ _ _ _ h hx =>
    ⟨h.opening hx.toOpening, h.not_cancelled hx.sender hx.cancelled⟩

theorem Opening.mono (h : Opening t e p x log) (hpq : ∀ state, p state → q state) :
    Opening t e q x log :=
  ⟨h.sender, h.unsent, h.reads, h.opened, fun hc => hpq _ (h.state hc)⟩

/-- A call that is opening a terminal changes its state or cancels it. -/
theorem safe_changeOpening {f : Entry → Entry} (h : At e (Opening t e p) s)
    (hf : ∀ x, ∃ view cancelled, f x = { x with view := view, cancelled := cancelled } ∧
      (p x.view.state → q view.state)) :
    (protocol calls).Safe (.call t) (fun _ => At e (Opening t e q)) (change e f) s := by
  refine safe_change stable_opening h fun s x ⟨y, hy, hopening⟩ hi hx => ?_
  obtain rfl := Option.mem_unique hx hy
  obtain ⟨view, cancelled, heq, hq⟩ := hf x
  have hok := hi.entry e x hx
  have hpump : x.sender ≠ some (.pump e) := by
    rw [hopening.sender]
    exact nofun
  have hsender : x.sender ≠ none := by
    rw [hopening.sender]
    exact nofun
  rw [heq]
  refine ⟨⟨hok.receiver, hok.carryover, hok.conserved, hok.unlocked, fun _ h => absurd h hsender,
    fun h => absurd h hpump, fun _ h => absurd h hpump, hok.drained,
    fun _ h => absurd h hopening.opened⟩,
    .of_sender hopening.sender rfl rfl rfl, _, update_self .., hopening.sender,
    hopening.unsent, hopening.reads, hopening.opened, fun hc => hq (hopening.state hc)⟩

theorem safe_forget {K : Entry → List TerminalEvent → Prop}
    (hstable : (protocol calls).Stable i (At e K)) (h : At e K s) :
    (protocol calls).Safe i (fun _ => At e K) (Proc.modify (·.forget id)) s := by
  refine safe_modify (k := .ret) hstable h fun s₁ ⟨x, hx, hK⟩ hi => ?_
  obtain ⟨hi', hg⟩ : (s₁.forget id).Inv ∧ Guarantee i s₁ _ := step_quiet hi rfl rfl
  exact ⟨hi', hg, x, hx, hK⟩

/-- What is left when a call is dropped. -/
theorem safe_drop (h : At e (Opening t e (· ≠ .open)) s) :
    (protocol calls).Safe (.call t) (fun _ => At e (Unopened t e)) (StartupGuard.drop id e) s := by
  refine Safe.bind (safe_changeOpening (q := (· ≠ .open)) h fun x =>
    ⟨x.view, true, rfl, fun h => h⟩) fun _ s h => ?_
  refine Safe.bind (safe_changeOpening (q := fun state => ¬state.Live) h fun x => ?_)
    fun _ s h => ?_
  · split_ifs with hcreating
    · exact ⟨_, x.cancelled, rfl, fun _ => (by decide : ¬TerminalState.disconnected.Live)⟩
    · exact ⟨x.view, x.cancelled, rfl, fun hopen hlive => hlive.elim hcreating hopen⟩
  · refine safe_bind.2 (safe_ask fun b => ?_)
    cases b with
    | false => exact h
    | true => exact safe_forget stable_opening h

theorem safeAsync_awaitStartup {β : Type} {K : Entry → List TerminalEvent → Prop}
    {F : AppError → TerminalManager → Prop} (h : At e K s)
    (hK : ∀ x log, K x log → Opening t e (· ≠ .open) x log) :
    (protocol calls).SafeAsync (.call t) (fun _ => At e K) F (At e (Unopened t e))
      (awaitStartup id e β) s := by
  obtain ⟨x, hx, h'⟩ := h
  exact safeAsync_await (fun _ => ⟨x, hx, h'⟩) (safe_drop ⟨x, hx, hK x s.log h'⟩)

theorem ne_open_of_creating (state : TerminalState) (h : state = .creating) : state ≠ .open := by
  rw [h]
  exact nofun

theorem ne_open_of_not_live (state : TerminalState) (h : ¬state.Live) : state ≠ .open :=
  fun hopen => h (.inr hopen)

/-- A terminal that was cancelled is being closed. -/
theorem Starting.unopened (h : Starting t e x log)
    (hx : x.cancelled = true ∨ x.view.state ≠ .creating) : Unopened t e x log := by
  refine ⟨h.sender, h.unsent, h.reads, h.opened, fun hc => ?_⟩
  rcases hx with hcancelled | hstate
  · rw [h.cancelled hc] at hcancelled
    nomatch hcancelled
  · exact absurd (h.state hc) hstate

theorem safeAsync_failStartup {error : AppError} (h : At e (Starting t e) s) :
    (protocol calls).SafeAsync (.call t) (fun _ _ => True) (fun _ => At e (Unopened t e))
      (At e (Unopened t e)) (failStartup id e error) s := by
  -- Unless it is being closed, the terminal is in the state in which it was seen.
  let Seen (state : TerminalState) : Entry → List TerminalEvent → Prop :=
    Opening t e fun state' => state' = .creating ∧ state = .creating
  refine SafeOr.bind (R := fun state => At e (Seen state)) (safeOr_lift.2
    (safe_look stable_starting h fun s x ⟨y, hy, hstarting⟩ hi hx => ?_)) fun state s h => ?_
  · obtain rfl := Option.mem_unique hx hy
    exact ⟨x, hx, hstarting.sender, hstarting.unsent, hstarting.reads, hstarting.opened, fun hc =>
      ⟨hstarting.state hc, hstarting.state hc⟩⟩
  refine SafeOr.bind (R := fun _ => At e (Seen state)) (safeOr_lift.2
    (safe_changeOpening h fun x => ⟨x.view, true, rfl, fun h => h⟩)) fun _ s h => ?_
  by_cases hstate : state = .creating
  · rw [if_pos hstate]
    refine SafeOr.bind (R := fun _ => At e (Unopened t e)) (safeOr_lift.2
      (safe_changeOpening h fun x => ⟨_, x.cancelled, rfl, fun _ => ?_⟩)) fun _ s h => ?_
    · dsimp only
      split_ifs
      · exact (by decide : ¬TerminalState.disconnected.Live)
      · exact (by decide : ¬TerminalState.failed.Live)
    refine SafeOr.bind (safeAsync_awaitStartup h fun _ _ h => h.mono ne_open_of_not_live)
      fun _ s h => ?_
    exact SafeOr.bind (safeOr_lift.2 (safe_forget stable_opening h)) fun _ s h => h
  · rw [if_neg hstate]
    obtain ⟨x, hx, hseen⟩ := h
    exact ⟨x, hx, hseen.mono fun _ h => absurd h.2 hstate⟩

/-- The terminal is open, but its output is not read yet. -/
structure Accepted (t : TaskId) (e : EntryId) (x : Entry) (log : List TerminalEvent) : Prop where
  sender : x.sender = some (.call t)
  unsent : x.unsent = []
  reads : reads log e = []
  state : .closing e ∉ log → x.view.state = .open
  cancelled : .closing e ∉ log → x.cancelled = false

theorem stable_accepted : (protocol calls).Stable (.call t) (At e (Accepted t e)) := by
  refine stable_at fun log log' x x' h hx => ?_
  obtain ⟨hsender, hunsent⟩ := h.sender hx.sender
  refine ⟨hsender, hunsent.trans hx.unsent, (h.reads (.inr hx.sender)).trans hx.reads,
    h.state_of (p := (· = .open)) hx.sender hx.state, h.not_cancelled hx.sender hx.cancelled⟩

/-- What is known of a terminal once it is open. -/
theorem Starting.accept (h : Starting t e x log) (hok : EntryOk log e x) :
    EntryOk (log ++ [TerminalEvent.opened e]) e { x.setState .open with channel := true } := by
  have hclosing : TerminalEvent.closing e ∈ log ++ [TerminalEvent.opened e] ↔ .closing e ∈ log := by simp
  have hnoread : ∀ r, .read e r ∉ [TerminalEvent.opened e] := by simp
  have hnobatch : ∀ batch, .polled e batch ∉ [TerminalEvent.opened e] := by simp
  have hreads : Terminal.reads (log ++ [TerminalEvent.opened e]) e = Terminal.reads log e := by
    rw [reads_append, reads_eq_nil hnoread, List.append_nil]
  have hbatches : batches (log ++ [TerminalEvent.opened e]) e = batches log e := by
    rw [batches_append, batches_eq_nil hnobatch, List.append_nil]
  have hpump : x.sender ≠ some (.pump e) := by
    rw [h.sender]
    exact nofun
  refine ⟨hok.receiver, hok.carryover, ?_, hok.unlocked, fun _ hnone => ?_,
    fun hsender => absurd hsender hpump, fun _ hsender => absurd hsender hpump, ?_,
    fun _ _ => .inl rfl⟩
  · rw [hclosing, received, delivered, hreads, hbatches]
    exact hok.conserved
  · cases h.sender.symm.trans hnone
  · rw [Drained, hbatches]
    exact hok.drained

theorem safe_acceptChannel (h : At e (Starting t e) s) :
    (protocol calls).Safe (.call t)
      (fun b => At e (if b then Accepted t e else Unopened t e)) (acceptChannel e) s := by
  refine safe_act (k := .ret) stable_starting h fun s₁ b s₂ ⟨x, hx, hstarting⟩ hi hact => ?_
  rw [hx, Option.bind_some] at hact
  split_ifs at hact with hlock hcancelled
  · obtain ⟨⟩ := hact
    exact ⟨hi, .refl, x, hx, hstarting.unopened hcancelled⟩
  · obtain ⟨⟩ := hact
    have hlogs : ∀ event ∈ [TerminalEvent.opened e],
        event.entry = e ∧ Logs (.call t) s₁ event := by
      intro event hevent
      rw [List.mem_singleton.1 hevent]
      exact ⟨rfl, x, hx, hstarting.sender⟩
    obtain ⟨hi', hg⟩ : ((s₁.setEntry e { x.setState .open with channel := true }).record
        (.opened e)).Inv ∧ Guarantee (.call t) s₁ _ := step_entry hi hx rfl rfl hlogs
      (justified_snoc.2 ⟨hi.rule, trivial⟩) (hstarting.accept (hi.entry e x hx))
      (.of_sender hstarting.sender rfl rfl rfl)
    refine ⟨hi', hg, _, update_self .., hstarting.sender, hstarting.unsent, ?_,
      fun _ => rfl, fun hc => hstarting.cancelled fun hmem => hc (List.mem_append_left _ hmem)⟩
    have hnoread : ∀ r, .read e r ∉ [TerminalEvent.opened e] := by simp
    exact (reads_append.trans (congrArg _ (reads_eq_nil hnoread))).trans
      ((List.append_nil _).trans hstarting.reads)

theorem safeAsync_startTerminal (h : At e (Starting t e) s) :
    (protocol calls).SafeAsync (.call t) (fun _ _ => True) (fun _ => At e (Unopened t e))
      (At e (Unopened t e)) (startTerminal id e) s := by
  refine SafeOr.bind (safeAsync_awaitStartup h fun _ _ h => h.mono ne_open_of_creating)
    fun _ s h => ?_
  refine SafeOr.bind (safeOr_lift.2 (safe_acceptChannel h)) fun b s h => ?_
  cases b with
  | true =>
    refine SafeOr.bind (R := fun _ _ => True) (safeOr_lift.2 (safe_change stable_accepted h
      fun s x ⟨y, hy, haccepted⟩ hi hx => ?_)) fun _ s _ => ?_
    · obtain rfl := Option.mem_unique hx hy
      have hok := hi.entry e x hx
      refine ⟨⟨hok.receiver, hok.carryover, hok.conserved, hok.unlocked, fun _ => nofun,
        fun _ _ => ⟨haccepted.unsent, haccepted.state⟩, fun hcancelled _ => ?_, fun hdrained => ?_,
        hok.outcome⟩,
        .of_sender haccepted.sender rfl rfl rfl, trivial⟩
      · by_contra hc
        nomatch (haccepted.cancelled hc).symm.trans hcancelled
      · exact absurd hdrained (hok.not_drained haccepted.sender)
    · exact safeOr_lift.2 (safe_look stable_true trivial fun _ _ _ _ _ => trivial)
  | false =>
    exact SafeOr.bind (safeAsync_awaitStartup h fun _ _ h => h.mono ne_open_of_not_live)
      fun _ s h => h

theorem safeAsync_openChannel (h : At e (Starting t e) s) :
    (protocol calls).SafeAsync (.call t) (fun _ _ => True) (fun _ => At e (Unopened t e))
      (At e (Unopened t e)) (openChannel id e) s := by
  refine SafeOr.bind (R := fun _ => At e (Starting t e)) (safeOr_select stable_starting h
    (fun _ _ h _ _ _ => h) fun s h => SafeOr.mono (safeAsync_awaitStartup h fun _ _ h =>
      h.mono ne_open_of_creating) (fun r s h => ?_) fun _ _ h => h) fun opened s h => ?_
  · cases r with
    | none => exact h
    | some => exact h
  rcases hopened : opened.getD (.error creationCancelled) with error | _
  · exact safeAsync_failStartup h
  · refine SafeOr.bind (R := fun b => At e (if b then Unopened t e else Starting t e))
      (safeOr_lift.2 (safe_look stable_starting h fun s x ⟨y, hy, hstarting⟩ hi hx => ?_))
      fun b s h => ?_
    · obtain rfl := Option.mem_unique hx hy
      refine ⟨x, hx, ?_⟩
      split_ifs with hcancelled
      · exact hstarting.unopened (.inl hcancelled)
      · exact hstarting
    · cases b with
      | false => exact safeAsync_startTerminal h
      | true =>
        refine SafeOr.bind (safeAsync_awaitStartup h fun _ _ h => h.mono ne_open_of_not_live)
          fun _ s h => ?_
        exact SafeOr.bind (safeOr_lift.2 (safe_changeOpening h fun x => ⟨_, x.cancelled, rfl,
          fun _ => (by decide : ¬TerminalState.disconnected.Live)⟩)) fun _ s h => h

/-! ## Inserting a terminal -/

/-- Nothing has been logged about a terminal that is not there. -/
theorem Inv.not_mem_log (hi : s.Inv) (he : s.entries e = none) {event : TerminalEvent}
    (hevent : event.entry = e) : event ∉ s.log :=
  fun hmem => hi.known event hmem (hevent ▸ he)

/-- A terminal as it is inserted. -/
def fresh (t : TaskId) (view : TerminalSession) : Entry :=
  ⟨view, false, none, [], some (.call t), none, none, false, [], []⟩

variable {view : TerminalSession}

theorem Inv.fresh_ok (hi : s.Inv) (he : s.entries e = none) : EntryOk s.log e (fresh t view) := by
  have hreads : reads s.log e = [] := reads_eq_nil fun r => hi.not_mem_log he rfl
  have hbatches : batches s.log e = [] := batches_eq_nil fun batch => hi.not_mem_log he rfl
  refine ⟨nofun, nofun, fun _ => ?_, fun _ => rfl, fun _ => nofun, nofun, fun _ => nofun, ?_,
    fun _ h => absurd h (hi.not_mem_log he rfl)⟩
  · rw [received, delivered, hreads, hbatches]
    rfl
  · rintro ⟨batch, hmem, -⟩
    rw [hbatches] at hmem
    exact absurd hmem List.not_mem_nil

theorem step_insert {s' : TerminalManager} (hi : s.Inv) (he : s.entries e = none)
    (hentries : s'.entries = update s.entries e (some (fresh t view)))
    (hlog : s'.log = s.log) : s'.Inv ∧ Guarantee i s s' := by
  have hother : ∀ e', e' ≠ e → s'.entries e' = s.entries e' := fun e' hne => by
    rw [hentries, update_of_ne hne]
  have hself : s'.entries e = some (fresh t view) := by rw [hentries, update_self]
  refine ⟨⟨fun e' x hx => ?_, fun event hevent => ?_, hlog ▸ hi.rule⟩, ⟨[], by simp [hlog], by simp⟩,
    fun e' x hx => ⟨x, ?_, .refl⟩⟩
  · rw [hlog]
    rcases eq_or_ne e' e with rfl | hne
    · obtain rfl := Option.mem_unique hself hx
      exact hi.fresh_ok he
    · exact hi.entry e' x ((hother e' hne).symm.trans hx)
  · rw [hlog] at hevent
    rw [hother event.entry fun heq => hi.not_mem_log he heq hevent]
    exact hi.known event hevent
  · refine (hother e' ?_).trans hx
    rintro rfl
    nomatch he.symm.trans hx

theorem safeAsync_insertEntry {host : HostId} {session : HostSessionId} {size : TerminalSize} :
    (protocol calls).SafeAsync (.call t) (fun _ => At e (Starting t e)) (fun _ _ => True)
      (fun _ => True) (.act (insertEntry (.call t) host session size id e)) s := by
  refine safeOr_act stable_true trivial fun s₁ r s₂ _ hi hact => ?_
  rw [insertEntry] at hact
  split_ifs at hact with hcount hfresh
  · obtain ⟨⟩ := hact
    exact ⟨hi, .refl, trivial⟩
  · obtain ⟨rfl, hs₂⟩ := Proc.result_inj hact
    let number := min ((s₁.nextLabel.get host).getD 0 + 1) (2 ^ 32 - 1)
    let view : TerminalSession :=
      ⟨id, host, session, "Terminal " ++ toString number, .creating, size, none⟩
    have hlog : s₂.log = s₁.log := by rw [← hs₂]
    have hentries : s₂.entries = update s₁.entries e (some (fresh t view)) := by
      rw [← hs₂]
      rfl
    obtain ⟨hi', hg⟩ := step_insert (i := .call t) hi hfresh.2 hentries hlog
    refine ⟨hi', hg, fresh t view, by rw [hentries, update_self], ⟨rfl, rfl, ?_, ?_,
      fun _ => rfl⟩, fun _ => rfl⟩
    · rw [hlog]
      exact reads_eq_nil fun r => hi.not_mem_log hfresh.2 rfl
    · rw [hlog]
      exact hi.not_mem_log hfresh.2 rfl

/-- A call that has not opened its terminal drops the sender. -/
theorem safe_dropSender (h : At e (Unopened t e) s) :
    (protocol calls).Safe (.call t) (fun _ _ => True)
      (change e fun x => { x with sender := none }) s := by
  refine safe_change stable_opening h fun s x ⟨y, hy, hopening⟩ hi hx => ?_
  obtain rfl := Option.mem_unique hx hy
  have hok := hi.entry e x hx
  refine ⟨⟨hok.receiver, hok.carryover, hok.conserved, hok.unlocked, fun hc _ => ?_, nofun,
    fun _ => nofun, fun hdrained => ?_, hok.outcome⟩, .of_sender hopening.sender rfl rfl rfl,
    trivial⟩
  · exact ⟨hopening.unsent, hopening.state hc, fun hmem => absurd hmem hopening.opened⟩
  · exact absurd hdrained (hok.not_drained hopening.sender)

/-- A call that opens a terminal. -/
theorem safeAsync_openWithTimeout {host : HostId} {session : HostSessionId} {size : TerminalSize} :
    (protocol calls).SafeAsync (.call t) (fun _ _ => True) (fun _ _ => True) (fun _ => True)
      (openWithTimeout t host session size) s := by
  refine SafeOr.bind (safeAsync_ofExcept (Q := fun _ _ => True) (fun _ _ => trivial)
    fun _ _ => trivial) fun size s _ => ?_
  refine SafeOr.bind (safeOr_ask (Q := fun _ _ => True) fun _ => trivial) fun id s _ => ?_
  refine SafeOr.bind (safeOr_ask (Q := fun _ _ => True) fun _ => trivial) fun e s _ => ?_
  refine SafeOr.bind safeAsync_insertEntry fun _ s h => safeOr_onError ?_
  refine SafeOr.mono (safeAsync_openChannel h) (fun _ _ _ => trivial) fun error s h => ?_
  cases error with
  | error => exact safe_dropSender h
  | dropped => exact safe_dropSender h

/-! ## The other calls -/

/-- A section that neither changes a terminal nor logs anything. -/
theorem safe_quiet {β : Type} {f : TerminalManager → Option (β × TerminalManager)}
    (hf : ∀ s b s', f s = some (b, s') → s'.entries = s.entries ∧ s'.log = s.log) :
    (protocol calls).Safe i (fun _ _ => True) (.act f) s := by
  refine safe_act (k := .ret) stable_true trivial fun s₁ b s₂ _ hi hact => ?_
  obtain ⟨hentries, hlog⟩ := hf s₁ b s₂ hact
  obtain ⟨hi', hg⟩ := step_quiet (i := i) hi hentries hlog
  exact ⟨hi', hg, trivial⟩

theorem safe_modify_quiet {f : TerminalManager → TerminalManager}
    (hf : ∀ s, (f s).entries = s.entries ∧ (f s).log = s.log) :
    (protocol calls).Safe i (fun _ _ => True) (Proc.modify f) s := by
  refine safe_quiet fun s b s' h => ?_
  obtain ⟨⟩ := h
  exact hf s

theorem safeOr_quiet {ε β : Type} {f : TerminalManager → Option (Except ε β × TerminalManager)}
    (hf : ∀ s b s', f s = some (b, s') → s'.entries = s.entries ∧ s'.log = s.log) :
    (protocol calls).Conforms i (.act f) s := by
  refine Safe.mono (safe_quiet hf) fun r s _ => ?_
  cases r with
  | ok => trivial
  | error => trivial

theorem safe_view : (protocol calls).Safe i (fun _ _ => True) (look e Entry.view) s :=
  safe_look stable_true trivial fun _ _ _ _ _ => trivial

variable {key : Ownership}

theorem safeOr_verifyOwnership : (protocol calls).Conforms i
    (Async.ofExcept (verifyOwnership view key)) s := by
  cases verifyOwnership view key with
  | ok => trivial
  | error => trivial

theorem safeOr_poll : (protocol calls).Conforms (.call t) (poll t key) s := by
  have hentry : (protocol calls).Conforms (.call t) (Terminal.entry key) s := by
    refine SafeOr.bind (safeOr_quiet fun s b s' h => ?_) fun e s _ => ?_
    · split at h
      · obtain ⟨⟩ := h
        exact ⟨rfl, rfl⟩
      · obtain ⟨⟩ := h
        exact ⟨rfl, rfl⟩
    · refine SafeOr.bind (safeOr_lift.2 safe_view) fun view s _ => ?_
      exact SafeOr.bind safeOr_verifyOwnership fun _ _ _ => trivial
  exact SafeOr.bind hentry fun e s _ => safeOr_lift.2 safe_takeBatch

theorem safeOr_close : (protocol calls).Conforms (.call t) (close t key) s := by
  refine SafeOr.bind (safeOr_quiet fun s b s' h => ?_) fun found s _ => ?_
  · split at h
    · obtain ⟨⟩ := h
      exact ⟨rfl, rfl⟩
    · split at h
      · obtain ⟨⟩ := h
        exact ⟨rfl, rfl⟩
      · obtain ⟨⟩ := h
        exact ⟨rfl, rfl⟩
  · cases found with
    | none => trivial
    | some e =>
      refine SafeOr.bind (safeOr_lift.2 safe_view) fun view s _ => ?_
      refine SafeOr.bind safeOr_verifyOwnership fun _ s _ => ?_
      refine SafeOr.bind (safeOr_lift.2 safe_closeEntry) fun _ s _ => ?_
      exact safeOr_lift.2 (safe_modify_quiet fun _ => ⟨rfl, rfl⟩)

theorem safe_collect {p : TerminalSession → Bool} :
    (protocol calls).Safe i (fun _ _ => True) (collect p) s := by
  refine safe_bind.2 (safe_ask fun ids => safe_quiet fun s b s' h => ?_)
  split_ifs at h
  obtain ⟨⟩ := h
  exact ⟨rfl, rfl⟩

theorem safe_closeAll {finalState : TerminalState} {es : List EntryId} :
    (protocol calls).Safe (.call t) (fun _ _ => True) (closeAll t finalState es) s := by
  induction es generalizing s with
  | nil => trivial
  | cons e es ih => exact Safe.bind safe_closeEntry fun _ s _ => ih

/-- Every call keeps to the protocol. -/
theorem safe_callProgram {request : TerminalRequest} :
    (protocol calls).Safe (.call t) (fun _ _ => True) (callProgram t request) s := by
  cases request with
  | «open» host session size =>
    refine Safe.bind safeAsync_openWithTimeout fun _ _ _ => trivial
  | poll key => exact Safe.bind safeOr_poll fun _ _ _ => trivial
  | close key => exact Safe.bind safeOr_close fun _ _ _ => trivial
  | disconnectConnection host session =>
    exact Safe.bind safe_collect fun _ s _ => safe_closeAll
  | removeHost host =>
    refine Safe.bind safe_collect fun _ s _ => ?_
    exact Safe.bind safe_closeAll fun _ s _ =>
      safe_modify_quiet fun _ => ⟨rfl, rfl⟩
  | shutdown =>
    refine Safe.bind safe_collect fun _ s _ => ?_
    exact Safe.bind safe_closeAll fun _ s _ =>
      safe_modify_quiet fun _ => ⟨rfl, rfl⟩

/-- The tasks of the manager keep to the protocol. -/
theorem sound_protocol (calls : TaskId → TerminalRequest) : (protocol calls).Sound where
  init s hs := by
    obtain rfl : s = .new := hs
    refine ⟨⟨fun e x hx => ?_, fun event hevent => ?_, justified_nil⟩, fun i => ?_⟩
    · exact absurd hx (Option.some_ne_none x).symm
    · exact absurd hevent List.not_mem_nil
    cases i with
    | call t => trivial
    | pump e => rfl
  env s s' hi henv := henv.elim
  idle i := by
    cases i with
    | call t => exact stable_true
    | pump e => exact stable_noReads
  entry i p s hp hi hidle := by
    obtain rfl : p = program calls i := hp
    cases i with
    | call t => exact safe_callProgram
    | pump e => exact safe_pumpOutput hidle

/-! ## The output of a terminal -/

/-- After a batch that was reported as the last one, there are only empty ones. -/
theorem pairwise_batches (h : Justified Rule log) : (batches log e).Pairwise fun batch batch' =>
    batch.outputDrained = true → batch'.chunksBase64 = [] ∧ batch'.outputDrained = true := by
  induction log using List.reverseRecOn with
  | nil => exact .nil
  | append_singleton log event ih =>
    obtain ⟨h, hrule⟩ := justified_snoc.1 h
    rw [batches_append, List.pairwise_append]
    refine ⟨ih h, ?_, fun batch hbatch batch' hbatch' hdrained => ?_⟩
    · have hlength : (batches [event] e).length ≤ 1 := List.length_filterMap_le ..
      rcases hbs : batches [event] e with _ | ⟨batch, _ | ⟨batch', bs⟩⟩
      · exact .nil
      · exact List.pairwise_singleton ..
      · rw [hbs] at hlength
        exact absurd hlength (by simp)
    · obtain rfl := List.mem_singleton.1 (mem_batches.1 hbatch')
      exact hrule.2.2 ⟨batch, hbatch, hdrained⟩

/-- What holds of a batch. -/
theorem Inv.rule_of_mem (hi : s.Inv) {batch : TerminalOutputBatch} (h : batch ∈ batches s.log e) :
    WithinLimits batch ∧
      (.closing e ∉ s.log → batch.outputDrained = true → ¬batch.session.state.Live) := by
  obtain ⟨pre, post, hlog⟩ := List.append_of_mem (mem_batches.1 h)
  obtain ⟨hlimits, hstate, -⟩ := hi.rule pre _ post hlog
  exact ⟨hlimits, fun hc => hstate fun hmem => hc (hlog ▸ List.mem_append_left _ hmem)⟩

/-- Once a terminal is drained, everything has been delivered. -/
theorem Inv.delivered_eq (hi : s.Inv) (hx : s.entries e = some x) (hc : .closing e ∉ s.log)
    (hdrained : Drained s.log e) : delivered s.log e = received s.log e := by
  have hok := hi.entry e x hx
  obtain ⟨hsender, hreceiver, hcarryover, htaken⟩ := hok.drained hdrained
  obtain ⟨hunsent, -⟩ := hok.ended hc hsender
  rw [hok.conserved hc, hreceiver, hcarryover, htaken, hunsent]
  simp

/-- What was left over of a chunk is not overwritten. -/
theorem carryover_of_step {ls : List (Label TerminalTask)} {c c' : Config TerminalTask TerminalManager}
    {l : Label TerminalTask} (h : (system calls).machine.Run ls c)
    (hs : (system calls).Step c l c') (hx : c.shared.entries e = some x) :
    ∃ x', c'.shared.entries e = some x' ∧
      (x.carryover ≠ none → x'.carryover = x.carryover ∨ x'.carryover = none) := by
  have hkeeps := (sound_protocol calls).of_run h
  cases l with
  | start i =>
    obtain ⟨-, p, -, rfl⟩ := hs
    exact ⟨x, hx, fun _ => .inl rfl⟩
  | run i =>
    rcases hkeeps.guarantee_of_step hs with heq | hg
    · exact ⟨x, heq ▸ hx, fun _ => .inl rfl⟩
    · obtain ⟨x', hx', hstep⟩ := hg.entry e x hx
      exact ⟨x', hx', hstep.carryover⟩
  | env =>
    obtain ⟨s', hs', -⟩ := hs
    exact hs'.elim

/-- In every run, as long as a terminal is not closed: what has been delivered is what has
    been read, up to what is still on its way, and all of it once the terminal is drained;
    every batch is within the limits of the renderer; what was left over of a chunk comes
    next, and is not overwritten; and a terminal is drained only once it has ended, and
    remains so. -/
theorem output_of_run {ls : List (Label TerminalTask)} {c : Config TerminalTask TerminalManager}
    (h : (system calls).machine.Run ls c) (hx : c.shared.entries e = some x)
    (hc : .closing e ∉ c.shared.log) :
    delivered c.shared.log e <+: received c.shared.log e ∧
    (Drained c.shared.log e → delivered c.shared.log e = received c.shared.log e) ∧
    (∀ batch ∈ batches c.shared.log e, WithinLimits batch ∧ ∃ written,
      Desktop.writeConsumed batch.chunksBase64 = .ok written ∧
        written.flatten = batchBytes batch) ∧
    (∀ chunk, x.carryover = some chunk → IsChunk chunk) ∧
    received c.shared.log e = delivered c.shared.log e ++ x.taken ++ x.carryover.getD [] ++
      x.receiver.flatten ++ x.unsent ∧
    (∀ l c', (system calls).Step c l c' → ∃ x', c'.shared.entries e = some x' ∧
      (x.carryover ≠ none → x'.carryover = x.carryover ∨ x'.carryover = none)) ∧
    (∀ batch ∈ batches c.shared.log e, batch.outputDrained = true → ¬batch.session.state.Live) ∧
    (batches c.shared.log e).Pairwise fun batch batch' =>
      batch.outputDrained = true → batch'.chunksBase64 = [] ∧ batch'.outputDrained = true := by
  have hi : c.shared.Inv := ((sound_protocol calls).of_run h).inv
  have hok := hi.entry e x hx
  have hconserved := hok.conserved hc
  refine ⟨?_, hi.delivered_eq hx hc, fun batch hbatch => ?_, hok.carryover, hconserved,
    fun l c' hs => carryover_of_step h hs hx, fun batch hbatch => (hi.rule_of_mem hbatch).2 hc,
    pairwise_batches hi.rule⟩
  · rw [hconserved, List.append_assoc, List.append_assoc, List.append_assoc]
    exact List.prefix_append ..
  · have hlimits := (hi.rule_of_mem hbatch).1
    exact ⟨hlimits, hlimits.writeConsumed⟩

/-! ## A terminal that ends by itself -/

/-- A call that opens a terminal, and others that poll it. -/
def pollCalls : TaskId → TerminalRequest
  | ⟨0⟩ => .open ⟨1⟩ ⟨1⟩ ⟨80, 24, 0, 0⟩
  | _ => .poll ⟨⟨1⟩, ⟨1⟩, ⟨1⟩⟩

/-- What is read from it. -/
def greeting : Except AppError TerminalRead := .ok (.data [104, 105])

/-- The terminal ends, and everything that was read from it is polled. -/
theorem exists_run_drained : ∃ ls c x, (system pollCalls).machine.Run ls c ∧
    c.shared.entries ⟨1⟩ = some x ∧ .closing ⟨1⟩ ∉ c.shared.log ∧ .opened ⟨1⟩ ∈ c.shared.log ∧
    reads c.shared.log ⟨1⟩ = [greeting, .ok (.exit 0)] ∧ Drained c.shared.log ⟨1⟩ := by
  have h : (system pollCalls).machine.Run [] ⟨fun _ => none, .new⟩ := .nil ⟨rfl, fun _ => rfl⟩
  -- The terminal is opened.
  obtain ⟨_, h⟩ := System.run_task h (.call ⟨0⟩) rfl rfl (.answer (⟨1⟩ : TerminalSessionId) <|
    .answer (⟨1⟩ : EntryId) <| .act rfl <| .answer 1 <| .act rfl <|
    .answer (some (some (.ok () : Except AppError Unit))) <| .act rfl <| .answer (some ()) <|
    .act rfl <| .act rfl <| .act rfl <| .refl)
  -- Its output is read.
  obtain ⟨_, h⟩ := System.run_task h (.pump ⟨1⟩) rfl rfl
    (.act rfl <| .answer 2 <| .answer 1 <| .act rfl <|
    .answer (some greeting) <| .act rfl <| .answer 1 <| .act rfl <| .act rfl <| .answer 1 <|
    .act rfl <| .answer (some (.ok (.exit 0) : Except AppError TerminalRead)) <| .act rfl <|
    .act rfl <| .act rfl <| .answer () <| .act rfl <| .act rfl <| .refl)
  -- It is polled.
  obtain ⟨_, h⟩ := System.run_task h (.call ⟨1⟩) rfl rfl
    (.act rfl <| .act rfl <| .act rfl <| .act rfl <| .answer 2 <|
    .act rfl <| .act rfl <| .act rfl <| .act rfl <| .act rfl <| .act rfl <| .act rfl <| .refl)
  exact ⟨_, _, _, h, rfl, by decide +kernel, by decide +kernel, by decide +kernel,
    by decide +kernel⟩

theorem output_drained : ∃ ls c, (system pollCalls).machine.Run ls c ∧
    .closing ⟨1⟩ ∉ c.shared.log ∧ delivered c.shared.log ⟨1⟩ = [104, 105] := by
  obtain ⟨ls, c, x, h, hx, hc, -, hreads, hdrained⟩ := exists_run_drained
  obtain ⟨-, heq, -⟩ := output_of_run h hx hc
  refine ⟨ls, c, h, hc, (heq hdrained).trans ?_⟩
  rw [received, hreads]
  rfl

end TerminalManager

end NexusOps.Terminal
