import NexusOps.Terminal.Protocol

/-!
# Steps of the terminal manager

A step that only affects one terminal keeps the invariant if it does so for that terminal,
and stays within what its task may do (`step_entry`). What a task knows of a terminal it
holds something of is not affected by the others (`Others`).
-/

namespace NexusOps.Terminal

open Concurrency Protocol Encoding Function

section

variable {log es : List TerminalEvent} {e : EntryId}

/-! ## Logs -/

theorem reads_append : reads (log ++ es) e = reads log e ++ reads es e := List.filterMap_append

theorem batches_append : batches (log ++ es) e = batches log e ++ batches es e :=
  List.filterMap_append

variable {r : Except AppError TerminalRead}

theorem mem_reads : r ∈ reads log e ↔ .read e r ∈ log := by
  rw [reads, List.mem_filterMap]
  constructor
  · rintro ⟨event, hmem, h⟩
    split at h
    · split_ifs at h with he
      obtain ⟨⟩ := h
      exact he ▸ hmem
    · nomatch h
  · exact fun hmem => ⟨_, hmem, if_pos rfl⟩

theorem mem_batches {batch : TerminalOutputBatch} :
    batch ∈ batches log e ↔ .polled e batch ∈ log := by
  rw [batches, List.mem_filterMap]
  constructor
  · rintro ⟨event, hmem, h⟩
    split at h
    · split_ifs at h with he
      obtain ⟨⟩ := h
      exact he ▸ hmem
    · nomatch h
  · exact fun hmem => ⟨_, hmem, if_pos rfl⟩

/-- Events that are not about a terminal do not change what has been read from it. -/
theorem reads_eq_nil (h : ∀ r, .read e r ∉ es) : reads es e = [] := by
  refine List.eq_nil_iff_forall_not_mem.2 fun r hr => ?_
  exact h r (mem_reads.1 hr)

theorem batches_eq_nil (h : ∀ batch, .polled e batch ∉ es) : batches es e = [] := by
  refine List.eq_nil_iff_forall_not_mem.2 fun batch hbatch => ?_
  exact h batch (mem_batches.1 hbatch)

theorem reads_read : reads [.read e r] e = [r] := by
  simp [reads]

theorem batches_polled {batch : TerminalOutputBatch} : batches [.polled e batch] e = [batch] := by
  simp [batches]

/-- The data of results without an end is followed by that of the next ones. -/
theorem dataOf_append {rs rs' : List (Except AppError TerminalRead)} (h : ∀ r ∈ rs, IsData r) :
    dataOf (rs ++ rs') = dataOf rs ++ dataOf rs' := by
  induction rs with
  | nil => rfl
  | cons r rs ih =>
    obtain ⟨data, rfl⟩ := h r List.mem_cons_self
    have hrs := ih fun r hr => h r (List.mem_cons_of_mem _ hr)
    rw [List.cons_append, dataOf, dataOf, hrs, List.append_assoc]

theorem dataOf_singleton : dataOf [r] = readData r := by
  rcases r with error | data | status | _
  · rfl
  · exact List.append_nil _
  · rfl
  · rfl

theorem readData_eq_nil (h : ¬IsData r) : readData r = [] := by
  rcases r with error | data | status | _
  · rfl
  · exact absurd ⟨data, rfl⟩ h
  · rfl
  · rfl

/-! ## Terminals -/

variable {x : Entry}

/-- Events about other terminals. -/
theorem EntryOk.append (h : EntryOk log e x) (hes : ∀ event ∈ es, event.entry ≠ e) :
    EntryOk (log ++ es) e x := by
  have hreads : reads (log ++ es) e = reads log e := by
    rw [reads_append, reads_eq_nil fun r hr => hes _ hr rfl, List.append_nil]
  have hbatches : batches (log ++ es) e = batches log e := by
    rw [batches_append, batches_eq_nil fun batch hb => hes _ hb rfl, List.append_nil]
  have hmem : ∀ event, event.entry = e → (event ∈ log ++ es ↔ event ∈ log) := by
    intro event he
    rw [List.mem_append, or_iff_left fun hmem => hes event hmem he]
  have hclosing := hmem (.closing e) rfl
  have hopened := hmem (.opened e) rfl
  obtain ⟨h₁, h₂, h₃, h₄, h₅, h₆, h₇, h₈, h₉⟩ := h
  constructor
  · exact h₁
  · exact h₂
  · rwa [hclosing, received, delivered, hreads, hbatches]
  · exact h₄
  · rwa [hclosing, hopened, hreads]
  · rwa [hclosing, hreads]
  · rwa [hclosing]
  · rwa [Drained, hbatches]
  · rwa [hclosing, hopened, hreads]

/-- As long as there is a sender, no batch is reported as the last one. -/
theorem EntryOk.not_drained {i : TerminalTask} (h : EntryOk log e x) (hsender : x.sender = some i) :
    ¬Drained log e := by
  intro hdrained
  rw [(h.drained hdrained).1] at hsender
  nomatch hsender

end

namespace TerminalManager

variable {calls : TaskId → TerminalRequest} {s s' : TerminalManager} {i : TerminalTask}
  {e : EntryId} {x x' : Entry} {log log' es : List TerminalEvent}

/-! ## Steps -/

theorem EntryStep.refl : EntryStep i s e x x :=
  ⟨fun _ => ⟨rfl, rfl, List.suffix_rfl⟩, fun _ => .inl rfl, fun _ => .inl,
    fun _ _ h => ⟨h, rfl, rfl⟩, fun _ => .inl rfl⟩

/-- A step that only affects one terminal. -/
theorem step_entry (hi : s.Inv) (hx : s.entries e = some x)
    (hentries : s'.entries = update s.entries e (some x')) (hlog : s'.log = s.log ++ es)
    (hes : ∀ event ∈ es, event.entry = e ∧ Logs i s event) (hrule : Justified Rule s'.log)
    (hok : EntryOk s'.log e x') (hstep : EntryStep i s' e x x') : s'.Inv ∧ Guarantee i s s' := by
  have hother : ∀ e', e' ≠ e → s'.entries e' = s.entries e' := fun e' he => by
    rw [hentries, update_of_ne he]
  have hself : s'.entries e = some x' := by rw [hentries, update_self]
  refine ⟨⟨fun e' y hy => ?_, fun event hevent => ?_, hrule⟩, ⟨es, hlog, fun event he => (hes event he).2⟩,
    fun e' y hy => ?_⟩
  · by_cases he : e' = e
    · subst he
      rw [hself] at hy
      obtain ⟨⟩ := hy
      exact hok
    · rw [hother e' he] at hy
      rw [hlog]
      exact (hi.entry e' y hy).append fun event hevent heq => he (heq ▸ (hes event hevent).1)
  · by_cases he : event.entry = e
    · rw [he, hself]
      exact nofun
    · rw [hother _ he]
      rw [hlog, List.mem_append] at hevent
      exact hi.known event (hevent.resolve_right fun h => he (hes event h).1)
  · by_cases he : e' = e
    · subst he
      obtain rfl := Option.mem_unique hx hy
      exact ⟨x', hself, hstep⟩
    · exact ⟨y, (hother e' he).trans hy, EntryStep.refl⟩

/-- A step that changes what is kept of a terminal. -/
theorem step_setEntry (hi : s.Inv) (hx : s.entries e = some x) (hok : EntryOk s.log e x')
    (hstep : EntryStep i s e x x') : (s.setEntry e x').Inv ∧ Guarantee i s (s.setEntry e x') := by
  have hstep' : EntryStep i (s.setEntry e x') e x x' :=
    ⟨hstep.sender, hstep.state, hstep.cancelled, hstep.lock, hstep.carryover⟩
  have hlog : (s.setEntry e x').log = s.log ++ [] := (List.append_nil _).symm
  exact step_entry hi hx rfl hlog (by simp) hi.rule hok hstep'

/-- A step that does not affect any terminal. -/
theorem step_quiet (hi : s.Inv) (hentries : s'.entries = s.entries) (hlog : s'.log = s.log) :
    s'.Inv ∧ Guarantee i s s' := by
  refine ⟨⟨?_, ?_, ?_⟩, ⟨[], by simp [hlog], by simp⟩, fun e x hx => ⟨x, hentries ▸ hx, .refl⟩⟩
  · rw [hentries, hlog]
    exact hi.entry
  · rw [hentries, hlog]
    exact hi.known
  · rw [hlog]
    exact hi.rule

theorem Guarantee.refl : Guarantee i s s :=
  ⟨⟨[], by simp, by simp⟩, fun _ x hx => ⟨x, hx, .refl⟩⟩

/-! ## What others do -/

/-- What tasks other than `i` do to a terminal, and log about it. -/
structure Others (i : TerminalTask) (e : EntryId) (log log' : List TerminalEvent) (x x' : Entry) :
    Prop where
  sender : x.sender = some i → x'.sender = some i ∧ x'.unsent = x.unsent
  state : x.sender = some i → x'.view.state = x.view.state ∨ .closing e ∈ log'
  cancelled : x.sender = some i → x'.cancelled = true → x.cancelled = true ∨ .closing e ∈ log'
  lock : x.outputLock = some i →
    x'.outputLock = some i ∧ x'.taken = x.taken ∧ x'.carryover = x.carryover
  closing : .closing e ∈ log → .closing e ∈ log'
  opened : x.sender = some i → .opened e ∈ log' → .opened e ∈ log
  dropped : x.sender = none → x'.sender = none ∧ x'.receiver <:+ x.receiver
  reads : i = .pump e ∨ x.sender = some i → Terminal.reads log' e = Terminal.reads log e
  batches : x.outputLock = some i → Terminal.batches log' e = Terminal.batches log e

/-- The guarantees of the other tasks. -/
theorem Guarantee.others {j : TerminalTask} (hg : Guarantee j s s') (hj : j ≠ i)
    (hx : s.entries e = some x) :
    ∃ x', s'.entries e = some x' ∧ Others i e s.log s'.log x x' := by
  obtain ⟨es, hlog, hes⟩ := hg.log
  obtain ⟨x', hx', hstep⟩ := hg.entry e x hx
  have hsender : x.sender = some i → x.sender ≠ some j := fun h h' =>
    hj (Option.mem_unique h' h)
  refine ⟨x', hx', fun h => ?_, fun h => hstep.state (hsender h),
    fun h => hstep.cancelled (hsender h), hstep.lock i hj.symm, fun h => ?_, fun h hopened => ?_,
    fun h => ?_, fun h => ?_, fun h => ?_⟩
  · obtain ⟨h₁, h₂, -⟩ := hstep.sender (hsender h)
    exact ⟨h₁.trans h, h₂⟩
  · exact hlog ▸ List.mem_append_left _ h
  · rw [hlog, List.mem_append] at hopened
    refine hopened.resolve_right fun hmem => ?_
    obtain ⟨y, hy, hsend⟩ := hes _ hmem
    obtain rfl := Option.mem_unique hx hy
    exact hsender h hsend
  · obtain ⟨h₁, -, h₂⟩ := hstep.sender (by rw [h]; exact nofun)
    exact ⟨h₁.trans h, h₂⟩
  · have hnone : ∀ r, .read e r ∉ es := by
      intro r hr
      obtain ⟨hpump, y, hy, hsend⟩ := hes _ hr
      obtain rfl := Option.mem_unique hx hy
      exact h.elim (fun hi => hj (hpump.trans hi.symm)) fun h => hsender h hsend
    rw [hlog, reads_append, reads_eq_nil hnone, List.append_nil]
  · have hnone : ∀ batch, .polled e batch ∉ es := by
      intro batch hb
      obtain ⟨y, hy, hlock⟩ := hes _ hb
      obtain rfl := Option.mem_unique hx hy
      exact hj (Option.mem_unique hlock h)
    rw [hlog, batches_append, batches_eq_nil hnone, List.append_nil]

/-- A fact about a terminal and its log. -/
def At (e : EntryId) (K : Entry → List TerminalEvent → Prop) (s : TerminalManager) : Prop :=
  ∃ x, s.entries e = some x ∧ K x s.log

theorem stable_at {K : Entry → List TerminalEvent → Prop}
    (hK : ∀ log log' x x', Others i e log log' x x' → K x log → K x' log') :
    (protocol calls).Stable i (At e K) := by
  rintro s s' ⟨-, -, henv | ⟨j, hj, hg⟩⟩ ⟨x, hx, h⟩
  · exact henv.elim
  · obtain ⟨x', hx', hothers⟩ := Guarantee.others hg hj hx
    exact ⟨x', hx', hK _ _ _ _ hothers h⟩

/-! ## Sections -/

section

variable {β : Type} {A : TerminalManager → Prop} {Q : β → TerminalManager → Prop}

/-- A section on what is kept of a terminal. -/
theorem safe_entrySection {f : Entry → Option (β × Entry)} (hA : (protocol calls).Stable i A)
    (h : A s) (hf : ∀ s x b x', A s → s.Inv → s.entries e = some x → f x = some (b, x') →
      EntryOk s.log e x' ∧ EntryStep i s e x x' ∧ Q b (s.setEntry e x')) :
    (protocol calls).Safe i Q (entrySection e f) s := by
  refine safe_act (k := .ret) hA h fun s₁ b s₂ hs₁ hi hact => ?_
  obtain ⟨x, hx, hact⟩ := Option.bind_eq_some_iff.1 hact
  obtain ⟨⟨b', x'⟩, hf', heq⟩ := Option.map_eq_some_iff.1 hact
  obtain ⟨rfl, rfl⟩ := Prod.mk.inj heq
  obtain ⟨hok, hstep, hQ⟩ := hf s₁ x b' x' hs₁ hi hx hf'
  obtain ⟨hi', hg⟩ := step_setEntry hi hx hok hstep
  exact ⟨hi', hg, hQ⟩

theorem setEntry_self (hx : s.entries e = some x) : s.setEntry e x = s := by
  have hentries : update s.entries e (some x) = s.entries := by
    rw [← hx, update_eq_self]
  rw [setEntry, hentries]

theorem safe_look {f : Entry → β} (hA : (protocol calls).Stable i A) (h : A s)
    (hf : ∀ s x, A s → s.Inv → s.entries e = some x → Q (f x) s) :
    (protocol calls).Safe i Q (look e f) s := by
  refine safe_entrySection hA h fun s x b x' hs hi hx hb => ?_
  obtain ⟨⟩ := hb
  rw [setEntry_self hx]
  exact ⟨hi.entry e x hx, .refl, hf s x hs hi hx⟩

theorem safe_change {Q : Unit → TerminalManager → Prop} {f : Entry → Entry}
    (hA : (protocol calls).Stable i A) (h : A s)
    (hf : ∀ s x, A s → s.Inv → s.entries e = some x →
      EntryOk s.log e (f x) ∧ EntryStep i s e x (f x) ∧ Q () (s.setEntry e (f x))) :
    (protocol calls).Safe i Q (change e f) s := by
  refine safe_entrySection hA h fun s x b x' hs hi hx hb => ?_
  obtain ⟨⟩ := hb
  exact hf s x hs hi hx

/-- Something is awaited unless the terminal is cancelled. -/
theorem safeOr_select {ε : Type} {Q : Option β → TerminalManager → Prop}
    {E : ε → TerminalManager → Prop} {p : Fallible TerminalManager ε (Option β)}
    (hA : (protocol calls).Stable i A) (h : A s)
    (hcancelled : ∀ s x, A s → s.Inv → s.entries e = some x → x.cancelled = true → Q none s)
    (hp : ∀ s, A s → (protocol calls).SafeOr i (fun r s => r.elim (A s) fun b => Q (some b) s) E p s) :
    (protocol calls).SafeOr i Q E (select e p) s := by
  refine safeOr_loop (I := fun _ => A) (fun _ s h => ?_) h
  refine SafeOr.bind (R := fun b s => if b then Q none s else A s) (safeOr_lift.2
    (safe_look hA h fun s x hs hi hx => ?_)) fun b s hb => ?_
  · split_ifs with hc
    · exact hcancelled s x hs hi hx hc
    · exact hs
  · cases b with
    | true => exact hb
    | false =>
      refine SafeOr.bind (hp s hb) fun r s hr => ?_
      cases r with
      | none => exact hr
      | some b => exact hr

end

end TerminalManager

end NexusOps.Terminal
