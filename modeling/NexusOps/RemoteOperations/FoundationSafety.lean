import NexusOps.RemoteOperations.FoundationSystem

/-!
# Safety of executions

Every call of the foundation keeps to `FoundationState.protocol`. What this means
for the executions of every interleaving is `FoundationState.safety_of_run`.
-/

namespace NexusOps.RemoteOperations.FoundationState

open Concurrency Protocol RemoteOperationFoundation Function StoreState FoundationEvent AuthorityStore

variable {O : Type} [NativeOperation O] {s s' : FoundationState O} {t : TaskId}
  {L : List (FoundationEvent O)}

/-! ## Traces -/

variable {e : FoundationEvent O}

theorem mem_ownTrace : e ∈ s.ownTrace t ↔ e ∈ s.log ∧ e.task = t :=
  mem_trace

/-- The trace of a call after its own step. -/
theorem ownTrace_of_log {es : List (FoundationEvent O)} (h : s'.log = s.log ++ es)
    (hes : ∀ e ∈ es, e.task = t) : s'.ownTrace t = s.ownTrace t ++ es := by
  rw [ownTrace, h, trace_append_self hes]
  rfl

/-- A call keeps to the rules while it logs another event. -/
theorem CallOk.snoc {F F' : Foundation O} (h : CallOk F t L)
    (hholds : ∀ host, admitted t host ∈ L ++ [e] → (∀ r, returned t r ∉ L ++ [e]) →
      F'.hostGates host = some (.execution t) ∧ F'.globalPermit = some t) (hd : DispatchRule t L e)
    (hf : ∀ er, returned t (.error er) ∈ L ++ [e] → ∀ o (a : ConsumedAuthority o),
      consumed t o a ∉ L ++ [e]) : CallOk F' t (L ++ [e]) :=
  ⟨hholds, justified_snoc.2 ⟨h.dispatches, hd⟩, hf⟩

variable [DecidableEq O] {calls : TaskId → FoundationCall O}

theorem Guarantee.refl (s : FoundationState O) (t : TaskId) : Guarantee calls t s s where
  log := ⟨[], by simp⟩
  gates _ _ _ := Iff.rfl
  permit _ _ := Iff.rfl
  store := .inl rfl
  clock := rfl
  pending _ _ _ h _ := .inl h

/-- The traces of the other calls do not change. -/
theorem Guarantee.ownTrace_of_ne {t' : TaskId} (h : Guarantee calls t s s') (ht : t' ≠ t) :
    s'.ownTrace t' = s.ownTrace t' := by
  obtain ⟨es, hlog, hes⟩ := h.log
  rw [ownTrace, hlog, trace_append_of_ne hes ht]
  rfl

/-- The events of the other calls are old. -/
theorem Guarantee.mem_log_of_ne (h : Guarantee calls t s s') (ht : e.task ≠ t)
    (he : e ∈ s'.log) : e ∈ s.log := by
  obtain ⟨es, hlog, hes⟩ := h.log
  rw [hlog, List.mem_append] at he
  exact he.resolve_right fun he => ht (hes e he)

/-- A step keeps the invariant if it does so for the call that takes it. -/
theorem Inv.step (hi : s.Inv) (hg : Guarantee calls t s s') 
    (hcall : CallOk s'.foundation t (s'.ownTrace t))
    (hnew : ∀ o (a : ConsumedAuthority o), .consumed t o a ∈ s'.log → .consumed t o a ∈ s.log ∨
      a.id ∈ s'.foundation.authorities.issued ∧
        s'.foundation.authorities.state.pending.get a.id = none ∧
        s.foundation.authorities.state.pending.get a.id ≠ none) : s'.Inv where
  valid := by
    rcases hg.store with h | ⟨e, h⟩
    · rw [h]
      exact hi.valid
    · exact hi.valid.step h
  gone t' o a ha := by
    have hold : .consumed t' o a ∈ s.log → a.id ∈ s'.foundation.authorities.issued ∧
        s'.foundation.authorities.state.pending.get a.id = none := by
      intro ha
      obtain ⟨hid, hn⟩ := hi.gone t' o a ha
      rcases hg.store with h | ⟨e, h⟩
      · rw [h]
        exact ⟨hid, hn⟩
      · exact hi.valid.gone h hid hn
    by_cases ht : t' = t
    · subst ht
      exact (hnew o a ha).elim hold fun h => ⟨h.1, h.2.1⟩
    · exact hold (hg.mem_log_of_ne ht ha)
  unique := by
    -- A plan that is consumed now was pending, so it had not been consumed before.
    have hone : ∀ t₁ o₁ (a₁ : ConsumedAuthority o₁), .consumed t₁ o₁ a₁ ∈ s'.log →
        .consumed t₁ o₁ a₁ ∈ s.log ∨
          t₁ = t ∧ s.foundation.authorities.state.pending.get a₁.id ≠ none := by
      intro t₁ o₁ a₁ ha₁
      by_cases ht : t₁ = t
      · subst ht
        exact (hnew o₁ a₁ ha₁).imp_right fun h => ⟨rfl, h.2.2⟩
      · exact .inl (hg.mem_log_of_ne ht ha₁)
    intro t₁ t₂ o₁ o₂ a₁ a₂ h₁ h₂ hid
    rcases hone t₁ o₁ a₁ h₁ with h₁ | ⟨rfl, hp₁⟩
    · rcases hone t₂ o₂ a₂ h₂ with h₂ | ⟨rfl, hp₂⟩
      · exact hi.unique t₁ t₂ o₁ o₂ a₁ a₂ h₁ h₂ hid
      · exact absurd (hi.gone t₁ o₁ a₁ h₁).2 (hid ▸ hp₂)
    · rcases hone t₂ o₂ a₂ h₂ with h₂ | ⟨rfl, _⟩
      · exact absurd (hi.gone t₂ o₂ a₂ h₂).2 (hid ▸ hp₁)
      · rfl
  call t' := by
    by_cases ht : t' = t
    · subst ht
      exact hcall
    · rw [hg.ownTrace_of_ne ht]
      obtain ⟨hholds, hd, hf⟩ := hi.call t'
      refine ⟨fun host ha hr => ?_, hd, hf⟩
      obtain ⟨hgate, hpermit⟩ := hholds host ha hr
      exact ⟨(hg.gates host (.execution t') ht).2 hgate, (hg.permit t' ht).2 hpermit⟩

/-- The environment keeps the invariant. -/
theorem Inv.env (hi : s.Inv) (h : Env s s') : s'.Inv := by
  cases h with
  | tick clock h => exact ⟨hi.valid, hi.gone, hi.unique, hi.call⟩
  | cancel token => exact ⟨hi.valid, hi.gone, hi.unique, hi.call⟩
  | expire id expires h =>
    have hstep : (machine O PLAN_TTL).step s.foundation.authorities
        (.expire id expires) _ := step_of_performs rfl rfl
    refine ⟨hi.valid.step hstep, fun t o a ha => ?_, hi.unique, fun t => ?_⟩
    · obtain ⟨hid, hn⟩ := hi.gone t o a ha
      exact hi.valid.gone hstep hid hn
    · obtain ⟨hholds, hd, hf⟩ := hi.call t
      exact ⟨hholds, hd, hf⟩

/-! ## What a call can rely on -/

theorem stable_trace : (protocol calls).Stable t fun s => s.ownTrace t = L := by
  rintro s s' ⟨_, _, henv | ⟨j, hj, hg⟩⟩ h
  · cases henv <;> exact h
  · rw [hg.ownTrace_of_ne (Ne.symm hj), h]

variable {host : HostId}

theorem stable_gate {holder : GateHolder} (ht : holder.task = t) :
    (protocol calls).Stable t fun s => s.foundation.hostGates host = some holder := by
  rintro s s' ⟨_, _, henv | ⟨j, hj, hg⟩⟩ h
  · cases henv <;> exact h
  · exact (hg.gates host holder (ht ▸ Ne.symm hj)).2 h

theorem stable_permit : (protocol calls).Stable t fun s => s.foundation.globalPermit = some t := by
  rintro s s' ⟨_, _, henv | ⟨j, hj, hg⟩⟩ h
  · cases henv <;> exact h
  · exact (hg.permit t (Ne.symm hj)).2 h

theorem stable_clock (instant : Instant) : (protocol calls).Stable t fun s => instant ≤ s.clock := by
  rintro s s' ⟨_, _, henv | ⟨j, hj, hg⟩⟩ h
  · cases henv with
    | tick clock hc => exact le_trans h hc
    | cancel token => exact h
    | expire id expires _ => exact h
  · exact hg.clock ▸ h

/-! ## Steps -/

/-- A step that leaves the authority store alone. -/
theorem step_quiet (s' : FoundationState O) (es : List (FoundationEvent O)) (hi : s.Inv)
    (hstore : s'.foundation.authorities = s.foundation.authorities) (hclock : s'.clock = s.clock)
    (hlog : s'.log = s.log ++ es)
    (hes : ∀ e ∈ es, e.task = t ∧ ∀ o (a : ConsumedAuthority o), e ≠ .consumed t o a)
    (hgates : ∀ host holder, holder.task ≠ t →
      (s'.foundation.hostGates host = some holder ↔ s.foundation.hostGates host = some holder))
    (hpermit : ∀ t', t' ≠ t →
      (s'.foundation.globalPermit = some t' ↔ s.foundation.globalPermit = some t'))
    (hcall : CallOk s'.foundation t (s.ownTrace t ++ es)) : s'.Inv ∧ Guarantee calls t s s' := by
  have hg : Guarantee calls t s s' := {
    log := ⟨es, hlog, fun e he => (hes e he).1⟩
    gates := hgates
    permit := hpermit
    store := .inl hstore
    clock := hclock
    pending := fun _ id a ha _ => .inl (hstore ▸ ha) }
  refine ⟨hi.step hg ?_ fun o a ha => .inl ?_, hg⟩
  · rwa [ownTrace_of_log hlog fun e he => (hes e he).1]
  · rw [hlog, List.mem_append] at ha
    exact ha.resolve_right fun ha => (hes _ ha).2 o a rfl

/-- A step that only logs an event. -/
theorem step_record (hi : s.Inv) (ht : e.task = t)
    (he : ∀ o (a : ConsumedAuthority o), e ≠ .consumed t o a)
    (hcall : CallOk s.foundation t (s.ownTrace t ++ [e])) :
    (record s e).Inv ∧ Guarantee calls t s (record s e) := by
  refine step_quiet _ [e] hi rfl rfl rfl (fun e' he' => ?_) (fun _ _ _ => Iff.rfl)
    (fun _ _ => Iff.rfl) hcall
  rw [List.mem_singleton.1 he']
  exact ⟨ht, he⟩

/-- A step that locks or unlocks a gate for the call `t`. -/
theorem step_gate (host : HostId) (holder : Option GateHolder) (hi : s.Inv)
    (hold : ∀ g ∈ s.foundation.hostGates host, g.task = t) (hnew : ∀ g ∈ holder, g.task = t)
    (hcall : CallOk { s.foundation with
      hostGates := update s.foundation.hostGates host holder } t (s.ownTrace t)) :
    let s' : FoundationState O := setFoundation s { s.foundation with
      hostGates := update s.foundation.hostGates host holder }
    s'.Inv ∧ Guarantee calls t s s' :=
  step_quiet _ [] hi rfl rfl (by simp) (by simp) (gates_update hold hnew)
    (fun _ _ => Iff.rfl) (by simpa using hcall)

/-- A locked section of the store. -/
theorem step_store {e : StoreEvent O} (s' : FoundationState O) (es : List (FoundationEvent O))
    (hi : s.Inv) (hstep : (machine O PLAN_TTL).step s.foundation.authorities e
      s'.foundation.authorities)
    (hgates : s'.foundation.hostGates = s.foundation.hostGates)
    (hpermit : s'.foundation.globalPermit = s.foundation.globalPermit)
    (hclock : s'.clock = s.clock) (hlog : s'.log = s.log ++ es) (hes : ∀ e ∈ es, e.task = t)
    (hpending : (calls t).IsExecution → ∀ id a,
      s.foundation.authorities.state.pending.get id = some a → s.clock < a.expiresAt →
        s'.foundation.authorities.state.pending.get id = some a ∨ ∃ o c, .consumed t o c ∈ s'.log)
    (hcall : CallOk s'.foundation t (s.ownTrace t ++ es))
    (hnew : ∀ o (a : ConsumedAuthority o), .consumed t o a ∈ es →
      a.id ∈ s'.foundation.authorities.issued ∧
        s'.foundation.authorities.state.pending.get a.id = none ∧
        s.foundation.authorities.state.pending.get a.id ≠ none) :
    s'.Inv ∧ Guarantee calls t s s' := by
  have hg : Guarantee calls t s s' := {
    log := ⟨es, hlog, hes⟩
    gates := fun _ _ _ => by rw [hgates]
    permit := fun _ _ => by rw [hpermit]
    store := .inr ⟨e, hstep⟩
    clock := hclock
    pending := hpending }
  refine ⟨hi.step hg ?_ fun o a ha => ?_, hg⟩
  · rwa [ownTrace_of_log hlog hes]
  · rw [hlog, List.mem_append] at ha
    exact ha.imp_right (hnew o a)

/-! ## Calls other than executions -/

omit [DecidableEq O] in
theorem callOk_nil {F : Foundation O} : CallOk F t [] := ⟨nofun, justified_nil, nofun⟩

/-- A section of a call that is not an execution, which may publish a plan. -/
theorem step_store_idle {e : StoreEvent O} {A : AuthorityStore O} (es : List (FoundationEvent O))
    (hi : s.Inv) (hL : s.ownTrace t = []) (hne : ¬(calls t).IsExecution)
    (hstep : (machine O PLAN_TTL).step s.foundation.authorities e A)
    (hes : ∀ e ∈ es, ∃ o draft id, e = .planned t o draft id) :
    let s' : FoundationState O :=
      ⟨{ s.foundation with authorities := A }, s.clock, s.cancelled, s.log ++ es⟩
    s'.Inv ∧ Guarantee calls t s s' := by
  have hcall : CallOk { s.foundation with authorities := A } t ([] ++ es) := by
    refine ⟨fun host h _ => ?_, fun pre e post h o a he => ?_, fun er h => ?_⟩
    · obtain ⟨_, _, _, h⟩ := hes _ h
      cases h
    · obtain ⟨_, _, _, h⟩ := hes e (by rw [← List.nil_append es, h]; simp)
      rw [he] at h
      cases h
    · obtain ⟨_, _, _, h⟩ := hes _ h
      cases h
  refine step_store _ es hi hstep rfl rfl rfl rfl (fun e he => ?_) (fun h => absurd h hne) (hL ▸ hcall)
    fun o a h => ?_
  · obtain ⟨_, _, _, rfl⟩ := hes e he
    rfl
  · obtain ⟨_, _, _, h⟩ := hes _ h
    cases h

variable {o : O}

/-- A call that is not an execution publishes a plan. -/
theorem safe_plan {Q : Except AppError PlanReceipt → FoundationState O → Prop}
    (hQ : ∀ r s, Q r s) (hs : s.ownTrace t = []) (hne : ¬(calls t).IsExecution) (draft : PlanDraft o)
    (current : AuthorityBinding) : (protocol calls).Safe t Q (plan t draft current) s := by
  refine safe_read stable_trace hs (Guarantee.refl · t) fun s₁ hs₁ _ => ?_
  refine safe_ask fun id => ?_
  refine safe_act (k := .ret) stable_trace hs₁ fun s₂ b s₃ hs₂ hi hf => ?_
  obtain ⟨state, hstep, rfl⟩ := planSection_eq_some hf
  cases b with
  | error e =>
    obtain ⟨hi', hg⟩ := step_store_idle [] hi hs₂ hne hstep nofun
    rw [List.append_nil] at hi' hg
    exact ⟨hi', hg, hQ _ _⟩
  | ok receipt =>
    obtain ⟨hi', hg⟩ := step_store_idle [.planned t o draft receipt.id] hi hs₂ hne hstep
      fun e he => ⟨o, draft, receipt.id, List.mem_singleton.1 he⟩
    exact ⟨hi', hg, hQ _ _⟩

/-- A locked section of the store, in a call that is not an execution. -/
theorem safe_storeSection {β : Type} {f : StoreState O → β × StoreState O}
    {Q : β → FoundationState O → Prop} (hQ : ∀ b s, Q b s) (hs : s.ownTrace t = [])
    (hne : ¬(calls t).IsExecution)
    (hf : ∀ store, ∃ e : StoreEvent O, e.Performs PLAN_TTL store (f store).2 ∧ e.newId = none) :
    (protocol calls).Safe t Q (storeSection f) s := by
  refine safe_act (k := .ret) stable_trace hs fun s₂ b s₃ hs₂ hi hf' => ?_
  obtain ⟨⟩ := hf'
  obtain ⟨e, he, hn⟩ := hf s₂.foundation.authorities.state
  obtain ⟨hi', hg⟩ :=
    step_store_idle [] hi hs₂ hne (step_of_performs he hn) nofun
  rw [List.append_nil] at hi' hg
  exact ⟨hi', hg, hQ _ _⟩

variable {Q : Unit → FoundationState O → Prop}

/-- A guard is dropped by its holder. -/
theorem safe_dropGuard (hQ : ∀ s, Q () s)
    (hs : s.ownTrace t = [] ∧ s.foundation.hostGates host = some (.lifecycle t)) :
    (protocol calls).Safe t Q (dropGuard host) s := by
  refine safe_modify (k := .ret) (stable_trace.and (stable_gate rfl)) hs fun s₁ ⟨hs₁, hg₁⟩ hi => ?_
  obtain ⟨hi', hg⟩ := step_gate (t := t) host none hi
    (fun g hg => by rw [hg₁] at hg; cases hg; rfl) nofun (hs₁ ▸ callOk_nil)
  exact ⟨hi', hg, hQ _⟩

/-- A free gate is locked for a lifecycle guard. -/
theorem step_lockGate (hi : s.Inv) (hs : s.ownTrace t = [])
    (h : lockGate s host (.lifecycle t) = some s') : s'.Inv ∧ Guarantee calls t s s' ∧
      s'.ownTrace t = [] ∧ s'.foundation.hostGates host = some (.lifecycle t) := by
  obtain ⟨hfree, rfl⟩ := lockGate_eq_some.1 h
  rw [foundation_eq] at hfree
  obtain ⟨hi', hg⟩ := step_gate (t := t) host (some (.lifecycle t)) hi
    (fun g hg => by rw [hfree] at hg; cases hg) (fun g hg => by cases hg; rfl) (hs ▸ callOk_nil)
  exact ⟨hi', hg, hs, update_self ..⟩

theorem safe_lifecycleGuard (hQ : ∀ s, Q () s) (hs : s.ownTrace t = []) :
    (protocol calls).Safe t Q (program t (.lifecycleGuard host)) s := by
  refine safe_act stable_trace hs fun s₁ b s₂ hs₁ hi hf => ?_
  obtain ⟨s₂, hlock, hf⟩ := Option.map_eq_some_iff.1 hf
  obtain ⟨⟩ := hf
  obtain ⟨hi', hg, hs₂⟩ := step_lockGate hi hs₁ hlock
  exact ⟨hi', hg, safe_ask fun _ => safe_dropGuard hQ hs₂⟩

theorem safe_tryLifecycleGuard (hQ : ∀ s, Q () s) (hs : s.ownTrace t = []) :
    (protocol calls).Safe t Q (program t (.tryLifecycleGuard host)) s := by
  refine safe_act stable_trace hs fun s₁ b s₂ hs₁ hi hf => ?_
  cases hlock : lockGate s₁ host (.lifecycle t) with
  | none =>
    rw [hlock] at hf
    obtain ⟨⟩ := hf
    exact ⟨hi, .refl _ _, hQ _⟩
  | some s' =>
    rw [hlock] at hf
    obtain ⟨⟩ := hf
    obtain ⟨hi', hg, hs₂⟩ := step_lockGate hi hs₁ hlock
    exact ⟨hi', hg, safe_ask fun _ => safe_dropGuard hQ hs₂⟩

/-! ## Executions -/

omit [DecidableEq O] in
/-- An event of the call `t` that neither starts nor ends its admission, nor
    consumes a plan. -/
def IsNote (t : TaskId) : FoundationEvent O → Prop
  | .admitted _ _ => False
  | .consumed _ _ _ => False
  | .returned _ _ => False
  | e => e.task = t

omit [DecidableEq O] in
theorem IsNote.task_eq (he : IsNote t e) : e.task = t := by
  cases e <;> first | exact he | exact he.elim

/-- An execution logs a note. -/
theorem step_note (hi : s.Inv) (hL : s.ownTrace t = L) (he : IsNote t e) (hd : DispatchRule t L e) :
    (record s e).Inv ∧ Guarantee calls t s (record s e) ∧ (record s e).ownTrace t = L ++ [e] := by
  have hold : ∀ e', ¬IsNote t e' → e' ∈ L ++ [e] → e' ∈ L := fun e' hne h =>
    (List.mem_append.1 h).resolve_right fun h => hne (List.mem_singleton.1 h ▸ he)
  have hcall := hi.call t
  rw [hL] at hcall
  have hcall' : CallOk s.foundation t (L ++ [e]) := by
    refine hcall.snoc (fun host ha hr => ?_) hd fun er hr o a ha => ?_
    · exact hcall.holds host (hold _ id ha) fun r h => hr r (List.mem_append_left _ h)
    · exact hcall.failed er (hold _ id hr) o a (hold _ id ha)
  obtain ⟨hi', hg⟩ := step_record hi he.task_eq (fun o a h => by rw [h] at he; exact he)
    (hL ▸ hcall')
  exact ⟨hi', hg, hL ▸ ownTrace_of_log rfl (by simp [he.task_eq])⟩

/-- The host and the global permit are acquired together, or not at all. -/
theorem safe_tryExecute (hs : s.ownTrace t = []) : (protocol calls).Safe t (fun r s => match r with
      | .ok () => s.ownTrace t = [.admitted t host]
      | .error _ => s.ownTrace t = []) (tryExecute t host) s := by
  refine safe_act stable_trace hs fun s₁ b s₂ hs₁ hi hf => ?_
  cases hlock : lockGate s₁ host (.execution t) with
  | none =>
    rw [hlock] at hf
    obtain ⟨⟩ := hf
    exact ⟨hi, .refl _ _, hs₁⟩
  | some s' =>
    rw [hlock] at hf
    obtain ⟨⟩ := hf
    obtain ⟨hfree, rfl⟩ := lockGate_eq_some.1 hlock
    rw [foundation_eq] at hfree
    obtain ⟨hi', hg⟩ := step_gate (t := t) host (some (.execution t)) hi
      (fun g hg => by rw [hfree] at hg; cases hg) (fun g hg => by cases hg; rfl)
      (hs₁ ▸ callOk_nil)
    refine ⟨hi', hg, ?_⟩
    refine safe_act (stable_trace.and (stable_gate rfl)) ⟨hs₁, update_self ..⟩
      fun s₂ b s₃ ⟨hs₂, hgate⟩ hi hf => ?_
    simp only [foundation_eq] at hf
    split_ifs at hf with hpermit
    · obtain ⟨⟩ := hf
      have hcall : CallOk (setPermit s₂ (some t)).foundation t
          ([] ++ [admitted t host]) := by
        refine (callOk_nil (F := s₂.foundation)).snoc (fun host' h _ => ?_) (fun o a h => by cases h) (by simp)
        obtain rfl : host' = host := by simpa using h
        exact ⟨hgate, rfl⟩
      obtain ⟨hi', hg⟩ := step_quiet (t := t) (record (setPermit s₂ (some t)) (.admitted t host))
        [.admitted t host] hi rfl rfl rfl (by simp [task])
        (fun _ _ _ => Iff.rfl) (fun t' ht' => by simp [setPermit, hpermit, Ne.symm ht'])
        (hs₂ ▸ hcall)
      refine ⟨hi', hg, ?_⟩
      exact (ownTrace_of_log (s := s₂) rfl (by simp [task])).trans (by rw [hs₂]; rfl)
    · obtain ⟨⟩ := hf
      refine ⟨hi, .refl _ _, ?_⟩
      refine safe_modify (stable_trace.and (stable_gate rfl)) ⟨hs₂, hgate⟩
        fun s₃ ⟨hs₃, hgate⟩ hi => ?_
      obtain ⟨hi', hg⟩ := step_gate (t := t) host none hi
        (fun g hg => by rw [hgate] at hg; cases hg; rfl) nofun (hs₃ ▸ callOk_nil)
      exact ⟨hi', hg, hs₃⟩

variable {id : RemoteOperationPlanId} {binding : AuthorityBinding}

/-- A consumption by an admitted execution. -/
theorem safe_consume (hs : s.ownTrace t = [.admitted t host]) :
    (protocol calls).Safe t (fun r s => match r with
      | .ok a => s.ownTrace t = [.admitted t host, .consumed t o a]
      | .error _ => s.ownTrace t = [.admitted t host]) (consume t o id binding) s := by
  refine safe_read (stable_trace.and (stable_clock s.clock)) ⟨hs, le_rfl⟩ (Guarantee.refl · t)
    fun s₀ ⟨hs₀, _⟩ _ => ?_
  refine safe_act (k := .ret) (stable_trace.and (stable_clock s₀.clock))
    ⟨hs₀, le_rfl⟩ fun s₁ b s₂ ⟨hs₁, hclock⟩ hi hf => ?_
  obtain ⟨state, hc, rfl⟩ := consumeSection_eq_some hf
  have hstep : (machine O PLAN_TTL).step s₁.foundation.authorities
      (.consume o id binding (now s₀) b) _ := step_of_performs hc rfl
  have hcall := hi.call t
  rw [hs₁] at hcall
  cases b with
  | error e =>
    -- Only a plan that had expired by the instant read can have been removed.
    have hkept : ∀ id' a, s₁.foundation.authorities.state.pending.get id' = some a →
        s₁.clock < a.expiresAt → state.pending.get id' = some a := by
      intro id' a ha hlive
      rcases consume_eq_error hi.valid.consistent hc with rfl | ⟨⟨c, hget, hle⟩, rfl⟩
      · exact ha
      · rw [pending_dropId, Table.get_remove_of_ne, ha]
        rintro rfl
        obtain rfl : c = a := Option.mem_unique hget ha
        exact absurd hlive (not_lt.2 (hle.trans hclock))
    obtain ⟨hi', hg⟩ := step_store (t := t) (setStore s₁ state) [] hi hstep rfl rfl rfl
      (by simp [setStore]) nofun (fun _ id' a ha hlive => .inl (hkept id' a ha hlive))
      (hs₁ ▸ ⟨hcall.holds, hcall.dispatches, hcall.failed⟩) nofun
    exact ⟨hi', hg, hs₁⟩
  | ok c =>
    obtain ⟨a, ha, hgr, _, _, rfl⟩ := consume_eq_ok hc
    have hid : c.id = id :=
      (StoredAuthority.of_grant_eq hgr).1.trans (hi.valid.consistent.wellTyped ha).1
    have hcall' : CallOk (setStore s₁ (s₁.foundation.authorities.state.dropId id)).foundation t
        ([admitted t host] ++ [consumed t o c]) := by
      refine hcall.snoc (fun host' h _ => ?_) (fun o a h => by cases h) (by simp)
      exact hcall.holds host' (by simpa using h) (by simp)
    have hgone : ∀ o' (c' : ConsumedAuthority o'),
        consumed t o' c' ∈ [consumed t o c] →
        c'.id ∈ s₁.foundation.authorities.issued ∧
          (s₁.foundation.authorities.state.dropId id).pending.get c'.id = none ∧
          s₁.foundation.authorities.state.pending.get c'.id ≠ none := by
      intro o' c' hc'
      cases List.mem_singleton.1 hc'
      rw [hid]
      refine ⟨hi.valid.issued_of_pending ha, by simp, ?_⟩
      rw [show s₁.foundation.authorities.state.pending.get id = some a from ha]
      exact Option.some_ne_none a
    obtain ⟨hi', hg⟩ := step_store (t := t)
      (record (setStore s₁ (s₁.foundation.authorities.state.dropId id)) (.consumed t o c))
      [.consumed t o c] hi hstep rfl rfl rfl rfl (by simp [task])
      (fun _ _ _ _ _ => .inr ⟨o, c, List.mem_append_cons_self⟩)
      (hs₁ ▸ hcall') hgone
    refine ⟨hi', hg, ?_⟩
    exact (ownTrace_of_log (s := s₁) rfl (by simp [task])).trans (by rw [hs₁]; rfl)

variable {token : CancellationToken}

/-- The store and the token are looked at once more. -/
theorem safe_mustStop (hs : s.ownTrace t = L) :
    (protocol calls).Safe t (fun stop s => ∃ es, s.ownTrace t = L ++ es ∧ (∀ e ∈ es, IsNote t e) ∧
      (stop = false → es = [.unsealed t, .uncancelled t token])) (mustStop t token) s := by
  have hunsealed : IsNote t (.unsealed t : FoundationEvent O) := rfl
  have huncancelled : IsNote t (.uncancelled t token : FoundationEvent O) := rfl
  refine safe_act stable_trace hs fun s₁ b s₂ hs₁ hi hf => ?_
  simp only [foundation_eq] at hf
  split_ifs at hf
  · obtain ⟨⟩ := hf
    exact ⟨hi, .refl _ _, [], by simpa using hs₁, by simp, by simp⟩
  · obtain ⟨⟩ := hf
    obtain ⟨hi', hg, hs₂⟩ := step_note hi hs₁ hunsealed fun o a h => by cases h
    refine ⟨hi', hg, ?_⟩
    refine safe_act (k := .ret) stable_trace hs₂ fun s₃ b s₄ hs₃ hi hf => ?_
    simp only [isCancelled_eq] at hf
    split_ifs at hf
    · obtain ⟨⟩ := hf
      exact ⟨hi, .refl _ _, [.unsealed t], hs₃, by simpa using hunsealed, by simp⟩
    · obtain ⟨⟩ := hf
      obtain ⟨hi', hg, hs₄⟩ := step_note hi hs₃ huncancelled fun o a h => by cases h
      exact ⟨hi', hg, [.unsealed t, .uncancelled t token], by simpa using hs₄,
        by simp [hunsealed, huncancelled], fun _ => rfl⟩

/-- The trace of an execution that holds its permit, with the result it is about
    to return. -/
def Returnable (t : TaskId) (host : HostId) (result : Except AppError ExecutionResult)
    (L : List (FoundationEvent O)) : Prop :=
  .admitted t host ∈ L ∧ (∀ r, .returned t r ∉ L) ∧
    ∀ e, result = .error e → ∀ o (a : ConsumedAuthority o), .consumed t o a ∉ L

omit [DecidableEq O] in
/-- Notes do not affect a successful return. -/
theorem returnable_ok {r : ExecutionResult} {es : List (FoundationEvent O)}
    (hL : .admitted t host ∈ L) (hr : ∀ r, .returned t r ∉ L) (hes : ∀ e ∈ es, IsNote t e) :
    Returnable t host (.ok r) (L ++ es) := by
  refine ⟨List.mem_append_left _ hL, fun r h => ?_, nofun⟩
  rcases List.mem_append.1 h with h | h
  · exact hr r h
  · exact hes _ h

/-- An execution that has consumed its plan dispatches it at most once, after
    everything that requires. -/
theorem safe_executeConsumed {a : ConsumedAuthority o}
    (hs : s.ownTrace t = [.admitted t host, .consumed t o a]) :
    (protocol calls).Safe t (fun r s => Returnable t host (.ok r) (s.ownTrace t))
      (executeConsumed t (anyExecution o) token a) s := by
  have hret : ∀ (r : ExecutionResult) (es : List (FoundationEvent O)) (s : FoundationState O),
      s.ownTrace t = [admitted t host, consumed t o a] ++ es →
      (∀ e ∈ es, IsNote t e) → Returnable t host (.ok r) (s.ownTrace t) := by
    intro r es s hs hes
    rw [hs]
    exact returnable_ok (by simp) (by simp) hes
  have hrevalidated : IsNote t (.revalidated t : FoundationEvent O) := rfl
  have hdispatched : IsNote t (.dispatched t o a) := rfl
  refine safe_read stable_trace hs (Guarantee.refl · t) fun s₁ hs₁ _ => ?_
  split_ifs
  · exact hret _ [] s₁ hs₁ (List.forall_mem_nil _)
  refine safe_ask fun r => ?_
  cases r with
  | error e =>
    refine safe_read stable_trace hs₁ (Guarantee.refl · t) fun s₂ hs₂ _ => ?_
    split_ifs
    · exact hret _ [] s₂ hs₂ (List.forall_mem_nil _)
    · exact hret _ [] s₂ hs₂ (List.forall_mem_nil _)
  | ok guard =>
    refine safe_modify stable_trace hs₁ fun s₂ hs₂ hi => ?_
    obtain ⟨hi', hg, hs₃⟩ := step_note hi hs₂ hrevalidated fun o a h => by cases h
    refine ⟨hi', hg, safe_bind.2 ((safe_mustStop hs₃).mono fun stop s₄ ⟨es, hs₄, hes, hgo⟩ => ?_)⟩
    cases stop with
    | true => exact hret _ (.revalidated t :: es) s₄ hs₄ (by simpa [hrevalidated] using hes)
    | false =>
      obtain rfl := hgo rfl
      refine safe_modify stable_trace hs₄ fun s₅ hs₅ hi => ?_
      have hrule : DispatchRule t ([admitted t host, consumed t o a] ++
          [revalidated t] ++ [unsealed t, uncancelled t token]) (dispatched t o a) := by
        intro o' a' h
        cases h
        refine ⟨⟨token, ?_⟩, by simp⟩
        exact List.sublist_append_right [admitted t host] _
      obtain ⟨hi', hg, hs₆⟩ := step_note hi hs₅ hdispatched hrule
      refine ⟨hi', hg, safe_ask fun outcome => ?_⟩
      refine hret _ [.revalidated t, .unsealed t, .uncancelled t token, .dispatched t o a] _ hs₆ ?_
      simpa [hrevalidated, hdispatched] using hes

/-- An admitted execution returns an error only if it has consumed nothing. -/
theorem safe_executeAdmitted (hs : s.ownTrace t = [.admitted t host]) :
    (protocol calls).Safe t (fun r s => Returnable t host r (s.ownTrace t))
      (executeAdmitted t o id binding (anyExecution o) token) s := by
  have hret : ∀ e (s : FoundationState O), s.ownTrace t = [.admitted t host] →
      Returnable t host (.error e) (s.ownTrace t) := by
    intro e s hs
    rw [hs]
    exact ⟨by simp, by simp, by simp⟩
  refine safe_read stable_trace hs (Guarantee.refl · t) fun s₁ hs₁ _ => ?_
  split_ifs
  · exact hret _ s₁ hs₁
  refine safe_bind.2 ((safe_consume hs₁).mono fun r s₂ hs₂ => ?_)
  cases r with
  | error e => exact hret e s₂ hs₂
  | ok a => exact safe_bind.2 ((safe_executeConsumed hs₂).mono fun r s₃ hs₃ => hs₃)

/-- The permit is dropped by its holder. -/
theorem safe_dropPermit {r : Except AppError ExecutionResult} (hQ : ∀ s, Q () s)
    (hs : Returnable t host r (s.ownTrace t)) :
    (protocol calls).Safe t Q (dropPermit t host r) s := by
  obtain ⟨hadm, hret, hfail⟩ := hs
  refine safe_modify (stable_trace (L := s.ownTrace t)) rfl fun s₁ hs₁ hi => ?_
  have hcall := hi.call t
  rw [hs₁] at hcall
  obtain ⟨hgate, hpermit⟩ := hcall.holds host hadm hret
  have hcall' : ∀ F : Foundation O, CallOk F t (s.ownTrace t ++ [returned t r]) := by
    refine fun F => hcall.snoc (fun host' _ h => ?_) (fun o a h => by cases h) fun e h o a ha => ?_
    · exact absurd List.mem_append_cons_self (h r)
    · have hr : r = .error e := by simpa [hret, eq_comm] using h
      exact hfail e hr o a (by simpa using ha)
  obtain ⟨hi', hg⟩ := step_quiet (t := t) (record (unlockGate s₁ host) (.returned t r))
    [.returned t r] hi rfl rfl rfl (by simp [task])
    (gates_update (fun g hg => by rw [foundation_eq, hgate] at hg; cases hg; rfl) nofun)
    (fun _ _ => Iff.rfl) (hs₁ ▸ hcall' _)
  refine ⟨hi', hg, ?_⟩
  have hs₂ : (record (unlockGate s₁ host) (.returned t r)).ownTrace t = _ :=
    (ownTrace_of_log (s := s₁) rfl (by simp [task])).trans (congrArg (· ++ _) hs₁)
  refine safe_modify (k := .ret) (stable_trace.and stable_permit) ⟨hs₂, hpermit⟩
    fun s₃ ⟨hs₃, hpermit⟩ hi => ?_
  obtain ⟨hi', hg⟩ := step_quiet (t := t) (setPermit s₃ none) [] hi rfl rfl
    (by simp [setPermit]) (by simp) (fun _ _ _ => Iff.rfl)
    (fun t' ht' => by simp [setPermit, hpermit, Ne.symm ht']) (by rw [hs₃, List.append_nil]; exact hcall' _)
  exact ⟨hi', hg, hQ _⟩

theorem safe_execute {Q : Except AppError ExecutionResult → FoundationState O → Prop}
    (hQ : ∀ r s, Q r s) (hs : s.ownTrace t = []) :
    (protocol calls).Safe t Q (execute t o id binding (anyExecution o) token) s := by
  have hfail : ∀ e (s : FoundationState O), s.ownTrace t = [] → (protocol calls).Safe t Q (do
      Proc.modify fun s => record s (.returned t (.error e))
      pure (.error e)) s := by
    intro e s hs
    refine safe_modify stable_trace hs fun s₁ hs₁ hi => ?_
    have hcall : CallOk s₁.foundation t ([] ++ [returned t (.error e)]) :=
      callOk_nil.snoc (F := s₁.foundation) (by simp) (fun o a h => by cases h) (by simp)
    obtain ⟨hi', hg⟩ := step_record (e := .returned t (.error e)) hi rfl nofun (hs₁ ▸ hcall)
    exact ⟨hi', hg, hQ _ _⟩
  refine safe_read stable_trace hs (Guarantee.refl · t) fun s₃ hs₃ _ => ?_
  split_ifs
  · exact hfail _ s₃ hs₃
  refine safe_bind.2 ((safe_tryExecute hs₃).mono fun r s₄ hs₄ => ?_)
  cases r with
  | error e => exact hfail e s₄ hs₄
  | ok _ =>
    refine safe_bind.2 ((safe_executeAdmitted hs₄).mono fun r s₅ hs₅ => ?_)
    exact safe_bind.2 (safe_dropPermit (fun s => hQ r s) hs₅)

/-! ## Every interleaving -/

variable (calls) in
/-- The calls keep to the protocol. -/
theorem protocol_sound : (protocol calls).Sound where
  init s hs := by
    obtain ⟨hF, hlog⟩ := hs
    have htrace : ∀ t, s.ownTrace t = [] := fun t => by rw [ownTrace, hlog]; rfl
    refine ⟨⟨?_, by simp [hlog], by simp [hlog], fun t => htrace t ▸ callOk_nil⟩, htrace⟩
    rw [hF]
    exact ⟨consistent_default, nofun⟩
  env s s' hi h := hi.env h
  idle t := stable_trace
  entry t p s hp hi hs := by
    obtain rfl := hp
    cases hcall : calls t with
    | execute o id binding token => exact safe_bind.2 (safe_execute (fun _ _ => trivial) hs)
    | lifecycleGuard host => exact safe_lifecycleGuard (fun _ => trivial) hs
    | tryLifecycleGuard host => exact safe_tryLifecycleGuard (fun _ => trivial) hs
    | plan draft current =>
      refine safe_bind.2 (safe_plan (fun _ _ => trivial) hs ?_ draft current)
      exact fun ⟨_, _, _, _, h⟩ => nomatch hcall.symm.trans h
    | discard o id binding =>
      refine safe_bind.2 (safe_read stable_trace hs (Guarantee.refl · t) fun s₁ hs₁ _ => ?_)
      refine safe_storeSection (fun _ _ => trivial) hs₁ ?_ fun _ =>
        ⟨.discard o id binding s₁.clock _, rfl, rfl⟩
      exact fun ⟨_, _, _, _, h⟩ => nomatch hcall.symm.trans h
    | revokeHost host =>
      refine safe_bind.2 (safe_storeSection (fun _ _ => trivial) hs ?_ fun _ =>
        ⟨.revokeHost host _, rfl, rfl⟩)
      exact fun ⟨_, _, _, _, h⟩ => nomatch hcall.symm.trans h
    | revokeSession host session =>
      refine safe_bind.2 (safe_storeSection (fun _ _ => trivial) hs ?_ fun _ =>
        ⟨.revokeSession host session _, rfl, rfl⟩)
      exact fun ⟨_, _, _, _, h⟩ => nomatch hcall.symm.trans h
    | beginShutdown =>
      refine safe_storeSection (f := fun store => ((), store.sealAndRevokeAll)) (fun _ _ => trivial)
        hs ?_ fun _ => ⟨.sealAndRevokeAll, rfl, rfl⟩
      exact fun ⟨_, _, _, _, h⟩ => nomatch hcall.symm.trans h

variable {ls : List (Label TaskId)} {c c' : Config TaskId (FoundationState O)}

/-- Nothing is erased from the log. -/
theorem log_of_path (hc : (protocol calls).Keeps c) (h : (system calls).machine.Path c ls c') :
    ∃ es, c'.shared.log = c.shared.log ++ es := by
  induction h with
  | nil c => exact ⟨[], (List.append_nil _).symm⟩
  | @cons c c₁ c' l ls hs h ih =>
    obtain ⟨es', hes'⟩ := ih (hc.step (protocol_sound calls) hs)
    suffices h₁ : ∃ es, c₁.shared.log = c.shared.log ++ es by
      obtain ⟨es, hes⟩ := h₁
      exact ⟨es ++ es', by rw [hes', hes, List.append_assoc]⟩
    cases l with
    | start t =>
      obtain ⟨_, p, _, rfl⟩ := hs
      exact ⟨[], (List.append_nil _).symm⟩
    | run t =>
      rcases hc.guarantee_of_step hs with he | hg
      · exact ⟨[], by rw [he, List.append_nil]⟩
      · exact hg.log.imp fun es h => h.1
    | env =>
      obtain ⟨s', hs', rfl⟩ := hs
      exact ⟨[], by cases hs' <;> exact (List.append_nil _).symm⟩

omit [DecidableEq O] in
/-- The execution `t` for `host` is between its admission and its return. -/
def Between (t : TaskId) (host : HostId) (log : List (FoundationEvent O)) : Prop :=
  .admitted t host ∈ log ∧ ∀ r, .returned t r ∉ log

/-- What is safe about the executions of the interleaving `ls`, ending in `c`. -/
structure Safety (calls : TaskId → FoundationCall O) (ls : List (Label TaskId))
    (c : Config TaskId (FoundationState O)) : Prop where
  /-- One execution at most is between its admission and its return. -/
  admitted_unique : ∀ t t' host host', Between t host c.shared.log →
    Between t' host' c.shared.log → t = t'
  /-- None is for a host a lifecycle guard is held of. -/
  not_guarded : ∀ t host, Between t host c.shared.log →
    ∀ u, c.shared.foundation.hostGates host ≠ some (.lifecycle u)
  /-- No plan is dispatched twice. -/
  dispatch_once : c.shared.log.Pairwise fun e e' => ∀ t o (a : ConsumedAuthority o) t' o'
    (a' : ConsumedAuthority o'), e = .dispatched t o a → e' = .dispatched t' o' a' → a.id ≠ a'.id
  /-- A dispatch is made by a call that has consumed the plan, has got `Ok` from
      the revalidator, and has then seen the store unsealed and the token not
      cancelled. -/
  dispatch_justified : ∀ pre post t o (a : ConsumedAuthority o),
    c.shared.log = pre ++ dispatched t o a :: post → ∃ token,
      [.consumed t o a, .revalidated t, .unsealed t, .uncancelled t token].Sublist pre
  /-- No step of an execution that fails removes a plan that has not expired. -/
  failed_keeps : ∀ pre t post c₁ c₂, ls = pre ++ .run t :: post →
    (system calls).machine.Run pre c₁ → (system calls).Step c₁ (.run t) c₂ →
    (system calls).machine.Path c₂ post c → (calls t).IsExecution →
    ∀ e, .returned t (.error e) ∈ c.shared.log →
    ∀ id a, c₁.shared.foundation.authorities.state.pending.get id = some a →
      c₁.shared.clock < a.expiresAt →
      c₂.shared.foundation.authorities.state.pending.get id = some a
  /-- A plan that has been consumed is not pending ever after. -/
  consumed_gone : ∀ pre post c₁, ls = pre ++ post → (system calls).machine.Run pre c₁ →
    (system calls).machine.Path c₁ post c → ∀ t o (a : ConsumedAuthority o),
    .consumed t o a ∈ c₁.shared.log →
      c.shared.foundation.authorities.state.pending.get a.id = none

omit [DecidableEq O] in
theorem Between.ownTrace (h : Between t host s.log) :
    .admitted t host ∈ s.ownTrace t ∧ ∀ r, .returned t r ∉ s.ownTrace t :=
  ⟨mem_ownTrace.2 ⟨h.1, rfl⟩, fun r hr => h.2 r (mem_ownTrace.1 hr).1⟩

omit [DecidableEq O] in
/-- What a dispatch requires, in the trace of its call. -/
theorem Inv.of_dispatched (hi : s.Inv) {pre post : List (FoundationEvent O)}
    {a : ConsumedAuthority o} (h : s.log = pre ++ dispatched t o a :: post) :
    ∃ token, [.consumed t o a, .revalidated t, .unsealed t, .uncancelled t token].Sublist pre := by
  have htrace := trace_append_cons task pre post (.dispatched t o a)
  rw [← h] at htrace
  obtain ⟨⟨token, hsub⟩, _⟩ := (hi.call t).dispatches _ _ _ htrace o a rfl
  exact ⟨token, hsub.trans (trace_sublist ..)⟩

omit [DecidableEq O] in
theorem Inv.consumed_of_dispatched (hi : s.Inv) {a : ConsumedAuthority o}
    (h : .dispatched t o a ∈ s.log) : .consumed t o a ∈ s.log := by
  obtain ⟨pre, post, hlog⟩ := List.append_of_mem h
  obtain ⟨token, hsub⟩ := hi.of_dispatched hlog
  rw [hlog]
  exact List.mem_append_left _ (hsub.subset List.mem_cons_self)

omit [DecidableEq O] in
/-- No plan is dispatched twice: not by two calls, as it is consumed by one, nor
    by one, as it dispatches once. -/
theorem Inv.dispatch_once (hi : s.Inv) : s.log.Pairwise fun e e' => ∀ t o
    (a : ConsumedAuthority o) t' o' (a' : ConsumedAuthority o'), e = .dispatched t o a →
      e' = .dispatched t' o' a' → a.id ≠ a'.id := by
  refine List.pairwise_iff_forall_sublist.2 fun {e e'} hsub t o a t' o' a' he he' hid => ?_
  subst he he'
  have ha := hi.consumed_of_dispatched (hsub.subset List.mem_cons_self)
  have ha' := hi.consumed_of_dispatched (hsub.subset (List.mem_cons_of_mem _ List.mem_cons_self))
  obtain rfl := hi.unique t t' o o' a a' ha ha' hid
  have htrace : List.Sublist _ (s.ownTrace t) :=
    sublist_trace hsub (by simp [task])
  obtain ⟨pre, hmem, hrule⟩ := (hi.call t).dispatches.of_sublist htrace
  exact (hrule o' a' rfl).2 o a hmem

/-- A plan to start a service is published, and executed. -/
def startCalls (t : TaskId) : FoundationCall SystemdOperation :=
  if t = ⟨0⟩ then .plan startDraft startDraft.binding
  else .execute .start ⟨7⟩ startDraft.binding ⟨0⟩

/-- The foundation before any call. -/
def initial : FoundationState SystemdOperation :=
  ⟨⟨⟨.default, ∅⟩, fun _ => none, none⟩, 0, fun _ => false, []⟩

theorem run_startCalls : ∃ ls c, (system startCalls).machine.Run ls c ∧
    ∃ a : ConsumedAuthority SystemdOperation.start, .dispatched ⟨1⟩ .start a ∈ c.shared.log := by
  have h₀ : (system startCalls).machine.Run [] ⟨fun _ => none, initial⟩ :=
    .nil ⟨⟨rfl, rfl⟩, fun _ => rfl⟩
  obtain ⟨_, h⟩ := System.run_start (i := ⟨0⟩) h₀ rfl rfl
  obtain ⟨_, h⟩ := System.run_alone h (.act rfl <| .answer ⟨7⟩ <| .act rfl <| .refl)
  obtain ⟨_, h⟩ := System.run_task h ⟨1⟩ rfl rfl
    (.act rfl <| .act rfl <| .act rfl <| .act rfl <| .act rfl <|
    .act rfl <| .act rfl <| .answer (.ok () : Except AppError Unit) <| .act rfl <| .act rfl <|
    .act rfl <| .act rfl <| .refl)
  refine ⟨_, _, h, ⟨⟨7⟩, startDraft.binding, .high, 0, PLAN_TTL,
    startDraft.target, {}, ()⟩, ?_⟩
  exact List.mem_concat_self

end NexusOps.RemoteOperations.FoundationState
