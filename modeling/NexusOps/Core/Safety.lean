import NexusOps.Core.ExecutionSafety
import NexusOps.Core.HostsSafety

/-!
# The application is safe in every interleaving

All calls keep to the protocol (`Application.protocol_sound`), so its invariant holds
in every interleaving of them:

* `Application.slots_of_run`: the session slots have the shape their state promises,
  and an attempt to connect is only published if nothing has superseded it;
* `Application.goodHost_of_run`: what is planned and observed for a host belongs to its
  connection, unless a lifecycle guard is held;
* `Application.dispatch_of_run`: a dispatched operation has been seen to be allowed in
  three inventories, and its host to be connected after the last of them;
* `Application.connections_of_run`: a host has one live connection at most.
-/

namespace NexusOps.Core.Application

open Concurrency RemoteOperations Protocol

variable {calls : TaskId → Call} {s : Application}

/-! ## Soundness -/

theorem Initial.inv (h : Initial s) : Inv calls s := by
  refine ⟨?_, ⟨fun slot data hd => ?_, fun host slot hs => ?_, fun slot data hd => ?_,
    fun slot data _ _ hd => ?_⟩, ?_, fun id a ha => ?_, fun host set hset => ?_,
    fun host _ => ⟨fun id a ha => ?_, fun set hset => ?_⟩⟩
  · rw [h.remoteOperations]
    exact ⟨StoreState.consistent_default, nofun⟩
  · cases (h.slots slot).symm.trans hd
  · cases (h.sessions host).symm.trans hs
  · cases (h.slots slot).symm.trans hd
  · cases (h.slots slot).symm.trans hd
  · rw [h.log]
    exact ⟨by simp [Established], by simp [Established], by simp, by simp [Issued],
      by simp [Issued], justified_nil⟩
  · rw [h.remoteOperations] at ha
    cases ha
  · rw [h.serviceObservations] at hset
    cases hset
  · rw [h.remoteOperations] at ha
    cases ha
  · rw [h.serviceObservations] at hset
    cases hset

theorem safe_exec {α : Type} {x : App α} {t : TaskId}
    (h : (protocol calls).Conforms t x s) :
    (protocol calls).Safe t (fun _ _ => True) (exec x) s :=
  Safe.bind h.run fun _ _ _ => trivial

/-- Every call keeps to the protocol. -/
theorem safe_program {t : TaskId} {call : Call} (hcall : calls t = call) :
    (protocol calls).Safe t (fun _ _ => True) (program t call) s := by
  cases call with
  | connectHost id => exact safe_exec safeOr_connectHost
  | disconnectHost id => exact safe_exec safeOr_disconnectHost
  | reconnectHost id => exact safe_exec safeOr_reconnectHost
  | getSession id => exact safe_exec safeOr_getSession
  | refreshHost id => exact safe_exec (neutral_refreshHost.safeOr stable_true trivial)
  | saveHost input credential => exact safe_exec safeOr_saveHost
  | deleteHost id => exact safe_exec safeOr_deleteHost
  | trustHostKey id challenge => exact safe_exec safeOr_trustHostKey
  | planHostKeyRotation id => exact safe_exec safeOr_planHostKeyRotation
  | executeHostKeyRotation id plan => exact safe_exec safeOr_executeHostKeyRotation
  | listHostServices host session => exact safe_exec safeOr_listHostServices
  | planService o host session id =>
    cases o <;> exact safe_exec (safeOr_planService hcall)
  | discardService o host session id =>
    cases o <;> exact safe_exec safeOr_discardService
  | executeService o host session id =>
    cases o <;> exact safe_exec (safeOr_executeService hcall)

variable (calls) in
/-- The calls keep to the protocol. -/
theorem protocol_sound : (protocol calls).Sound where
  init _ hs := ⟨hs.inv, fun _ => trivial⟩
  env _ _ hi h := (Env.harmless h hi).1
  idle _ := stable_true
  entry t p s hp _ _ := by
    obtain rfl := hp
    exact safe_program rfl

variable {ls : List (Label TaskId)} {c c' : Config TaskId Application}

/-- A step of the system is one of a call, or changes nothing that the protocol is
    about. -/
theorem guarantee_of_step {l : Label TaskId} (hc : (protocol calls).Keeps c)
    (h : (system calls).Step c l c') :
    c'.shared = c.shared ∨ ∃ t, Guarantee t c.shared c'.shared := by
  cases l with
  | start t =>
    obtain ⟨_, _, _, rfl⟩ := h
    exact .inl rfl
  | run t => exact (hc.guarantee_of_step h).imp_right fun hg => ⟨t, hg⟩
  | env =>
    obtain ⟨s', hs', rfl⟩ := h
    exact .inr ⟨⟨0⟩, (Env.harmless hs' hc.inv).2.guarantee ⟨0⟩⟩

/-! ## A run -/

/-- The calls that connect to a host, list its services, and plan and execute the start
    of one of them. -/
def startCalls (t : TaskId) : Call :=
  if t = ⟨0⟩ then .connectHost ⟨1⟩
  else if t = ⟨1⟩ then .listHostServices ⟨1⟩ ⟨2⟩
  else if t = ⟨2⟩ then .planService .start ⟨1⟩ ⟨2⟩ ⟨5⟩
  else .executeService .start ⟨1⟩ ⟨2⟩ ⟨7⟩

/-- An application that has just been opened, with one stored host. -/
def opened : Application where
  remoteOperations := ⟨⟨.default, ∅⟩, fun _ => none, none⟩
  clock := 0
  tokens := ∅
  cancelled _ := false
  closed _ := false
  repository id := if id = ⟨1⟩ then
      some ⟨⟨⟨1⟩, "web", ⟨"web.example", 22, "root", .password⟩⟩, ⟨1⟩⟩
    else none
  sessions _ := none
  slots _ := none
  serviceObservations := .default
  serviceAdmission := ⟨fun _ => none, ∅, fun _ => none, 4⟩
  rotationPlans _ := none
  mutation := none
  sessionIds := ∅
  observationIds := ∅
  attempts _ := none
  log := []

/-- What the host answers when its services are listed: one that can be started. -/
def inventory : Except AppError (String × List ServiceEntry) :=
  .ok ("", [⟨"nginx.service", "loaded", "inactive", "dead", "", true, false, fun _ => none⟩])

/-- The calls can be run one after the other: the host is connected, the start of the
    service is planned, and it is dispatched. -/
theorem run_startCalls :
    (∃ ls c, (system startCalls).machine.Run ls c ∧
      .connected ⟨0⟩ ⟨1⟩ ⟨2⟩ ⟨1⟩ ∈ c.shared.log) ∧
    (∃ ls c, (system startCalls).machine.Run ls c ∧
      c.shared.remoteOperations.hostGates ⟨1⟩ = none ∧
      (c.shared.remoteOperations.authorities.state.pending.get ⟨7⟩).isSome ∧
      (c.shared.serviceObservations.sets.get ⟨1⟩).isSome) ∧
    ∃ ls c, (system startCalls).machine.Run ls c ∧
      ∃ pre, ∃ a : ConsumedAuthority SystemdOperation.start,
        c.shared.log = pre ++ [AppEvent.operation (.dispatched ⟨3⟩ .start a)] := by
  have h₀ : (system startCalls).machine.Run [] ⟨fun _ => none, opened⟩ :=
    .nil ⟨⟨rfl, rfl, fun _ => rfl, fun _ => rfl, rfl, rfl, fun _ => rfl, rfl, rfl, rfl, rfl⟩,
      fun _ => rfl⟩
  -- `connect_host`
  obtain ⟨_, h⟩ := System.run_start (i := ⟨0⟩) h₀ rfl rfl
  obtain ⟨_, h⟩ := System.run_alone h (.act rfl <| .act rfl <| .act rfl <| .act rfl <|
    .answer false <| .act rfl <| .act rfl <| .answer (⟨1⟩ : SlotId) <|
    .answer (⟨1⟩ : CancellationToken) <| .act rfl <| .answer (⟨2⟩ : CancellationToken) <|
    .act rfl <| .act rfl <| .act rfl <| .answer (.ok () : Except AppError Unit) <|
    .answer (.ok ⟨1⟩ : Except AppError TransportId) <| .answer (.ok () : Except AppError Unit) <|
    .act rfl <| .answer (.ok () : Except AppError Unit) <| .answer (⟨2⟩ : HostSessionId) <|
    .answer (.ok () : Except AppError Unit) <| .act rfl <| .refl)
  refine ⟨⟨_, _, h, List.mem_concat_self⟩, ?_⟩
  -- `list_host_services`
  obtain ⟨_, h⟩ := System.run_task h ⟨1⟩ rfl rfl (.act rfl <| .answer false <| .act rfl <|
    .answer (⟨1⟩ : SlotId) <| .answer (⟨1⟩ : CancellationToken) <| .act rfl <| .act rfl <|
    .act rfl <| .answer (⟨1⟩ : ServiceGateId) <| .act rfl <| .act rfl <| .act rfl <| .act rfl <|
    .answer inventory <| .act rfl <| .act rfl <| .act rfl <| .act rfl <| .act rfl <| .act rfl <|
    .answer (fun n => ⟨5 + n⟩ : Nat → ServiceObservationId) <| .answer ([] : List HostId) <|
    .act rfl <| .act rfl <| .refl)
  -- `plan_service_start`
  obtain ⟨_, h⟩ := System.run_task h ⟨2⟩ rfl rfl
    (.answer false <| .act rfl <| .answer (⟨1⟩ : SlotId) <|
    .answer (⟨1⟩ : CancellationToken) <| .act rfl <| .act rfl <| .act rfl <| .act rfl <|
    .answer (⟨1⟩ : ServiceGateId) <| .act rfl <| .act rfl <| .act rfl <| .answer inventory <|
    .act rfl <| .act rfl <| .act rfl <| .act rfl <| .act rfl <| .act rfl <| .act rfl <| .act rfl <|
    .answer (⟨7⟩ : RemoteOperationPlanId) <| .act rfl <| .act rfl <| .refl)
  refine ⟨⟨_, _, h, rfl, rfl, rfl⟩, ?_⟩
  -- `execute_service_start`, up to the dispatch
  obtain ⟨_, h⟩ := System.run_task h ⟨3⟩ rfl rfl (.answer (⟨1⟩ : SlotId) <|
    .answer (⟨1⟩ : CancellationToken) <| .act rfl <| .act rfl <| .act rfl <| .act rfl <| .act rfl <|
    .act rfl <| .act rfl <| .act rfl <| .act rfl <| .act rfl <| .act rfl <| .act rfl <| .act rfl <|
    .answer inventory <| .act rfl <| .act rfl <| .act rfl <| .act rfl <| .act rfl <| .act rfl <|
    .act rfl <| .refl)
  exact ⟨_, _, h, _, _, rfl⟩

/-! ## Session slots -/

/-- The generation of a slot does not decrease. -/
theorem generation_le_of_path (hc : (protocol calls).Keeps c)
    (h : (system calls).machine.Path c ls c') {slot : SlotId} {data : SessionData}
    (hd : c.shared.slots slot = some data) :
    ∃ data', c'.shared.slots slot = some data' ∧ data.generation ≤ data'.generation := by
  refine (h.invariant (P := fun c => (protocol calls).Keeps c ∧ ∃ data',
    c.shared.slots slot = some data' ∧ data.generation ≤ data'.generation)
    (fun c₁ l c₂ ⟨hc₁, data₁, hd₁, hle⟩ hstep => ⟨hc₁.step (protocol_sound calls) hstep, ?_⟩)
    ⟨hc, data, hd, le_rfl⟩).2
  rcases guarantee_of_step hc₁ hstep with heq | ⟨t, hg⟩
  · exact ⟨data₁, heq ▸ hd₁, hle⟩
  · obtain ⟨data₂, hd₂, hs⟩ := hg.slots slot data₁ hd₁
    exact ⟨data₂, hd₂, hle.trans hs.generation⟩

/-- What holds of the session slots after a run that has led to the configuration
    `c`. -/
structure SlotSafety (calls : TaskId → Call) (c : Config TaskId Application) : Prop where
  /-- The fields of a slot agree with its state. -/
  ok : ∀ slot data, c.shared.slots slot = some data → data.Ok
  /-- The generation of a slot does not decrease, whatever happens next. -/
  generation : ∀ ls c', (system calls).machine.Path c ls c' → ∀ slot data,
    c.shared.slots slot = some data →
      ∃ data', c'.shared.slots slot = some data' ∧ data.generation ≤ data'.generation
  /-- No transition has failed. -/
  transitions : ∀ t, .transitionFailed t ∉ c.shared.log
  /-- An attempt is only published if nothing has superseded it. -/
  published : ∀ pre post t host, (∃ session transport, c.shared.log =
      pre ++ AppEvent.connected t host session transport :: post) ∨
    (∃ state, c.shared.log = pre ++ AppEvent.failed t host state :: post) → Unsuperseded t host pre

theorem slots_of_run (h : (system calls).machine.Run ls c) : SlotSafety calls c := by
  have hc := (protocol_sound calls).of_run h
  refine ⟨hc.inv.slots.ok, fun ls' c' hp slot data hd => generation_le_of_path hc hp hd,
    fun t hmem => ?_, fun pre post t host hlog => ?_⟩
  · obtain ⟨pre, post, hlog⟩ := List.append_of_mem hmem
    exact hc.inv.log.rule pre _ post hlog
  · rcases hlog with ⟨_, _, hlog⟩ | ⟨_, hlog⟩
    · exact hc.inv.log.rule pre _ post hlog
    · exact hc.inv.log.rule pre _ post hlog

theorem slots_startCalls : ∃ ls c, (system startCalls).machine.Run ls c ∧
    .connected ⟨0⟩ ⟨1⟩ ⟨2⟩ ⟨1⟩ ∈ c.shared.log ∧ SlotSafety startCalls c := by
  obtain ⟨⟨ls, c, h, hmem⟩, -⟩ := run_startCalls
  exact ⟨ls, c, h, hmem, slots_of_run h⟩

/-! ## Plans and observations -/

/-- As long as no call holds the lifecycle guard of a host, its pending plans and its
    observations belong to the connection of its slot. -/
theorem goodHost_of_run (h : (system calls).machine.Run ls c) (host : HostId)
    (hfree : ∀ t, c.shared.remoteOperations.hostGates host ≠ some (.lifecycle t)) :
    c.shared.GoodHost host :=
  ((protocol_sound calls).of_run h).inv.good host hfree

theorem goodHost_startCalls : ∃ ls c, (system startCalls).machine.Run ls c ∧
    (c.shared.remoteOperations.authorities.state.pending.get ⟨7⟩).isSome ∧
    (c.shared.serviceObservations.sets.get ⟨1⟩).isSome ∧ c.shared.GoodHost ⟨1⟩ := by
  obtain ⟨-, ⟨ls, c, h, hfree, ha, hset⟩, -⟩ := run_startCalls
  exact ⟨ls, c, h, ha, hset, goodHost_of_run h ⟨1⟩ fun t ht => nomatch hfree.symm.trans ht⟩

/-! ## Dispatches -/

/-- A connection has only been logged as seen when the run was in a state with it. -/
def Genuine (calls : TaskId → Call) (ls : List (Label TaskId)) (log : List AppEvent) : Prop :=
  ∀ pre post t binding transport, log = pre ++ AppEvent.bound t binding transport :: post →
    ∃ ls₁ ls₂ c₁, ls = ls₁ ++ ls₂ ∧ (system calls).machine.Run ls₁ c₁ ∧ c₁.shared.log = pre ∧
      c₁.shared.ConnectedBy binding transport

theorem genuine_of_run (h : (system calls).machine.Run ls c) : Genuine calls ls c.shared.log := by
  intro pre post t binding transport hlog
  refine h.logged (fun c => c.shared.log) (fun c e => c.shared.Sees e) (fun c hc => hc.1.log)
    (fun ls₁ c₁ l c₂ hr hs => ?_) hlog
  rcases guarantee_of_step ((protocol_sound calls).of_run hr) hs with heq | ⟨t, hg⟩
  · exact .inl (congrArg Application.log heq)
  · obtain ⟨es, hes, hlen, hsees⟩ := hg.log
    rcases Nat.le_one_iff_eq_zero_or_eq_one.1 hlen with h | h
    · rw [List.length_eq_zero_iff.1 h, List.append_nil] at hes
      exact .inl hes
    · obtain ⟨e, rfl⟩ := List.length_eq_one_iff.1 h
      exact .inr ⟨e, hes, hsees e List.mem_cons_self⟩

/-- A dispatched operation is accounted for by the log before it, and the connections
    that were logged have been there. -/
theorem dispatch_of_run (h : (system calls).machine.Run ls c) {pre post : List AppEvent}
    {t : TaskId} {o : SystemdOperation} {a : ConsumedAuthority o}
    (hlog : c.shared.log = pre ++ AppEvent.operation (.dispatched t o a) :: post) :
    (∃ p last, Accounted calls pre t a p last) ∧ Genuine calls ls c.shared.log :=
  ⟨((protocol_sound calls).of_run h).inv.log.rule pre _ post hlog, genuine_of_run h⟩

theorem dispatch_startCalls : ∃ ls c, (system startCalls).machine.Run ls c ∧
    ∃ pre, ∃ a : ConsumedAuthority SystemdOperation.start,
      c.shared.log = pre ++ [AppEvent.operation (.dispatched ⟨3⟩ .start a)] ∧
      (∃ p last, Accounted startCalls pre ⟨3⟩ a p last) ∧ Genuine startCalls ls c.shared.log := by
  obtain ⟨-, -, ls, c, h, pre, a, hlog⟩ := run_startCalls
  exact ⟨ls, c, h, pre, a, hlog, dispatch_of_run h hlog⟩

/-! ## Connections -/

/-- A host has at most one slot that is connected, or being connected or disconnected. Each
    session is over one transport, that of the slot it belongs to. -/
theorem connections_of_run (h : (system calls).machine.Run ls c) :
    (∀ slot slot' data data', c.shared.slots slot = some data →
      c.shared.slots slot' = some data' → ¬data.view.state.Quiescent →
      ¬data'.view.state.Quiescent → data.view.hostId = data'.view.hostId → slot = slot') ∧
    ∀ slot data session, c.shared.slots slot = some data → data.view.state = .connected →
      data.connectionId = some session → ∀ transport,
        data.transport = some transport ↔ Established c.shared.log session transport := by
  have hinv := ((protocol_sound calls).of_run h).inv
  refine ⟨fun slot slot' data data' hd hd' hlive hlive' hhost => ?_,
    fun slot data session hd hstate hsession transport => ⟨fun ht => ?_, fun hest => ?_⟩⟩
  · have hslot := hinv.slots.attached slot data hd hlive
    rw [hhost, hinv.slots.attached slot' data' hd' hlive'] at hslot
    exact (Option.some.inj hslot).symm
  · exact hinv.slots.established slot data session transport hd hstate hsession ht
  · obtain ⟨transport', ht⟩ := Option.ne_none_iff_exists'.1
      ((hinv.slots.ok slot data hd).connected hstate).1
    have hest' := hinv.slots.established slot data session transport' hd hstate hsession ht
    rw [ht, hinv.log.unique session transport' transport hest' hest]

theorem connections_startCalls : ∃ ls c, (system startCalls).machine.Run ls c ∧
    .connected ⟨0⟩ ⟨1⟩ ⟨2⟩ ⟨1⟩ ∈ c.shared.log ∧ ∀ slot data, c.shared.slots slot = some data →
      data.view.state = .connected → data.connectionId = some ⟨2⟩ → data.transport = some ⟨1⟩ := by
  obtain ⟨⟨ls, c, h, hmem⟩, -⟩ := run_startCalls
  exact ⟨ls, c, h, hmem, fun slot data hd hstate hsession =>
    ((connections_of_run h).2 slot data _ hd hstate hsession _).2 ⟨_, _, hmem⟩⟩

end NexusOps.Core.Application
