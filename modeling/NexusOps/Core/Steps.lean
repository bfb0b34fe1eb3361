import NexusOps.Core.Protocol

/-!
# Steps of the application's calls

What the sections of the calls do, in terms of the protocol. Most of them are
*harmless* (`Application.Harmless`): they are within the guarantee of every call,
so that whatever a call knows between two of its steps still holds after one of
them. The others take or release a lock, publish a plan or observations, or change
a slot (`Application.step_slot`).
-/

namespace NexusOps.Core

open Concurrency RemoteOperations Function RemoteOperationFoundation

variable {log es : List AppEvent} {t : TaskId} {host : HostId} {calls : TaskId → Call}

/-! ## Histories -/

theorem Unsuperseded.append (h : Unsuperseded t host log) (hes : ∀ e ∈ es, ¬e.Supersedes host) :
    Unsuperseded t host (log ++ es) := by
  obtain ⟨pre, post, rfl, hpost⟩ := h
  refine ⟨pre, post ++ es, by simp, fun e he => ?_⟩
  rcases List.mem_append.1 he with he | he
  · exact hpost e he
  · exact hes e he

variable {transport : TransportId} {session : HostSessionId}

theorem Established.append
    (h : Established log session transport) : Established (log ++ es) session transport := by
  obtain ⟨t, host, h⟩ := h
  exact ⟨t, host, List.mem_append_left _ h⟩

variable {e : AppEvent}

theorem established_snoc :
    Established (log ++ [e]) session transport ↔ Established log session transport ∨
      ∃ t host, e = .connected t host session transport := by
  simp only [Established, List.mem_append, List.mem_singleton, exists_or, eq_comm]

theorem issued_snoc {id : ServiceObservationId} {observation : ActionableServiceObservation} :
    Issued (log ++ [e]) id observation ↔ Issued log id observation ∨
      ∃ t binding observations, e = .issued t binding observations ∧
        observations.get id = some observation := by
  simp only [Issued, List.mem_append, List.mem_singleton, or_and_right, exists_or, eq_comm]

variable {binding : AuthorityBinding} {observations : Observations}

theorem Observed.append
    (h : Observed log binding observations) : Observed (log ++ es) binding observations := by
  obtain ⟨t, transport, snapshot, hs, hshows⟩ := h
  exact ⟨t, transport, snapshot, hs.trans (List.sublist_append_left ..), hshows⟩

variable {o : SystemdOperation} {unit : SystemdServiceUnitName} {p : Provenance}

theorem Provenance.Explains.append
    (h : p.Explains calls log o binding unit) : p.Explains calls (log ++ es) o binding unit :=
  { h with claimed := h.claimed.trans (List.sublist_append_left ..) }

variable {id : RemoteOperationPlanId}

theorem Provenance.LeadsTo.append {es' : List AppEvent} (h : p.LeadsTo log o binding unit id es') :
    p.LeadsTo (log ++ es) o binding unit id es' := by
  obtain ⟨draft, hb, ht, hs⟩ := h
  exact ⟨draft, hb, ht, hs.trans (List.sublist_append_left ..)⟩

/-- An event that comes after everything else. -/
theorem Provenance.LeadsTo.snoc {es' : List AppEvent} (h : p.LeadsTo log o binding unit id es') :
    p.LeadsTo (log ++ [e]) o binding unit id (es' ++ [e]) := by
  obtain ⟨draft, hb, ht, hs⟩ := h
  refine ⟨draft, hb, ht, ?_⟩
  rw [← List.cons_append, ← List.append_assoc]
  exact hs.append (List.Sublist.refl _)

theorem Planned.append {a : StoredAuthority SystemdOperation} (h : Planned calls log a) :
    Planned calls (log ++ es) a := by
  obtain ⟨o, c, p, hgrant, hexplains, hleads⟩ := h
  exact ⟨o, c, p, hgrant, hexplains.append, hleads.append⟩

theorem Undisturbed.refl (data : SessionData) : Undisturbed data data :=
  ⟨fun h => ⟨h, rfl, rfl, rfl⟩, id, id⟩

namespace Application

variable {s s' : Application} {slot : SlotId} {data data' : SessionData}

/-! ## What is logged -/

section

variable {sessionIds : Finset HostSessionId} {observationIds : Finset ServiceObservationId}
  {e : AppEvent}

/-- An event that neither establishes a session nor publishes observations. -/
theorem LogOk.snoc (h : LogOk calls sessionIds observationIds log) (hrule : Rule calls log e)
    (hconnected : ∀ t host session transport, e ≠ .connected t host session transport)
    (hissued : ∀ t binding observations, e ≠ .issued t binding observations)
    (hbound : ∀ t binding transport, e = .bound t binding transport →
      Established log binding.hostSessionId transport) :
    LogOk calls sessionIds observationIds (log ++ [e]) := by
  have hold : ∀ {session transport}, Established (log ++ [e]) session transport →
      Established log session transport := fun he =>
    (established_snoc.1 he).resolve_right fun ⟨_, _, he⟩ => hconnected _ _ _ _ he
  have hold' : ∀ {id observation}, Issued (log ++ [e]) id observation →
      Issued log id observation := fun he =>
    (issued_snoc.1 he).resolve_right fun ⟨_, _, _, he, _⟩ => hissued _ _ _ he
  refine ⟨fun _ _ he => h.used _ _ (hold he), fun _ _ _ he he' => h.unique _ _ _ (hold he) (hold he'),
    fun t binding transport hmem => ?_, fun _ _ he => h.issued _ _ (hold' he),
    fun _ _ _ he he' => h.resolved _ _ _ (hold' he) (hold' he'), justified_snoc.2 ⟨h.rule, hrule⟩⟩
  rcases mem_snoc.1 hmem with hmem | rfl
  · exact (h.bound t binding transport hmem).append
  · exact (hbound t binding transport rfl).append

/-- A session is established, under an unused id. -/
theorem LogOk.connected
    (h : LogOk calls sessionIds observationIds log) (hu : Unsuperseded t host log)
    (hnew : session ∉ sessionIds) : LogOk calls (insert session sessionIds) observationIds
      (log ++ [AppEvent.connected t host session transport]) := by
  have hcases : ∀ {session' transport'},
      Established (log ++ [AppEvent.connected t host session transport]) session' transport' →
        Established log session' transport' ∧ session' ≠ session ∨
          session' = session ∧ transport' = transport := by
    intro session' transport' he
    rcases established_snoc.1 he with he | ⟨_, _, he⟩
    · refine .inl ⟨he, fun heq => hnew ?_⟩
      exact heq ▸ h.used _ _ he
    · obtain ⟨_, _, rfl, rfl⟩ := AppEvent.connected.inj he
      exact .inr ⟨rfl, rfl⟩
  refine ⟨fun session' _ he => ?_, fun session' _ _ he he' => ?_, fun t' binding transport' hmem => ?_,
    fun id _ he => ?_, fun id _ _ he he' => ?_, justified_snoc.2 ⟨h.rule, hu⟩⟩
  · rcases hcases he with ⟨he, _⟩ | ⟨rfl, _⟩
    · exact Finset.mem_insert_of_mem (h.used _ _ he)
    · exact Finset.mem_insert_self ..
  · rcases hcases he with ⟨he, hne⟩ | ⟨rfl, rfl⟩
    · rcases hcases he' with ⟨he', _⟩ | ⟨heq, _⟩
      · exact h.unique _ _ _ he he'
      · exact absurd heq hne
    · rcases hcases he' with ⟨_, hne⟩ | ⟨_, heq⟩
      · exact absurd rfl hne
      · exact heq.symm
  · exact (h.bound t' binding transport' (mem_of_snoc hmem nofun)).append
  · exact h.issued id _ ((issued_snoc.1 he).resolve_right nofun)
  · exact h.resolved id _ _ ((issued_snoc.1 he).resolve_right nofun)
      ((issued_snoc.1 he').resolve_right nofun)

/-- Observations are published, under unused ids. -/
theorem LogOk.publish (h : LogOk calls sessionIds observationIds log)
    (hnew : Disjoint observations.keys observationIds) :
    LogOk calls sessionIds (observations.keys ∪ observationIds)
      (log ++ [AppEvent.issued t binding observations]) := by
  have hcases : ∀ {id observation}, Issued (log ++ [AppEvent.issued t binding observations]) id observation →
      Issued log id observation ∧ id ∉ observations.keys ∨ observations.get id = some observation := by
    intro id observation he
    rcases issued_snoc.1 he with he | ⟨_, _, _, he, hget⟩
    · exact .inl ⟨he, fun hmem => Finset.disjoint_left.1 hnew hmem (h.issued _ _ he)⟩
    · obtain ⟨_, _, rfl⟩ := AppEvent.issued.inj he
      exact .inr hget
  refine ⟨fun _ _ he => h.used _ _ ((established_snoc.1 he).resolve_right nofun),
    fun _ _ _ he he' => h.unique _ _ _ ((established_snoc.1 he).resolve_right nofun)
      ((established_snoc.1 he').resolve_right nofun), fun t' binding' transport hmem => ?_,
    fun id _ he => ?_, fun id _ _ he he' => ?_, justified_snoc.2 ⟨h.rule, trivial⟩⟩
  · exact (h.bound t' binding' transport (mem_of_snoc hmem nofun)).append
  · rcases hcases he with ⟨he, _⟩ | hget
    · exact Finset.mem_union_right _ (h.issued _ _ he)
    · exact Finset.mem_union_left _ (Table.mem_keys_of_get hget)
  · rcases hcases he with ⟨he, hne⟩ | hget
    · rcases hcases he' with ⟨he', _⟩ | hget
      · exact h.resolved _ _ _ he he'
      · exact absurd (Table.mem_keys_of_get hget) hne
    · rcases hcases he' with ⟨_, hne⟩ | hget'
      · exact absurd (Table.mem_keys_of_get hget) hne
      · exact Option.mem_unique hget hget'

end

/-! ## Guarantees -/

/-- A step within the guarantee of every call. -/
structure Harmless (s s' : Application) : Prop where
  log : ∃ es, s'.log = s.log ++ es ∧ es.length ≤ 1 ∧
    ∀ e ∈ es, s.Sees e ∧ ∀ host, ¬e.Supersedes host
  gates : s'.remoteOperations.hostGates = s.remoteOperations.hostGates
  mutation : s'.mutation = s.mutation
  sessions : ∀ host slot, s.sessions host = some slot → s'.sessions host = some slot
  slots : ∀ slot data, s.slots slot = some data → s'.slots slot = some data
  attempts : s'.attempts = s.attempts
  pending : ∀ id a, s'.remoteOperations.authorities.state.pending.get id = some a →
    s.remoteOperations.authorities.state.pending.get id = some a
  observations : ∀ host set, s'.serviceObservations.sets.get host = some set →
    s.serviceObservations.sets.get host = some set

theorem Harmless.guarantee (h : Harmless s s') (t : TaskId) : Guarantee t s s' := by
  obtain ⟨es, hlog, hlen, hes⟩ := h.log
  refine ⟨⟨es, hlog, hlen, fun e he => (hes e he).1⟩, fun host holder _ => by rw [h.gates], fun t' _ => by rw [h.mutation],
    fun host slot hs => .inl (h.sessions host slot hs), fun slot data hd => ?_,
    fun id a ha _ => h.pending id a ha, fun host set hset _ => h.observations host set hset⟩
  refine ⟨data, h.slots slot data hd, rfl, le_rfl, fun _ => .refl data, fun _ hq => hq, ?_⟩
  intro t' _ ha hc _
  refine ⟨h.attempts ▸ ha, hc, fun hu => ?_⟩
  rw [hlog]
  exact hu.append fun e he => (hes e he).2 _

/-- A harmless step, followed by one that logs nothing. -/
theorem Harmless.guarantee_trans {s₁ : Application} (h : Harmless s s₁) (hg : Guarantee t s₁ s')
    (hlog : s'.log = s₁.log) : Guarantee t s s' := by
  obtain ⟨es, hes, hlen, hsees⟩ := h.log
  refine ⟨⟨es, hlog.trans hes, hlen, fun e he => (hsees e he).1⟩, fun host holder hne => ?_,
    fun t' hne => ?_, fun host slot hs => ?_, fun slot data hd => ?_, fun id a ha hne => ?_,
    fun host set hset hne => ?_⟩
  · rw [hg.gates host holder hne, h.gates]
  · rw [hg.mutation t' hne, h.mutation]
  · rw [← h.gates, ← h.mutation]
    exact hg.sessions host slot (h.sessions host slot hs)
  · obtain ⟨data', hd', hstep⟩ := hg.slots slot data (h.slots slot data hd)
    refine ⟨data', hd', hstep.host, hstep.generation, fun hne => ?_, fun hne => ?_,
      fun t' hne ha hc hgen => ?_⟩
    · exact hstep.unguarded (h.gates ▸ hne)
    · exact hstep.quiescent (h.mutation ▸ hne)
    · obtain ⟨ha', hc', hu'⟩ := hstep.attempt t' hne (h.attempts ▸ ha) hc hgen
      refine ⟨ha', hc', fun hu => hu' ?_⟩
      rw [hes]
      exact hu.append fun e he => (hsees e he).2 _
  · exact h.pending id a (hg.pending id a ha (h.gates ▸ hne))
  · exact h.observations host set (hg.observations host set hset (h.gates ▸ hne))

/-- The connection of a host that is not guarded by the call remains. -/
theorem Guarantee.boundTo (hg : Guarantee t s s') (hs : s.SlotsOk)
    (hgate : s.remoteOperations.hostGates host ≠ some (.lifecycle t))
    (h : s.BoundTo host binding) : s'.BoundTo host binding := by
  obtain ⟨slot, data, hsession, hdata, hstate, hhost, hconnection, hgeneration⟩ := h
  have hsession' := (hg.sessions host slot hsession).resolve_right fun h => hgate h.1
  obtain ⟨data', hdata', hstep⟩ := hg.slots slot data hdata
  have hid : data.view.hostId = host := by
    obtain ⟨data₁, hdata₁, hid⟩ := hs.hosted host slot hsession
    rw [hdata] at hdata₁
    exact Option.some.inj hdata₁ ▸ hid
  obtain ⟨hstate', hconnection', _, hgeneration'⟩ :=
    (hstep.unguarded (hid.symm ▸ hgate)).connected hstate
  exact ⟨slot, data', hsession', hdata', hstate', hhost, hconnection'.trans hconnection,
    hgeneration'.trans hgeneration⟩

/-- So do its plans and observations, as far as they are still there. -/
theorem Guarantee.goodHost (hg : Guarantee t s s') (hs : s.SlotsOk)
    (hgate : s.remoteOperations.hostGates host ≠ some (.lifecycle t)) (h : s.GoodHost host) :
    s'.GoodHost host := by
  refine ⟨fun id a ha hid => ?_, fun set hset => ?_⟩
  · exact hg.boundTo hs hgate (h.pending id a (hg.pending id a ha (hid.symm ▸ hgate)) hid)
  · exact hg.boundTo hs hgate (h.observations set (hg.observations host set hset hgate))

/-- A step that leaves the gates alone keeps the invariant, if it does so for what it
    changes. -/
theorem Inv.of_guarantee (hi : Inv calls s) (hg : Guarantee t s s')
    (hgates : s'.remoteOperations.hostGates = s.remoteOperations.hostGates)
    (hvalid : s'.remoteOperations.authorities.Valid) (hslots : s'.SlotsOk)
    (hlog : LogOk calls s'.sessionIds s'.observationIds s'.log)
    (hplanned : ∀ id a, s'.remoteOperations.authorities.state.pending.get id = some a →
      Planned calls s'.log a)
    (hobserved : ∀ host set, s'.serviceObservations.sets.get host = some set →
      Observed s'.log set.binding set.entries) : Inv calls s' := by
  refine ⟨hvalid, hslots, hlog, hplanned, hobserved, fun host hfree => ?_⟩
  rw [hgates] at hfree
  exact hg.goodHost hi.slots (hfree t) (hi.good host hfree)

/-- A step that leaves the slots alone. -/
theorem SlotsOk.of_eq (h : s.SlotsOk) (hsessions : s'.sessions = s.sessions)
    (hslots : s'.slots = s.slots) (hlog : ∃ es, s'.log = s.log ++ es) : s'.SlotsOk := by
  obtain ⟨es, hlog⟩ := hlog
  refine ⟨fun slot data hd => h.ok slot data (hslots ▸ hd), fun host slot hs => ?_,
    fun slot data hd hq => ?_, fun slot data session transport hd hc hsession ht => ?_⟩
  · rw [hslots]
    exact h.hosted host slot (hsessions ▸ hs)
  · rw [hsessions]
    exact h.attached slot data (hslots ▸ hd) hq
  · rw [hlog]
    exact (h.established slot data session transport (hslots ▸ hd) hc hsession ht).append

/-! ## Harmless steps -/

/-- The states differ only in what the protocol is not about. -/
structure Agree (s s' : Application) : Prop where
  authorities : s'.remoteOperations.authorities = s.remoteOperations.authorities
  gates : s'.remoteOperations.hostGates = s.remoteOperations.hostGates
  observations : s'.serviceObservations.sets = s.serviceObservations.sets
  mutation : s'.mutation = s.mutation
  sessions : s'.sessions = s.sessions
  slots : s'.slots = s.slots
  sessionIds : s'.sessionIds = s.sessionIds
  observationIds : s'.observationIds = s.observationIds
  attempts : s'.attempts = s.attempts
  log : s'.log = s.log

theorem Agree.harmless (h : Agree s s') : Harmless s s' where
  log := ⟨[], by rw [h.log, List.append_nil], by simp⟩
  gates := h.gates
  mutation := h.mutation
  sessions host slot hs := by rwa [h.sessions]
  slots slot data hd := by rwa [h.slots]
  attempts := h.attempts
  pending id a ha := by rwa [h.authorities] at ha
  observations host set hset := by rwa [h.observations] at hset

theorem Agree.inv (h : Agree s s') (hi : Inv calls s) : Inv calls s' := by
  refine hi.of_guarantee (h.harmless.guarantee ⟨0⟩) h.gates (h.authorities ▸ hi.valid)
    (hi.slots.of_eq h.sessions h.slots ⟨[], by rw [h.log, List.append_nil]⟩) ?_ ?_ ?_
  · rw [h.sessionIds, h.observationIds, h.log]
    exact hi.log
  · rw [h.authorities, h.log]
    exact hi.planned
  · rw [h.observations, h.log]
    exact hi.observed

/-- A section of the authority store that does not publish a plan. -/
theorem step_store {e : StoreEvent SystemdOperation} {state : StoreState SystemdOperation}
    (hi : Inv calls s) (he : e.Performs PLAN_TTL s.remoteOperations.authorities.state state)
    (hn : e.newId = none) :
    Inv calls (setStore s state) ∧
      Harmless s (setStore s state) := by
  have hpending : ∀ id a, state.pending.get id = some a →
      s.remoteOperations.authorities.state.pending.get id = some a := by
    intro id a ha
    rcases he.pending hi.valid.consistent ha with ⟨o, draft, current, issuedAt, receipt, rfl, _⟩ | h
    · exact absurd hn (Option.some_ne_none id)
    · exact h.1
  have hh : Harmless s (setStore s state) :=
    ⟨⟨[], by simp [setStore]⟩, rfl, rfl, fun _ _ => id, fun _ _ => id, rfl,
      hpending, fun _ _ => id⟩
  refine ⟨hi.of_guarantee (hh.guarantee ⟨0⟩) rfl ?_ (hi.slots.of_eq rfl rfl ⟨[], ?_⟩) hi.log
    (fun id a ha => hi.planned id a (hpending id a ha)) hi.observed, hh⟩
  · exact hi.valid.step (AuthorityStore.step_of_performs he hn)
  · exact (List.append_nil _).symm

/-- A section of the observation store that does not publish observations. -/
theorem step_observations {state : ObservationState} (hi : Inv calls s)
    (h : ∀ host set, state.sets.get host = some set →
      s.serviceObservations.sets.get host = some set) :
    Inv calls { s with serviceObservations := state } ∧
      Harmless s { s with serviceObservations := state } := by
  have hh : Harmless s { s with serviceObservations := state } :=
    ⟨⟨[], by simp⟩, rfl, rfl, fun _ _ => id, fun _ _ => id, rfl, fun _ _ => id, h⟩
  exact ⟨hi.of_guarantee (hh.guarantee ⟨0⟩) rfl hi.valid (hi.slots.of_eq rfl rfl ⟨[], by simp⟩)
    hi.log hi.planned fun host set hset => hi.observed host set (h host set hset), hh⟩

/-- A connected slot has an established session. -/
theorem SlotsOk.established_of (h : s.SlotsOk)
    (hc : s.ConnectedBy binding transport) : Established s.log binding.hostSessionId transport := by
  obtain ⟨slot, data, _, hdata, hstate, hconnection, _, htransport⟩ := hc
  exact h.established slot data _ _ hdata hstate hconnection htransport

/-- An event is logged. -/
theorem step_note (hi : Inv calls s) (hsees : s.Sees e)
    (hsupersedes : ∀ host, ¬e.Supersedes host) (hrule : Rule calls s.log e)
    (hconnected : ∀ t host session transport, e ≠ .connected t host session transport)
    (hissued : ∀ t binding observations, e ≠ .issued t binding observations) :
    Inv calls (s.note e) ∧ Harmless s (s.note e) := by
  have hh : Harmless s (s.note e) :=
    ⟨⟨[e], rfl, le_rfl, List.forall_mem_singleton.2 ⟨hsees, hsupersedes⟩⟩, rfl, rfl, fun _ _ => id,
      fun _ _ => id, rfl, fun _ _ => id, fun _ _ => id⟩
  refine ⟨hi.of_guarantee (hh.guarantee ⟨0⟩) rfl hi.valid (hi.slots.of_eq rfl rfl ⟨[e], rfl⟩)
    (hi.log.snoc hrule hconnected hissued ?_) (fun id a ha => (hi.planned id a ha).append)
    fun host set hset => (hi.observed host set hset).append, hh⟩
  rintro t binding transport rfl
  exact hi.slots.established_of hsees

/-- The slot of a host is created. -/
theorem step_newSlot (token : CancellationToken) (tokens : Finset CancellationToken)
    (hi : Inv calls s) (hhost : s.sessions host = none) (hslot : s.slots slot = none) :
    let s' := { s.setSlot slot (.new host token) with
      sessions := update s.sessions host (some slot)
      tokens := tokens }
    Inv calls s' ∧ Harmless s s' := by
  intro s'
  have hnew : s'.slots slot = some (.new host token) := update_self ..
  have hold : ∀ slot', slot' ≠ slot → s'.slots slot' = s.slots slot' := fun slot' hne =>
    update_of_ne hne ..
  have hne : ∀ slot' data, s.slots slot' = some data → slot' ≠ slot := by
    rintro slot' data hd rfl
    rw [hslot] at hd
    cases hd
  have hsessions : ∀ host' slot', s.sessions host' = some slot' → s'.sessions host' = some slot' := by
    intro host' slot' hs
    rwa [show s'.sessions host' = s.sessions host' from update_of_ne ?_ ..]
    rintro rfl
    rw [hhost] at hs
    cases hs
  have hh : Harmless s s' :=
    ⟨⟨[], by simp [s', setSlot]⟩, rfl, rfl, hsessions, fun slot' data hd =>
      (hold slot' (hne slot' data hd)).trans hd, rfl, fun _ _ => id, fun _ _ => id⟩
  refine ⟨hi.of_guarantee (hh.guarantee ⟨0⟩) rfl hi.valid ?_ hi.log hi.planned hi.observed, hh⟩
  have hcases : ∀ slot' data, s'.slots slot' = some data →
      data = .new host token ∨ s.slots slot' = some data := by
    intro slot' data hd
    by_cases heq : slot' = slot
    · rw [heq, hnew] at hd
      exact .inl (Option.some.inj hd).symm
    · exact .inr (hold slot' heq ▸ hd)
  refine ⟨fun slot' data hd => ?_, fun host' slot' hs => ?_, fun slot' data hd hq => ?_,
    fun slot' data session transport hd hc hsession ht => ?_⟩
  · rcases hcases slot' data hd with rfl | hd
    · exact ⟨(nomatch ·), fun _ _ => ⟨rfl, rfl, rfl⟩, (nomatch ·)⟩
    · exact hi.slots.ok slot' data hd
  · by_cases heq : host' = host
    · subst heq
      have hself : s'.sessions host' = some slot := update_self ..
      obtain rfl := Option.mem_unique hself hs
      exact ⟨_, hnew, rfl⟩
    · have hs : s.sessions host' = some slot' := (update_of_ne heq ..).symm.trans hs
      obtain ⟨data, hd, hid⟩ := hi.slots.hosted host' slot' hs
      exact ⟨data, (hold slot' (hne slot' data hd)).trans hd, hid⟩
  · rcases hcases slot' data hd with rfl | hd
    · exact absurd (.inl rfl) hq
    · exact hsessions _ _ (hi.slots.attached slot' data hd hq)
  · rcases hcases slot' data hd with rfl | hd
    · exact nomatch hc
    · exact hi.slots.established slot' data session transport hd hc hsession ht

/-- What happens besides the calls is harmless. -/
theorem Env.harmless (h : Env s s') (hi : Inv calls s) : Inv calls s' ∧ Harmless s s' := by
  cases h with
  | tick clock h =>
    have hagree : Agree s { s with clock := clock } := ⟨rfl, rfl, rfl, rfl, rfl, rfl, rfl, rfl, rfl, rfl⟩
    exact ⟨hagree.inv hi, hagree.harmless⟩
  | close transport =>
    have hagree : Agree s { s with closed := update s.closed transport true } :=
      ⟨rfl, rfl, rfl, rfl, rfl, rfl, rfl, rfl, rfl, rfl⟩
    exact ⟨hagree.inv hi, hagree.harmless⟩
  | expire id expires h => exact step_store (e := .expire id expires) hi rfl rfl

/-! ## Locks -/

/-- A slot to which nothing happens. -/
theorem SlotStep.refl (hattempts : s'.attempts slot = s.attempts slot) (hlog : s'.log = s.log) :
    SlotStep t s s' slot data data := by
  refine ⟨rfl, le_rfl, fun _ => .refl _, fun _ => id, fun t' _ ha hc _ => ?_⟩
  exact ⟨hattempts.trans ha, hc, fun hu => hlog ▸ hu⟩

theorem Guarantee.refl (t : TaskId) (s : Application) : Guarantee t s s :=
  Harmless.guarantee ⟨⟨[], by simp⟩, rfl, rfl, fun _ _ => id, fun _ _ => id, rfl, fun _ _ => id,
    fun _ _ => id⟩ t

/-- A gate is locked or unlocked. The plans and observations of its host must belong to
    its connection, unless a lifecycle guard protects them then. -/
theorem step_gate (host : HostId) (holder : Option GateHolder) (hi : Inv calls s)
    (hold : ∀ g ∈ s.remoteOperations.hostGates host, g.task = t) (hnew : ∀ g ∈ holder, g.task = t)
    (hgood : (∀ t, holder ≠ some (.lifecycle t)) → s.GoodHost host) :
    let s' : Application := setFoundation s { s.remoteOperations with
      hostGates := update s.remoteOperations.hostGates host holder }
    Inv calls s' ∧ Guarantee t s s' := by
  intro s'
  refine ⟨⟨hi.valid, hi.slots.of_eq rfl rfl ⟨[], (List.append_nil _).symm⟩, hi.log, hi.planned,
    hi.observed, fun host' hfree => ?_⟩, { Guarantee.refl t s with
      gates := gates_update hold hnew
      slots := fun _ data hd => ⟨data, hd, .refl rfl rfl⟩ }⟩
  have hgood' : s.GoodHost host' := by
    by_cases hh : host' = host
    · subst hh
      exact hgood fun t h => hfree t ((update_self ..).trans h)
    · exact hi.good host' fun t h => hfree t ((update_of_ne hh ..).trans h)
  exact ⟨hgood'.pending, hgood'.observations⟩

/-- The metadata lock is taken or released. -/
theorem step_mutation (holder : Option TaskId) (hi : Inv calls s) (hold : ∀ t' ∈ s.mutation, t' = t)
    (hnew : ∀ t' ∈ holder, t' = t) :
    Inv calls { s with mutation := holder } ∧ Guarantee t s { s with mutation := holder } := by
  refine ⟨⟨hi.valid, hi.slots.of_eq rfl rfl ⟨[], (List.append_nil _).symm⟩, hi.log, hi.planned,
    hi.observed, fun host hfree => ?_⟩, { Guarantee.refl t s with
      mutation := fun t' ht' => ?_
      slots := fun _ data hd => ⟨data, hd, .refl rfl rfl⟩ }⟩
  · exact ⟨(hi.good host hfree).pending, (hi.good host hfree).observations⟩
  · exact ⟨fun h => absurd (hnew t' h) ht', fun h => absurd (hold t' h) ht'⟩

/-! ## Slots -/

/-- The step sets the data of a slot to `data`, and logs the events `es`. -/
structure SlotUpdate (s s' : Application) (slot : SlotId) (data : SessionData)
    (es : List AppEvent) : Prop where
  slots : s'.slots = update s.slots slot (some data)
  log : s'.log = s.log ++ es
  remoteOperations : s'.remoteOperations = s.remoteOperations
  observations : s'.serviceObservations = s.serviceObservations
  mutation : s'.mutation = s.mutation
  sessions : s'.sessions = s.sessions
  attempts : ∀ slot', slot' ≠ slot → s'.attempts slot' = s.attempts slot'

/-- What a step that sets the data of a slot has to respect. -/
structure Respects (t : TaskId) (s s' : Application) (slot : SlotId) (data data' : SessionData)
    (es : List AppEvent) : Prop where
  ok : data'.Ok
  step : SlotStep t s s' slot data data'
  attached : ¬data'.view.state.Quiescent → s.sessions data.view.hostId = some slot
  established : ∀ session transport, data'.view.state = .connected →
    data'.connectionId = some session → data'.transport = some transport →
      Established s'.log session transport
  length : es.length ≤ 1
  sees : ∀ e ∈ es, s.Sees e
  /-- Only attempts for the slot are superseded. -/
  supersedes : ∀ e ∈ es, ∀ host, e.Supersedes host → s.sessions host = some slot

/-- A step that sets the data of a slot. -/
theorem step_slot {es : List AppEvent} (hi : Inv calls s) (hslot : s.slots slot = some data)
    (hs : SlotUpdate s s' slot data' es) (h : Respects t s s' slot data data' es)
    (hlog : LogOk calls s'.sessionIds s'.observationIds s'.log) : Inv calls s' ∧ Guarantee t s s' := by
  have hnew : s'.slots slot = some data' := by rw [hs.slots, update_self]
  have hold : ∀ slot', slot' ≠ slot → s'.slots slot' = s.slots slot' := fun slot' hne => by
    rw [hs.slots, update_of_ne hne]
  have hg : Guarantee t s s' := by
    refine ⟨⟨es, hs.log, h.length, h.sees⟩, fun _ _ _ => by rw [hs.remoteOperations], fun _ _ => by rw [hs.mutation],
      fun host slot' h => .inl (by rwa [hs.sessions]), fun slot' data₁ hd => ?_,
      fun id a ha _ => by rwa [hs.remoteOperations] at ha,
      fun host set hset _ => by rwa [hs.observations] at hset⟩
    by_cases heq : slot' = slot
    · subst heq
      obtain rfl := Option.mem_unique hslot hd
      exact ⟨data', hnew, h.step⟩
    · refine ⟨data₁, (hold slot' heq).trans hd, rfl, le_rfl, fun _ => .refl _, fun _ => id, ?_⟩
      intro t' _ ha hc _
      refine ⟨(hs.attempts slot' heq).trans ha, hc, fun hu => ?_⟩
      rw [hs.log]
      -- A connecting slot is that of its host, so it is not the one of another slot.
      have hattached := hi.slots.attached slot' data₁ hd (by rw [hc]; decide)
      refine hu.append fun e he hsup => heq ?_
      exact Option.mem_unique hattached (h.supersedes e he _ hsup)
  have hcases : ∀ slot' data₁, s'.slots slot' = some data₁ →
      slot' = slot ∧ data₁ = data' ∨ slot' ≠ slot ∧ s.slots slot' = some data₁ := by
    intro slot' data₁ hd
    by_cases heq : slot' = slot
    · rw [heq, hnew] at hd
      exact .inl ⟨heq, (Option.some.inj hd).symm⟩
    · exact .inr ⟨heq, hold slot' heq ▸ hd⟩
  refine ⟨hi.of_guarantee hg (by rw [hs.remoteOperations]) (hs.remoteOperations ▸ hi.valid)
    ⟨fun slot' data₁ hd => ?_, fun host slot' hsession => ?_, fun slot' data₁ hd hq => ?_,
      fun slot' data₁ session transport hd hc hsession ht => ?_⟩ hlog ?_ ?_, hg⟩
  · rcases hcases slot' data₁ hd with ⟨rfl, rfl⟩ | ⟨_, hd⟩
    · exact h.ok
    · exact hi.slots.ok slot' data₁ hd
  · rw [hs.sessions] at hsession
    obtain ⟨data₁, hd, hid⟩ := hi.slots.hosted host slot' hsession
    by_cases heq : slot' = slot
    · subst heq
      obtain rfl := Option.mem_unique hslot hd
      exact ⟨data', hnew, h.step.host.trans hid⟩
    · exact ⟨data₁, (hold slot' heq).trans hd, hid⟩
  · rw [hs.sessions]
    rcases hcases slot' data₁ hd with ⟨rfl, rfl⟩ | ⟨_, hd⟩
    · rw [h.step.host]
      exact h.attached hq
    · exact hi.slots.attached slot' data₁ hd hq
  · rcases hcases slot' data₁ hd with ⟨rfl, rfl⟩ | ⟨_, hd⟩
    · exact h.established session transport hc hsession ht
    · rw [hs.log]
      exact (hi.slots.established slot' data₁ session transport hd hc hsession ht).append
  · rw [hs.remoteOperations, hs.log]
    exact fun id a ha => (hi.planned id a ha).append
  · rw [hs.observations, hs.log]
    exact fun host set hset => (hi.observed host set hset).append

/-- The slot of a host without a connection is forgotten. -/
theorem step_removeSession (hi : Inv calls s)
    (hgate : s.remoteOperations.hostGates host = some (.lifecycle t)) (hmutation : s.mutation = some t)
    (hquiescent : ∀ slot data, s.slots slot = some data → data.view.hostId = host →
      data.view.state.Quiescent) :
    let s' := { s with sessions := update s.sessions host none }
    Inv calls s' ∧ Guarantee t s s' := by
  intro s'
  have hold : ∀ host', host' ≠ host → s'.sessions host' = s.sessions host' := fun host' hne =>
    update_of_ne hne ..
  have hg : Guarantee t s s' := { Guarantee.refl t s with
    sessions := fun host' slot hs => by
      by_cases heq : host' = host
      · exact .inr ⟨heq ▸ hgate, hmutation⟩
      · exact .inl ((hold host' heq).trans hs)
    slots := fun _ data hd => ⟨data, hd, .refl rfl rfl⟩ }
  refine ⟨hi.of_guarantee hg rfl hi.valid ⟨hi.slots.ok, fun host' slot hs => ?_,
    fun slot data hd hq => ?_, hi.slots.established⟩ hi.log hi.planned hi.observed, hg⟩
  · by_cases heq : host' = host
    · rw [heq, show s'.sessions host = none from update_self ..] at hs
      cases hs
    · exact hi.slots.hosted host' slot (hold host' heq ▸ hs)
  · rw [hold _ fun heq => hq (hquiescent slot data hd heq)]
    exact hi.slots.attached slot data hd hq

/-- The stored host is changed. There is no attempt to connect it. -/
theorem step_repository (repository : HostId → Option StoredHost) (hi : Inv calls s)
    (he : e = .edited t host ∨ e = .deleted t host)
    (hidle : ∀ slot data, s.slots slot = some data → data.view.hostId = host →
      data.view.state ≠ .connecting) :
    let s' := { s with repository := repository, log := s.log ++ [e] }
    Inv calls s' ∧ ∀ j, Guarantee j s s' := by
  intro s'
  have hsupersedes : ∀ host', e.Supersedes host' → host' = host := by
    rintro host' h
    rcases he with rfl | rfl <;> exact (show host = host' from h).symm
  have hsees : s.Sees e := by
    rcases he with rfl | rfl <;> exact trivial
  have hg : ∀ j, Guarantee j s s' := fun j => by
    refine { Guarantee.refl j s with
      log := ⟨[e], rfl, le_rfl, List.forall_mem_singleton.2 hsees⟩
      slots := fun slot data hd => ⟨data, hd, rfl, le_rfl, fun _ => .refl _, fun _ => id, ?_⟩ }
    intro t' _ ha hc _
    refine ⟨ha, hc, fun hu => hu.append fun e' he' hsup => ?_⟩
    rw [List.mem_singleton.1 he'] at hsup
    exact hidle slot data hd (hsupersedes _ hsup) hc
  refine ⟨hi.of_guarantee (hg t) rfl hi.valid (hi.slots.of_eq rfl rfl ⟨[e], rfl⟩) ?_
    (fun id a ha => (hi.planned id a ha).append)
    fun host set hset => (hi.observed host set hset).append, hg⟩
  rcases he with rfl | rfl
  · exact hi.log.snoc trivial nofun nofun nofun
  · exact hi.log.snoc trivial nofun nofun nofun

/-! ## Publications -/

/-- Observations are published for a guarded host. -/
theorem step_publish {state : ObservationState} (hi : Inv calls s)
    (hgate : s.remoteOperations.hostGates binding.hostId = some (.lifecycle t))
    (hnew : ∃ set, state.sets.get binding.hostId = some set ∧ set.binding = binding ∧
      set.entries = observations)
    (hold : ∀ host set, host ≠ binding.hostId → state.sets.get host = some set →
      s.serviceObservations.sets.get host = some set)
    (hfresh : Disjoint observations.keys s.observationIds)
    (hobserved : Observed (s.log ++ [AppEvent.issued t binding observations]) binding observations) :
    let s' := { s with
      serviceObservations := state
      observationIds := observations.keys ∪ s.observationIds
      log := s.log ++ [AppEvent.issued t binding observations] }
    Inv calls s' ∧ Guarantee t s s' := by
  intro s'
  have hg : Guarantee t s s' := by
    refine { Guarantee.refl t s with
      log := ⟨_, rfl, le_rfl, List.forall_mem_singleton.2 trivial⟩
      slots := fun slot data hd => ⟨data, hd, rfl, le_rfl, fun _ => .refl _, fun _ => id, ?_⟩
      observations := fun host set hset hne => hold host set (fun h => hne (h ▸ hgate)) hset }
    exact fun t' _ ha hc _ => ⟨ha, hc, fun hu => hu.append fun e' he' => by
      rw [List.mem_singleton.1 he']
      exact id⟩
  refine ⟨hi.of_guarantee hg rfl hi.valid (hi.slots.of_eq rfl rfl ⟨_, rfl⟩)
    (hi.log.publish hfresh) (fun id a ha => (hi.planned id a ha).append)
    fun host set hset => ?_, hg⟩
  by_cases heq : host = binding.hostId
  · obtain ⟨set', hset', rfl, rfl⟩ := hnew
    rw [heq] at hset
    obtain rfl := Option.mem_unique hset' hset
    exact hobserved
  · exact (hi.observed host set (hold host set heq hset)).append

/-- A plan that could not be published. -/
theorem step_plan_error {draft : PlanDraft o} {current : AuthorityBinding}
    {issuedAt : Instant} {e : AppError} (hi : Inv calls s)
    (h : planSection t draft current issuedAt id s = some (.error e, s')) :
    Inv calls s' ∧ Harmless s s' := by
  obtain ⟨state, hstep, rfl⟩ := planSection_eq_some h
  obtain rfl : state = s.remoteOperations.authorities.state := StoreState.insert_eq_error hstep.1
  have hh : Harmless s (setFoundation s { s.remoteOperations with authorities :=
      ⟨s.remoteOperations.authorities.state, insert id s.remoteOperations.authorities.issued⟩ }) :=
    ⟨⟨[], by simp⟩, rfl, rfl, fun _ _ h => h, fun _ _ h => h, rfl, fun _ _ h => h,
      fun _ _ h => h⟩
  exact ⟨hi.of_guarantee (hh.guarantee t) rfl (hi.valid.step hstep)
    (hi.slots.of_eq rfl rfl ⟨[], (List.append_nil _).symm⟩) hi.log hi.planned hi.observed, hh⟩

/-- A plan is published for a guarded host. -/
theorem step_plan_ok {draft : PlanDraft o} {current : AuthorityBinding}
    {issuedAt : Instant} {receipt : PlanReceipt} (hi : Inv calls s)
    (hgate : s.remoteOperations.hostGates draft.binding.hostId = some (.lifecycle t))
    (hexplains : p.Explains calls s.log o draft.binding draft.target) (hplanner : p.planner = t)
    (hevents : (p.events draft.binding).Sublist s.log)
    (h : planSection t draft current issuedAt id s =
      some (.ok receipt, s')) :
    Inv calls s' ∧ Guarantee t s s' ∧ ∀ host, s.GoodHost host → s.BoundTo host draft.binding →
      s'.GoodHost host := by
  obtain ⟨state, hstep, hs'⟩ := planSection_eq_some h
  obtain ⟨_, _, _, hid, _, hget⟩ := StoreState.insert_eq_ok hi.valid.consistent hstep.1
  have hvalid := hi.valid.step hstep
  have hlog : s'.log = s.log ++ [AppEvent.operation (.planned t o draft id)] := by
    rw [hs', ← hid]
    rfl
  have hpending : ∀ k a, s'.remoteOperations.authorities.state.pending.get k = some a →
      a = .new id draft issuedAt (issuedAt + PLAN_TTL) ∨
        s.remoteOperations.authorities.state.pending.get k = some a := by
    intro k a ha
    rw [hs'] at ha
    exact ((hget k a).1 ha).imp And.right fun h => h.2.1
  have hg : Guarantee t s s' := by
    rw [hs']
    refine { Guarantee.refl t s with
      log := ⟨_, rfl, le_rfl, List.forall_mem_singleton.2 trivial⟩
      slots := fun slot data hd => ⟨data, hd, rfl, le_rfl, fun _ => .refl _, fun _ h => h, ?_⟩
      pending := fun k a ha hne => ?_ }
    · exact fun t' _ ha hc _ => ⟨ha, hc, fun hu => hu.append fun e' he' => by
        rw [List.mem_singleton.1 he']
        exact fun h => h⟩
    · rcases (hget k a).1 ha with ⟨_, rfl⟩ | ⟨_, ha, _⟩
      · exact absurd hgate hne
      · exact ha
  have hgates : s'.remoteOperations.hostGates = s.remoteOperations.hostGates := by
    rw [hs']
    rfl
  refine ⟨hi.of_guarantee hg hgates ?_ (hi.slots.of_eq ?_ ?_ ⟨_, hlog⟩) ?_ (fun k a ha => ?_) ?_,
    hg, fun host hgood hbound => ⟨fun k a ha hhost => ?_, fun set hset => ?_⟩⟩
  · rw [hs']
    exact hvalid
  · rw [hs']
    rfl
  · rw [hs']
    rfl
  · rw [hlog, show s'.sessionIds = s.sessionIds by rw [hs']; rfl,
      show s'.observationIds = s.observationIds by rw [hs']; rfl]
    exact hi.log.snoc trivial nofun nofun nofun
  · rw [hlog]
    rcases hpending k a ha with rfl | ha
    · refine ⟨o, _, p, rfl, hexplains.append, draft, rfl, rfl, ?_⟩
      rw [hplanner]
      exact hevents.append (List.Sublist.refl _)
    · exact (hi.planned k a ha).append
  · rw [hlog, show s'.serviceObservations = s.serviceObservations by rw [hs']; rfl]
    exact fun host set hset => (hi.observed host set hset).append
  · have hb : s.BoundTo host a.binding := by
      rcases hpending k a ha with rfl | ha
      · exact hbound
      · exact hgood.pending k a ha hhost
    rw [hs']
    exact hb
  · rw [hs'] at hset ⊢
    exact hgood.observations set hset

end Application

end NexusOps.Core
