import NexusOps.Ssh.KnownHosts

/-!
# Integrity of the pinned host keys

A key is only ever trusted where there is none, or replaced where it is the expected one
(`Replaces`). In every run (`pins_of_run`), the keys of the other endpoints are untouched,
and what is verified is the current key.

At most one call pins the first key of an endpoint. Of the calls that replace the same key,
a second one succeeds only if yet another has put the key back.
-/

namespace NexusOps.Ssh

open Concurrency Protocol

/-! ## Calls -/

section

variable {ok : Bool} {error : AppError} {storage : Storage} {pins pins' : Pins}
  {endpoint : Endpoint} {stored : Option HostFingerprint} {key : HostFingerprint}

theorem of_attempt_eq_ok (h : attempt ok error = .ok ()) : ok = true := by
  rw [attempt] at h
  split_ifs at h with hok
  exact hok

theorem of_readPin_eq_ok (h : readPin storage pins endpoint = .ok stored) :
    stored = pins.get endpoint := by
  obtain ⟨-, -, h⟩ := of_bind_eq_ok h
  exact (Except.ok.inj h).symm

theorem of_insertPin_eq_ok (h : insertPin storage pins endpoint key = .ok pins') :
    pins' = pins ∨ pins.get endpoint = none ∧ pins' = pins.insert endpoint key := by
  obtain ⟨stored, hstored, h⟩ := of_bind_eq_ok h
  obtain rfl := of_readPin_eq_ok hstored
  split_ifs at h with hsome
  · obtain ⟨-, -, h⟩ := of_bind_eq_ok h
    exact .inl (Except.ok.inj h).symm
  · obtain ⟨-, -, h⟩ := of_bind_eq_ok h
    exact .inr ⟨Option.not_isSome_iff_eq_none.1 hsome, (Except.ok.inj h).symm⟩

variable [IpAddrs]

/-- Trusting a key, or replacing one. -/
inductive Replaces : KnownHostsCall → Endpoint → Option HostFingerprint → HostFingerprint → Prop
  | trust {challenge : HostKeyChallenge} {hostname : String}
      (h : canonicalEndpoint challenge.hostname challenge.port = .ok hostname) :
      Replaces (.trust challenge) (hostname, challenge.port) none (challengeKey challenge)
  | rotate {spelling hostname : String} {port : Nat} {old new : HostFingerprint}
      (h : canonicalEndpoint spelling port = .ok hostname) (hne : old ≠ new) :
      Replaces (.rotate spelling port old new) (hostname, port) (some old) new

/-- A key is only trusted where there is none. -/
theorem of_trust_eq_ok {challenge : HostKeyChallenge}
    (h : trust storage pins challenge = .ok pins') : pins' = pins ∨ ∃ endpoint,
      Replaces (.trust challenge) endpoint (pins.get endpoint) (challengeKey challenge) ∧
        pins' = pins.insert endpoint (challengeKey challenge) := by
  obtain ⟨hostname, hhostname, h⟩ := of_bind_eq_ok h
  iterate 4 obtain ⟨-, -, h⟩ := of_bind_eq_ok h
  obtain ⟨pins'', hpins, h⟩ := of_bind_eq_ok h
  obtain ⟨-, -, h⟩ := of_bind_eq_ok h
  obtain ⟨⟩ := h
  refine (of_insertPin_eq_ok hpins).imp_right fun ⟨hnone, heq⟩ => ⟨_, ?_, heq⟩
  rw [hnone]
  exact .trust hhostname

/-- A key is only replaced if it is the expected one. -/
theorem of_rotate_eq_ok {hostname : String} {port : Nat} {old new : HostFingerprint}
    (h : rotate storage pins hostname port old new = .ok pins') : ∃ endpoint,
      Replaces (.rotate hostname port old new) endpoint (pins.get endpoint) new ∧
        pins' = pins.insert endpoint new := by
  obtain ⟨canonical, hhostname, h⟩ := of_bind_eq_ok h
  iterate 2 obtain ⟨-, -, h⟩ := of_bind_eq_ok h
  obtain ⟨_, hne, h⟩ := of_bind_eq_ok h
  iterate 2 obtain ⟨-, -, h⟩ := of_bind_eq_ok h
  obtain ⟨stored, hstored, h⟩ := of_bind_eq_ok h
  obtain rfl := of_readPin_eq_ok hstored
  obtain ⟨-, -, h⟩ := of_bind_eq_ok h
  obtain ⟨_, hold, h⟩ := of_bind_eq_ok h
  have hne := of_decide_eq_true (of_attempt_eq_ok hne)
  have hold := of_decide_eq_true (of_attempt_eq_ok hold)
  rw [updatePin, if_pos hold] at h
  iterate 3 obtain ⟨-, -, h⟩ := of_bind_eq_ok h
  refine ⟨(canonical, port), ?_, (Except.ok.inj h).symm⟩
  rw [hold]
  exact .rotate hhostname hne

/-- A call that succeeds leaves the keys as they are, or replaces one. -/
theorem of_run_eq_ok {call : KnownHostsCall} {reply : KnownHostsReply}
    (h : call.run storage pins = .ok (reply, pins')) : pins' = pins ∨ ∃ endpoint key,
      reply = .done ∧ Replaces call endpoint (pins.get endpoint) key ∧
        pins' = pins.insert endpoint key := by
  cases call with
  | verify hostname port key =>
    obtain ⟨-, -, h⟩ := of_bind_eq_ok h
    exact .inl (Prod.mk.inj (Except.ok.inj h)).2.symm
  | fingerprint hostname port =>
    obtain ⟨pin, -, h⟩ := of_bind_eq_ok h
    exact .inl (Prod.mk.inj (Except.ok.inj h)).2.symm
  | trust challenge =>
    obtain ⟨pins'', hpins, h⟩ := of_bind_eq_ok h
    obtain ⟨⟩ := h
    obtain rfl | ⟨endpoint, hreplaces, heq⟩ := of_trust_eq_ok hpins
    · exact .inl rfl
    · exact .inr ⟨endpoint, _, rfl, hreplaces, heq⟩
  | rotate hostname port old new =>
    obtain ⟨pins'', hpins, h⟩ := of_bind_eq_ok h
    obtain ⟨⟩ := h
    obtain ⟨endpoint, hreplaces, heq⟩ := of_rotate_eq_ok hpins
    exact .inr ⟨endpoint, new, rfl, hreplaces, heq⟩

/-! ## Verification -/

/-- The result of a call is the verdict on a key, given the stored one. -/
structure Verdict (key : HostFingerprint) (stored : Option HostFingerprint)
    (result : Except AppError KnownHostsReply) : Prop where
  trusted : result = .ok .done ↔ stored = some key
  changed : (∃ error, result = .error error ∧ error.code = .changedHostKey) ↔
    ∃ pin, pin ≠ key ∧ stored = some pin
  unknown : (∃ error, result = .error error ∧ error.code = .unknownHostKey) ↔ stored = none

omit [IpAddrs] in
theorem verdict_comparePin (endpoint : Endpoint) (key : HostFingerprint)
    (stored : Option HostFingerprint) :
    Verdict key stored ((comparePin endpoint key stored).map fun _ => .done) := by
  rw [comparePin]
  rcases stored with _ | pin
  · refine ⟨?_, ?_, ?_⟩
    · simp [Except.map]
    · simp [Except.map]
    · simp [Except.map]
  · by_cases hpin : pin = key
    · subst hpin
      refine ⟨?_, ?_, ?_⟩
      · simp [Except.map]
      · simp [Except.map]
      · simp [Except.map]
    · have hne : some pin ≠ some key := fun h => hpin (Option.some.inj h)
      rw [if_neg hne]
      refine ⟨?_, ?_, ?_⟩
      · simp [Except.map, hpin]
      · simp [Except.map, hpin]
      · simp [Except.map]

/-- The database has failed. -/
def Unavailable (result : Except AppError KnownHostsReply) : Prop :=
  ∃ error, result = .error error ∧ error.code = .persistence

/-- A key is verified, unless the database fails. -/
theorem verdict_verify {hostname host : String} {port : Nat}
    (hhost : canonicalEndpoint hostname port = .ok host) (hkey : validateKey key = .ok ()) :
    let result := (verify storage pins hostname port key).map fun _ => KnownHostsReply.done
    Verdict key (pins.get (host, port)) result ∨ Unavailable result := by
  have hverify : verify storage pins hostname port key =
      attempt storage.locks poisonedDatabase >>= fun _ =>
        readPin storage pins (host, port) >>= comparePin (host, port) key := by
    simp only [verify, hhost, hkey]
    rfl
  rw [hverify, readPin]
  rcases storage.locks with _ | _
  · exact .inr ⟨_, rfl, rfl⟩
  · rcases storage.reads with _ | _
    · exact .inr ⟨_, rfl, rfl⟩
    · exact .inl (verdict_comparePin ..)

/-! ## Runs -/

variable {calls : TaskId → KnownHostsCall} {ls : List (Label TaskId)}
  {c c' c₁ c₂ c₃ : Config TaskId KnownHosts} {l : Label TaskId}

/-- The protocol of the calls: every step is one of a call. -/
def knownHostsProtocol (calls : TaskId → KnownHostsCall) : Protocol (knownHosts calls) where
  inv _ := True
  guarantee t s s' := ∃ storage, s' = s.perform t (calls t) storage
  idle _ _ := True

theorem sound_knownHostsProtocol (calls : TaskId → KnownHostsCall) :
    (knownHostsProtocol calls).Sound where
  init _ _ := ⟨trivial, fun _ => trivial⟩
  env _ _ _ henv := henv.elim
  idle _ _ _ _ _ := trivial
  entry t p s hp _ _ := by
    obtain rfl : p = knownHostsProgram t (calls t) := hp
    refine safe_bind.2 (safe_ask fun storage => ?_)
    exact safe_modify (k := .ret) stable_true trivial fun s _ _ =>
      ⟨trivial, ⟨storage, rfl⟩, trivial⟩

/-- A step changes nothing, or is one of a call. -/
theorem step_cases (h : (knownHosts calls).machine.Run ls c) (hs : (knownHosts calls).Step c l c') :
    c'.shared = c.shared ∨
      ∃ t storage, l = .run t ∧ c'.shared = c.shared.perform t (calls t) storage := by
  cases l with
  | start t =>
    obtain ⟨-, p, -, rfl⟩ := hs
    exact .inl rfl
  | run t =>
    obtain heq | ⟨storage, heq⟩ :=
      ((sound_knownHostsProtocol calls).of_run h).guarantee_of_step hs
    · exact .inl heq
    · exact .inr ⟨t, storage, rfl, heq⟩
  | env =>
    obtain ⟨s', hs', -⟩ := hs
    exact hs'.elim

/-- The task `t` replaces the key of an endpoint. -/
structure Replacement (calls : TaskId → KnownHostsCall) (endpoint : Endpoint) (t : TaskId)
    (old : Option HostFingerprint) (new : HostFingerprint) (c c' : Config TaskId KnownHosts) :
    Prop where
  replaces : Replaces (calls t) endpoint old new
  old_eq : c.shared.pins.get endpoint = old
  pins_eq : c'.shared.pins = c.shared.pins.insert endpoint new
  log_eq : c'.shared.log = c.shared.log ++ [⟨t, .ok .done⟩]

/-- A key only changes if it is replaced. -/
theorem replacement_of_step (h : (knownHosts calls).machine.Run ls c)
    (hs : (knownHosts calls).Step c l c')
    (hne : c'.shared.pins.get endpoint ≠ c.shared.pins.get endpoint) :
    ∃ t old new, l = .run t ∧ Replacement calls endpoint t old new c c' := by
  obtain heq | ⟨t, storage, rfl, heq⟩ := step_cases h hs
  · exact absurd (by rw [heq]) hne
  rw [KnownHosts.perform] at heq
  split at heq
  case h_2 => exact absurd (by rw [heq]) hne
  case h_1 reply pins hrun =>
    obtain rfl | ⟨endpoint', key, rfl, hreplaces, hpins⟩ := of_run_eq_ok hrun
    · exact absurd (by rw [heq]) hne
    · obtain rfl : endpoint = endpoint' := by
        by_contra hendpoint
        refine hne ?_
        rw [heq, hpins, Table.get_insert_of_ne _ hendpoint]
      exact ⟨t, _, key, rfl, hreplaces, rfl, by rw [heq, hpins], by rw [heq]⟩

theorem log_perform {s : KnownHosts} {t : TaskId} {call : KnownHostsCall} :
    (s.perform t call storage).log =
      s.log ++ [⟨t, (call.run storage s.pins).map Prod.fst⟩] := by
  rw [KnownHosts.perform]
  split
  case h_1 hrun => rw [hrun]; rfl
  case h_2 hrun => rw [hrun]; rfl

/-- What a call that verifies a key logs. -/
theorem verdict_of_step {t : TaskId} {result : Except AppError KnownHostsReply}
    {hostname host : String} {port : Nat} (h : (knownHosts calls).machine.Run ls c)
    (hs : (knownHosts calls).Step c l c')
    (hlog : c'.shared.log = c.shared.log ++ [⟨t, result⟩])
    (hcall : calls t = .verify hostname port key)
    (hhost : canonicalEndpoint hostname port = .ok host) (hkey : validateKey key = .ok ()) :
    Verdict key (c.shared.pins.get (host, port)) result ∨ Unavailable result := by
  obtain heq | ⟨t', storage, -, heq⟩ := step_cases h hs
  · rw [heq] at hlog
    exact absurd hlog (by simp)
  rw [heq, log_perform] at hlog
  obtain ⟨rfl, rfl⟩ := Returned.mk.inj (List.singleton_inj.1 (List.append_cancel_left hlog))
  have hresult : ((calls t').run storage c.shared.pins).map Prod.fst =
      (verify storage c.shared.pins hostname port key).map fun _ => .done := by
    rw [hcall, KnownHostsCall.run]
    cases verify storage c.shared.pins hostname port key with
    | error => rfl
    | ok => rfl
  rw [hresult]
  exact verdict_verify hhost hkey

theorem Replacement.get_eq {t : TaskId} {old : Option HostFingerprint} {new : HostFingerprint}
    (h : Replacement calls endpoint t old new c c') : c'.shared.pins.get endpoint = some new := by
  rw [h.pins_eq, Table.get_insert_self]

/-- An endpoint that has a key keeps having one. -/
theorem get_ne_none_of_path (h : (knownHosts calls).machine.Run ls c) {ls' : List (Label TaskId)}
    (hpath : (knownHosts calls).machine.Path c ls' c') (hc : c.shared.pins.get endpoint ≠ none) :
    c'.shared.pins.get endpoint ≠ none := by
  by_contra hc'
  obtain ⟨ls₁, l, ls₂, c₁, c₂, -, hpath₁, hs, -, hne, heq⟩ := 
    hpath.exists_step (P := fun c => c.shared.pins.get endpoint = none) hc hc'
  obtain ⟨t, old, new, -, hreplacement⟩ := replacement_of_step
    (Machine.run_append.2 ⟨c, h, hpath₁⟩) hs (by rw [heq]; exact Ne.symm hne)
  rw [hreplacement.get_eq] at heq
  nomatch heq

/-- A key that has been replaced, and is there again, has been put back. -/
theorem exists_replacement_between (h : (knownHosts calls).machine.Run ls c)
    {ls' : List (Label TaskId)} (hpath : (knownHosts calls).machine.Path c ls' c')
    (hc : c.shared.pins.get endpoint ≠ none) (hne : c.shared.pins.get endpoint ≠ some key)
    (hc' : c'.shared.pins.get endpoint = some key) :
    ∃ ls₁ t ls₂ c₁ c₂ other, ls' = ls₁ ++ Label.run t :: ls₂ ∧
      (knownHosts calls).machine.Path c ls₁ c₁ ∧ (knownHosts calls).Step c₁ (.run t) c₂ ∧
      (knownHosts calls).machine.Path c₂ ls₂ c' ∧
      Replacement calls endpoint t (some other) key c₁ c₂ := by
  obtain ⟨ls₁, l, ls₂, c₁, c₂, rfl, hpath₁, hs, hpath₂, hne₁, heq₂⟩ :=
    hpath.exists_step (P := fun c => c.shared.pins.get endpoint = some key) hne hc'
  obtain ⟨t, old, new, rfl, hreplacement⟩ := replacement_of_step
    (Machine.run_append.2 ⟨c, h, hpath₁⟩) hs (by rw [heq₂]; exact Ne.symm hne₁)
  obtain rfl := Option.mem_unique hreplacement.get_eq heq₂
  -- The key is replaced and not trusted, as the endpoint has had one all along.
  obtain ⟨other, hother⟩ := Option.ne_none_iff_exists'.1 (get_ne_none_of_path h hpath₁ hc)
  obtain rfl := hreplacement.old_eq.symm.trans hother
  exact ⟨ls₁, t, ls₂, c₁, c₂, other, rfl, hpath₁, hs, hpath₂, hreplacement⟩

/-- In every run: a key only changes if it is trusted where there is none, or if it is
    replaced where it is the expected one, and then no other key changes; a key is verified
    against the current one, unless the database fails; after a key has been pinned, none
    is trusted that replaces it; and a key that is replaced twice has been put back in
    between. -/
theorem pins_of_run (h : (knownHosts calls).machine.Run ls c) :
    (∀ l c' endpoint, (knownHosts calls).Step c l c' →
      c'.shared.pins.get endpoint ≠ c.shared.pins.get endpoint →
      ∃ t old new, l = .run t ∧ Replacement calls endpoint t old new c c') ∧
    (∀ l c' t result hostname host port key, (knownHosts calls).Step c l c' →
      c'.shared.log = c.shared.log ++ [⟨t, result⟩] → calls t = .verify hostname port key →
      canonicalEndpoint hostname port = .ok host → validateKey key = .ok () →
      Verdict key (c.shared.pins.get (host, port)) result ∨ Unavailable result) ∧
    ∀ endpoint t t' old old' new new' c₁ ls' c₂ c₃, (knownHosts calls).Step c (.run t) c₁ →
      Replacement calls endpoint t old new c c₁ → (knownHosts calls).machine.Path c₁ ls' c₂ →
      (knownHosts calls).Step c₂ (.run t') c₃ → Replacement calls endpoint t' old' new' c₂ c₃ →
      (∀ challenge, calls t' ≠ .trust challenge) ∧
      ∀ key, old = some key → old' = some key →
        ∃ ls₁ t'' ls₂ c₄ c₅ other, ls' = ls₁ ++ Label.run t'' :: ls₂ ∧
          (knownHosts calls).machine.Path c₁ ls₁ c₄ ∧ (knownHosts calls).Step c₄ (.run t'') c₅ ∧
          (knownHosts calls).machine.Path c₅ ls₂ c₂ ∧
          Replacement calls endpoint t'' (some other) key c₄ c₅ := by
  refine ⟨fun l c' endpoint hs hne => replacement_of_step h hs hne,
    fun l c' t result hostname host port key hs hlog hcall hhost hkey =>
      verdict_of_step h hs hlog hcall hhost hkey, ?_⟩
  intro endpoint t t' old old' new new' c₁ ls' c₂ c₃ hs hfirst hpath hs' hsecond
  have h₁ : (knownHosts calls).machine.Run (ls ++ [Label.run t]) c₁ := h.snoc hs
  have hsome : c₁.shared.pins.get endpoint ≠ none := by
    rw [hfirst.get_eq]
    exact nofun
  refine ⟨fun challenge hcall => ?_, fun key hold hold' => ?_⟩
  · have hreplaces := hsecond.replaces
    rw [hcall] at hreplaces
    cases hreplaces
    exact get_ne_none_of_path h₁ hpath hsome hsecond.old_eq
  · subst hold
    subst hold'
    have hne : key ≠ new := by
      have hreplaces := hfirst.replaces
      generalize calls t = call at hreplaces
      cases hreplaces with
      | rotate _ hne => exact hne
    refine exists_replacement_between h₁ hpath hsome ?_ hsecond.old_eq
    rw [hfirst.get_eq]
    exact fun heq => hne (Option.some.inj heq).symm

end

/-! ## A key that is replaced twice -/

/-- Addresses that are not parsed. -/
@[reducible] def noAddrs : IpAddrs := ⟨Empty, fun _ => none, nofun, nofun⟩

/-- Keys with the same digits. -/
def sampleKey (digit : Char) : HostFingerprint :=
  ⟨"ssh-ed25519", "SHA256:" ++ String.ofList (List.replicate 43 digit)⟩

/-- A call that trusts a key, two that replace it, and one that puts it back. -/
def rotateCalls : TaskId → KnownHostsCall
  | ⟨0⟩ => .trust ⟨"Host.Example.", 22, (sampleKey 'a').algorithm, (sampleKey 'a').sha256, none⟩
  | ⟨1⟩ => .rotate "host.example" 22 (sampleKey 'a') (sampleKey 'b')
  | ⟨2⟩ => .rotate "host.example" 22 (sampleKey 'a') (sampleKey 'c')
  | _ => .rotate "host.example" 22 (sampleKey 'b') (sampleKey 'a')

/-- A database that does not fail. -/
def sound : Storage := ⟨true, true, true, true, true⟩

/-- Three calls run at the same time. -/
theorem exists_run_rotated : ∃ _ : IpAddrs, ∃ ls c c₁ c₂ c₃,
    (knownHosts rotateCalls).machine.Run ls c ∧
    c.tasks ⟨1⟩ ≠ none ∧ c.tasks ⟨2⟩ ≠ none ∧ c.tasks ⟨3⟩ ≠ none ∧
    c.shared.pins.get ("host.example", 22) = some (sampleKey 'a') ∧
    (knownHosts rotateCalls).Step c (.run ⟨1⟩) c₁ ∧
    c₁.shared.pins.get ("host.example", 22) = some (sampleKey 'b') ∧
    (knownHosts rotateCalls).Step c₁ (.run ⟨3⟩) c₂ ∧
    c₂.shared.pins.get ("host.example", 22) = some (sampleKey 'a') ∧
    (knownHosts rotateCalls).Step c₂ (.run ⟨2⟩) c₃ ∧
    c₃.shared.pins.get ("host.example", 22) = some (sampleKey 'c') := by
  refine ⟨noAddrs, ?_⟩
  have h : (@knownHosts noAddrs rotateCalls).machine.Run [] ⟨fun _ => none, ⟨.empty, []⟩⟩ :=
    .nil ⟨rfl, fun _ => rfl⟩
  obtain ⟨_, h⟩ := System.run_task h ⟨0⟩ rfl rfl (.answer sound <| .act rfl <| .refl)
  obtain ⟨_, h⟩ := System.run_task h ⟨1⟩ rfl rfl (.answer sound <| .refl)
  obtain ⟨_, h⟩ := System.run_task h ⟨3⟩ rfl rfl (.answer sound <| .refl)
  obtain ⟨_, h⟩ := System.run_task h ⟨2⟩ rfl rfl (.answer sound <| .refl)
  exact ⟨_, _, _, _, _, h, nofun, nofun, nofun, by decide +kernel,
    ⟨_, _, _, rfl, .atomic rfl, rfl⟩, by decide +kernel, ⟨_, _, _, rfl, .atomic rfl, rfl⟩,
    by decide +kernel, ⟨_, _, _, rfl, .atomic rfl, rfl⟩, by decide +kernel⟩

/-- Two calls that run at the same time both replace the same key, as a third one puts it
    back in between. -/
theorem rotated_twice : ∃ _ : IpAddrs, ∃ ls c c₁ c₂ c₃,
    rotateCalls ⟨1⟩ = .rotate "host.example" 22 (sampleKey 'a') (sampleKey 'b') ∧
    rotateCalls ⟨2⟩ = .rotate "host.example" 22 (sampleKey 'a') (sampleKey 'c') ∧
    (knownHosts rotateCalls).machine.Run ls c ∧ c.tasks ⟨1⟩ ≠ none ∧ c.tasks ⟨2⟩ ≠ none ∧
    (knownHosts rotateCalls).Step c (.run ⟨1⟩) c₁ ∧
    c₁.shared.pins.get ("host.example", 22) ≠ c.shared.pins.get ("host.example", 22) ∧
    (knownHosts rotateCalls).Step c₁ (.run ⟨3⟩) c₂ ∧
    (knownHosts rotateCalls).Step c₂ (.run ⟨2⟩) c₃ ∧
    c₃.shared.pins.get ("host.example", 22) ≠ c₂.shared.pins.get ("host.example", 22) := by
  obtain ⟨addrs, ls, c, c₁, c₂, c₃, h, h₁, h₂, -, hc, hs₁, hc₁, hs₃, hc₂, hs₂, hc₃⟩ :=
    exists_run_rotated
  refine ⟨addrs, ls, c, c₁, c₂, c₃, rfl, rfl, h, h₁, h₂, hs₁, ?_, hs₃, hs₂, ?_⟩
  · rw [hc, hc₁]
    decide +kernel
  · rw [hc₂, hc₃]
    decide +kernel

theorem pins_rotated : ∃ _ : IpAddrs, ∃ ls c c₁ old new,
    (knownHosts rotateCalls).machine.Run ls c ∧ (knownHosts rotateCalls).Step c (.run ⟨1⟩) c₁ ∧
    Replacement rotateCalls ("host.example", 22) ⟨1⟩ old new c c₁ := by
  obtain ⟨addrs, ls, c, c₁, c₂, c₃, h, -, -, -, hc, hs, hc₁, -⟩ :=
    exists_run_rotated
  have hne : c₁.shared.pins.get ("host.example", 22) ≠ c.shared.pins.get ("host.example", 22) := by
    rw [hc, hc₁]
    decide +kernel
  obtain ⟨t, old, new, ht, hreplacement⟩ := (pins_of_run h).1 _ _ _ hs hne
  obtain rfl := Label.run.inj ht
  exact ⟨addrs, ls, c, c₁, old, new, h, hs, hreplacement⟩

end NexusOps.Ssh
