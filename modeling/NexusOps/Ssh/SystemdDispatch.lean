import NexusOps.Concurrency.History
import NexusOps.RemoteOperations.Outcome
import NexusOps.RemoteOperations.Systemd
import Mathlib.Data.List.Induction

/-!
# Dispatch of systemd operations over SSH

The four adapters (`systemd_start`, `systemd_reload`, `systemd_reset_failed` and
`systemd_try_restart`) open a channel, request the execution of one command, and
read the messages of the channel until one of them, or an interruption, decides
the outcome.

`dispatch_certainty`: the outcome is determined by the first *decisive* message,
and once the execution has been requested it is reported as not dispatched only
if the request was rejected before there was any sign of execution.
-/

namespace NexusOps.Ssh

open Concurrency RemoteOperations

/-! ## Messages -/

/-- The messages of a channel, as far as they are told apart. -/
inductive ChannelMsg
  | success
  | failure
  | exitStatus (exitStatus : UInt32)
  | exitSignal
  | data (data : List UInt8)
  | extendedData (data : List UInt8)
  | eof
  | windowAdjusted
  | close
  /-- Any other message. -/
  | other
  deriving DecidableEq, Repr

/-- The most output that is read. -/
def OUTPUT_LIMIT : Nat := 8 * 1024

/-- What has been seen of an execution. -/
structure Progress where
  accepted : Bool
  executionEvidence : Bool
  outputBytes : Nat
  deriving DecidableEq, Repr

/-- What a message leads to. -/
inductive MessageHandling
  | continue
  | complete (outcome : MutationTransportOutcome)
  deriving DecidableEq, Repr

/-- Handles a message that carries output. -/
def handleOutput (data : List UInt8) (p : Progress) : MessageHandling × Progress :=
  let p' := { p with
    executionEvidence := true
    outputBytes := saturatingAdd p.outputBytes data.length }
  if OUTPUT_LIMIT < p'.outputBytes then (.complete (.completionUnknown .outputLimit), p')
  else (.continue, p')

/-- Handles a message of the channel. -/
def handleMessage (message : ChannelMsg) (p : Progress) : MessageHandling × Progress :=
  match message with
  | .success =>
    if !p.accepted then (.continue, { p with accepted := true })
    else (.complete (.completionUnknown .connectionLost), p)
  | .failure =>
    if !p.accepted && !p.executionEvidence then (.complete (.notDispatched .rejected), p)
    else (.complete (.completionUnknown .connectionLost), p)
  | .exitStatus exitStatus => (.complete (.completionConfirmed (exitStatus == 0)), p)
  | .exitSignal => (.complete (.completionConfirmed false), p)
  | .data data => handleOutput data p
  | .extendedData data => handleOutput data p
  | .eof => (.continue, p)
  | .windowAdjusted => (.continue, p)
  | .close => (.complete (.completionUnknown .connectionLost), p)
  | .other =>
    if !p.accepted then (.complete (.completionUnknown .connectionLost), p)
    else (.continue, p)

/-! ## Dispatch -/

/-- What ends a request that no message has decided. -/
inductive Cut
  /-- The execution could not be requested: no message is read. -/
  | execError
  /-- The channel has no more messages. -/
  | endOfStream
  | cancellation
  /-- The lifetime of the session has ended. -/
  | transportLoss
  | timeout
  deriving DecidableEq, Repr

/-- The outcome of a request that no message has decided. -/
def Cut.outcome : Cut → MutationTransportOutcome
  | execError => .completionUnknown .connectionLost
  | endOfStream => .completionUnknown .connectionLost
  | cancellation => .completionUnknown .cancelled
  | transportLoss => .completionUnknown .connectionLost
  | timeout => .completionUnknown .timeout

/-- Reads the messages that arrive before the cut. -/
def readMessages (cut : Cut) : List ChannelMsg → Progress → MutationTransportOutcome
  | [], _ => cut.outcome
  | message :: rest, p => match handleMessage message p with
    | (.continue, p') => readMessages cut rest p'
    | (.complete outcome, _) => outcome

/-- The messages that are read before the cut. -/
def Cut.processed (messages : List ChannelMsg) : Cut → List ChannelMsg
  | execError => []
  | _ => messages

/-- Requests the execution, and reads the messages that arrive before the cut. -/
def request (messages : List ChannelMsg) (cut : Cut) : MutationTransportOutcome :=
  readMessages cut (cut.processed messages) ⟨false, false, 0⟩

/-- How the opening of the channel ends. -/
inductive Opening
  | cancelled
  | transportLost
  | timedOut
  | failed
  | opened
  deriving DecidableEq, Repr

/-- What the adapter meets. -/
structure Surroundings where
  isClosed : Bool
  isCancelled : Bool
  opening : Opening
  messages : List ChannelMsg
  cut : Cut

/-- The command of an operation, up to the name of the unit. -/
def COMMAND_PREFIX (o : SystemdOperation) : String :=
  "LC_ALL=C SYSTEMD_COLORS=0 SYSTEMD_URLIFY=0 systemctl --system --no-pager --no-ask-password " ++
    match o with
    | .start => "start -- "
    | .reload => "reload -- "
    | .resetFailed => "reset-failed -- "
    | .tryRestart => "try-restart -- "

/-- The command of an operation on a unit. -/
def command (o : SystemdOperation) (unit : SystemdServiceUnitName) : String :=
  COMMAND_PREFIX o ++ unit.value

/-- The outcome of a dispatch, with the command whose execution it requested. -/
structure Dispatched where
  requested : Option String
  outcome : MutationTransportOutcome
  deriving DecidableEq, Repr

/-- Dispatches an operation on a unit. -/
def dispatch (o : SystemdOperation) (unit : SystemdServiceUnitName) (env : Surroundings) :
    Dispatched :=
  if env.isClosed then ⟨none, .notDispatched .connection⟩
  else if env.isCancelled then ⟨none, .notDispatched .cancelled⟩
  else match env.opening with
    | .cancelled => ⟨none, .notDispatched .cancelled⟩
    | .transportLost => ⟨none, .notDispatched .connection⟩
    | .timedOut => ⟨none, .notDispatched .timeout⟩
    | .failed => ⟨none, .notDispatched .connection⟩
    | .opened => ⟨some (command o unit), request env.messages env.cut⟩

/-! ## Decisive messages -/

/-- The output a message carries. -/
def ChannelMsg.output : ChannelMsg → Option (List UInt8)
  | data bytes => some bytes
  | extendedData bytes => some bytes
  | _ => none

/-- The number of bytes of output in a sequence of messages. -/
def totalOutput (messages : List ChannelMsg) : Nat :=
  (messages.map fun m => (m.output.getD []).length).sum

/-- A message, after the messages `earlier`, decides the outcome. -/
def Decisive (earlier : List ChannelMsg) : ChannelMsg → Prop
  | .success => .success ∈ earlier
  | .failure => True
  | .exitStatus _ => True
  | .exitSignal => True
  | .close => True
  | .data bytes => OUTPUT_LIMIT < totalOutput earlier + bytes.length
  | .extendedData bytes => OUTPUT_LIMIT < totalOutput earlier + bytes.length
  | .eof => False
  | .windowAdjusted => False
  | .other => .success ∉ earlier

/-- None of the messages decides the outcome. -/
def Undecided (messages : List ChannelMsg) : Prop :=
  Justified (fun earlier m => ¬Decisive earlier m) messages

/-- The first decisive message is `m`, after the messages `earlier`. -/
def FirstDecisive (messages earlier : List ChannelMsg) (m : ChannelMsg) : Prop :=
  (∃ post, messages = earlier ++ m :: post) ∧ Undecided earlier ∧ Decisive earlier m

/-- There is a sign of execution: the request was accepted, or there is output. -/
def Started (messages : List ChannelMsg) : Prop :=
  .success ∈ messages ∨ ∃ m ∈ messages, m.output ≠ none

instance (messages : List ChannelMsg) : Decidable (Started messages) :=
  inferInstanceAs (Decidable (_ ∨ _))

/-! ## The outcome -/

/-- The outcome a decisive message leads to. -/
def verdict (earlier : List ChannelMsg) : ChannelMsg → MutationTransportOutcome
  | .failure =>
    if Started earlier then .completionUnknown .connectionLost else .notDispatched .rejected
  | .exitStatus exitStatus => .completionConfirmed (exitStatus == 0)
  | .exitSignal => .completionConfirmed false
  | .data _ => .completionUnknown .outputLimit
  | .extendedData _ => .completionUnknown .outputLimit
  | .success | .eof | .windowAdjusted | .close | .other => .completionUnknown .connectionLost

/-- What has been seen of an execution, after messages that have not decided it. -/
def progressOf (messages : List ChannelMsg) : Progress where
  accepted := messages.contains .success
  executionEvidence := messages.any (·.output.isSome)
  outputBytes := totalOutput messages

variable {earlier messages : List ChannelMsg} {m : ChannelMsg} {bytes : List UInt8}

theorem totalOutput_snoc :
    totalOutput (earlier ++ [m]) = totalOutput earlier + (m.output.getD []).length := by
  simp [totalOutput]

theorem progressOf_snoc : progressOf (earlier ++ [m]) =
    ⟨(progressOf earlier).accepted || decide (ChannelMsg.success = m),
      (progressOf earlier).executionEvidence || m.output.isSome,
      (progressOf earlier).outputBytes + (m.output.getD []).length⟩ := by
  simp [progressOf, totalOutput_snoc]

theorem accepted_progressOf : (progressOf earlier).accepted = true ↔ .success ∈ earlier := by
  simp [progressOf]

theorem started_iff : Started earlier ↔
    (progressOf earlier).accepted = true ∨ (progressOf earlier).executionEvidence = true := by
  simp [Started, progressOf, Option.isSome_iff_ne_none]

/-- Output within the limit is added to what has been seen. -/
theorem handleOutput_of_le (h : totalOutput earlier + bytes.length ≤ OUTPUT_LIMIT) :
    handleOutput bytes (progressOf earlier) =
      (.continue, ⟨(progressOf earlier).accepted, true,
        (progressOf earlier).outputBytes + bytes.length⟩) := by
  have hsat : saturatingAdd (totalOutput earlier) bytes.length =
      totalOutput earlier + bytes.length := by
    unfold OUTPUT_LIMIT at h
    unfold saturatingAdd
    omega
  simp only [handleOutput, progressOf, hsat, Nat.not_lt.2 h, if_false]

/-- Output above the limit completes the request. -/
theorem handleOutput_of_lt (h : OUTPUT_LIMIT < totalOutput earlier + bytes.length) :
    (handleOutput bytes (progressOf earlier)).1 = .complete (.completionUnknown .outputLimit) := by
  have hsat : OUTPUT_LIMIT < saturatingAdd (totalOutput earlier) bytes.length := by
    unfold OUTPUT_LIMIT at h ⊢
    unfold saturatingAdd
    omega
  simp only [handleOutput, progressOf, hsat, if_true]

/-- A message that is not decisive is added to what has been seen. -/
theorem handleMessage_of_not_decisive (h : ¬Decisive earlier m) :
    handleMessage m (progressOf earlier) = (.continue, progressOf (earlier ++ [m])) := by
  rw [progressOf_snoc]
  cases m with
  | success => simp [handleMessage, mt accepted_progressOf.1 h, ChannelMsg.output]
  | failure => exact absurd trivial h
  | exitStatus n => exact absurd trivial h
  | exitSignal => exact absurd trivial h
  | data bytes => simpa [handleMessage, ChannelMsg.output] using handleOutput_of_le (Nat.not_lt.1 h)
  | extendedData bytes =>
    simpa [handleMessage, ChannelMsg.output] using handleOutput_of_le (Nat.not_lt.1 h)
  | eof => simp [handleMessage, ChannelMsg.output]
  | windowAdjusted => simp [handleMessage, ChannelMsg.output]
  | close => exact absurd trivial h
  | other =>
    have ha := accepted_progressOf.2 (Decidable.not_not.1 h)
    have hc : handleMessage .other (progressOf earlier) = (.continue, progressOf earlier) := by
      simp [handleMessage, ha]
    rw [hc]
    simp [ChannelMsg.output]

/-- A decisive message completes the request. -/
theorem handleMessage_of_decisive (h : Decisive earlier m) :
    (handleMessage m (progressOf earlier)).1 = .complete (verdict earlier m) := by
  cases m with
  | success => simp [handleMessage, accepted_progressOf.2 h, verdict]
  | failure =>
    by_cases hs : Started earlier
    · rcases started_iff.1 hs with ha | he
      · simp [handleMessage, verdict, hs, ha]
      · simp [handleMessage, verdict, hs, he]
    · obtain ⟨ha, he⟩ := not_or.1 (mt started_iff.2 hs)
      simp [handleMessage, verdict, hs, ha, he]
  | exitStatus n => rfl
  | exitSignal => rfl
  | data bytes => exact handleOutput_of_lt h
  | extendedData bytes => exact handleOutput_of_lt h
  | eof => exact h.elim
  | windowAdjusted => exact h.elim
  | close => rfl
  | other => simp [handleMessage, mt accepted_progressOf.1 h, verdict]

/-- The messages are read up to the first decisive one, or to the cut. -/
theorem readMessages_eq (cut : Cut) (rest : List ChannelMsg) (he : Undecided earlier) :
    (∃ pre m, FirstDecisive (earlier ++ rest) pre m ∧
      readMessages cut rest (progressOf earlier) = verdict pre m) ∨
    Undecided (earlier ++ rest) ∧ readMessages cut rest (progressOf earlier) = cut.outcome := by
  induction rest generalizing earlier with
  | nil => exact .inr ⟨by rwa [List.append_nil], rfl⟩
  | cons m rest ih =>
    by_cases hm : Decisive earlier m
    · refine .inl ⟨earlier, m, ⟨⟨rest, rfl⟩, he, hm⟩, ?_⟩
      have := handleMessage_of_decisive hm
      rw [readMessages]
      cases h : handleMessage m (progressOf earlier) with
      | mk handling p =>
        rw [h] at this
        obtain rfl : handling = _ := this
        rfl
    · rw [readMessages, handleMessage_of_not_decisive hm, List.append_cons]
      exact ih (justified_snoc.2 ⟨he, hm⟩)

/-- There is only one first decisive message. -/
theorem FirstDecisive.unique {pre pre' : List ChannelMsg} {m m' : ChannelMsg}
    (h : FirstDecisive messages pre m) (h' : FirstDecisive messages pre' m') :
    pre = pre' ∧ m = m' := by
  obtain ⟨⟨post, rfl⟩, hu, hd⟩ := h
  obtain ⟨⟨post', heq⟩, hu', hd'⟩ := h'
  rcases List.append_eq_append_iff.1 heq with ⟨l, rfl, hl⟩ | ⟨l, rfl, hl⟩
  · cases l with
    | nil => simp_all
    | cons a l =>
      obtain ⟨rfl, rfl⟩ := List.cons.inj hl
      exact absurd hd (hu' pre m l rfl)
  · cases l with
    | nil => simp_all
    | cons a l =>
      obtain ⟨rfl, rfl⟩ := List.cons.inj hl
      exact absurd hd' (hu pre' m' l rfl)

theorem Undecided.not_firstDecisive {pre : List ChannelMsg} (hu : Undecided messages) :
    ¬FirstDecisive messages pre m := by
  rintro ⟨⟨post, rfl⟩, _, hd⟩
  exact hu pre m post rfl hd

theorem verdict_eq_notDispatched {reason : NotDispatchedReason} :
    verdict earlier m = .notDispatched reason ↔
      m = .failure ∧ ¬Started earlier ∧ reason = .rejected := by
  cases m with
  | failure =>
    by_cases hs : Started earlier
    · simp [verdict, hs]
    · simp [verdict, hs, eq_comm]
  | _ => simp [verdict]

theorem verdict_eq_confirmed_true :
    verdict earlier m = .completionConfirmed true ↔ m = .exitStatus 0 := by
  cases m with
  | failure => by_cases hs : Started earlier <;> simp [verdict, hs]
  | _ => simp [verdict]

theorem verdict_eq_confirmed_false : verdict earlier m = .completionConfirmed false ↔
    m = .exitSignal ∨ ∃ n, n ≠ 0 ∧ m = .exitStatus n := by
  cases m with
  | failure => by_cases hs : Started earlier <;> simp [verdict, hs]
  | _ => simp [verdict]

/-- What the outcome of a request is, by its first decisive message. -/
theorem request_eq_iff {cut : Cut} {outcome : MutationTransportOutcome}
    (h : ∀ reason, outcome ≠ .completionUnknown reason) :
    request messages cut = outcome ↔
      ∃ pre m, FirstDecisive (cut.processed messages) pre m ∧ verdict pre m = outcome := by
  have hnil : Undecided [] := justified_nil
  rcases readMessages_eq cut (cut.processed messages) hnil with ⟨pre, m, hf, hr⟩ | ⟨hu, hr⟩
  · refine ⟨fun ho => ⟨pre, m, hf, hr.symm.trans ho⟩, fun ⟨pre', m', hf', hv⟩ => ?_⟩
    obtain ⟨rfl, rfl⟩ := hf.unique hf'
    exact hr.trans hv
  · refine ⟨fun ho => ?_, fun ⟨pre, m, hf, _⟩ => absurd hf hu.not_firstDecisive⟩
    have hcut : ∃ reason, cut.outcome = .completionUnknown reason := by cases cut <;> exact ⟨_, rfl⟩
    obtain ⟨reason, hc⟩ := hcut
    exact absurd (ho.symm.trans (hr.trans hc)) (h reason)

/-- The outcome of a dispatch that has requested an execution. -/
theorem dispatch_outcome {o : SystemdOperation} {unit : SystemdServiceUnitName}
    {env : Surroundings} (h : (dispatch o unit env).requested ≠ none) :
    ∀ o' unit', (dispatch o' unit' env).outcome = request env.messages env.cut := by
  intro o' unit'
  unfold dispatch at h ⊢
  split_ifs at h ⊢ with hclosed hcancelled
  · exact absurd rfl h
  · exact absurd rfl h
  · cases hopen : env.opening <;> simp_all

/-- The certainty of a dispatch that has requested the execution of its command:
    all operations have the same outcome, which follows from the messages that
    have been read. -/
theorem dispatch_certainty {o : SystemdOperation} {unit : SystemdServiceUnitName}
    {env : Surroundings} (h : (dispatch o unit env).requested ≠ none) :
    let outcome := (dispatch o unit env).outcome
    let messages := env.cut.processed env.messages
    let Rejected := ∃ earlier, FirstDecisive messages earlier .failure ∧ ¬Started earlier
    let Succeeded := ∃ earlier, FirstDecisive messages earlier (.exitStatus 0)
    let Failed := ∃ earlier m, FirstDecisive messages earlier m ∧
      (m = .exitSignal ∨ ∃ n, n ≠ 0 ∧ m = .exitStatus n)
    (∀ o' unit', (dispatch o' unit' env).outcome = outcome) ∧
      (outcome = .notDispatched .rejected ↔ Rejected) ∧
      (outcome = .completionConfirmed true ↔ Succeeded) ∧
      (outcome = .completionConfirmed false ↔ Failed) ∧
      ((∃ reason, outcome = .completionUnknown reason) ↔ ¬Rejected ∧ ¬Succeeded ∧ ¬Failed) ∧
      ∀ reason, outcome = .notDispatched reason → reason = .rejected := by
  intro outcome messages Rejected Succeeded Failed
  have hout : ∀ o' unit', (dispatch o' unit' env).outcome = request env.messages env.cut :=
    dispatch_outcome h
  have hnot : ∀ reason, outcome = .notDispatched reason → Rejected ∧ reason = .rejected := by
    intro reason hr
    obtain ⟨pre, m, hf, hv⟩ := (request_eq_iff (by simp)).1 ((hout o unit).symm.trans hr)
    obtain ⟨rfl, hs, rfl⟩ := verdict_eq_notDispatched.1 hv
    exact ⟨⟨pre, hf, hs⟩, rfl⟩
  have hrejected : outcome = .notDispatched .rejected ↔ Rejected := by
    refine ⟨fun hr => (hnot _ hr).1, fun ⟨pre, hf, hs⟩ => ?_⟩
    refine (hout o unit).trans ((request_eq_iff (by simp)).2 ⟨pre, _, hf, ?_⟩)
    exact verdict_eq_notDispatched.2 ⟨rfl, hs, rfl⟩
  have hsucceeded : outcome = .completionConfirmed true ↔ Succeeded := by
    refine (iff_of_eq (congrArg (· = _) (hout o unit))).trans ((request_eq_iff (by simp)).trans ?_)
    simp only [verdict_eq_confirmed_true]
    exact ⟨fun ⟨pre, m, hf, hm⟩ => ⟨pre, hm ▸ hf⟩, fun ⟨pre, hf⟩ => ⟨pre, _, hf, rfl⟩⟩
  have hfailed : outcome = .completionConfirmed false ↔ Failed := by
    refine (iff_of_eq (congrArg (· = _) (hout o unit))).trans ((request_eq_iff (by simp)).trans ?_)
    simp only [verdict_eq_confirmed_false]
    exact Iff.rfl
  refine ⟨fun o' unit' => (hout o' unit').trans (hout o unit).symm, hrejected, hsucceeded, hfailed,
    ?_, fun reason hr => (hnot reason hr).2⟩
  rw [← hrejected, ← hsucceeded, ← hfailed]
  cases houtcome : outcome with
  | notDispatched reason => simp [(hnot reason houtcome).2]
  | completionConfirmed success => cases success <;> simp
  | completionUnknown reason => simp

/-- A start that is accepted, prints something, and succeeds. -/
def succeedingStart : Surroundings where
  isClosed := false
  isCancelled := false
  opening := .opened
  messages := [.success, .data [111, 107], .eof, .exitStatus 0, .close]
  cut := .endOfStream

theorem dispatch_certainty_succeedingStart :
    ∃ earlier, FirstDecisive succeedingStart.messages earlier (.exitStatus 0) := by
  have hrequested : (dispatch .start ⟨"ssh.service", by decide⟩ succeedingStart).requested ≠ none :=
    by decide
  obtain ⟨_, _, hsucceeded, _⟩ := dispatch_certainty hrequested
  exact hsucceeded.1 rfl

end NexusOps.Ssh
