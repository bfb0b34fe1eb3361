import NexusOps.Concurrency.Process
import Mathlib.Data.Set.Insert

/-!
# The order of locks

What a task does with locks, and nothing else: it takes and releases them, awaits
something, and what it does next may depend on anything (`Locking`). A lock is held by one
task at a time, and a task that wants a lock that is held has to wait.

Locks are given ranks. A task is *ordered* (`Locking.Ordered`) if it waits for a lock only
while all locks it holds have smaller ranks; if it awaits something only while it holds none
that would block others in the meantime; and if it releases what it has taken, and nothing else.

* `Locking.waits_rank` and `Locking.pauses_free`: in every interleaving of ordered tasks, this
  is what the tasks do.
* `Locking.not_deadlocked`: no tasks wait for each other.
* `Locking.waits_runs`: while a task waits for a lock, there is one that does not wait, and
  which holds a lock unless it is the task itself.
-/

namespace Concurrency

open Function

/-- A task with locks in `L`, returning an `α`. -/
inductive Locking (L α : Type) : Type 1
  /-- The task has returned. -/
  | ret (a : α)
  /-- Waits for a lock, and takes it. -/
  | lock (l : L) (k : Locking L α)
  /-- Takes a lock if nobody holds it, and does not wait. -/
  | tryLock (l : L) (k : Bool → Locking L α)
  /-- Releases a lock. -/
  | unlock (l : L) (k : Locking L α)
  /-- Awaits something else. -/
  | pause (k : Locking L α)
  /-- Goes on in any of several ways. -/
  | choose {β : Type} (k : β → Locking L α)

namespace Locking

variable {L α β : Type}

/-- A task continued by another. -/
protected def bind : Locking L α → (α → Locking L β) → Locking L β
  | ret a, g => g a
  | lock l k, g => lock l (k.bind g)
  | tryLock l k, g => tryLock l fun b => (k b).bind g
  | unlock l k, g => unlock l (k.bind g)
  | pause k, g => pause (k.bind g)
  | choose k, g => choose fun b => (k b).bind g

instance : Monad (Locking L) where
  pure := ret
  bind := Locking.bind

/-- Anything. -/
def any (β : Type) : Locking L β := choose ret

/-! ## Ordered tasks -/

section

variable (rank : L → ℕ) (blocking : L → Prop)

/-- The task is ordered, while it holds the locks `held`, and returns with `Q`. -/
def Ordered (Q : α → Set L → Prop) : Locking L α → Set L → Prop
  | ret a, held => Q a held
  | lock l k, held => (∀ l' ∈ held, rank l' < rank l) ∧ Ordered Q k (insert l held)
  | tryLock l k, held => Ordered Q (k true) (insert l held) ∧ Ordered Q (k false) held
  | unlock l k, held => l ∈ held ∧ Ordered Q k (held \ {l})
  | pause k, held => (∀ l ∈ held, ¬ blocking l) ∧ Ordered Q k held
  | @choose _ _ β k, held => Nonempty β ∧ ∀ b, Ordered Q (k b) held

variable {rank blocking} {held : Set L}

theorem ordered_bind {Q : β → Set L → Prop} {p : Locking L α} {k : α → Locking L β} :
    (p >>= k).Ordered rank blocking Q held ↔
      p.Ordered rank blocking (fun a held => (k a).Ordered rank blocking Q held) held := by
  induction p generalizing held with
  | ret a => exact Iff.rfl
  | lock l k' ih => exact and_congr_right fun _ => ih
  | tryLock l k' ih => exact and_congr (ih true) (ih false)
  | unlock l k' ih => exact and_congr_right fun _ => ih
  | pause k' ih => exact and_congr_right fun _ => ih
  | choose k' ih => exact and_congr_right fun _ => forall_congr' fun b => ih b

theorem Ordered.mono {Q Q' : α → Set L → Prop} {p : Locking L α}
    (h : p.Ordered rank blocking Q held) (hQ : ∀ a held, Q a held → Q' a held) :
    p.Ordered rank blocking Q' held := by
  induction p generalizing held with
  | ret a => exact hQ a held h
  | lock l k ih => exact ⟨h.1, ih h.2⟩
  | tryLock l k ih => exact ⟨ih true h.1, ih false h.2⟩
  | unlock l k ih => exact ⟨h.1, ih h.2⟩
  | pause k ih => exact ⟨h.1, ih h.2⟩
  | choose k ih => exact ⟨h.1, fun b => ih b (h.2 b)⟩

end

/-! ## Tasks that leave locks as they are -/

section

/-- Holds a lock while the task runs, however that ends. -/
def scope {ε : Type} (l : L) (body : ExceptT ε (Locking L) α) : ExceptT ε (Locking L) α :=
  ExceptT.mk (.lock l (do
    let r ← body.run
    .unlock l (pure r)))

variable (rank : L → ℕ) (blocking : L → Prop) (held : Set L)

/-- The task is ordered, and ends with the locks it began with. -/
abbrev Neutral (p : Locking L α) : Prop :=
  p.Ordered rank blocking (fun _ held' => held' = held) held

variable {rank blocking held} {ε : Type}

theorem neutral_pure {a : α} : (pure a : Locking L α).Neutral rank blocking held := rfl

theorem Neutral.bind {p : Locking L α} {k : α → Locking L β} (hp : p.Neutral rank blocking held)
    (hk : ∀ a, (k a).Neutral rank blocking held) : (p >>= k).Neutral rank blocking held := by
  refine ordered_bind.2 (hp.mono ?_)
  rintro a _ rfl
  exact hk a

theorem neutral_any [Nonempty β] : (any β : Locking L β).Neutral rank blocking held :=
  ⟨inferInstance, fun _ => rfl⟩

theorem neutral_pause (h : ∀ l ∈ held, ¬ blocking l) :
    (pause (pure ()) : Locking L Unit).Neutral rank blocking held :=
  ⟨h, rfl⟩

/-- A part of a task that may be left early. -/
theorem Neutral.andThen {x : ExceptT ε (Locking L) α} {k : α → ExceptT ε (Locking L) β}
    (hx : x.run.Neutral rank blocking held) (hk : ∀ a, (k a).run.Neutral rank blocking held) :
    (x >>= k).run.Neutral rank blocking held := by
  refine Neutral.bind hx fun r => ?_
  cases r with
  | ok a => exact hk a
  | error e => exact neutral_pure

/-- A lock that may be waited for. -/
theorem neutral_scope {l : L} {body : ExceptT ε (Locking L) α} (hl : ∀ l' ∈ held, rank l' < rank l)
    (hbody : body.run.Neutral rank blocking (insert l held)) :
    (scope l body).run.Neutral rank blocking held := by
  refine ⟨hl, ordered_bind.2 (hbody.mono ?_)⟩
  rintro r _ rfl
  have hmem : l ∉ held := fun hmem => lt_irrefl _ (hl l hmem)
  refine ⟨Set.mem_insert l held, ?_⟩
  change insert l held \ {l} = held
  ext l'
  grind

end

/-! ## Calls

A call may be left early, which releases what it holds. Where it goes on by what it finds, it may
do so in any way. -/

/-- A call, which may be left early. -/
abbrev Call (L : Type) := ExceptT Unit (Locking L)

namespace Call

/-- Something that is not modelled. -/
def either : Call L Bool := ExceptT.lift (any Bool)

/-- A part of a call that is run or skipped. -/
def maybe (body : Call L Unit) : Call L Unit := do if ← either then body

/-- A check, or anything else that may fail. -/
def mayFail : Call L Unit := maybe (throw ())

/-- Something is awaited, which may fail, or the call is dropped. -/
def awaiting : Call L Unit := do
  ExceptT.lift (.pause (pure ()))
  mayFail

/-- Repeats a part of a call. -/
def times (body : Call L Unit) : ℕ → Call L Unit
  | 0 => pure ()
  | n + 1 => do
    body
    times body n

/-- A loop over something of any length. -/
def forEach (body : Call L Unit) : Call L Unit := do
  let n ← ExceptT.lift (any ℕ)
  times body n

/-- Holds a lock while a part of the call runs, or fails if somebody else holds it. -/
def tryScope (l : L) (body : Call L α) : Call L α :=
  ExceptT.mk (.tryLock l fun
    | true => do
      let r ← body.run
      .unlock l (pure r)
    | false => pure (.error ()))

variable (rank : L → ℕ) (blocking : L → Prop)

/-- While it holds locks of ranks below `n`, the call waits only for others, in their order; and in
    the end it holds the same. -/
def Rising (n : ℕ) (call : Call L α) : Prop :=
  ∀ held : Set L, (∀ l ∈ held, rank l < n) → call.run.Neutral rank blocking held

variable {rank blocking} {n : ℕ} {call : Call L α}

theorem rising_pure {a : α} : Rising rank blocking n (pure a : Call L α) :=
  fun _ _ => neutral_pure

theorem rising_throw : Rising rank blocking n (throw () : Call L α) := fun _ _ => neutral_pure

theorem Rising.andThen {k : α → Call L β} (h : Rising rank blocking n call)
    (hk : ∀ a, Rising rank blocking n (k a)) : Rising rank blocking n (call >>= k) :=
  fun held hheld => (h held hheld).andThen fun a => hk a held hheld

theorem rising_any [Nonempty β] : Rising rank blocking n (ExceptT.lift (any β) : Call L β) :=
  fun _ _ => neutral_any.bind fun _ => neutral_pure

/-- A branch. -/
theorem rising_if {call call' : Call L α} (h : Rising rank blocking n call)
    (h' : Rising rank blocking n call') :
    Rising rank blocking n (do if ← either then call else call') := by
  refine rising_any.andThen fun b => ?_
  cases b with
  | true => exact h
  | false => exact h'

theorem rising_maybe {body : Call L Unit} (h : Rising rank blocking n body) :
    Rising rank blocking n (maybe body) :=
  rising_if h rising_pure

theorem rising_mayFail : Rising rank blocking n (mayFail : Call L Unit) :=
  rising_maybe rising_throw

/-- A failure that is handled. -/
theorem rising_tryCatch {handler : Unit → Call L α} (h : Rising rank blocking n call)
    (h' : Rising rank blocking n (handler ())) :
    Rising rank blocking n (tryCatch call handler) := by
  refine fun held hheld => (h held hheld).bind fun r => ?_
  cases r with
  | ok a => exact neutral_pure
  | error e => exact h' held hheld

/-- Something is awaited, with locks that do not block others. -/
theorem rising_awaiting (h : n = 0 ∨ ∀ l, ¬ blocking l) :
    Rising rank blocking n (awaiting : Call L Unit) := by
  refine fun held hheld => Neutral.andThen (Neutral.bind (neutral_pause fun l hl => ?_) fun _ =>
    neutral_pure) fun _ => rising_mayFail held hheld
  rcases h with rfl | h
  · exact absurd (hheld l hl) (Nat.not_lt_zero _)
  · exact h l

theorem rising_forEach {body : Call L Unit} (hbody : Rising rank blocking n body) :
    Rising rank blocking n (forEach body) := by
  refine rising_any.andThen fun m => ?_
  induction m with
  | zero => exact rising_pure
  | succ m ih => exact hbody.andThen fun _ => ih

/-- A lock that is waited for, and what is waited for while it is held. -/
theorem rising_scope {l : L} (hl : n ≤ rank l) (hbody : Rising rank blocking (rank l + 1) call) :
    Rising rank blocking n (scope l call) := by
  intro held hheld
  have hlt : ∀ l' ∈ held, rank l' < rank l := fun l' hl' => lt_of_lt_of_le (hheld l' hl') hl
  refine neutral_scope hlt (hbody _ ?_)
  rintro l' (rfl | hl')
  · exact Nat.lt_succ_self _
  · exact Nat.lt_succ_of_lt (hlt l' hl')

/-- The same, for a lock that is not waited for. -/
theorem rising_tryScope {l : L} (hl : n ≤ rank l)
    (hbody : Rising rank blocking (rank l + 1) call) :
    Rising rank blocking n (tryScope l call) :=
  fun held hheld => ⟨(rising_scope hl hbody held hheld).2, rfl⟩

end Call

/-! ## Interleavings -/

/-- The tasks started so far, and who holds the locks. -/
structure State (ι L : Type) where
  tasks : ι → Option (Locking L Unit)
  holder : L → Option ι

variable {ι : Type} [DecidableEq ι] [DecidableEq L]

/-- A step of the task `i`, if it does not have to wait. -/
inductive Step (i : ι) : Locking L Unit → (L → Option ι) → Locking L Unit → (L → Option ι) → Prop
  | lock {l : L} {k : Locking L Unit} {holder : L → Option ι} (h : holder l = none) :
      Step i (.lock l k) holder k (update holder l (some i))
  | take {l : L} {k : Bool → Locking L Unit} {holder : L → Option ι} (h : holder l = none) :
      Step i (.tryLock l k) holder (k true) (update holder l (some i))
  | leave {l : L} {k : Bool → Locking L Unit} {holder : L → Option ι} (h : holder l ≠ none) :
      Step i (.tryLock l k) holder (k false) holder
  | unlock {l : L} {k : Locking L Unit} {holder : L → Option ι} :
      Step i (.unlock l k) holder k (update holder l none)
  | pause {k : Locking L Unit} {holder : L → Option ι} : Step i (.pause k) holder k holder
  | choose {β : Type} {k : β → Locking L Unit} {holder : L → Option ι} (b : β) :
      Step i (.choose k) holder (k b) holder

/-- The interleavings of tasks. -/
def machine (entry : ι → Locking L Unit → Prop) : Machine (State ι L) (Label ι) where
  init s := (∀ i, s.tasks i = none) ∧ ∀ l, s.holder l = none
  step
    | s, .start i, s' => s.tasks i = none ∧ ∃ p, entry i p ∧
        s' = { s with tasks := update s.tasks i (some p) }
    | s, .run i, s' => ∃ p p' holder, s.tasks i = some p ∧ Step i p s.holder p' holder ∧
        s' = ⟨update s.tasks i (some p'), holder⟩
    | _, .env, _ => False

section

variable {entry : ι → Locking L Unit → Prop} {ls : List (Label ι)} {i : ι}
  {tasks : ι → Option (Locking L Unit)} {holder : L → Option ι} {p : Locking L Unit}

theorem run_start (h : (machine entry).Run ls ⟨tasks, holder⟩) (hi : tasks i = none)
    (hp : entry i p) :
    ∃ ls, (machine entry).Run ls ⟨update tasks i (some p), holder⟩ := by
  have hstep : (machine entry).step ⟨tasks, holder⟩ (.start i)
      ⟨update tasks i (some p), holder⟩ := ⟨hi, p, hp, rfl⟩
  exact ⟨_, h.snoc hstep⟩

theorem run_step {p' : Locking L Unit} {holder' : L → Option ι}
    (h : (machine entry).Run ls ⟨update tasks i (some p), holder⟩)
    (hs : Step i p holder p' holder') :
    ∃ ls, (machine entry).Run ls ⟨update tasks i (some p'), holder'⟩ := by
  have hstep : (machine entry).step ⟨update tasks i (some p), holder⟩ (.run i)
      ⟨update tasks i (some p'), holder'⟩ :=
    ⟨p, p', holder', update_self .., hs, by rw [update_idem]⟩
  exact ⟨_, h.snoc hstep⟩

end

namespace State

variable (s : State ι L)

/-- The locks a task holds. -/
def held (i : ι) : Set L := {l | s.holder l = some i}

/-- The task wants the lock. -/
def Waits (i : ι) (l : L) : Prop := ∃ k, s.tasks i = some (.lock l k)

/-- The task awaits something that is not a lock. -/
def Pauses (i : ι) : Prop := ∃ k, s.tasks i = some (.pause k)

/-- Some tasks wait for each other: each of them for a lock that another one of them holds. -/
def Deadlocked : Prop :=
  ∃ D : Set ι, D.Nonempty ∧ ∀ i ∈ D, ∃ l, s.Waits i l ∧ ∃ j ∈ D, s.holder l = some j

end State

/-! ## Runs of ordered tasks -/

variable {rank : L → ℕ} {blocking : L → Prop} {entry : ι → Locking L Unit → Prop}

/-- A task that holds nothing is ordered, and returns with nothing. -/
abbrev Balanced (rank : L → ℕ) (blocking : L → Prop) (p : Locking L α) (held : Set L) : Prop :=
  p.Ordered rank blocking (fun _ held => held = ∅) held

variable (rank blocking) in
/-- The tasks that run are ordered, and those that do not hold nothing. -/
structure Inv (s : State ι L) : Prop where
  idle : ∀ i, s.tasks i = none → s.held i = ∅
  running : ∀ i p, s.tasks i = some p → p.Balanced rank blocking (s.held i)

section

variable {s s' : State ι L} {i j : ι} {l : L} {p p' : Locking L Unit} {holder : L → Option ι}

theorem held_take (h : s.holder l = none) (tasks : ι → Option (Locking L Unit)) :
    State.held ⟨tasks, update s.holder l (some i)⟩ j =
      if j = i then insert l (s.held i) else s.held j := by
  ext l'
  by_cases hl : l' = l
  · subst hl
    split_ifs with hj
    · simp [State.held, hj]
    · have hne : ¬ i = j := fun h => hj h.symm
      simp [State.held, h, hne]
  · split_ifs with hj
    · simp [State.held, hl, hj]
    · simp [State.held, update_of_ne hl]

theorem held_release (h : s.holder l = some i) (tasks : ι → Option (Locking L Unit)) :
    State.held ⟨tasks, update s.holder l none⟩ j =
      if j = i then s.held i \ {l} else s.held j := by
  ext l'
  by_cases hl : l' = l
  · subst hl
    split_ifs with hj
    · simp [State.held]
    · have hne : ¬ i = j := fun h => hj h.symm
      simp [State.held, h, hne]
  · split_ifs with hj
    · simp [State.held, hl, hj]
    · simp [State.held, update_of_ne hl]

/-- A step of an ordered task: it remains ordered with the locks it then holds, and the others
    hold what they did. -/
theorem Step.ordered (h : Step i p s.holder p' holder) (tasks : ι → Option (Locking L Unit))
    (hp : p.Balanced rank blocking (s.held i)) :
    p'.Balanced rank blocking (State.held ⟨tasks, holder⟩ i) ∧
      ∀ j, j ≠ i → State.held ⟨tasks, holder⟩ j = s.held j := by
  generalize hholder : s.holder = holder₀ at h
  cases h with
  | lock hl =>
    subst hholder
    refine ⟨?_, fun j hj => by rw [held_take hl, if_neg hj]⟩
    rw [held_take hl, if_pos rfl]
    exact hp.2
  | take hl =>
    subst hholder
    refine ⟨?_, fun j hj => by rw [held_take hl, if_neg hj]⟩
    rw [held_take hl, if_pos rfl]
    exact hp.1
  | leave hl =>
    subst hholder
    exact ⟨hp.2, fun _ _ => rfl⟩
  | unlock =>
    subst hholder
    have hl : s.holder _ = some i := hp.1
    refine ⟨?_, fun j hj => by rw [held_release hl, if_neg hj]⟩
    rw [held_release hl, if_pos rfl]
    exact hp.2
  | pause =>
    subst hholder
    exact ⟨hp.2, fun _ _ => rfl⟩
  | choose b =>
    subst hholder
    exact ⟨hp.2 b, fun _ _ => rfl⟩

omit [DecidableEq L] in
/-- A task is replaced by one that is ordered. -/
theorem Inv.update (hi : Inv rank blocking s) (holder : L → Option ι)
    (hp : p.Balanced rank blocking (State.held ⟨update s.tasks i (some p), holder⟩ i))
    (hothers : ∀ j, j ≠ i →
      State.held ⟨update s.tasks i (some p), holder⟩ j = s.held j) :
    Inv rank blocking ⟨update s.tasks i (some p), holder⟩ := by
  refine ⟨fun j hj => ?_, fun j q hq => ?_⟩
  · dsimp only at hj
    by_cases hji : j = i
    · rw [hji, update_self] at hj
      nomatch hj
    · rw [update_of_ne hji] at hj
      rw [hothers j hji]
      exact hi.idle j hj
  · dsimp only at hq
    by_cases hji : j = i
    · subst hji
      rw [update_self] at hq
      obtain ⟨⟩ := hq
      exact hp
    · rw [update_of_ne hji] at hq
      rw [hothers j hji]
      exact hi.running j q hq

/-- If every task is ordered that may be started, then all tasks are at any time. -/
theorem inv_of_run {ls : List (Label ι)}
    (hentry : ∀ i p, entry i p → p.Balanced rank blocking ∅)
    (h : (machine entry).Run ls s) : Inv rank blocking s := by
  refine Machine.Run.invariant ?_ ?_ h
  · rintro s ⟨htasks, hholder⟩
    refine ⟨fun i _ => ?_, fun i p hp => absurd hp (by simp [htasks i])⟩
    ext l
    simp [State.held, hholder l]
  · intro s e s' hi hs
    cases e with
    | start i =>
      obtain ⟨hnone, p, hp, rfl⟩ := hs
      refine hi.update s.holder ?_ fun _ _ => rfl
      change p.Balanced rank blocking (s.held i)
      rw [hi.idle i hnone]
      exact hentry i p hp
    | run i =>
      obtain ⟨p, p', holder, hp, hstep, rfl⟩ := hs
      obtain ⟨hp', hothers⟩ := hstep.ordered (update s.tasks i (some p'))
        (hi.running i p hp)
      exact hi.update holder hp' hothers
    | env => exact hs.elim

omit [DecidableEq ι] [DecidableEq L] in
/-- What a task holds that waits for a lock. -/
theorem waits_rank (hi : Inv rank blocking s) (h : s.Waits i l) {l' : L} (hl' : s.holder l' = some i) :
    rank l' < rank l := by
  obtain ⟨k, hk⟩ := h
  exact (hi.running i _ hk).1 l' hl'

omit [DecidableEq ι] [DecidableEq L] in
/-- What a task holds that awaits something else. -/
theorem pauses_free (hi : Inv rank blocking s) (h : s.Pauses i) (hl : s.holder l = some i) :
    ¬ blocking l := by
  obtain ⟨k, hk⟩ := h
  exact (hi.running i _ hk).1 l hl

omit [DecidableEq ι] [DecidableEq L] in
/-- No tasks wait for each other: among the locks they wait for, there is one of the highest rank,
    and who holds it waits for none. -/
theorem not_deadlocked (hi : Inv rank blocking s) {n : ℕ} (hn : ∀ l, rank l < n) :
    ¬ s.Deadlocked := by
  rintro ⟨D, ⟨i, hiD⟩, hD⟩
  obtain ⟨l, hl, -⟩ := hD i hiD
  -- by induction on how far the rank is from the bound
  suffices h : ∀ m i l, i ∈ D → s.Waits i l → n - rank l ≤ m → False from
    h (n - rank l) i l hiD hl le_rfl
  intro m
  induction m with
  | zero =>
    intro i l _ _ hm
    have := hn l
    omega
  | succ m ih =>
    intro i l hiD hl hm
    obtain ⟨l₁, hl₁, j, hjD, hj⟩ := hD i hiD
    obtain rfl : l = l₁ := by
      obtain ⟨k, hk⟩ := hl
      obtain ⟨k₁, hk₁⟩ := hl₁
      have heq := Option.mem_unique hk hk₁
      exact (Locking.lock.inj heq).1
    obtain ⟨l₂, hl₂, -⟩ := hD j hjD
    have hrank := waits_rank hi hl₂ hj
    have := hn l₂
    exact ih j l₂ hjD hl₂ (by omega)

omit [DecidableEq ι] in
/-- While a task waits for a lock, there is one that can go on at once, if locks are not held while
    something else is awaited: the task itself, or one that holds a lock. -/
theorem waits_runs (hi : Inv rank blocking s) {n : ℕ} (hn : ∀ l, rank l < n)
    (hblocking : ∀ l, blocking l) (h : s.Waits i l) :
    ∃ j p p' holder, s.tasks j = some p ∧ ¬ s.Pauses j ∧ Step j p s.holder p' holder ∧
      (j = i ∨ ∃ l, s.holder l = some j) := by
  by_contra hnone
  -- otherwise the task and all those that hold a lock wait for each other
  refine not_deadlocked hi hn ⟨{j | j = i ∨ ∃ l, s.holder l = some j}, ⟨i, .inl rfl⟩, ?_⟩
  intro j hj
  have hwaits : ∀ p, s.tasks j = some p → (∀ l' k, p ≠ .lock l' k) → ∃ l', s.holder l' = some j := by
    intro p hp hlock
    rcases hj with rfl | hholds
    · obtain ⟨k, hk⟩ := h
      exact absurd (Option.mem_unique hp hk) (hlock l k)
    · exact hholds
  have hpauses : ¬ s.Pauses j := by
    rintro ⟨k, hk⟩
    obtain ⟨l', hl'⟩ := hwaits _ hk nofun
    exact pauses_free hi ⟨k, hk⟩ hl' (hblocking l')
  have hstuck : ∀ p p' holder, s.tasks j = some p → ¬ Step j p s.holder p' holder :=
    fun p p' holder hp hstep => hnone ⟨j, p, p', holder, hp, hpauses, hstep, hj⟩
  obtain ⟨p, hp⟩ : ∃ p, s.tasks j = some p := by
    rcases hj with rfl | ⟨l', hl'⟩
    · obtain ⟨k, hk⟩ := h
      exact ⟨_, hk⟩
    · refine Option.ne_none_iff_exists'.1 fun hidle => ?_
      have hmem : l' ∈ s.held j := hl'
      rw [hi.idle j hidle] at hmem
      exact hmem
  have hordered := hi.running j p hp
  cases p with
  | ret a =>
    obtain ⟨l', hl'⟩ := hwaits _ hp nofun
    have hmem : l' ∈ s.held j := hl'
    rw [show s.held j = ∅ from hordered] at hmem
    exact absurd hmem (Set.notMem_empty l')
  | lock l' k =>
    cases hl' : s.holder l' with
    | none => exact absurd (.lock hl') (hstuck _ _ _ hp)
    | some j' => exact ⟨l', ⟨k, hp⟩, j', .inr ⟨l', hl'⟩, hl'⟩
  | tryLock l' k =>
    cases hl' : s.holder l' with
    | none => exact absurd (.take hl') (hstuck _ _ _ hp)
    | some j' => exact absurd (.leave (by simp [hl'])) (hstuck _ _ _ hp)
  | unlock l' k => exact absurd .unlock (hstuck _ _ _ hp)
  | pause k => exact absurd ⟨k, hp⟩ hpauses
  | choose k =>
    obtain ⟨⟨b⟩, -⟩ := hordered
    exact absurd (.choose b) (hstuck _ _ _ hp)

end

end Locking

end Concurrency
