import NexusOps.Concurrency.Zoom

/-!
# Traces of a task

What a task does on its own account: the sections it runs, each with the state it finds and the
state it leaves (`Proc.Trace`). Between two of them the state may have been changed by others in
any way, so a trace is what is seen of the task in some interleaving with some other tasks.

A trace that is complete ends with a result (`Proc.Returns`). Complete traces are taken apart
along the program: the rules are equivalences, one for each way to build a task. A task that
was left alone has a trace in which each section finds what the one before has left
(`Alone.returns`).
-/

namespace Concurrency

variable {σ ε α β : Type}

namespace Proc

/-- The sections that a task runs, from `p` on to what is left of it. -/
inductive Trace : Proc σ α → List (σ × σ) → Proc σ α → Prop
  | nil {p : Proc σ α} : Trace p [] p
  | act {β : Type} {f : σ → Option (β × σ)} {k : β → Proc σ α} {s : σ} {b : β} {s' : σ}
      {ts : List (σ × σ)} {q : Proc σ α} (hf : f s = some (b, s')) (h : Trace (k b) ts q) :
      Trace (.atomic f k) ((s, s') :: ts) q
  | answer {β : Type} {k : β → Proc σ α} {ts : List (σ × σ)} {q : Proc σ α} (b : β)
      (h : Trace (k b) ts q) : Trace (.await k) ts q

/-- The sections that a task runs until it returns. -/
def Returns (p : Proc σ α) (ts : List (σ × σ)) (a : α) : Prop := Trace p ts (.ret a)

variable {p q : Proc σ α} {ts ts' : List (σ × σ)} {a : α} {b : β} {s s' : σ}

theorem trace_ret : Trace (.ret a) ts q ↔ ts = [] ∧ q = .ret a := by
  constructor
  · intro h
    cases h
    exact ⟨rfl, rfl⟩
  · rintro ⟨rfl, rfl⟩
    exact .nil

theorem trace_atomic {f : σ → Option (β × σ)} {k : β → Proc σ α} :
    Trace (.atomic f k) ts q ↔ ts = [] ∧ q = .atomic f k ∨
      ∃ s b s' ts', f s = some (b, s') ∧ ts = (s, s') :: ts' ∧ Trace (k b) ts' q := by
  constructor
  · intro h
    cases h with
    | nil => exact .inl ⟨rfl, rfl⟩
    | act hf h => exact .inr ⟨_, _, _, _, hf, rfl, h⟩
  · rintro (⟨rfl, rfl⟩ | ⟨s, b, s', ts', hf, rfl, h⟩)
    · exact .nil
    · exact .act hf h

theorem trace_await {k : β → Proc σ α} :
    Trace (.await k) ts q ↔ ts = [] ∧ q = .await k ∨ ∃ b, Trace (k b) ts q := by
  constructor
  · intro h
    cases h with
    | nil => exact .inl ⟨rfl, rfl⟩
    | answer b h => exact .inr ⟨b, h⟩
  · rintro (⟨rfl, rfl⟩ | ⟨b, h⟩)
    · exact .nil
    · exact .answer b h

theorem Trace.append (h : Trace p ts q) {r : Proc σ α} (h' : Trace q ts' r) :
    Trace p (ts ++ ts') r := by
  induction h with
  | nil => exact h'
  | act hf _ ih => exact .act hf (ih h')
  | answer b _ ih => exact .answer b (ih h')

theorem Trace.bind (h : Trace p ts q) (k : α → Proc σ β) : Trace (p >>= k) ts (q >>= k) := by
  induction h with
  | nil => exact .nil
  | act hf _ ih => exact .act hf ih
  | answer b _ ih => exact .answer b ih

/-- A task continued by another is still in its first part, or has returned from it. -/
theorem trace_bind {k : α → Proc σ β} {q : Proc σ β} : Trace (p >>= k) ts q ↔
    (∃ p', Trace p ts p' ∧ q = p' >>= k) ∨
      ∃ a ts₁ ts₂, ts = ts₁ ++ ts₂ ∧ Returns p ts₁ a ∧ Trace (k a) ts₂ q := by
  constructor
  · intro h
    induction p generalizing ts with
    | ret a => exact .inr ⟨a, [], ts, rfl, .nil, h⟩
    | atomic f k' ih =>
      rcases trace_atomic.1 h with ⟨rfl, rfl⟩ | ⟨s, b, s', ts, hf, rfl, hk⟩
      · exact .inl ⟨_, .nil, rfl⟩
      · rcases ih b hk with ⟨p', hp', rfl⟩ | ⟨a, ts₁, ts₂, rfl, h₁, h₂⟩
        · exact .inl ⟨p', .act hf hp', rfl⟩
        · exact .inr ⟨a, _ :: ts₁, ts₂, rfl, .act hf h₁, h₂⟩
    | await k' ih =>
      rcases trace_await.1 h with ⟨rfl, rfl⟩ | ⟨b, hk⟩
      · exact .inl ⟨_, .nil, rfl⟩
      · rcases ih b hk with ⟨p', hp', rfl⟩ | ⟨a, ts₁, ts₂, rfl, h₁, h₂⟩
        · exact .inl ⟨p', .answer b hp', rfl⟩
        · exact .inr ⟨a, ts₁, ts₂, rfl, .answer b h₁, h₂⟩
  · rintro (⟨p', h, rfl⟩ | ⟨a, ts₁, ts₂, rfl, h₁, h₂⟩)
    · exact h.bind k
    · exact (h₁.bind k).append h₂

/-! ## Complete traces -/

theorem returns_pure {a' : α} : Returns (pure a : Proc σ α) ts a' ↔ ts = [] ∧ a' = a := by
  rw [Returns]
  refine trace_ret.trans (and_congr_right fun _ => ?_)
  rw [ret.injEq]

theorem returns_bind {k : α → Proc σ β} : Returns (p >>= k) ts b ↔
    ∃ a ts₁ ts₂, ts = ts₁ ++ ts₂ ∧ Returns p ts₁ a ∧ Returns (k a) ts₂ b := by
  refine trace_bind.trans ⟨fun h => ?_, .inr⟩
  rcases h with ⟨p', h, hret⟩ | h
  · -- The first part has returned as well.
    cases p' with
    | ret a =>
      have hret : k a = ret b := hret.symm
      refine ⟨a, ts, [], (List.append_nil ts).symm, h, ?_⟩
      rw [hret]
      exact .nil
    | atomic f k' => nomatch hret
    | await k' => nomatch hret
  · exact h

theorem returns_act {f : σ → Option (β × σ)} :
    Returns (.act f) ts b ↔ ∃ s s', ts = [(s, s')] ∧ f s = some (b, s') := by
  constructor
  · intro h
    rcases trace_atomic.1 h with ⟨-, hret⟩ | ⟨s, b', s', ts, hf, rfl, hk⟩
    · nomatch hret
    · obtain ⟨rfl, hret⟩ := trace_ret.1 hk
      rw [ret.injEq] at hret
      exact ⟨s, s', rfl, hret ▸ hf⟩
  · rintro ⟨s, s', rfl, hf⟩
    exact .act hf .nil

theorem returns_ask : Returns (.ask β) ts b ↔ ts = [] := by
  constructor
  · intro h
    rcases trace_await.1 h with ⟨rfl, -⟩ | ⟨b', h⟩
    · rfl
    · exact (trace_ret.1 h).1
  · rintro rfl
    exact .answer b .nil

theorem returns_modify {f : σ → σ} {u : Unit} :
    Returns (.modify f) ts u ↔ ∃ s, ts = [(s, f s)] := by
  refine returns_act.trans ⟨?_, ?_⟩
  · rintro ⟨s, s', rfl, hf⟩
    exact ⟨s, by rw [(Proc.result_inj hf).2]⟩
  · rintro ⟨s, rfl⟩
    exact ⟨s, f s, rfl, rfl⟩

/-- The sections of a trace keep to a protocol that the task obeys, whatever others do. -/
theorem Trace.obeys {ι : Type} {S : System ι σ} {P : Protocol S} {i : ι} (hinv : ∀ s, P.inv s)
    (henv : ∀ s s', S.env s s') (h : Trace p ts q) (hp : P.Obeys i p) :
    ∀ x ∈ ts, P.guarantee i x.1 x.2 := by
  induction h with
  | nil => exact fun x hx => absurd hx List.not_mem_nil
  | @act _ f k s b s' _ _ hf _ ih =>
    obtain ⟨-, hg, hk⟩ := hp s s .refl (hinv s) b s' hf
    intro x hx
    rcases List.mem_cons.1 hx with rfl | hx
    · exact hg
    · refine ih (fun s'' => ?_) x hx
      exact Protocol.Safe.interfere (fun _ _ _ _ _ => trivial) hk
        ⟨hinv s', hinv s'', .inl (henv s' s'')⟩
  | answer b _ ih => exact ih fun s => hp s b

/-- Each section of a trace is among those of the task. -/
theorem Trace.within {R : σ → σ → Prop} (h : Trace p ts q) (hp : Within R p) :
    ∀ x ∈ ts, R x.1 x.2 :=
  h.obeys (fun _ => trivial) (fun _ _ => trivial) hp

/-! ## Tasks that are left alone -/

/-- Each section finds what the one before it has left. -/
def Linked : σ → List (σ × σ) → σ → Prop
  | s, [], s' => s' = s
  | s, x :: ts, s' => x.1 = s ∧ Linked x.2 ts s'

theorem linked_append (ts : List (σ × σ)) :
    Linked s (ts ++ ts') s' ↔ ∃ s₁, Linked s ts s₁ ∧ Linked s₁ ts' s' := by
  induction ts generalizing s with
  | nil =>
    constructor
    · exact fun h => ⟨s, rfl, h⟩
    · rintro ⟨s₁, rfl, h⟩
      exact h
  | cons x ts ih =>
    constructor
    · rintro ⟨hx, h⟩
      obtain ⟨s₁, h₁, h₂⟩ := ih.1 h
      exact ⟨s₁, ⟨hx, h₁⟩, h₂⟩
    · rintro ⟨s₁, ⟨hx, h₁⟩, h₂⟩
      exact ⟨hx, ih.2 ⟨s₁, h₁, h₂⟩⟩

/-- The trace of a task that is left alone. -/
theorem alone_iff : Alone p s q s' ↔ ∃ ts, Trace p ts q ∧ Linked s ts s' := by
  constructor
  · intro h
    induction h with
    | refl => exact ⟨[], .nil, rfl⟩
    | act hf _ ih =>
      obtain ⟨ts, h, hlinked⟩ := ih
      exact ⟨_ :: ts, .act hf h, rfl, hlinked⟩
    | answer b _ ih =>
      obtain ⟨ts, h, hlinked⟩ := ih
      exact ⟨ts, .answer b h, hlinked⟩
  · rintro ⟨ts, h, hlinked⟩
    induction h generalizing s with
    | nil =>
      obtain rfl : s' = s := hlinked
      exact .refl
    | act hf _ ih =>
      obtain ⟨rfl, hlinked⟩ := hlinked
      exact .act hf (ih hlinked)
    | answer b _ ih => exact .answer b (ih hlinked)

end Proc

/-! ## Tasks that may fail -/

namespace Fallible

open Proc

variable {x : Fallible σ ε α} {ts : List (σ × σ)} {r : Except ε β} {a : α} {release : Proc σ Unit}

theorem returns_pure' {r : Except ε α} :
    Returns (pure a : Fallible σ ε α).run ts r ↔ ts = [] ∧ r = .ok a := returns_pure

theorem returns_throw {e : ε} :
    Returns (throw e : Fallible σ ε β).run ts r ↔ ts = [] ∧ r = .error e := returns_pure

/-- The first part has failed, or the second one has followed it. -/
theorem returns_andThen {k : α → Fallible σ ε β} : Returns (x >>= k).run ts r ↔
    (∃ e, r = .error e ∧ Returns x.run ts (.error e)) ∨
      ∃ a ts₁ ts₂, ts = ts₁ ++ ts₂ ∧ Returns x.run ts₁ (.ok a) ∧ Returns (k a).run ts₂ r := by
  refine returns_bind.trans ⟨?_, ?_⟩
  · rintro ⟨r', ts₁, ts₂, rfl, h₁, h₂⟩
    cases r' with
    | ok a => exact .inr ⟨a, ts₁, ts₂, rfl, h₁, h₂⟩
    | error e =>
      obtain ⟨rfl, rfl⟩ := returns_throw.1 h₂
      exact .inl ⟨e, rfl, by rwa [List.append_nil]⟩
  · rintro (⟨e, rfl, h⟩ | ⟨a, ts₁, ts₂, rfl, h₁, h₂⟩)
    · exact ⟨.error e, ts, [], (List.append_nil ts).symm, h, returns_throw.2 ⟨rfl, rfl⟩⟩
    · exact ⟨.ok a, ts₁, ts₂, rfl, h₁, h₂⟩

/-- If it succeeds, then both parts have. -/
theorem returns_andThen_ok {k : α → Fallible σ ε β} {b : β} : Returns (x >>= k).run ts (.ok b) ↔
    ∃ a ts₁ ts₂, ts = ts₁ ++ ts₂ ∧ Returns x.run ts₁ (.ok a) ∧ Returns (k a).run ts₂ (.ok b) :=
  returns_andThen.trans (or_iff_right fun ⟨_, he, _⟩ => nomatch he)

theorem returns_lift {p : Proc σ α} {r : Except ε α} :
    Returns (lift p : Fallible σ ε α).run ts r ↔ ∃ a, r = .ok a ∧ Returns p ts a := by
  refine returns_bind.trans ⟨?_, ?_⟩
  · rintro ⟨a, ts₁, ts₂, rfl, h₁, h₂⟩
    obtain ⟨rfl, rfl⟩ := returns_pure.1 h₂
    exact ⟨a, rfl, by rwa [List.append_nil]⟩
  · rintro ⟨a, rfl, h⟩
    exact ⟨a, ts, [], (List.append_nil ts).symm, h, returns_pure.2 ⟨rfl, rfl⟩⟩

theorem returns_act' {f : σ → Option (Except ε β × σ)} :
    Returns (act f).run ts r ↔ ∃ s s', ts = [(s, s')] ∧ f s = some (r, s') := returns_act

theorem returns_ask' : Returns (ask β : Fallible σ ε β).run ts r ↔ ts = [] ∧ ∃ b, r = .ok b := by
  refine returns_lift.trans ⟨?_, ?_⟩
  · rintro ⟨b, rfl, h⟩
    exact ⟨returns_ask.1 h, b, rfl⟩
  · rintro ⟨rfl, b, rfl⟩
    exact ⟨b, rfl, returns_ask.2 rfl⟩

/-- Any answer can be the one that is awaited. -/
theorem returns_ask_andThen {γ : Type} {k : γ → Fallible σ ε β} :
    Returns (ask γ >>= k).run ts r ↔ ∃ c, Returns (k c).run ts r := by
  refine returns_andThen.trans ⟨?_, ?_⟩
  · rintro (⟨e, -, h⟩ | ⟨c, ts₁, ts₂, rfl, h₁, h₂⟩)
    · nomatch (returns_ask'.1 h).2
    · obtain ⟨rfl, -⟩ := returns_ask'.1 h₁
      exact ⟨c, h₂⟩
  · rintro ⟨c, h⟩
    exact .inr ⟨c, [], ts, rfl, returns_ask'.2 ⟨rfl, c, rfl⟩, h⟩

theorem returns_ensure {p : Prop} [Decidable p] {e : ε} {r : Except ε Unit} :
    Returns (ensure p e : Fallible σ ε Unit).run ts r ↔
      ts = [] ∧ r = if p then .ok () else .error e := by
  rw [ensure]
  split_ifs
  · exact returns_pure
  · exact returns_throw

theorem returns_ensure_ok {p : Prop} [Decidable p] {e : ε} {u : Unit} :
    Returns (ensure p e : Fallible σ ε Unit).run ts (.ok u) ↔ ts = [] ∧ p := by
  refine returns_ensure.trans (and_congr_right fun _ => ?_)
  split_ifs with hp
  · exact iff_of_true rfl hp
  · exact iff_of_false nofun hp

theorem of_returns_ensureThen {p : Prop} [Decidable p] {e : ε} {k : Unit → Fallible σ ε β} {b : β}
    (h : Returns (ensure p e >>= k).run ts (.ok b)) : p ∧ Returns (k ()).run ts (.ok b) := by
  obtain ⟨_, ts₁, ts₂, rfl, h₁, h₂⟩ := returns_andThen_ok.1 h
  obtain ⟨rfl, hp⟩ := returns_ensure_ok.1 h₁
  exact ⟨hp, h₂⟩

theorem returns_always {r : Except ε α} : Returns (always x release).run ts r ↔
    ∃ ts₁ ts₂, ts = ts₁ ++ ts₂ ∧ Returns x.run ts₁ r ∧ Returns release ts₂ () := by
  refine returns_bind.trans ⟨?_, ?_⟩
  · rintro ⟨r', ts₁, ts₂, rfl, h₁, h₂⟩
    obtain ⟨_, ts₃, ts₄, rfl, h₃, h₄⟩ := returns_bind.1 h₂
    obtain ⟨rfl, rfl⟩ := returns_pure.1 h₄
    exact ⟨ts₁, ts₃, by rw [List.append_nil], h₁, h₃⟩
  · rintro ⟨ts₁, ts₂, rfl, h₁, h₂⟩
    refine ⟨r, ts₁, ts₂, rfl, h₁, returns_bind.2 ⟨(), ts₂, [], (List.append_nil ts₂).symm, h₂, ?_⟩⟩
    exact returns_pure.2 ⟨rfl, rfl⟩

/-- A loop that has returned: what holds before each round holds before the last one. -/
theorem of_returns_loop {body : α → Fallible σ ε (α ⊕ β)} {b : β}
    (I : α → List (σ × σ) → Prop) (hstart : I a [])
    (hnext : ∀ a a' ts ts', I a ts → Returns (body a).run ts' (.ok (.inl a')) → I a' (ts ++ ts'))
    (h : Returns (loop body a).run ts (.ok b)) :
    ∃ a' ts₁ ts₂, ts = ts₁ ++ ts₂ ∧ I a' ts₁ ∧ Returns (body a').run ts₂ (.ok (.inr b)) := by
  obtain ⟨n, h⟩ := returns_ask_andThen.1 h
  have hrounds : ∀ {a pre ts}, I a pre → Returns (iterate body n a).run ts (.ok b) →
      ∃ a' ts₁ ts₂, ts = ts₁ ++ ts₂ ∧ I a' (pre ++ ts₁) ∧
        Returns (body a').run ts₂ (.ok (.inr b)) := by
    clear h hstart
    induction n with
    | zero =>
      intro a pre ts _ h
      obtain ⟨s, s', -, hf⟩ := returns_act'.1 h
      nomatch hf
    | succ n ih =>
      intro a pre ts hI h
      obtain ⟨r, ts₁, ts₂, rfl, h₁, h₂⟩ := returns_andThen_ok.1 h
      cases r with
      | inl a' =>
        obtain ⟨a'', ts₃, ts₄, rfl, hI', h₄⟩ := ih (hnext a a' pre ts₁ hI h₁) h₂
        exact ⟨a'', ts₁ ++ ts₃, ts₄, by simp, by rwa [← List.append_assoc], h₄⟩
      | inr b' =>
        obtain ⟨rfl, hb⟩ := returns_pure'.1 h₂
        obtain ⟨⟩ := hb
        exact ⟨a, [], ts₁, by simp, by rwa [List.append_nil], h₁⟩
  exact hrounds hstart h

end Fallible

/-! ## Tasks that may be dropped -/

namespace Async

open Proc Fallible

variable {x : Async σ ε α} {ts : List (σ × σ)}

/-- What a handler sees. -/
theorem returns_attempt {r : Except (Exit ε) (Except ε α)} : Returns (attempt x).run ts r ↔
    ∃ r', Returns x.run ts r' ∧ r = match r' with
      | .ok a => .ok (.ok a)
      | .error (.error e) => .ok (.error e)
      | .error .dropped => .error .dropped := by
  refine returns_bind.trans ⟨?_, ?_⟩
  · rintro ⟨r', ts₁, ts₂, rfl, h₁, h₂⟩
    refine ⟨r', ?_⟩
    rcases r' with (e | _) | a
    all_goals
      obtain ⟨rfl, rfl⟩ := returns_pure.1 h₂
      exact ⟨by rwa [List.append_nil], rfl⟩
  · rintro ⟨r', h, rfl⟩
    refine ⟨r', ts, [], (List.append_nil ts).symm, h, ?_⟩
    rcases r' with (e | _) | a
    all_goals exact returns_pure.2 ⟨rfl, rfl⟩

theorem returns_attempt_ok {a : α} :
    Returns (attempt x).run ts (.ok (.ok a)) ↔ Returns x.run ts (.ok a) := by
  refine returns_attempt.trans ⟨?_, fun h => ⟨_, h, rfl⟩⟩
  rintro ⟨(e | _) | a', h, heq⟩
  · nomatch Except.ok.inj heq
  · nomatch heq
  · rwa [Except.ok.inj (Except.ok.inj heq)]

theorem returns_ofExcept {r : Except ε α} {r' : Except (Exit ε) α} :
    Returns (ofExcept r : Async σ ε α).run ts r' ↔ ts = [] ∧ r' = r.mapError .error := by
  cases r with
  | ok a => exact returns_pure
  | error e => exact returns_throw

theorem returns_ofExcept_ok {r : Except ε α} {a : α} :
    Returns (ofExcept r : Async σ ε α).run ts (.ok a) ↔ ts = [] ∧ r = .ok a := by
  refine returns_ofExcept.trans (and_congr_right fun _ => ?_)
  cases r with
  | ok a' => exact eq_comm.trans (by simp [Except.mapError])
  | error e => simp [Except.mapError]

theorem of_returns_ofExceptThen {r : Except ε α} {k : α → Async σ ε β} {b : β}
    (h : Returns (ofExcept r >>= k).run ts (.ok b)) :
    ∃ a, r = .ok a ∧ Returns (k a).run ts (.ok b) := by
  obtain ⟨a, ts₁, ts₂, rfl, h₁, h₂⟩ := returns_andThen_ok.1 h
  obtain ⟨rfl, hr⟩ := returns_ofExcept_ok.1 h₁
  exact ⟨a, hr, h₂⟩

/-! ### What can happen -/

/-- The task can succeed with the result, if it gets the right answers. -/
def Can (x : Async σ ε α) (a : α) : Prop := ∃ ts, Returns x.run ts (.ok a)

section

variable {a : α} {b : β}

theorem can_pure : Can (pure a : Async σ ε α) a := ⟨[], returns_pure'.2 ⟨rfl, rfl⟩⟩

theorem Can.bind {k : α → Async σ ε β} (hx : Can x a) (hk : Can (k a) b) : Can (x >>= k) b := by
  obtain ⟨ts, hx⟩ := hx
  obtain ⟨ts', hk⟩ := hk
  exact ⟨ts ++ ts', returns_andThen_ok.2 ⟨a, ts, ts', rfl, hx, hk⟩⟩

theorem can_act {f : σ → Option (Except (Exit ε) α × σ)} {s s' : σ}
    (h : f s = some (.ok a, s')) : Can (Fallible.act f) a :=
  ⟨_, returns_act'.2 ⟨s, s', rfl, h⟩⟩

theorem can_modify (s : σ) {f : σ → σ} : Can (Fallible.lift (.modify f) : Async σ ε Unit) () :=
  ⟨_, returns_lift.2 ⟨(), rfl, returns_modify.2 ⟨s, rfl⟩⟩⟩

theorem can_ask (b : β) : Can (Fallible.ask β : Async σ ε β) b :=
  ⟨[], returns_ask'.2 ⟨rfl, b, rfl⟩⟩

theorem can_ensure {p : Prop} [Decidable p] {e : ε} (hp : p) :
    Can (.ensure p e : Async σ ε Unit) () :=
  ⟨[], returns_ensure_ok.2 ⟨rfl, hp⟩⟩

theorem can_ofExcept {r : Except ε α} (h : r = .ok a) : Can (.ofExcept r : Async σ ε α) a :=
  ⟨[], returns_ofExcept_ok.2 ⟨rfl, h⟩⟩

theorem Can.attempt (hx : Can x a) : Can (Async.attempt x) (.ok a) := by
  obtain ⟨ts, hx⟩ := hx
  exact ⟨ts, returns_attempt_ok.2 hx⟩

theorem Can.always {release : Proc σ Unit} (hx : Can x a) (hrelease : ∃ ts, Returns release ts ()) :
    Can (Fallible.always x release) a := by
  obtain ⟨ts, hx⟩ := hx
  obtain ⟨ts', hrelease⟩ := hrelease
  exact ⟨ts ++ ts', returns_always.2 ⟨ts, ts', rfl, hx, hrelease⟩⟩

end

end Async

end Concurrency
