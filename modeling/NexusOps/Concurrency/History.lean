import NexusOps.Concurrency.Machine
import Mathlib.Data.List.Basic

/-!
# Logs of events

A system that logs what its tasks do can be asked about the order of events. An
event may have to be *justified* by those before it; it is enough to check this
as it is logged (`justified_snoc`). A task knows its own events, its *trace*:
they are not affected by what others log.

Some events have to be *followed* by another (`Followed`), as a request by its answer.

What is seen in the state an event is logged in can be recovered from the log: that
state is one the run has passed through (`Machine.Run.logged`).
-/

namespace Concurrency

variable {ε ι : Type}

/-- Every event of the log is justified, in the sense of `J`, by the log before it. -/
def Justified (J : List ε → ε → Prop) (log : List ε) : Prop :=
  ∀ pre e post, log = pre ++ e :: post → J pre e

theorem justified_nil {J : List ε → ε → Prop} : Justified J [] :=
  fun pre e post h => absurd h.symm (by simp)

/-- A log is justified up to its last event, and that event is. -/
theorem justified_snoc {J : List ε → ε → Prop} {log : List ε} {e : ε} :
    Justified J (log ++ [e]) ↔ Justified J log ∧ J log e := by
  refine ⟨fun h => ⟨fun pre e' post hlog => ?_, h log e [] rfl⟩, fun ⟨h, he⟩ pre e' post hlog => ?_⟩
  · exact h pre e' (post ++ [e]) (by rw [hlog]; simp)
  · rcases List.eq_nil_or_concat post with rfl | ⟨post, e'', rfl⟩
    · obtain ⟨rfl, rfl⟩ : log = pre ∧ e = e' := by simpa using hlog
      exact he
    · refine h pre e' post ?_
      have : log ++ [e] = (pre ++ e' :: post) ++ [e''] := by simpa using hlog
      exact (List.append_inj' this rfl).1

/-- Events that are justified by any log. -/
theorem Justified.append {J : List ε → ε → Prop} {log es : List ε} (h : Justified J log)
    (hes : ∀ e ∈ es, ∀ pre, J pre e) : Justified J (log ++ es) := by
  induction es generalizing log with
  | nil => rwa [List.append_nil]
  | cons e es ih =>
    rw [List.append_cons]
    refine ih (justified_snoc.2 ⟨h, hes e List.mem_cons_self log⟩) fun e' he' => ?_
    exact hes e' (List.mem_cons_of_mem _ he')

/-- An event that follows another is justified by a log with that one. -/
theorem Justified.of_sublist {J : List ε → ε → Prop} {log : List ε} {e e' : ε}
    (h : Justified J log) (hs : [e, e'].Sublist log) : ∃ pre, e ∈ pre ∧ J pre e' := by
  obtain ⟨r₁, r₂, rfl, he, hs⟩ := List.cons_sublist_iff.1 hs
  obtain ⟨p, q, rfl⟩ := List.append_of_mem (List.singleton_sublist.1 hs)
  exact ⟨r₁ ++ p, List.mem_append_left _ he, h _ e' q (by simp)⟩

/-- Every event of the log that satisfies `R` is followed by one that is related to it
    by `S`. -/
def Followed (R : ε → Prop) (S : ε → ε → Prop) (log : List ε) : Prop :=
  ∀ pre e post, log = pre ++ e :: post → R e → ∃ e' ∈ post, S e e'

section

variable {R : ε → Prop} {S : ε → ε → Prop} {log es : List ε} {e : ε}

theorem followed_nil : Followed R S ([] : List ε) := fun pre e post h => absurd h.symm (by simp)

theorem followed_cons :
    Followed R S (e :: log) ↔ (R e → ∃ e' ∈ log, S e e') ∧ Followed R S log := by
  refine ⟨fun h => ⟨h [] e log rfl, fun pre e' post hlog => ?_⟩, fun ⟨he, h⟩ pre e' post hlog => ?_⟩
  · exact h (e :: pre) e' post (by rw [hlog]; rfl)
  · rcases List.cons_eq_append_iff.1 hlog with ⟨rfl, hlog⟩ | ⟨pre, rfl, rfl⟩
    · obtain ⟨rfl, rfl⟩ := List.cons.inj hlog
      exact he
    · exact h pre e' post rfl

/-- Two logs, one after the other. -/
theorem Followed.append (h : Followed R S log) (h' : Followed R S es) : Followed R S (log ++ es) := by
  induction log with
  | nil => exact h'
  | cons e log ih =>
    rw [followed_cons] at h
    refine followed_cons.2 ⟨fun he => ?_, ih h.2⟩
    obtain ⟨e', hmem, hS⟩ := h.1 he
    exact ⟨e', List.mem_append_left _ hmem, hS⟩

/-- Events that need not be followed by another. -/
theorem followed_of_not (h : ∀ e ∈ log, ¬R e) : Followed R S log := by
  intro pre e post hlog he
  exact absurd he (h e (by simp [hlog]))

/-- An event that all that need one are waiting for. -/
theorem Followed.snoc_of_forall (hS : ∀ e' ∈ log, R e' → S e' e) (he : ¬R e) :
    Followed R S (log ++ [e]) := by
  induction log with
  | nil => exact followed_of_not (by simpa using he)
  | cons e' log ih =>
    refine followed_cons.2 ⟨fun h => ⟨e, by simp, hS e' List.mem_cons_self h⟩, ih fun e'' h => ?_⟩
    exact hS e'' (List.mem_cons_of_mem _ h)

/-- It is enough to look at some of the events, if all that need to be followed by another
    are among them. -/
theorem Followed.of_filter {p : ε → Bool} (h : Followed R S (log.filter p))
    (hp : ∀ e ∈ log, R e → p e = true) : Followed R S log := by
  induction log with
  | nil => exact followed_nil
  | cons e log ih =>
    have hp' : ∀ e ∈ log, R e → p e = true := fun e he => hp e (List.mem_cons_of_mem _ he)
    by_cases he : p e = true
    · rw [List.filter_cons_of_pos he, followed_cons] at h
      refine followed_cons.2 ⟨fun hR => ?_, ih h.2 hp'⟩
      obtain ⟨e', hmem, hS⟩ := h.1 hR
      exact ⟨e', (List.mem_filter.1 hmem).1, hS⟩
    · rw [List.filter_cons_of_neg he] at h
      exact followed_cons.2 ⟨fun hR => absurd (hp e List.mem_cons_self hR) he, ih h hp'⟩

end

/-- If every step logs at most one event, and only one that `G` allows in the state it is
    taken from, then every event of the log was allowed in the state the run was in when
    the log was up to there. -/
theorem Machine.Run.logged {σ L : Type*} {m : Machine σ L} {ls : List L} {s : σ} (h : m.Run ls s)
    (log : σ → List ε) (G : σ → ε → Prop) (hinit : ∀ s, m.init s → log s = [])
    (hstep : ∀ ls s l s', m.Run ls s → m.step s l s' → log s' = log s ∨
      ∃ e, log s' = log s ++ [e] ∧ G s e) {pre post : List ε} {e : ε}
    (hlog : log s = pre ++ e :: post) :
    ∃ ls₁ ls₂ s₁, ls = ls₁ ++ ls₂ ∧ m.Run ls₁ s₁ ∧ log s₁ = pre ∧ G s₁ e := by
  induction h using Machine.Run.induction generalizing post with
  | init s hs =>
    rw [hinit s hs] at hlog
    exact absurd hlog.symm (by simp)
  | snoc ls s l s' hr hs ih =>
    have hold : ∀ {post}, log s = pre ++ e :: post →
        ∃ ls₁ ls₂ s₁, ls ++ [l] = ls₁ ++ ls₂ ∧ m.Run ls₁ s₁ ∧ log s₁ = pre ∧ G s₁ e := by
      intro post hlog
      obtain ⟨ls₁, ls₂, s₁, rfl, h⟩ := ih hlog
      exact ⟨ls₁, ls₂ ++ [l], s₁, List.append_assoc .., h⟩
    rcases hstep ls s l s' hr hs with h | ⟨e', h, hG⟩
    · exact hold (h ▸ hlog)
    · rw [h] at hlog
      rcases List.eq_nil_or_concat post with rfl | ⟨post, e'', rfl⟩
      · -- The event is the one that has just been logged.
        obtain ⟨rfl, rfl⟩ : log s = pre ∧ e' = e := by simpa using hlog
        exact ⟨ls, [l], s, rfl, hr, rfl, hG⟩
      · have hlog : log s ++ [e'] = (pre ++ e :: post) ++ [e''] := by simpa using hlog
        exact hold (List.append_inj' hlog rfl).1

variable [DecidableEq ι]

/-- The events of a log that are due to `i`. -/
def trace (who : ε → ι) (i : ι) (log : List ε) : List ε := log.filter fun e => who e = i

variable {who : ε → ι} {i : ι} {log es : List ε} {e : ε}

theorem mem_trace : e ∈ trace who i log ↔ e ∈ log ∧ who e = i := by
  simp [trace]

theorem trace_sublist (who : ε → ι) (i : ι) (log : List ε) : (trace who i log).Sublist log :=
  List.filter_sublist

/-- The order of a task's events is that of its trace. -/
theorem sublist_trace (hs : es.Sublist log) (h : ∀ e ∈ es, who e = i) :
    es.Sublist (trace who i log) := by
  have hfilter := hs.filter fun e => decide (who e = i)
  rwa [List.filter_eq_self.2 fun e he => decide_eq_true (h e he)] at hfilter

/-- A task's own events are added to its trace. -/
theorem trace_append_self (h : ∀ e ∈ es, who e = i) :
    trace who i (log ++ es) = trace who i log ++ es := by
  rw [trace, List.filter_append, List.filter_eq_self.2 fun e he => decide_eq_true (h e he)]
  rfl

/-- The events of another task are not. -/
theorem trace_append_of_ne {j : ι} (h : ∀ e ∈ es, who e = j) (hij : i ≠ j) :
    trace who i (log ++ es) = trace who i log := by
  have hes : es.filter (fun e => who e = i) = [] := by
    refine List.filter_eq_nil_iff.2 fun e he hi => hij ?_
    exact (of_decide_eq_true hi).symm.trans (h e he)
  rw [trace, List.filter_append, hes, List.append_nil]
  rfl

/-- What precedes an event in a log precedes it in the trace of its task. -/
theorem trace_append_cons (who : ε → ι) (pre post : List ε) (e : ε) :
    trace who (who e) (pre ++ e :: post) =
      trace who (who e) pre ++ e :: trace who (who e) post := by
  rw [trace, List.filter_append, List.filter_cons_of_pos (by simp)]
  rfl

end Concurrency
