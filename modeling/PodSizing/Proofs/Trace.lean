/-!
# Traces

What is done from some state on by steps of a relation, in order, each deed with the state that it was
done in.
-/
namespace PodSizing

/-- A deed, and how things stood at it. -/
structure Occurrence (σ δ : Type) where
  state : σ
  deed : δ

inductive Trace {σ δ : Type} (step : σ → δ → σ → Prop) (s : σ) : List (Occurrence σ δ) → σ → Prop where
  | start : Trace step s [] s
  | step {log : List (Occurrence σ δ)} {t u : σ} {deed : δ} (h : Trace step s log t)
      (hstep : step t deed u) : Trace step s (log ++ [⟨t, deed⟩]) u

namespace Trace
variable {σ δ : Type} {step : σ → δ → σ → Prop} {s t u : σ} {log later : List (Occurrence σ δ)}

theorem trans (h : Trace step s log t) (h' : Trace step t later u) : Trace step s (log ++ later) u := by
  induction h' with
  | start => rwa [List.append_nil]
  | step _ hstep ih =>
    rw [← List.append_assoc]
    exact ih.step hstep

theorem single {deed : δ} (h : step s deed t) : Trace step s [⟨s, deed⟩] t := start.step h

/-- A trace that has come through a state went on from there. -/
theorem split {before after : List (Occurrence σ δ)} (h : Trace step s (before ++ after) u) :
    ∃ t, Trace step s before t ∧ Trace step t after u := by
  generalize hlog : before ++ after = log at h
  induction h generalizing after with
  | start =>
    obtain ⟨rfl, rfl⟩ := List.append_eq_nil_iff.1 hlog
    exact ⟨s, .start, .start⟩
  | @step log t u deed h hstep ih =>
    rcases List.eq_nil_or_concat after with rfl | ⟨earlier, m, rfl⟩
    · exact ⟨u, by rw [List.append_nil] at hlog; exact hlog ▸ h.step hstep, .start⟩
    · rw [List.concat_eq_append, ← List.append_assoc] at hlog
      obtain ⟨hearlier, hm⟩ := List.append_inj' hlog rfl
      cases hm
      obtain ⟨v, hbefore, hafter⟩ := ih hearlier
      exact ⟨v, hbefore, by rw [List.concat_eq_append]; exact hafter.step hstep⟩

theorem eq_of_nil (h : Trace step s [] t) : s = t := by
  generalize hlog : [] = log at h
  cases h with
  | start => rfl
  | step => simp at hlog

theorem head {m : Occurrence σ δ} (h : Trace step s (m :: log) u) :
    m.state = s ∧ ∃ t, step s m.deed t ∧ Trace step t log u := by
  obtain ⟨t, hfirst, hrest⟩ : ∃ t, Trace step s ([] ++ [m]) t ∧ Trace step t log u := split h
  generalize hlog : [] ++ [m] = first at hfirst
  cases hfirst with
  | start => simp at hlog
  | step hstart hstep =>
    obtain ⟨rfl, hm⟩ := List.append_inj' hlog rfl
    cases hm
    cases hstart.eq_of_nil
    exact ⟨rfl, _, hstep, hrest⟩

theorem step_of_mem {m : Occurrence σ δ} (h : Trace step s log t) (hm : m ∈ log) :
    ∃ u, step m.state m.deed u := by
  obtain ⟨before, after, rfl⟩ := List.append_of_mem hm
  obtain ⟨v, -, hafter⟩ := h.split
  obtain ⟨rfl, u, hstep, -⟩ := hafter.head
  exact ⟨u, hstep⟩

end Trace

/-- Allowed deeds lead from one state to another. -/
def Via {σ δ : Type} (step : σ → δ → σ → Prop) (allowed : Occurrence σ δ → Prop) (s t : σ) : Prop :=
  ∃ log, Trace step s log t ∧ ∀ m ∈ log, allowed m

namespace Via
variable {σ δ : Type} {step : σ → δ → σ → Prop} {allowed other : Occurrence σ δ → Prop} {s t u : σ}

theorem refl (s : σ) : Via step allowed s s := ⟨[], .start, by simp⟩

theorem single {deed : δ} (h : step s deed t) (hallowed : allowed ⟨s, deed⟩) : Via step allowed s t :=
  ⟨[⟨s, deed⟩], .single h, by simpa using hallowed⟩

theorem trans (h : Via step allowed s t) (h' : Via step allowed t u) : Via step allowed s u := by
  obtain ⟨log, hlog, hallowed⟩ := h
  obtain ⟨later, hlater, hallowed'⟩ := h'
  refine ⟨log ++ later, hlog.trans hlater, fun m hm => ?_⟩
  exact (List.mem_append.1 hm).elim (hallowed m) (hallowed' m)

theorem mono (h : Via step allowed s t) (himp : ∀ m, allowed m → other m) : Via step other s t := by
  obtain ⟨log, hlog, hallowed⟩ := h
  exact ⟨log, hlog, fun m hm => himp m (hallowed m hm)⟩

theorem keeps {P : σ → Prop} (h : Via step allowed s t) (hs : P s)
    (hstep : ∀ {s t deed}, step s deed t → allowed ⟨s, deed⟩ → P s → P t) : P t := by
  obtain ⟨log, hlog, hallowed⟩ := h
  induction hlog with
  | start => exact hs
  | step _ hdeed ih =>
    simp only [List.forall_mem_append, List.forall_mem_singleton] at hallowed
    exact hstep hdeed hallowed.2 (ih hallowed.1)

/-- Where allowed steps leave no choice, they come to a stop in one state only. -/
theorem unique (hchoice : ∀ {s t u d e}, step s d t → allowed ⟨s, d⟩ → step s e u → allowed ⟨s, e⟩ → t = u)
    (ht : Via step allowed s t) (hu : Via step allowed s u)
    (hstopped : ∀ v, v = t ∨ v = u → ∀ {d w}, step v d w → ¬ allowed ⟨v, d⟩) : t = u := by
  obtain ⟨log, hlog, hallowed⟩ := ht
  obtain ⟨log', hlog', hallowed'⟩ := hu
  induction log generalizing s log' with
  | nil =>
    cases hlog.eq_of_nil
    cases log' with
    | nil => exact hlog'.eq_of_nil
    | cons m rest =>
      obtain ⟨hm, v, hstep, -⟩ := hlog'.head
      exact absurd (hm ▸ hallowed' m List.mem_cons_self) (hstopped _ (.inl rfl) hstep)
  | cons m rest ih =>
    obtain ⟨hm, v, hstep, hrest⟩ := hlog.head
    have hdeed : allowed ⟨s, m.deed⟩ := hm ▸ hallowed m List.mem_cons_self
    cases log' with
    | nil =>
      cases hlog'.eq_of_nil
      exact absurd hdeed (hstopped _ (.inr rfl) hstep)
    | cons m' rest' =>
      obtain ⟨hm', v', hstep', hrest'⟩ := hlog'.head
      have hdeed' : allowed ⟨s, m'.deed⟩ := hm' ▸ hallowed' m' List.mem_cons_self
      cases hchoice hstep hdeed hstep' hdeed'
      exact ih hrest (fun n hn => hallowed n (List.mem_cons_of_mem _ hn)) rest' hrest'
        fun n hn => hallowed' n (List.mem_cons_of_mem _ hn)

end Via
end PodSizing
