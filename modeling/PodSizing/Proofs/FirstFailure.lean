import PodSizing.Eligibility
import PodSizing.Proofs.Except

/-!
# First failures

Checks are made one after the other, up to the first that fails, whose error is the answer. What a check
asks for and what its error says is given by a relation, so that the order of the checks is all that is left
to say of the code that makes them.
-/
namespace PodSizing
variable {α β γ ε : Type} {fails : α → ε → Prop} {checks later : List α} {e : ε}

/-- The error is that of the first check that fails. -/
def FirstFailure (fails : α → ε → Prop) (checks : List α) (e : ε) : Prop :=
  ∃ before check after, checks = before ++ check :: after ∧
    (∀ c ∈ before, ∀ e', ¬ fails c e') ∧ fails check e

theorem not_firstFailure_nil : ¬ FirstFailure fails [] e := by
  rintro ⟨before, check, after, h, -⟩
  simp at h

theorem FirstFailure.exists_mem (h : FirstFailure fails checks e) : ∃ c ∈ checks, fails c e := by
  obtain ⟨before, check, after, rfl, -, hfails⟩ := h
  exact ⟨check, by simp, hfails⟩

theorem firstFailure_singleton {check : α} : FirstFailure fails [check] e ↔ fails check e := by
  constructor
  · intro h
    obtain ⟨c, hc, hfails⟩ := h.exists_mem
    rwa [List.mem_singleton.1 hc] at hfails
  · intro h
    exact ⟨[], check, [], rfl, by simp, h⟩

theorem firstFailure_append : FirstFailure fails (checks ++ later) e ↔
    FirstFailure fails checks e ∨
      (∀ c ∈ checks, ∀ e', ¬ fails c e') ∧ FirstFailure fails later e := by
  constructor
  · rintro ⟨before, check, after, heq, hbefore, hfails⟩
    rcases List.append_eq_append_iff.1 heq with ⟨rest, rfl, hlater⟩ | ⟨rest, hchecks, hrest⟩
    · refine .inr ⟨fun c hc => hbefore c (List.mem_append_left _ hc), rest, check, after, hlater,
        fun c hc => hbefore c (List.mem_append_right _ hc), hfails⟩
    · cases rest with
      | nil =>
        rw [List.append_nil] at hchecks
        rw [List.nil_append] at hrest
        exact .inr ⟨hchecks ▸ hbefore, [], check, after, hrest.symm, by simp, hfails⟩
      | cons c rest =>
        rw [List.cons_append, List.cons.injEq] at hrest
        obtain ⟨rfl, rfl⟩ := hrest
        exact .inl ⟨before, check, rest, hchecks, hbefore, hfails⟩
  · rintro (⟨before, check, after, rfl, hbefore, hfails⟩ |
      ⟨hpass, before, check, after, rfl, hbefore, hfails⟩)
    · exact ⟨before, check, after ++ later, by simp, hbefore, hfails⟩
    · refine ⟨checks ++ before, check, after, by simp, fun c hc => ?_, hfails⟩
      exact (List.mem_append.1 hc).elim (hpass c) (hbefore c)

/-- Where some check fails, one does so first. -/
theorem exists_firstFailure (h : ∃ c ∈ checks, ∃ e, fails c e) :
    ∃ e, FirstFailure fails checks e := by
  induction checks with
  | nil => simp at h
  | cons check rest ih =>
    by_cases hcheck : ∃ e, fails check e
    · obtain ⟨e, he⟩ := hcheck
      exact ⟨e, [], check, rest, rfl, by simp, he⟩
    · obtain ⟨c, hc, e, he⟩ := h
      rcases List.mem_cons.1 hc with rfl | hc
      · exact absurd ⟨e, he⟩ hcheck
      · obtain ⟨first, hfirst⟩ := ih ⟨c, hc, e, he⟩
        have hpass : ∀ c ∈ [check], ∀ e', ¬ fails c e' := by
          intro c hc e' he'
          exact hcheck ⟨e', List.mem_singleton.1 hc ▸ he'⟩
        refine ⟨first, ?_⟩
        rw [← List.singleton_append]
        exact firstFailure_append.2 (.inr ⟨hpass, hfirst⟩)

def ReportsFirst (fails : α → ε → Prop) (checks : List α) (x : Except ε β) : Prop :=
  ∀ e, x = .error e ↔ FirstFailure fails checks e

namespace ReportsFirst
variable {x : Except ε β}

theorem passes (h : ReportsFirst fails checks x) {b : β} (hx : x = .ok b) :
    ∀ c ∈ checks, ∀ e, ¬ fails c e := by
  intro c hc e he
  obtain ⟨first, hfirst⟩ := exists_firstFailure ⟨c, hc, e, he⟩
  rw [(h first).2 hfirst] at hx
  cases hx

theorem isOk_iff (h : ReportsFirst fails checks x) :
    (∃ b, x = .ok b) ↔ ∀ c ∈ checks, ∀ e, ¬ fails c e := by
  constructor
  · rintro ⟨b, hb⟩
    exact h.passes hb
  · intro hpass
    cases hx : x with
    | ok b => exact ⟨b, rfl⟩
    | error e =>
      obtain ⟨c, hc, hfails⟩ := ((h e).1 hx).exists_mem
      exact absurd hfails (hpass c hc e)

theorem ok (b : β) : ReportsFirst fails [] (Except.ok b : Except ε β) := by
  intro e
  constructor
  · intro h
    cases h
  · exact fun h => absurd h not_firstFailure_nil

theorem single {check : α} (h : ∀ e, x = .error e ↔ fails check e) : ReportsFirst fails [check] x :=
  fun e => (h e).trans firstFailure_singleton.symm

/-- Of two steps in a row, the second makes its checks once the first has made its own. -/
theorem bind {f : β → Except ε γ} (hx : ReportsFirst fails checks x)
    (hf : ∀ b, x = .ok b → ReportsFirst fails later (f b)) :
    ReportsFirst fails (checks ++ later) (x >>= f) := by
  intro e
  rw [firstFailure_append]
  cases hcase : x with
  | error e' =>
    -- The checks of the first step do not all pass, so those of the second play no part.
    have hfirst := (hx e').1 hcase
    have hfailed : ¬ ∀ c ∈ checks, ∀ e, ¬ fails c e := by
      obtain ⟨c, hc, hfails⟩ := hfirst.exists_mem
      exact fun hpass => hpass c hc e' hfails
    have hsame : Except.error e' = (Except.error e : Except ε γ) ↔ x = .error e := by
      rw [hcase]
      simp
    exact hsame.trans ((hx e).trans ⟨.inl, fun h => h.resolve_right fun h' => hfailed h'.1⟩)
  | ok b =>
    have hpass := hx.passes hcase
    have hnone : ¬ FirstFailure fails checks e := fun h => by
      obtain ⟨c, hc, hfails⟩ := h.exists_mem
      exact hpass c hc e hfails
    rw [Except.ok_bind, hf b hcase e]
    exact ⟨fun h => .inr ⟨hpass, h⟩, fun h => (h.resolve_left hnone).2⟩

theorem map_ok {f : β → γ} (hx : ReportsFirst fails checks x) :
    ReportsFirst fails checks (x >>= fun b => .ok (f b)) := by
  have h : ReportsFirst fails (checks ++ []) (x >>= fun b => .ok (f b)) :=
    hx.bind fun b _ => ReportsFirst.ok (f b)
  rwa [List.append_nil] at h

theorem stop {check : α} (he : fails check e) (hone : ∀ e', fails check e' → e' = e) :
    ReportsFirst fails (check :: later) (Except.error e : Except ε β) := by
  intro e'
  rw [← List.singleton_append, firstFailure_append, firstFailure_singleton, Except.error.injEq]
  constructor
  · rintro rfl
    exact .inl he
  · rintro (he' | ⟨hpass, -⟩)
    · exact (hone e' he').symm
    · exact absurd he (hpass check List.mem_cons_self e)

theorem skip {check : α} (hpass : ∀ e, ¬ fails check e) (h : ReportsFirst fails checks x) :
    ReportsFirst fails (check :: checks) x := by
  intro e
  rw [h e, ← List.singleton_append, firstFailure_append, firstFailure_singleton]
  have hall : ∀ c ∈ [check], ∀ e', ¬ fails c e' := by simpa using hpass
  exact ⟨fun h => .inr ⟨hall, h⟩, fun h => (h.resolve_left (hpass e)).2⟩

theorem failIf {condition : Bool} {check : α} {error : ε}
    (h : ∀ e, fails check e ↔ condition = true ∧ e = error) :
    ReportsFirst fails [check] (failIf condition error) := by
  refine single fun e => ?_
  rw [h]
  cases condition <;> simp [PodSizing.failIf, eq_comm]

end ReportsFirst
end PodSizing
