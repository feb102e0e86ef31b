import PodSizing.Program

/-!
# Laws of programs

Programs in a row, and what a state makes of them.
-/
namespace PodSizing.Program
variable {S T : Signature} {α β γ σ : Type}

theorem bind_assoc (p : Program S α) (f : α → Program S β) (g : β → Program S γ) :
    (p.bind f).bind g = p.bind fun a => (f a).bind g := by
  induction p with
  | done a => rfl
  | fault message => rfl
  | call request next ih => exact congrArg (call request) (funext ih)

/-- Requests are carried out one after the other, also where programs are in a row. -/
theorem interpret_bind (f : (request : S.Request) → Program T (S.Answer request))
    (p : Program S α) (g : α → Program S β) :
    (p.bind g).interpret f = (p.interpret f).bind fun a => (g a).interpret f := by
  induction p with
  | done a => rfl
  | fault message => rfl
  | call request next ih =>
    simp only [bind, interpret, bind_assoc]
    congr 1
    funext answer
    exact ih answer

/-- No answers lead to a fault. -/
def Total : Program S α → Prop
  | .done _ => True
  | .fault _ => False
  | .call _ next => ∀ answer, (next answer).Total

theorem Total.bind {p : Program S α} {f : α → Program S β} (hp : p.Total)
    (hf : ∀ a, (f a).Total) : (p.bind f).Total := by
  induction p with
  | done a => exact hf a
  | fault message => exact hp
  | call request next ih => exact fun answer => ih answer (hp answer)

def Asks (allowed : S.Request → Prop) : Program S α → Prop
  | .done _ => True
  | .fault _ => True
  | .call request next => allowed request ∧ ∀ answer, (next answer).Asks allowed

theorem Asks.bind {allowed : S.Request → Prop} {p : Program S α} {f : α → Program S β}
    (hp : p.Asks allowed) (hf : ∀ a, (f a).Asks allowed) : (p.bind f).Asks allowed := by
  induction p with
  | done a => exact hf a
  | fault message => exact trivial
  | call request next ih => exact ⟨hp.1, fun answer => ih answer (hp.2 answer)⟩

section Run
variable (handle : (request : S.Request) → σ → S.Answer request × σ)

@[simp] theorem run_done (a : α) (s : σ) : (done a : Program S α).run handle s = (.ok a, s) := rfl

@[simp] theorem run_pure (a : α) (s : σ) :
    (pure a : Program S α).run handle s = (.ok a, s) := rfl

@[simp] theorem run_fault (message : String) (s : σ) :
    (fault message : Program S α).run handle s = (.error message, s) := rfl

@[simp] theorem run_call (request : S.Request) (next : S.Answer request → Program S α) (s : σ) :
    (call request next).run handle s =
      (next (handle request s).1).run handle (handle request s).2 := rfl

theorem run_bind (p : Program S α) (f : α → Program S β) (s : σ) :
    (p.bind f).run handle s =
      match p.run handle s with
      | (.ok a, s) => (f a).run handle s
      | (.error message, s) => (.error message, s) := by
  induction p generalizing s with
  | done a => rfl
  | fault message => rfl
  | call request next ih => exact ih (handle request s).1 (handle request s).2

/-- Where no answers lead to a fault, a run ends with a result. -/
theorem Total.run_ok {p : Program S α} (h : p.Total) (s : σ) :
    ∃ a, (p.run handle s).1 = .ok a := by
  induction p generalizing s with
  | done a => exact ⟨a, rfl⟩
  | fault message => exact h.elim
  | call request next ih => exact ih (handle request s).1 (h _) (handle request s).2

def requests : Program S α → σ → List S.Request
  | .done _, _ => []
  | .fault _, _ => []
  | .call request next, s => request :: (next (handle request s).1).requests (handle request s).2

theorem requests_bind (p : Program S α) (f : α → Program S β) (s : σ) :
    (p.bind f).requests handle s = p.requests handle s ++
      match p.run handle s with
      | (.ok a, s) => (f a).requests handle s
      | (.error _, _) => [] := by
  induction p generalizing s with
  | done a => rfl
  | fault message => rfl
  | call request next ih =>
    exact congrArg (request :: ·) (ih (handle request s).1 (handle request s).2)

/-- The program ends with a result, and that and the state it leaves behind satisfy `Q`. -/
def wp : Program S α → (α → σ → Prop) → σ → Prop
  | .done a, Q, s => Q a s
  | .fault _, _, _ => False
  | .call request next, Q, s => (next (handle request s).1).wp Q (handle request s).2

theorem wp_iff_run (p : Program S α) (Q : α → σ → Prop) (s : σ) :
    p.wp handle Q s ↔ ∃ a, (p.run handle s).1 = .ok a ∧ Q a (p.run handle s).2 := by
  induction p generalizing s with
  | done a => simp [wp]
  | fault message => simp [wp]
  | call request next ih => exact ih _ _

theorem wp_bind (p : Program S α) (f : α → Program S β) (Q : β → σ → Prop) (s : σ) :
    (p.bind f).wp handle Q s ↔ p.wp handle (fun a s => (f a).wp handle Q s) s := by
  induction p generalizing s with
  | done a => exact Iff.rfl
  | fault message => exact Iff.rfl
  | call request next ih => exact ih _ _

variable {handle}

theorem wp_mono {p : Program S α} {Q R : α → σ → Prop} {s : σ} (h : p.wp handle Q s)
    (hQ : ∀ a s, Q a s → R a s) : p.wp handle R s := by
  induction p generalizing s with
  | done a => exact hQ a s h
  | fault message => exact h
  | call request next ih => exact ih _ h

end Run

structure Turn (S : Signature) where
  request : S.Request
  answer : S.Answer request

/-- Answers as before and keeps the turns, in order. -/
def logged (handle : (request : S.Request) → σ → S.Answer request × σ) (request : S.Request)
    (s : σ × List (Turn S)) : S.Answer request × σ × List (Turn S) :=
  ((handle request s.1).1, (handle request s.1).2,
    s.2 ++ [⟨request, (handle request s.1).1⟩])

section Logged
variable (handle : (request : S.Request) → σ → S.Answer request × σ)

theorem run_logged (p : Program S α) (s : σ) (log : List (Turn S)) :
    ∃ turns, p.run (logged handle) (s, log) =
      ((p.run handle s).1, (p.run handle s).2, log ++ turns) := by
  induction p generalizing s log with
  | done a => exact ⟨[], by simp⟩
  | fault message => exact ⟨[], by simp⟩
  | call request next ih =>
    obtain ⟨turns, hturns⟩ := ih (handle request s).1 (handle request s).2
      (log ++ [⟨request, (handle request s).1⟩])
    exact ⟨⟨request, (handle request s).1⟩ :: turns, by simpa [logged] using hturns⟩

def turns (p : Program S α) (s : σ) : List (Turn S) := (p.run (logged handle) (s, [])).2.2

theorem run_logged_nil (p : Program S α) (s : σ) :
    p.run (logged handle) (s, []) = ((p.run handle s).1, (p.run handle s).2, p.turns handle s) := by
  obtain ⟨turns, hturns⟩ := run_logged handle p s []
  rw [Program.turns, hturns]

end Logged
end PodSizing.Program
