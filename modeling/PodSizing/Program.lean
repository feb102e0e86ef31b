/-!
# Programs

A program is the tree of what it asks of its surroundings: each request branches on the answer. It
ends with a result or breaks off with a fault. Nothing happens but through requests, so that what a
program does under any answers can be read off its tree.
-/
namespace PodSizing

/-- What may be asked, and what comes back. -/
structure Signature where
  Request : Type
  Answer : Request → Type

inductive Program (S : Signature) (α : Type) where
  | done (a : α)
  | fault (message : String)
  | call (request : S.Request) (next : S.Answer request → Program S α)

namespace Program
variable {S T : Signature} {α β σ : Type}

def bind : Program S α → (α → Program S β) → Program S β
  | .done a, f => f a
  | .fault message, _ => .fault message
  | .call request next, f => .call request fun answer => (next answer).bind f

instance : Monad (Program S) where
  pure := .done
  bind := .bind

/-- Carries out each request by a program of another kind. -/
def interpret (f : (request : S.Request) → Program T (S.Answer request)) :
    Program S α → Program T α
  | .done a => .done a
  | .fault message => .fault message
  | .call request next => (f request).bind fun answer => (next answer).interpret f

/-- Runs to the end, where a state answers the requests. -/
def run (handle : (request : S.Request) → σ → S.Answer request × σ) :
    Program S α → σ → Except String α × σ
  | .done a, s => (.ok a, s)
  | .fault message, s => (.error message, s)
  | .call request next, s => (next (handle request s).1).run handle (handle request s).2

end Program
end PodSizing
