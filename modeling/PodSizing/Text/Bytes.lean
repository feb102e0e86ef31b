import PodSizing.Text.Quoted
import PodSizing.Text.Basic

/-!
# Cutting texts by bytes

Positions in a text count the bytes that its characters take. A text can be cut between characters
only; a position inside one is an error that names the character.
-/
namespace PodSizing.Text

def byteLength (cs : List Char) : Nat := (cs.map Char.utf8Size).foldr (· + ·) 0

/-- A character that a position lies inside of, and where it begins. -/
structure CharAt where
  char : Char
  start : Nat
  deriving DecidableEq, Repr

/-- What stands before and behind a position, in a text that begins at `start`. -/
def cutAt (position : Nat) : (start : Nat) → List Char → Except CharAt (List Char × List Char)
  | _, [] => .ok ([], [])
  | start, c :: cs =>
    if position ≤ start then .ok ([], c :: cs)
    else if position < start + c.utf8Size then .error ⟨c, start⟩
    else (cutAt position (start + c.utf8Size) cs).map fun (before, behind) => (c :: before, behind)

inductive Edge where
  | lower
  | upper
  deriving DecidableEq, Repr

def Edge.text : Edge → String
  | .lower => "start"
  | .upper => "end"

/-- A text that cannot be cut at one edge of a slice. -/
structure CutError where
  text : List Char
  edge : Edge
  position : Nat
  inside : CharAt
  deriving DecidableEq, Repr

def CutError.message (e : CutError) : String :=
  let number (n : Nat) := String.ofList (numeral n)
  let range :=
    number e.inside.start ++ ".." ++ number (e.inside.start + e.inside.char.utf8Size)
  e.edge.text ++ " byte index " ++ number e.position ++ " is not a char boundary; it is inside "
    ++ quoteSingle e.inside.char ++ " (bytes " ++ range ++ ") of \x60" ++ String.ofList e.text
    ++ "\x60"

/-- What stands between two positions. -/
def slice (lower upper : Nat) (cs : List Char) : Except CutError (List Char) := do
  let (before, _) ← (cutAt lower 0 cs).mapError (⟨cs, .lower, lower, ·⟩)
  let (front, _) ← (cutAt upper 0 cs).mapError (⟨cs, .upper, upper, ·⟩)
  return front.drop before.length

end PodSizing.Text
