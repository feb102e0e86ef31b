import PodSizing.Json.Basic

/-!
# Records in JSON

A record is an object with a member for each field, each at most once and any others ignored, or
the list of its fields in order. Fields at the end of such a list may be left out.
-/
namespace PodSizing.Json

/-- Names and values of an object whose names all stand for characters. -/
def namedMembers? : List (Option String × Json) → Option (List (String × Json))
  | [] => some []
  | (some name, value) :: rest => (namedMembers? rest).map ((name, value) :: ·)
  | (none, _) :: _ => none

def readString? : Json → Option String
  | .str text => text
  | _ => none

def readBool? : Json → Option Bool
  | .bool b => some b
  | _ => none

/-- The value of a member that may occur once. -/
def onlyMember? (members : List (String × Json)) (name : String) : Option (Option Json) :=
  match members.filter (·.1 = name) with
  | [] => some none
  | [m] => some (some m.2)
  | _ => none

/-- What a record gives for each of its fields. -/
def fields? (names : List String) : Json → Option (List (Option Json))
  | .obj members => (namedMembers? members).bind fun named => names.mapM (onlyMember? named)
  | .arr items =>
    if items.length ≤ names.length then
      some (items.map some ++ List.replicate (names.length - items.length) none)
    else none
  | _ => none

/-- The value of a field that has to be given. -/
def given? {α : Type} (read : Json → Option α) (value : Option Json) : Option α :=
  value.bind read

/-- The value of a field that takes a default when it is not given. -/
def givenOr? {α : Type} (default : α) (read : Json → Option α) : Option Json → Option α
  | some value => read value
  | none => some default

/-- One of a set of words, as text or as an object that gives it null. -/
def word? {α : Type} (all : List α) (text : α → String) : Json → Option α
  | .str (some s) => all.find? fun a => text a = s
  | .obj [(some s, .null)] => all.find? fun a => text a = s
  | _ => none

end PodSizing.Json
