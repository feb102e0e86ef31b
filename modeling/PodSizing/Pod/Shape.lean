import PodSizing.Json.Record
import PodSizing.Keyed
import PodSizing.Time.Timestamp

/-!
# Shapes of JSON values

A shape says which values a field may hold and gives each its plain form: known members only, in the
order of the shape, with defaults for required ones. Two fields are equal when their plain forms are.
-/
namespace PodSizing

inductive Shape where
  | text
  | flag
  | int32
  | int64
  | intOrText
  | timestamp
  | anything
  | list (item : Shape)
  | table (value : Shape)
  | record (fields : List (String × Bool × Shape))
  deriving Inhabited

namespace Shape
open Json (namedMembers?)
variable {α : Type}

def int32Bound : Int := Nat.pow 2 31
def int64Bound : Int := Nat.pow 2 63

/-- A member that may be left out. -/
def optional (name : String) (shape : Shape) : String × Bool × Shape := (name, false, shape)

/-- A member that takes its default when it is left out. -/
def required (name : String) (shape : Shape) : String × Bool × Shape := (name, true, shape)

def wholeBelow (bound : Int) : Json → Option Json
  | .num (.whole n) => if -bound ≤ n && n < bound then some (.whole n) else none
  | _ => none

/-- The value of one member among those of an object. All of that name must have the shape; the
last counts, and null counts as no value. -/
def lastMember? (plain : Json → Option α) (name : String) (members : List (String × Json)) :
    Option (Option α) :=
  (((members.filter (·.1 = name)).mapM fun m =>
      match m.2 with
      | .null => some none
      | value => (plain value).map some) : Option (List (Option α))).map (·.getLast?.join)

/-- A table whose values all have the shape; of several with one key, the last counts. -/
def table? (plain : Json → Option α) : Json → Option (Keyed α)
  | .obj members => do
    let named ← namedMembers? members
    let entries ← named.mapM fun m => (plain m.2).map fun value => (m.1, value)
    some (.ofList entries)
  | _ => none

def ofTable (value : α → Json) (t : Keyed α) : Json :=
  .record (t.entries.map fun e => (e.1, value e.2))

mutual

/-- The plain form of a value, if it has the shape. -/
def plain? : Shape → Json → Option Json
  | .text, .str (some s) => some (.text s)
  | .flag, .bool b => some (.bool b)
  | .int32, j => wholeBelow int32Bound j
  | .int64, j => wholeBelow int64Bound j
  | .intOrText, .str (some s) => some (.text s)
  | .intOrText, j => wholeBelow int32Bound j
  | .timestamp, .str (some s) => (Time.plainTimestamp? s).map .text
  | .anything, j => some j
  | .list item, .arr values => (values.mapM fun value => plain? item value).map .arr
  | .table value, j => (table? (fun j => plain? value j) j).map (ofTable id)
  | .record fields, .obj members =>
    (namedMembers? members).bind fun named => (plainFields? fields named).map .record
  | _, _ => none

def plainFields? :
    List (String × Bool × Shape) → List (String × Json) → Option (List (String × Json))
  | [], _ => some []
  | (name, isRequired, shape) :: fields, members => do
    let value ← lastMember? (fun j => plain? shape j) name members
    let rest ← plainFields? fields members
    match value with
    | some value => some ((name, value) :: rest)
    | none => some (if isRequired then (name, defaultValue shape) :: rest else rest)

/-- What stands for a required member that is left out. -/
def defaultValue : Shape → Json
  | .text => .text ""
  | .flag => .bool false
  | .int32 | .int64 | .intOrText => .whole 0
  | .timestamp | .anything => .null
  | .list _ => .arr []
  | .table _ => .obj []
  | .record fields => .record (defaultFields fields)

def defaultFields : List (String × Bool × Shape) → List (String × Json)
  | [] => []
  | (name, isRequired, shape) :: fields =>
    if isRequired then (name, defaultValue shape) :: defaultFields fields else defaultFields fields

end

end Shape
end PodSizing
