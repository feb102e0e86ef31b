import PodSizing.Json.Basic

/-!
# Merge patches

A patch that is an object changes the members that it names and keeps all others: null removes a
member, and any other value is merged into it. A patch that is no object takes the place of all.
-/
namespace PodSizing.Json

abbrev Members := List (Option String × Json)

def membersOf : Json → Members
  | .obj members => members
  | _ => []

def removeMember (name : Option String) (members : Members) : Members :=
  members.filter fun m => m.1 ≠ name

/-- Gives a member a value, in its place if it is there and at the end if not. -/
def setMember (name : Option String) (value : Json) : Members → Members
  | [] => [(name, value)]
  | m :: rest => if m.1 = name then (name, value) :: rest else m :: setMember name value rest

mutual

def merge (target : Json) : Json → Json
  | .obj patch => .obj (mergeMembers (membersOf target) patch)
  | value => value

def mergeMembers (members : Members) : Members → Members
  | [] => members
  | (name, value) :: patch =>
    match value with
    | .null => mergeMembers (removeMember name members) patch
    | value =>
      let old := (members.lookup name).getD .null
      mergeMembers (setMember name (merge old value) members) patch

end

end PodSizing.Json
