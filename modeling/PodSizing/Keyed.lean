/-!
# Tables keyed by text

Entries in ascending order of their keys, each key once. Two tables with the same entries are
equal, so equality of pods is equality of their parts.
-/
namespace PodSizing

structure Keyed (α : Type) where
  entries : List (String × α)
  ascending : entries.Pairwise fun a b => a.1 < b.1
  deriving DecidableEq

namespace Keyed
variable {α β : Type}

def empty : Keyed α := ⟨[], .nil⟩

instance : Inhabited (Keyed α) := ⟨empty⟩

def get? (t : Keyed α) (key : String) : Option α := t.entries.lookup key

def contains (t : Keyed α) (key : String) : Bool := (t.get? key).isSome

def isEmpty (t : Keyed α) : Bool := t.entries.isEmpty

/-- Puts an entry in its place, taking over from one with the same key. -/
def insertEntry (key : String) (value : α) : List (String × α) → List (String × α)
  | [] => [(key, value)]
  | e :: rest =>
    if key < e.1 then (key, value) :: e :: rest
    else if key = e.1 then (key, value) :: rest
    else e :: insertEntry key value rest

theorem mem_insertEntry {key : String} {value : α} {e : String × α} :
    ∀ {l : List (String × α)}, e ∈ insertEntry key value l → e = (key, value) ∨ e ∈ l
  | [], h => by simpa [insertEntry] using h
  | d :: rest, h => by
    unfold insertEntry at h
    split at h
    · simpa using h
    · split at h
      · rcases List.mem_cons.1 h with h | h
        · exact .inl h
        · exact .inr (List.mem_cons_of_mem _ h)
      · rcases List.mem_cons.1 h with h | h
        · exact .inr (h ▸ List.mem_cons_self)
        · exact (mem_insertEntry h).imp id (List.mem_cons_of_mem _)

theorem insertEntry_ascending (key : String) (value : α) {l : List (String × α)}
    (h : l.Pairwise fun a b => a.1 < b.1) :
    (insertEntry key value l).Pairwise fun a b => a.1 < b.1 := by
  induction l with
  | nil => simp [insertEntry]
  | cons e rest ih =>
    rw [List.pairwise_cons] at h
    unfold insertEntry
    split
    · next hlt =>
      refine List.pairwise_cons.2 ⟨fun d hd => ?_, List.pairwise_cons.2 h⟩
      rcases List.mem_cons.1 hd with rfl | hd
      · exact hlt
      · exact String.lt_trans hlt (h.1 d hd)
    · next hlt =>
      split
      · next heq => exact List.pairwise_cons.2 ⟨fun d hd => heq ▸ h.1 d hd, h.2⟩
      · next hne =>
        refine List.pairwise_cons.2 ⟨fun d hd => ?_, ih h.2⟩
        rcases mem_insertEntry hd with rfl | hd
        · exact Std.lt_of_le_of_ne (String.not_lt.1 hlt) (Ne.symm hne)
        · exact h.1 d hd

def insert (t : Keyed α) (key : String) (value : α) : Keyed α :=
  ⟨insertEntry key value t.entries, insertEntry_ascending key value t.ascending⟩

def erase (t : Keyed α) (key : String) : Keyed α :=
  ⟨t.entries.filter fun e => e.1 ≠ key, t.ascending.filter _⟩

def ofList (l : List (String × α)) : Keyed α := l.foldl (fun t e => t.insert e.1 e.2) empty

def keys (t : Keyed α) : List String := t.entries.map (·.1)

end Keyed
end PodSizing
