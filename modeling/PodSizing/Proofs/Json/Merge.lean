import PodSizing.Json.Merge
import PodSizing.Json.Record
import PodSizing.Proofs.Keyed

/-!
# Merging documents

A patch that is an object changes just the members that it names: what a member becomes depends on what
it was and on what the patch says of it. That holds of merge patches and of patches that merge some lists
item by item, where items go together that have the same name.
-/
namespace PodSizing.Json

mutual

/-- No object in a value names a member twice. -/
def distinct : Json → Bool
  | .arr items => distinctItems items
  | .obj members => decide (members.map (·.1)).Nodup && distinctMembers members
  | .null | .bool _ | .num _ | .str _ => true

def distinctItems : List Json → Bool
  | [] => true
  | item :: items => distinct item && distinctItems items

def distinctMembers : List (Option String × Json) → Bool
  | [] => true
  | (_, value) :: members => distinct value && distinctMembers members

end

theorem distinct_of_mem_items {items : List Json} (h : distinctItems items = true) {item : Json}
    (hitem : item ∈ items) : item.distinct = true := by
  induction items with
  | nil => cases hitem
  | cons first rest ih =>
    simp only [distinctItems, Bool.and_eq_true] at h
    rcases List.mem_cons.1 hitem with rfl | hitem
    · exact h.1
    · exact ih h.2 hitem

theorem distinct_of_mem_members {members : Members} (h : distinctMembers members = true)
    {m : Option String × Json} (hm : m ∈ members) : m.2.distinct = true := by
  induction members with
  | nil => cases hm
  | cons first rest ih =>
    simp only [distinctMembers, Bool.and_eq_true] at h
    rcases List.mem_cons.1 hm with rfl | hm
    · exact h.1
    · exact ih h.2 hm

def itemName (item : Json) : String :=
  (((membersOf item).lookup (some "name")).bind readString?).getD ""

def itemsOf : Json → List Json
  | .arr items => items
  | _ => []

def newItems (targets items : List Json) : List Json :=
  items.filter fun item => targets.all fun target => itemName target ≠ itemName item

mutual

/-- Merges a patch into a value: lists under some members, and the value itself if it is a list under
such a member, are merged item by item. -/
def mergeNamed (named : Option String → Bool) (byName : Bool) (target : Json) : Json → Json
  | .obj patch => .obj (mergeNamedMembers named (membersOf target) patch)
  | .arr items =>
    if byName then
      .arr ((itemsOf target).map (fun t => mergeInto named t items) ++ newItems (itemsOf target) items)
    else .arr items
  | .null => .null
  | .bool b => .bool b
  | .num n => .num n
  | .str text => .str text

def mergeNamedMembers (named : Option String → Bool) (members : Members) : Members → Members
  | [] => members
  | (name, value) :: patch =>
    match value with
    | .null => mergeNamedMembers named (removeMember name members) patch
    | value =>
      let old := (members.lookup name).getD .null
      mergeNamedMembers named (setMember name (mergeNamed named (named name) old value) members) patch

def mergeInto (named : Option String → Bool) (target : Json) : List Json → Json
  | [] => target
  | item :: items =>
    if itemName item = itemName target then mergeNamed named false target item
    else mergeInto named target items

end

/-- A strategic merge of what a pod's patch may hold: containers are merged by name. -/
def mergeStrategic (target patch : Json) : Json :=
  mergeNamed (fun name => name = some "containers") false target patch

mutual

/-- A merge patch merges no list item by item. -/
theorem mergeNamed_eq_merge (target patch : Json) :
    mergeNamed (fun _ => false) false target patch = target.merge patch := by
  cases patch with
  | obj members => simp only [mergeNamed, merge, mergeNamedMembers_eq_merge]
  | _ => simp [mergeNamed, merge]

theorem mergeNamedMembers_eq_merge (members patch : Members) :
    mergeNamedMembers (fun _ => false) members patch = mergeMembers members patch := by
  match patch with
  | [] => simp only [mergeNamedMembers, mergeMembers]
  | (name, value) :: patch =>
    cases value with
    | null => simp only [mergeNamedMembers, mergeMembers, mergeNamedMembers_eq_merge _ patch]
    | _ =>
      simp only [mergeNamedMembers, mergeMembers, mergeNamedMembers_eq_merge _ patch,
        mergeNamed_eq_merge]

end

section Members
variable {members patch : Members} {name n : Option String} {value : Json}

theorem lookup_setMember (members : Members) (name n : Option String) (value : Json) :
    (setMember name value members).lookup n = if n = name then some value else members.lookup n := by
  induction members with
  | nil => simp [setMember, Keyed.lookup_cons_ite]
  | cons m rest ih =>
    unfold setMember
    by_cases hm : m.1 = name
    · by_cases h : n = name <;> simp [Keyed.lookup_cons_ite, hm, h]
    · rw [if_neg hm, Keyed.lookup_cons_ite, Keyed.lookup_cons_ite, ih]
      by_cases h : n = name
      · simp [h, Ne.symm hm]
      · simp [h]

theorem lookup_removeMember (members : Members) (name n : Option String) :
    (removeMember name members).lookup n = if n = name then none else members.lookup n :=
  Keyed.lookup_filter_ne name n members

theorem names_setMember (members : Members) (name : Option String) (value : Json) :
    (setMember name value members).map (·.1) =
      if name ∈ members.map (·.1) then members.map (·.1) else members.map (·.1) ++ [name] := by
  induction members with
  | nil => simp [setMember]
  | cons m rest ih =>
    unfold setMember
    by_cases hm : m.1 = name
    · simp [hm]
    · rw [if_neg hm, List.map_cons, ih]
      by_cases hrest : name ∈ rest.map (·.1)
      · simp [hrest]
      · simp [hrest, Ne.symm hm]

theorem nodup_setMember (h : (members.map (·.1)).Nodup) (name : Option String) (value : Json) :
    ((setMember name value members).map (·.1)).Nodup := by
  rw [names_setMember]
  split
  · exact h
  · next hnew =>
    refine List.nodup_append.2 ⟨h, List.pairwise_singleton _ _, fun n hn k hk heq => hnew ?_⟩
    rw [← List.mem_singleton.1 hk, ← heq]
    exact hn

theorem nodup_removeMember (h : (members.map (·.1)).Nodup) (name : Option String) :
    ((removeMember name members).map (·.1)).Nodup :=
  h.sublist (List.filter_sublist.map _)

variable {named : Option String → Bool}

def mergedMember (named : Option String → Bool) (name : Option String) (old : Option Json) :
    Option Json → Option Json
  | none => old
  | some .null => none
  | some value => some (mergeNamed named (named name) (old.getD .null) value)

theorem mergeNamedMembers_cons (name : Option String) (value : Json) :
    mergeNamedMembers named members ((name, value) :: patch) =
      mergeNamedMembers named
        (match mergedMember named name (members.lookup name) (some value) with
          | none => removeMember name members
          | some merged => setMember name merged members) patch := by
  cases value <;> simp only [mergeNamedMembers, mergedMember]

/-- A patch that names no member twice changes just the members that it names. -/
theorem lookup_mergeNamedMembers (h : (patch.map (·.1)).Nodup) (members : Members)
    (n : Option String) : (mergeNamedMembers named members patch).lookup n =
      mergedMember named n (members.lookup n) (patch.lookup n) := by
  induction patch generalizing members with
  | nil => simp only [mergeNamedMembers, List.lookup_nil, mergedMember]
  | cons m rest ih =>
    obtain ⟨name, value⟩ := m
    rw [List.map_cons, List.nodup_cons] at h
    rw [mergeNamedMembers_cons, ih h.2, Keyed.lookup_cons_ite]
    by_cases hn : n = name
    · -- the rest of the patch does not name it again
      rw [hn, Keyed.lookup_eq_none_of_not_mem h.1, if_pos rfl]
      cases hmerged : mergedMember named name (members.lookup name) (some value) with
      | none => simp [mergedMember, lookup_removeMember]
      | some merged => simp [mergedMember, lookup_setMember]
    · rw [if_neg hn]
      congr 1
      cases mergedMember named name (members.lookup name) (some value) with
      | none => simp [lookup_removeMember, hn]
      | some merged => simp [lookup_setMember, hn]

theorem nodup_mergeNamedMembers (h : (members.map (·.1)).Nodup) (patch : Members) :
    ((mergeNamedMembers named members patch).map (·.1)).Nodup := by
  induction patch generalizing members with
  | nil => simpa only [mergeNamedMembers] using h
  | cons m rest ih =>
    rw [mergeNamedMembers_cons]
    cases mergedMember named m.1 (members.lookup m.1) (some m.2) with
    | none => exact ih (nodup_removeMember h m.1)
    | some merged => exact ih (nodup_setMember h m.1 merged)

theorem names_mergeNamedMembers {P : Option String → Prop} (named : Option String → Bool)
    (h : ∀ n ∈ members.map (·.1), P n) (hpatch : ∀ n ∈ patch.map (·.1), P n) :
    ∀ n ∈ (mergeNamedMembers named members patch).map (·.1), P n := by
  induction patch generalizing members with
  | nil => simpa only [mergeNamedMembers] using h
  | cons m rest ih =>
    rw [List.map_cons, List.forall_mem_cons] at hpatch
    rw [mergeNamedMembers_cons]
    cases mergedMember named m.1 (members.lookup m.1) (some m.2) with
    | none => exact ih (fun n hn => h n ((List.filter_sublist.map _).subset hn)) hpatch.2
    | some merged =>
      refine ih (fun n hn => ?_) hpatch.2
      rw [names_setMember] at hn
      split at hn
      · exact h n hn
      · rcases List.mem_append.1 hn with hn | hn
        · exact h n hn
        · rw [List.mem_singleton.1 hn]
          exact hpatch.1

end Members

section Records
variable {l p : List (String × Json)}

theorem lookup_record (l : List (String × Json)) (n : String) :
    (l.map fun f => (some f.1, f.2)).lookup (some n) = l.lookup n := by
  induction l with
  | nil => rfl
  | cons f rest ih => simp [Keyed.lookup_cons_ite, ih]

theorem nodup_record (l : List (String × Json)) :
    ((l.map fun f => (some f.1, f.2)).map (·.1)).Nodup ↔ (l.map (·.1)).Nodup := by
  simp [List.Nodup, List.pairwise_map]

theorem exists_record {members : Members} (h : ∀ n ∈ members.map (·.1), n.isSome = true) :
    ∃ l : List (String × Json), members = l.map fun f => (some f.1, f.2) := by
  induction members with
  | nil => exact ⟨[], rfl⟩
  | cons m rest ih =>
    rw [List.map_cons, List.forall_mem_cons] at h
    obtain ⟨name, hname⟩ := Option.isSome_iff_exists.1 h.1
    obtain ⟨l, hl⟩ := ih h.2
    exact ⟨(name, m.2) :: l, by simp [hl, ← hname]⟩

/-- Merged into a record, a record gives a record. -/
theorem mergeNamed_record (named : Option String → Bool) (byName : Bool)
    (hl : (l.map (·.1)).Nodup) (hp : (p.map (·.1)).Nodup) :
    ∃ merged, mergeNamed named byName (record l) (record p) = record merged ∧
      (merged.map (·.1)).Nodup ∧
      ∀ n, merged.lookup n = mergedMember named (some n) (l.lookup n) (p.lookup n) := by
  have hnames (f : List (String × Json)) :
      ∀ n ∈ (f.map fun f => (some f.1, f.2)).map (·.1), n.isSome = true := by
    intro n hn
    simp only [List.map_map, List.mem_map] at hn
    obtain ⟨m, -, rfl⟩ := hn
    rfl
  obtain ⟨merged, hmerged⟩ := exists_record (names_mergeNamedMembers named (hnames l) (hnames p))
  refine ⟨merged, ?_, ?_, fun n => ?_⟩
  · simp only [mergeNamed, record, membersOf, hmerged]
  · rw [← nodup_record, ← hmerged]
    exact nodup_mergeNamedMembers ((nodup_record l).2 hl) _
  · rw [← lookup_record, ← hmerged, lookup_mergeNamedMembers ((nodup_record p).2 hp),
      lookup_record, lookup_record]

end Records

end PodSizing.Json
