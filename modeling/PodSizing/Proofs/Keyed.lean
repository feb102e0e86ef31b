import PodSizing.Keyed

/-!
# Looking up in keyed tables

What a table holds under a key after an insertion or a removal. A table is determined by its
lookups, so two tables that agree on every key are equal.
-/
namespace PodSizing.Keyed
variable {α : Type}

theorem lookup_cons_ite {κ : Type} [BEq κ] [LawfulBEq κ] [DecidableEq κ] (k : κ) (e : κ × α)
    (l : List (κ × α)) : (e :: l).lookup k = if k = e.1 then some e.2 else l.lookup k := by
  obtain ⟨j, v⟩ := e
  by_cases h : k = j
  · simp [h]
  · have hb : (k == j) = false := beq_false_of_ne h
    simp [List.lookup_cons, h, hb]

theorem lookup_eq_none_of_not_mem {κ : Type} [BEq κ] [LawfulBEq κ] {k : κ} {l : List (κ × α)}
    (h : k ∉ l.map (·.1)) : l.lookup k = none := by
  rw [List.lookup_eq_none_iff]
  intro e he
  simpa using fun heq : k = e.1 => h (List.mem_map.2 ⟨e, he, heq.symm⟩)

theorem lookup_of_mem {κ : Type} [BEq κ] [LawfulBEq κ] [DecidableEq κ] {l : List (κ × α)}
    (h : (l.map (·.1)).Nodup) {e : κ × α} (he : e ∈ l) : l.lookup e.1 = some e.2 := by
  induction l with
  | nil => cases he
  | cons d rest ih =>
    rw [List.map_cons, List.nodup_cons] at h
    rw [lookup_cons_ite]
    rcases List.mem_cons.1 he with rfl | he
    · exact if_pos rfl
    · rw [if_neg fun heq => h.1 (List.mem_map.2 ⟨e, he, heq⟩)]
      exact ih h.2 he

theorem lookup_insertEntry (key k : String) (value : α) (l : List (String × α)) :
    (insertEntry key value l).lookup k = if k = key then some value else l.lookup k := by
  induction l with
  | nil => simp [insertEntry, lookup_cons_ite]
  | cons e rest ih =>
    unfold insertEntry
    split
    · simp only [lookup_cons_ite]
    · split
      · next he => by_cases hk : k = key <;> simp [lookup_cons_ite, hk, ← he]
      · next hne =>
        rw [lookup_cons_ite, lookup_cons_ite, ih]
        by_cases hk : k = key
        · simp [hk, hne]
        · simp [hk]

@[simp] theorem get?_empty (k : String) : (empty : Keyed α).get? k = none := rfl

/-- No table holds what the empty one holds. -/
@[simp] theorem get?_getD_empty (t : Option (Keyed α)) (k : String) :
    (t.getD empty).get? k = t.bind (·.get? k) := by
  cases t <;> rfl

theorem get?_insert (t : Keyed α) (key k : String) (value : α) :
    (t.insert key value).get? k = if k = key then some value else t.get? k :=
  lookup_insertEntry key k value t.entries

theorem lookup_filter_ne {κ : Type} [BEq κ] [LawfulBEq κ] [DecidableEq κ] (key k : κ)
    (l : List (κ × α)) :
    (l.filter fun e => e.1 ≠ key).lookup k = if k = key then none else l.lookup k := by
  induction l with
  | nil => simp
  | cons e rest ih =>
    by_cases he : e.1 = key
    · rw [List.filter_cons_of_neg (by simpa using he), ih, lookup_cons_ite]
      by_cases hk : k = key
      · simp [hk]
      · have hke : k ≠ e.1 := fun h => hk (h.trans he)
        simp [hk, hke]
    · rw [List.filter_cons_of_pos (by simpa using he), lookup_cons_ite, lookup_cons_ite, ih]
      by_cases hk : k = key
      · have hke : k ≠ e.1 := fun h => he (h.symm.trans hk)
        simp [hk, Ne.symm he]
      · simp [hk]

theorem get?_erase (t : Keyed α) (key k : String) :
    (t.erase key).get? k = if k = key then none else t.get? k :=
  lookup_filter_ne key k t.entries

theorem lookup_later {e : String × α} {rest : List (String × α)} (h : ∀ d ∈ rest, e.1 < d.1) :
    rest.lookup e.1 = none := by
  rw [List.lookup_eq_none_iff]
  intro d hd
  have hlt := h d hd
  simpa using fun heq : e.1 = d.1 => String.lt_irrefl _ (heq ▸ hlt)

theorem mem_iff_lookup {l : List (String × α)} (h : l.Pairwise fun a b => a.1 < b.1)
    (k : String) (v : α) : (k, v) ∈ l ↔ l.lookup k = some v := by
  induction l with
  | nil => simp
  | cons e rest ih =>
    rw [List.pairwise_cons] at h
    rw [List.mem_cons, ih h.2, lookup_cons_ite]
    by_cases hk : k = e.1
    · rw [if_pos hk, hk, lookup_later h.1]
      simp [Prod.ext_iff, eq_comm]
    · simp [hk, Prod.ext_iff]

theorem mem_entries_iff (t : Keyed α) (k : String) (v : α) :
    (k, v) ∈ t.entries ↔ t.get? k = some v :=
  mem_iff_lookup t.ascending k v

/-- Tables that agree on every key are equal. -/
theorem ext_get? {t u : Keyed α} (h : ∀ k, t.get? k = u.get? k) : t = u := by
  have hmem : ∀ e, e ∈ t.entries ↔ e ∈ u.entries := fun e => by
    rw [mem_entries_iff t e.1 e.2, mem_entries_iff u e.1 e.2, h]
  have hnodup (s : Keyed α) : s.entries.Nodup :=
    s.ascending.imp fun {a b} (hlt : a.1 < b.1) (heq : a = b) => String.lt_irrefl _ (heq ▸ hlt)
  have hperm := (List.perm_ext_iff_of_nodup (hnodup t) (hnodup u)).2 hmem
  have heq : t.entries = u.entries :=
    hperm.eq_of_pairwise (fun a b _ _ hab hba => absurd (String.lt_trans hab hba)
      (String.lt_irrefl _)) t.ascending u.ascending
  cases t
  cases u
  simpa using heq

theorem isEmpty_iff (t : Keyed α) : t.isEmpty = true ↔ ∀ k, t.get? k = none := by
  constructor
  · intro h k
    have hnil : t.entries = [] := by simpa [isEmpty] using h
    simp [get?, hnil]
  · intro h
    have heq : t = empty := ext_get? fun k => by rw [h k, get?_empty]
    simp [heq, isEmpty, empty]

def overlay (t u : Keyed α) : Keyed α := u.entries.foldl (fun t e => t.insert e.1 e.2) t

theorem get?_foldl_insert {l : List (String × α)} (h : (l.map (·.1)).Nodup) (t : Keyed α)
    (k : String) :
    (l.foldl (fun t e => t.insert e.1 e.2) t).get? k = (l.lookup k).or (t.get? k) := by
  induction l generalizing t with
  | nil => simp
  | cons e rest ih =>
    rw [List.map_cons, List.nodup_cons] at h
    rw [List.foldl_cons, ih h.2, get?_insert, lookup_cons_ite]
    by_cases hk : k = e.1
    · simp [hk, lookup_eq_none_of_not_mem h.1]
    · simp [hk]

theorem nodup_keys (t : Keyed α) : (t.entries.map (·.1)).Nodup :=
  List.pairwise_map.2 (t.ascending.imp fun {a b} (hlt : a.1 < b.1) (heq : a.1 = b.1) =>
    String.lt_irrefl _ (heq ▸ hlt))

theorem get?_overlay (t u : Keyed α) (k : String) :
    (t.overlay u).get? k = (u.get? k).or (t.get? k) :=
  get?_foldl_insert u.nodup_keys t k

theorem get?_ofList {l : List (String × α)} (h : (l.map (·.1)).Nodup) (k : String) :
    (ofList l).get? k = l.lookup k := by
  rw [ofList, get?_foldl_insert h, get?_empty, Option.or_none]

/-- Merged into a table of which it has all keys, a table takes its place. -/
theorem overlay_eq {t u : Keyed α}
    (h : ∀ k, (t.get? k).isSome = true → (u.get? k).isSome = true) : t.overlay u = u := by
  refine ext_get? fun k => ?_
  rw [get?_overlay]
  cases hu : u.get? k with
  | some value => rfl
  | none =>
    cases ht : t.get? k with
    | none => rfl
    | some value => simpa [ht, hu] using h k

end PodSizing.Keyed
