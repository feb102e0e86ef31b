import Mathlib.Data.List.Perm.Basic
import Mathlib.Logic.Relation
import PodSizing.Proofs.Except
import PodSizing.Proofs.Text.Basic
import PodSizing.Resource

/-!
# Lists of resources

What a list of names comes to is decided by the set of names that are in it: they are sorted first, so that
what is there more than once stands together and is left once. Processor time comes before memory, and
names in order, each once, are a part of all names.
-/
namespace PodSizing.ResourceName

instance : LT ResourceName := ⟨fun a b => a = .cpu ∧ b = .memory⟩

instance (a b : ResourceName) : Decidable (a < b) :=
  inferInstanceAs (Decidable (a = .cpu ∧ b = .memory))

theorem text_injective {a b : ResourceName} (h : a.text = b.text) : a = b := by
  revert h
  cases a <;> cases b <;> decide

theorem mem_all (r : ResourceName) : r ∈ all := by
  cases r <;> decide

theorem all_ascending : all.Pairwise (· < ·) := by decide

theorem filter_all_ascending (test : ResourceName → Bool) :
    (all.filter test).Pairwise (· < ·) := all_ascending.filter test

theorem mem_filter_all {test : ResourceName → Bool} {r : ResourceName} :
    r ∈ all.filter test ↔ test r = true := by
  simp [List.mem_filter, mem_all]

theorem ofText?_eq_some_iff {s : String} {r : ResourceName} : ofText? s = some r ↔ s = r.text := by
  constructor
  · intro h
    have htext := List.find?_some h
    exact (of_decide_eq_true htext).symm
  · rintro rfl
    cases r <;> decide

theorem parse_eq_ok_iff {part : List Char} {r : ResourceName} :
    parse (String.ofList part) = .ok r ↔ Text.trimChars part = r.text.toList := by
  have htrim : Text.trim (String.ofList part) = r.text ↔ Text.trimChars part = r.text.toList := by
    rw [← String.toList_inj, Text.toList_trim, String.toList_ofList]
  rw [← htrim, ← ofText?_eq_some_iff, parse]
  cases ofText? (Text.trim (String.ofList part)) <;> simp

theorem trimChars_text (r : ResourceName) : Text.trimChars r.text.toList = r.text.toList := by
  cases r <;> decide

theorem text_ne_nil (r : ResourceName) : r.text.toList ≠ [] := by
  cases r <;> decide

theorem comma_notMem_text (r : ResourceName) : ',' ∉ r.text.toList := by
  cases r <;> decide

theorem eraseReps_cons_cons (a b : ResourceName) (l : List ResourceName) :
    (a :: b :: l).eraseReps = if a = b then (b :: l).eraseReps else a :: (b :: l).eraseReps := by
  have hloop (a : ResourceName) (l done : List ResourceName) :
      List.eraseRepsBy.loop (· == ·) a l done =
        done.reverse ++ List.eraseRepsBy.loop (· == ·) a l [] := by
    induction l generalizing a done with
    | nil => simp [List.eraseRepsBy.loop]
    | cons b l ih =>
      simp only [List.eraseRepsBy.loop]
      split
      · exact ih a done
      · rw [ih b (a :: done), ih b [a]]
        simp
  simp only [List.eraseReps, List.eraseRepsBy, List.eraseRepsBy.loop]
  by_cases h : a = b
  · simp [h]
  · have hne : (a == b) = false := beq_false_of_ne h
    simp [h, hne, hloop b l [a]]

theorem mem_eraseReps {r : ResourceName} {l : List ResourceName} : r ∈ l.eraseReps ↔ r ∈ l := by
  induction l with
  | nil => rfl
  | cons a l ih =>
    cases l with
    | nil => rfl
    | cons b l =>
      rw [eraseReps_cons_cons, List.mem_cons, ← ih]
      by_cases h : a = b
      · subst h
        rw [if_pos rfl, ih]
        simp
      · rw [if_neg h, List.mem_cons]

theorem lt_of_inOrder {a b : ResourceName} (h : inOrder a b = true) (hne : a ≠ b) : a < b := by
  revert h hne
  cases a <;> cases b <;> decide

theorem lt_of_lt_of_inOrder {a b c : ResourceName} (h : a < b) (h' : inOrder b c = true) : a < c := by
  revert h h'
  cases a <;> cases b <;> cases c <;> decide

/-- Among names in order, equal ones stand together: without repetitions each is left once. -/
theorem eraseReps_ascending {l : List ResourceName} (h : l.Pairwise (inOrder · · = true)) :
    l.eraseReps.Pairwise (· < ·) := by
  induction l with
  | nil => exact .nil
  | cons a l ih =>
    cases l with
    | nil => exact List.pairwise_singleton _ a
    | cons b l =>
      obtain ⟨hfirst, hrest⟩ := List.pairwise_cons.1 h
      rw [eraseReps_cons_cons]
      by_cases hab : a = b
      · rw [if_pos hab]
        exact ih hrest
      · rw [if_neg hab]
        refine List.pairwise_cons.2 ⟨fun r hr => ?_, ih hrest⟩
        have hlt : a < b := lt_of_inOrder (hfirst b List.mem_cons_self) hab
        rcases List.mem_cons.1 (mem_eraseReps.1 hr) with rfl | hr
        · exact hlt
        · exact lt_of_lt_of_inOrder hlt ((List.pairwise_cons.1 hrest).1 r hr)

theorem mergeSort_inOrder (l : List ResourceName) :
    (l.mergeSort inOrder).Pairwise (inOrder · · = true) := by
  refine List.pairwise_mergeSort (fun a b c => ?_) (fun a b => ?_) l
  · cases a <;> cases b <;> cases c <;> decide
  · cases a <;> cases b <;> decide

/-- Lists of names in ascending order that hold the same names are equal. -/
theorem ascending_unique {l l' : List ResourceName} (h : l.Pairwise (· < ·))
    (h' : l'.Pairwise (· < ·)) (hmem : ∀ r, r ∈ l ↔ r ∈ l') : l = l' := by
  have hne {a b : ResourceName} (hab : a < b) : a ≠ b := by
    rintro rfl
    exact absurd hab.1 (by rw [hab.2]; decide)
  have hperm : l.Perm l' := (List.perm_ext_iff_of_nodup (h.imp hne) (h'.imp hne)).2 hmem
  refine hperm.eq_of_pairwise (fun a b _ _ hab hba => ?_) h h'
  exact hab.1.trans (hba.1.symm)

def parts (s : String) : List (List Char) := Text.splitAt ',' s.toList

/-- There is more in it than blanks. -/
def HasWord (part : List Char) : Prop := ∃ c ∈ part, Text.isBlank c = false

def Occurs (r : ResourceName) (parts : List (List Char)) : Prop :=
  ∃ part ∈ parts, Text.trimChars part = r.text.toList

def AllNames (parts : List (List Char)) : Prop :=
  ∀ part ∈ parts, HasWord part → ∃ r : ResourceName, Text.trimChars part = r.text.toList

theorem hasWord_iff {part : List Char} : HasWord part ↔ Text.trimChars part ≠ [] := by
  simp [HasWord, Ne, Text.trimChars_eq_nil_iff]

theorem blank_of_not_hasWord {part : List Char} (h : ¬ HasWord part) :
    ∀ c ∈ part, Text.isBlank c = true := by
  simpa [HasWord] using h

theorem hasWord_of_name {part : List Char} {r : ResourceName}
    (h : Text.trimChars part = r.text.toList) : HasWord part :=
  hasWord_iff.2 (h ▸ text_ne_nil r)

def written (s : String) : Except String (List ResourceName) :=
  ((parts s).filter fun part => !(Text.trimChars part).isEmpty).mapM fun part =>
    parse (String.ofList part)

theorem parseList_eq {s : String} {names : List ResourceName} :
    parseList s = .ok names ↔
      ∃ named, written s = .ok named ∧ (named.mergeSort inOrder).eraseReps = names ∧ names ≠ [] := by
  rw [parseList, Except.bind_eq_ok]
  refine exists_congr fun named => and_congr_right fun _ => ?_
  cases (named.mergeSort inOrder).eraseReps with
  | nil => simp
  | cons r rest =>
    rw [Except.ok.injEq]
    refine ⟨?_, And.left⟩
    rintro rfl
    exact ⟨rfl, List.cons_ne_nil r rest⟩

section Written
variable {s : String}

theorem mem_filter_word {part : List Char} :
    part ∈ (parts s).filter (fun part => !(Text.trimChars part).isEmpty) ↔
      part ∈ parts s ∧ HasWord part := by
  rw [List.mem_filter, hasWord_iff]
  simp

theorem exists_written_iff : (∃ named, written s = .ok named) ↔ AllNames (parts s) := by
  rw [written, Except.exists_mapM_eq_ok_iff]
  simp only [mem_filter_word, parse_eq_ok_iff, and_imp, AllNames]

theorem mem_written {named : List ResourceName} (h : written s = .ok named) {r : ResourceName} :
    r ∈ named ↔ Occurs r (parts s) := by
  rw [Except.mem_of_mapM_eq_ok h]
  constructor
  · rintro ⟨part, hpart, hname⟩
    exact ⟨part, (mem_filter_word.1 hpart).1, parse_eq_ok_iff.1 hname⟩
  · rintro ⟨part, hpart, hname⟩
    exact ⟨part, mem_filter_word.2 ⟨hpart, hasWord_of_name hname⟩, parse_eq_ok_iff.2 hname⟩

/-- The names of a list are those that occur in its parts. There is only one way to put them down in order,
each once. -/
theorem parseList_eq_ok_iff {names : List ResourceName} :
    parseList s = .ok names ↔ AllNames (parts s) ∧ names ≠ [] ∧ names.Pairwise (· < ·) ∧
      ∀ r, r ∈ names ↔ Occurs r (parts s) := by
  have hascending (named : List ResourceName) :
      (named.mergeSort inOrder).eraseReps.Pairwise (· < ·) :=
    eraseReps_ascending (mergeSort_inOrder named)
  have hmem {named : List ResourceName} (h : written s = .ok named) (r : ResourceName) :
      r ∈ (named.mergeSort inOrder).eraseReps ↔ Occurs r (parts s) := by
    rw [mem_eraseReps, List.mem_mergeSort, mem_written h]
  rw [parseList_eq]
  constructor
  · rintro ⟨named, hnamed, rfl, hne⟩
    exact ⟨exists_written_iff.1 ⟨named, hnamed⟩, hne, hascending named, hmem hnamed⟩
  · rintro ⟨hall, hne, hnames, hoccurs⟩
    obtain ⟨named, hnamed⟩ := exists_written_iff.2 hall
    exact ⟨named, hnamed, ascending_unique (hascending named) hnames fun r =>
      (hmem hnamed r).trans (hoccurs r).symm, hne⟩

theorem exists_parseList_iff :
    (∃ names, parseList s = .ok names) ↔ (∃ part ∈ parts s, HasWord part) ∧ AllNames (parts s) := by
  constructor
  · rintro ⟨names, h⟩
    obtain ⟨hall, hne, -, hmem⟩ := parseList_eq_ok_iff.1 h
    obtain ⟨r, hr⟩ := List.exists_mem_of_ne_nil names hne
    obtain ⟨part, hpart, hname⟩ := (hmem r).1 hr
    exact ⟨⟨part, hpart, hasWord_of_name hname⟩, hall⟩
  · rintro ⟨⟨part, hpart, hword⟩, hall⟩
    obtain ⟨named, hnamed⟩ := exists_written_iff.2 hall
    obtain ⟨r, hr⟩ := hall part hpart hword
    have hmem : r ∈ (named.mergeSort inOrder).eraseReps := by
      rw [mem_eraseReps, List.mem_mergeSort, mem_written hnamed]
      exact ⟨part, hpart, hr⟩
    exact ⟨_, parseList_eq.2 ⟨named, hnamed, rfl, List.ne_nil_of_mem hmem⟩⟩

end Written

/-- One list of parts is the other with its parts in another order, with one of them again, with a blank one
more, or with more blanks around one. -/
inductive Rewritten : List (List Char) → List (List Char) → Prop where
  | reordered {parts parts' : List (List Char)} (h : parts.Perm parts') : Rewritten parts parts'
  | again {part : List Char} {parts : List (List Char)} (h : part ∈ parts) :
    Rewritten parts (part :: parts)
  | blank {part : List Char} (parts : List (List Char)) (h : ¬ HasWord part) :
    Rewritten parts (part :: parts)
  | padded {before after : List Char} (part : List Char) (parts : List (List Char))
      (hbefore : ¬ HasWord before) (hafter : ¬ HasWord after) :
    Rewritten (part :: parts) ((before ++ part ++ after) :: parts)

def words (parts : List (List Char)) : Set (List Char) :=
  { word | word ≠ [] ∧ ∃ part ∈ parts, Text.trimChars part = word }

theorem Rewritten.words_eq {parts parts' : List (List Char)} (h : Rewritten parts parts') :
    words parts = words parts' := by
  ext word
  refine and_congr_right fun hword => ?_
  cases h with
  | reordered h => simp only [h.mem_iff]
  | again h =>
    simp only [List.mem_cons, exists_eq_or_imp]
    exact ⟨.inr, fun hor => hor.elim (fun hpart => ⟨_, h, hpart⟩) id⟩
  | @blank part _ h =>
    have hpart : Text.trimChars part ≠ word := by
      rw [not_not.1 (mt hasWord_iff.2 h)]
      exact hword.symm
    simp [hpart]
  | padded part parts hbefore hafter =>
    have htrim := Text.trimChars_padded (blank_of_not_hasWord hbefore) (blank_of_not_hasWord hafter) part
    simp only [List.mem_cons, exists_eq_or_imp, htrim]

theorem words_eq_of_eqvGen {parts parts' : List (List Char)}
    (h : Relation.EqvGen Rewritten parts parts') : words parts = words parts' := by
  induction h with
  | rel _ _ h => exact h.words_eq
  | refl => rfl
  | symm _ _ _ ih => exact ih.symm
  | trans _ _ _ _ _ ih ih' => exact ih.trans ih'

theorem parseList_congr {s t : String} (h : words (parts s) = words (parts t))
    {names : List ResourceName} : parseList s = .ok names ↔ parseList t = .ok names := by
  have hoccurs (u : String) (r : ResourceName) : Occurs r (parts u) ↔ r.text.toList ∈ words (parts u) :=
    (and_iff_right (text_ne_nil r)).symm
  have hall (u : String) : AllNames (parts u) ↔
      ∀ word ∈ words (parts u), ∃ r : ResourceName, word = r.text.toList := by
    constructor
    · rintro hnames word ⟨hne, part, hpart, rfl⟩
      exact hnames part hpart (hasWord_iff.2 hne)
    · intro hwords part hpart hword
      exact hwords _ ⟨hasWord_iff.1 hword, part, hpart, rfl⟩
  simp only [parseList_eq_ok_iff, hoccurs, hall, h]

theorem parts_joined {names : List ResourceName} (h : names ≠ []) :
    parts (",".intercalate (names.map text)) = names.map fun r => r.text.toList := by
  have hjoined : (",".intercalate (names.map text)).toList =
      [','].intercalate (names.map fun r => r.text.toList) := by
    rw [String.toList_intercalate, List.map_map]
    rfl
  rw [parts, hjoined, Text.splitAt_intercalate (by simpa using h)]
  intro part hpart
  obtain ⟨r, -, rfl⟩ := List.mem_map.1 hpart
  exact comma_notMem_text r

theorem parseList_joined {names : List ResourceName} (hne : names ≠ [])
    (hascending : names.Pairwise (· < ·)) :
    parseList (",".intercalate (names.map text)) = .ok names := by
  rw [parseList_eq_ok_iff, parts_joined hne]
  refine ⟨fun part hpart _ => ?_, hne, hascending, fun r => ⟨fun hr => ?_, ?_⟩⟩
  · obtain ⟨r, -, rfl⟩ := List.mem_map.1 hpart
    exact ⟨r, trimChars_text r⟩
  · exact ⟨r.text.toList, List.mem_map_of_mem hr, trimChars_text r⟩
  · rintro ⟨part, hpart, hname⟩
    obtain ⟨r', hr', rfl⟩ := List.mem_map.1 hpart
    rw [trimChars_text, String.toList_inj] at hname
    exact text_injective hname ▸ hr'

theorem exists_name_iff {cs : List Char} :
    (∃ r : ResourceName, cs = r.text.toList) ↔ cs = "cpu".toList ∨ cs = "memory".toList := by
  constructor
  · rintro ⟨_ | _, h⟩
    · exact .inl h
    · exact .inr h
  · rintro (h | h)
    · exact ⟨.cpu, h⟩
    · exact ⟨.memory, h⟩

/-- A list can be read just if there is a word in it and every word is the name of a resource. What it comes
to holds the names that occur, in ascending order; it is the same however else the list is written, and is
read back from its own names. -/
theorem parseList_canonical (s : String) :
    ((∃ names, parseList s = .ok names) ↔ (∃ part ∈ parts s, HasWord part) ∧
      ∀ part ∈ parts s, HasWord part →
        Text.trimChars part = "cpu".toList ∨ Text.trimChars part = "memory".toList) ∧
    ∀ names, parseList s = .ok names →
      names ≠ [] ∧ names.Pairwise (· < ·) ∧
      (∀ r, r ∈ names ↔ ∃ part ∈ parts s, Text.trimChars part = r.text.toList) ∧
      (∀ t, Relation.EqvGen Rewritten (parts s) (parts t) → parseList t = .ok names) ∧
      parseList (",".intercalate (names.map text)) = .ok names := by
  refine ⟨?_, fun names h => ?_⟩
  · rw [exists_parseList_iff]
    simp only [AllNames, exists_name_iff]
  · obtain ⟨-, hne, hascending, hoccurs⟩ := parseList_eq_ok_iff.1 h
    refine ⟨hne, hascending, hoccurs, fun t ht => ?_, parseList_joined hne hascending⟩
    exact (parseList_congr (words_eq_of_eqvGen ht)).1 h

/-- A name that is there twice, with a blank part and another name in between, counts once. -/
theorem unsorted_list_canonical :
    parseList "cpu, memory,, cpu" = .ok [.cpu, .memory] ∧
      [cpu, memory].Pairwise (· < ·) ∧
      Relation.EqvGen Rewritten (parts "memory,cpu") (parts "cpu, memory,, cpu") ∧
      parseList "memory,cpu" = .ok [.cpu, .memory] ∧ parseList "cpu,memory" = .ok [.cpu, .memory] := by
  have hread : parseList "cpu, memory,, cpu" = .ok [.cpu, .memory] := by
    refine parseList_eq.2 ⟨[cpu, memory, cpu], by decide +kernel, ?_, List.cons_ne_nil _ _⟩
    refine ascending_unique (eraseReps_ascending (mergeSort_inOrder _)) (by decide) fun r => ?_
    rw [mem_eraseReps, List.mem_mergeSort]
    cases r <;> decide
  have hblank : ¬ HasWord [] := by simp [HasWord]
  have hspace : ¬ HasWord [' '] := by simp [HasWord, Text.isBlank, Text.inRanges, Text.blankRanges]
  have hrewritten : Relation.EqvGen Rewritten (parts "memory,cpu") (parts "cpu, memory,, cpu") := by
    have hmemory : Rewritten ["memory".toList, "cpu".toList] [" memory".toList, "cpu".toList] :=
      .padded "memory".toList _ hspace hblank
    have hagain : Rewritten _ ["cpu".toList, " memory".toList, "cpu".toList] :=
      .again (List.mem_cons_of_mem " memory".toList List.mem_cons_self)
    have hcpu : Rewritten _ [" cpu".toList, " memory".toList, "cpu".toList] :=
      .padded "cpu".toList _ hspace hblank
    have hmore := Rewritten.blank [" cpu".toList, " memory".toList, "cpu".toList] hblank
    have hperm : ([] :: [" cpu".toList, " memory".toList, "cpu".toList]).Perm
        ["cpu".toList, " memory".toList, [], " cpu".toList] := by decide
    exact ((((Relation.EqvGen.rel _ _ hmemory).trans _ _ _ (.rel _ _ hagain)).trans _ _ _
      (.rel _ _ hcpu)).trans _ _ _ (.rel _ _ hmore)).trans _ _ _ (.rel _ _ (.reordered hperm))
  obtain ⟨-, hnames⟩ := parseList_canonical "cpu, memory,, cpu"
  obtain ⟨-, hascending, -, hother, hjoined⟩ := hnames _ hread
  exact ⟨hread, hascending, hrewritten, hother _ hrewritten.symm, hjoined⟩

end PodSizing.ResourceName
