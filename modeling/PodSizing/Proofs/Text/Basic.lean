import Mathlib.Data.List.TakeWhile
import PodSizing.Text.Basic

/-!
# Texts without outer blanks, and texts from their parts

A text that has been trimmed has nothing left to trim, nor has a text that has no blanks. From a text that
is put together from parts without a separator in them these parts are read back.
-/
namespace PodSizing.Text

theorem dropBlanks_cons {c : Char} (h : isBlank c = false) (cs : List Char) :
    dropBlanks (c :: cs) = c :: cs := by
  simp [dropBlanks, h]

theorem dropBlanks_cases (cs : List Char) :
    dropBlanks cs = [] ∨ ∃ c rest, isBlank c = false ∧ dropBlanks cs = c :: rest := by
  induction cs with
  | nil => exact .inl rfl
  | cons c rest ih =>
    cases h : isBlank c with
    | false => exact .inr ⟨c, rest, h, dropBlanks_cons h rest⟩
    | true =>
      have hskip : dropBlanks (c :: rest) = dropBlanks rest := by simp [dropBlanks, h]
      rw [hskip]
      exact ih

theorem dropBlanks_dropBlanks (cs : List Char) : dropBlanks (dropBlanks cs) = dropBlanks cs := by
  rcases dropBlanks_cases cs with h | ⟨c, rest, hc, h⟩
  · rw [h]
    rfl
  · rw [h]
    exact dropBlanks_cons hc rest

theorem dropBlanks_trimChars (cs : List Char) : dropBlanks (trimChars cs) = trimChars cs := by
  rcases dropBlanks_cases cs with h | ⟨c, rest, hc, h⟩
  · simp only [trimChars, h]
    rfl
  · have hend : dropBlanks (rest.reverse ++ [c]) = dropBlanks rest.reverse ++ [c] := by
      unfold dropBlanks
      rw [List.dropWhile_append]
      cases hrest : rest.reverse.dropWhile isBlank with
      | nil => simp [hc]
      | cons d ds => simp
    simp only [trimChars, h, List.reverse_cons, hend, List.reverse_append]
    exact dropBlanks_cons hc _

theorem trimChars_trimChars (cs : List Char) : trimChars (trimChars cs) = trimChars cs := by
  have hstart : trimChars (trimChars cs) = (dropBlanks (trimChars cs).reverse).reverse := by
    rw [trimChars, dropBlanks_trimChars]
  rw [hstart]
  simp only [trimChars, List.reverse_reverse, dropBlanks_dropBlanks]

theorem toList_trim (s : String) : (trim s).toList = trimChars s.toList := by
  simp [trim]

theorem trimChars_eq_nil_iff {cs : List Char} :
    trimChars cs = [] ↔ ∀ c ∈ cs, isBlank c = true := by
  have hdrop (l : List Char) : dropBlanks l = [] ↔ ∀ c ∈ l, isBlank c = true :=
    List.dropWhile_eq_nil_iff
  rw [← hdrop, trimChars, List.reverse_eq_nil_iff, hdrop]
  rcases dropBlanks_cases cs with h | ⟨c, rest, hc, h⟩
  · simp [h]
  · simp only [h, List.mem_reverse, reduceCtorEq, iff_false]
    intro hblank
    rw [hblank c List.mem_cons_self] at hc
    cases hc

theorem trim_isEmpty_iff {s : String} :
    (trim s).isEmpty = true ↔ ∀ c ∈ s.toList, isBlank c = true := by
  rw [← trimChars_eq_nil_iff, String.isEmpty_iff, ← String.toList_inj, toList_trim]
  simp

theorem dropBlanks_append {before : List Char} (h : ∀ c ∈ before, isBlank c = true)
    (cs : List Char) : dropBlanks (before ++ cs) = dropBlanks cs :=
  List.dropWhile_append_of_pos h

theorem trimChars_append_blanks (cs : List Char) {after : List Char}
    (h : ∀ c ∈ after, isBlank c = true) : trimChars (cs ++ after) = trimChars cs := by
  have hdrop : dropBlanks (cs ++ after) =
      if (dropBlanks cs).isEmpty then dropBlanks after else dropBlanks cs ++ after :=
    List.dropWhile_append
  have hafter : dropBlanks after = [] := List.dropWhile_eq_nil_iff.2 h
  unfold trimChars
  rw [hdrop, hafter]
  cases hcs : dropBlanks cs with
  | nil => rfl
  | cons c rest =>
    rw [if_neg (by simp), List.reverse_append, dropBlanks_append]
    exact fun c hc => h c (List.mem_reverse.1 hc)

theorem trimChars_padded {before after : List Char} (hbefore : ∀ c ∈ before, isBlank c = true)
    (hafter : ∀ c ∈ after, isBlank c = true) (cs : List Char) :
    trimChars (before ++ cs ++ after) = trimChars cs := by
  rw [trimChars_append_blanks _ hafter, trimChars, dropBlanks_append hbefore, ← trimChars]

theorem isBlank_of_isDigit {c : Char} (h : c.isDigit = true) : isBlank c = false := by
  simp only [Char.isDigit, Bool.and_eq_true, decide_eq_true_eq, ge_iff_le] at h
  have hlow : 48 ≤ c.toNat := h.1
  have hhigh : c.toNat ≤ 57 := h.2
  simp only [isBlank, inRanges, blankRanges, List.any_cons, List.any_nil,
    Bool.or_eq_false_iff, Bool.and_eq_false_iff, decide_eq_false_iff_not, and_true]
  omega

theorem dropBlanks_eq_self {cs : List Char} (h : ∀ c ∈ cs, isBlank c = false) :
    dropBlanks cs = cs := by
  cases cs with
  | nil => rfl
  | cons c rest => exact dropBlanks_cons (h c List.mem_cons_self) rest

theorem trimChars_eq_self {cs : List Char} (h : ∀ c ∈ cs, isBlank c = false) :
    trimChars cs = cs := by
  have hreverse : ∀ c ∈ cs.reverse, isBlank c = false := fun c hc => h c (List.mem_reverse.1 hc)
  rw [trimChars, dropBlanks_eq_self h, dropBlanks_eq_self hreverse, List.reverse_reverse]

theorem splitAt_eq_splitOn (separator : Char) (cs : List Char) :
    splitAt separator cs = cs.splitOn separator := by
  induction cs with
  | nil => rfl
  | cons c cs ih =>
    rw [splitAt, List.splitOn_cons_eq_if_modifyHead, ← ih]
    by_cases h : c = separator
    · simp [h]
    · have hne : splitAt separator cs ≠ [] := ih ▸ List.splitOn_ne_nil separator cs
      cases hparts : splitAt separator cs with
      | nil => exact absurd hparts hne
      | cons part parts => simp [h]

/-- Parts of a text that are put together come apart again. -/
theorem splitAt_intercalate {separator : Char} {parts : List (List Char)} (hne : parts ≠ [])
    (h : ∀ part ∈ parts, separator ∉ part) :
    splitAt separator ([separator].intercalate parts) = parts := by
  rw [splitAt_eq_splitOn, List.splitOn_intercalate separator h hne]

end PodSizing.Text
