import PodSizing.Json.Reader
import PodSizing.Json.Writer

/-!
# Reading back what was written

The reader takes written text, lists and records apart again, whatever follows them. A value reads
back if its parts do; fuel of twice the length of its text is enough.
-/
namespace PodSizing.Json
open Text (hexValue?)

theorem hexValue?_hexDigit : ∀ n, n < 16 → hexValue? (hexDigit n) = some n := by decide

theorem readUnits_control {c : Char} (h : c.toNat < 0x20) (rest : List Char) :
    readUnits ('\\' :: 'u' :: '0' :: '0' :: hexDigit (c.toNat / 16) :: hexDigit c.toNat :: rest) =
      (readUnits rest).map fun (units, rest) => (c.toNat :: units, rest) := by
  have hhigh := hexValue?_hexDigit (c.toNat / 16) (by omega)
  have hlow : hexValue? (hexDigit c.toNat) = some (c.toNat % 16) := by
    have hmod := hexValue?_hexDigit (c.toNat % 16) (by omega)
    simpa [hexDigit] using hmod
  have hzero : hexValue? '0' = some 0 := rfl
  have hunit : hexUnit? '0' '0' (hexDigit (c.toNat / 16)) (hexDigit c.toNat) = some c.toNat := by
    simp only [hexUnit?, hzero, hhigh, hlow, Option.bind_eq_bind, Option.bind_some]
    congr 1
    omega
  rw [readUnits, hunit]
  cases readUnits rest <;> rfl

theorem readUnits_plain {c : Char} (hquote : c ≠ '"') (hslash : c ≠ '\\') (h : ¬c.toNat < 0x20)
    (rest : List Char) :
    readUnits (c :: rest) = (readUnits rest).map fun (units, rest) => (c.toNat :: units, rest) := by
  have hplain : (c == '\\' || decide (c.toNat < 0x20)) = false := by simp [hslash, h]
  rw [readUnits, hplain]
  · rfl
  · simpa using hquote
  · exact fun _ _ _ _ _ heq => absurd heq (by simp [hslash])
  · exact fun _ _ heq => absurd heq (by simp [hslash])

theorem readUnits_escapeChar (c : Char) (rest : List Char) :
    readUnits (escapeChar c ++ rest) =
      (readUnits rest).map fun (units, rest) => (c.toNat :: units, rest) := by
  unfold escapeChar
  split
  case h_8 hquote hslash _ _ _ _ _ =>
    split
    · next h => exact readUnits_control h rest
    · next h => exact readUnits_plain hquote hslash h rest
  -- the seven characters with a letter of their own
  all_goals
    simp only [List.cons_append, List.nil_append]
    rw [readUnits]
    · cases readUnits rest <;> rfl
    · simp

theorem readUnits_escaped (cs rest : List Char) :
    readUnits (cs.flatMap escapeChar ++ '"' :: rest) = some (cs.map Char.toNat, rest) := by
  induction cs with
  | nil => simp [readUnits]
  | cons c cs ih =>
    rw [List.flatMap_cons, List.append_assoc, readUnits_escapeChar, ih]
    rfl

theorem not_half (c : Char) : isHighHalf c.toNat = false ∧ isLowHalf c.toNat = false := by
  have hvalid : c.toNat < 0xD800 ∨ 0xDFFF < c.toNat ∧ c.toNat < 0x110000 := c.valid
  constructor <;> simp [isHighHalf, isLowHalf] <;> omega

theorem joinUnits_chars (cs : List Char) : joinUnits (cs.map Char.toNat) = some cs := by
  induction cs with
  | nil => rfl
  | cons c cs ih =>
    cases cs with
    | nil => simp [joinUnits, not_half]
    | cons d cs =>
      rw [List.map_cons, List.map_cons] at *
      simp only [joinUnits, not_half, ih]
      simp

theorem readText_written (s : String) (rest : List Char) :
    readText (s.toList.flatMap escapeChar ++ '"' :: rest) = some (some s, rest) := by
  simp [readText, readUnits_escaped, joinUnits_chars]

theorem skipGaps_cons {c : Char} (h : isGap c = false) (cs : List Char) :
    skipGaps (c :: cs) = c :: cs := by
  simp [skipGaps, h]

/-- A value that is read back from its text, whatever follows. -/
structure ReadsBack (v : Json) : Prop where
  starts : ∃ c cs, write v = c :: cs ∧ isGap c = false ∧ c ≠ ']'
  reads : ∀ fuel rest, 2 * (write v).length ≤ fuel →
    readValue fuel (write v ++ rest) = some (v, rest)

theorem readsBack_text (s : String) : ReadsBack (text s) where
  starts := ⟨'"', _, rfl, rfl, by decide⟩
  reads fuel rest hfuel := by
    cases fuel with
    | zero => simp [text, write, writeText] at hfuel
    | succ fuel =>
      have hread := readText_written s rest
      simp [text, write, writeText, readValue, skipGaps, isGap, hread]

theorem readItems_written {items : List Json} (hne : items ≠ [])
    (h : ∀ v ∈ items, ReadsBack v) (fuel : Nat) (rest : List Char)
    (hfuel : 2 * (writeItems items).length ≤ fuel) :
    readItems fuel (writeItems items ++ rest) = some (items, rest) := by
  induction items generalizing fuel with
  | nil => exact absurd rfl hne
  | cons v items ih =>
    have hv := h v List.mem_cons_self
    cases items with
    | nil =>
      simp only [writeItems, List.length_append, List.length_cons, List.length_nil] at hfuel
      cases fuel with
      | zero => omega
      | succ fuel =>
        have hread := hv.reads fuel (']' :: rest) (by omega)
        simp [writeItems, readItems, hread, skipGaps, isGap]
    | cons w items =>
      simp only [writeItems, List.length_append, List.length_cons] at hfuel
      cases fuel with
      | zero => omega
      | succ fuel =>
        have hread := hv.reads fuel (',' :: (writeItems (w :: items) ++ rest)) (by omega)
        have hrest := ih (by simp) (fun u hu => h u (List.mem_cons_of_mem _ hu)) fuel (by omega)
        simp [writeItems, readItems, hread, skipGaps, isGap, hrest]

theorem readsBack_arr {items : List Json} (h : ∀ v ∈ items, ReadsBack v) :
    ReadsBack (.arr items) where
  starts := ⟨'[', _, rfl, rfl, by decide⟩
  reads fuel rest hfuel := by
    simp only [write, List.length_cons] at hfuel
    cases fuel with
    | zero => omega
    | succ fuel =>
      cases items with
      | nil => simp [write, writeItems, readValue, skipGaps, isGap]
      | cons v items =>
        have hread := readItems_written (List.cons_ne_nil v items) h fuel rest (by omega)
        obtain ⟨c, cs, hw, hgap, hclose⟩ := (h v List.mem_cons_self).starts
        have hstart : ∃ cs, writeItems (v :: items) = c :: cs := by
          cases items <;> simp [writeItems, hw]
        obtain ⟨cs, hcs⟩ := hstart
        rw [hcs, List.cons_append] at hread
        simp only [write, hcs, List.cons_append, readValue, skipGaps_cons (c := '[') rfl,
          skipGaps_cons hgap]
        split
        · next heq => exact absurd (List.cons.inj heq).1 hclose
        · rw [hread]
          rfl

theorem readMembers_written {fields : List (String × Json)} (hne : fields ≠ [])
    (h : ∀ f ∈ fields, ReadsBack f.2) (fuel : Nat) (rest : List Char)
    (hfuel : 2 * (writeMembers (fields.map fun f => (some f.1, f.2))).length ≤ fuel) :
    readMembers fuel (writeMembers (fields.map fun f => (some f.1, f.2)) ++ rest) =
      some (fields.map fun f => (some f.1, f.2), rest) := by
  induction fields generalizing fuel with
  | nil => exact absurd rfl hne
  | cons f fields ih =>
    have hf := h f List.mem_cons_self
    cases fields with
    | nil =>
      simp only [List.map_cons, List.map_nil, writeMembers, List.length_append, List.length_cons,
        List.length_nil] at hfuel
      cases fuel with
      | zero => omega
      | succ fuel =>
        have hname := readText_written f.1 (':' :: (write f.2 ++ '}' :: rest))
        have hread := hf.reads fuel ('}' :: rest) (by omega)
        simp [writeMembers, writeText, readMembers, skipGaps, isGap, hname, hread]
    | cons g fields =>
      simp only [List.map_cons, writeMembers, List.length_append, List.length_cons] at hfuel
      cases fuel with
      | zero => omega
      | succ fuel =>
        have hrest := ih (by simp) (fun u hu => h u (List.mem_cons_of_mem _ hu)) fuel
          (by simp only [List.map_cons]; omega)
        simp only [List.map_cons] at hrest
        have hread := hf.reads fuel
          (',' :: (writeMembers ((some g.1, g.2) :: fields.map fun f => (some f.1, f.2)) ++ rest))
          (by omega)
        have hname := readText_written f.1 (':' :: (write f.2 ++ ',' ::
          (writeMembers ((some g.1, g.2) :: fields.map fun f => (some f.1, f.2)) ++ rest)))
        simp [writeMembers, writeText, readMembers, skipGaps, isGap, hname, hread, hrest]

theorem readsBack_record {fields : List (String × Json)} (h : ∀ f ∈ fields, ReadsBack f.2) :
    ReadsBack (record fields) where
  starts := ⟨'{', _, rfl, rfl, by decide⟩
  reads fuel rest hfuel := by
    simp only [record, write, List.length_cons] at hfuel
    cases fuel with
    | zero => omega
    | succ fuel =>
      cases fields with
      | nil => simp [record, write, writeMembers, readValue, skipGaps, isGap]
      | cons f fields =>
        have hread := readMembers_written (List.cons_ne_nil f fields) h fuel rest (by omega)
        have hstart : ∃ cs, writeMembers ((f :: fields).map fun f => (some f.1, f.2)) =
            '"' :: cs := by
          cases fields <;> simp [writeMembers, writeText]
        obtain ⟨cs, hcs⟩ := hstart
        rw [hcs, List.cons_append] at hread
        simp only [record, write, hcs, List.cons_append, readValue, skipGaps_cons (c := '{') rfl,
          skipGaps_cons (c := '"') rfl]
        split
        · next heq => simp at heq
        · rw [hread]
          rfl

/-- The whole text of such a value is read as that value. -/
theorem parse?_compact {v : Json} (h : ReadsBack v) : parse? v.compact = some v := by
  have hread := h.reads (2 * (write v).length + 2) [] (by omega)
  rw [List.append_nil] at hread
  simp [parse?, compact, readChars, hread, skipGaps]

end PodSizing.Json
