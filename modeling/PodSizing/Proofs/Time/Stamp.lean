import PodSizing.Proofs.Text.Basic
import PodSizing.Proofs.Text.Numeral
import PodSizing.Proofs.Time.Calendar
import PodSizing.Time.Stamp

/-!
# Stamps read back

A stamp to the millisecond is read as the moment that it was written for, if that is within the years that
stamps can hold. So the time that has elapsed since a stamp is the difference of what the clock showed.
-/
namespace PodSizing.Time
open Text (paddedNumeral)

namespace Instant

theorem moment_millis (t : Instant) : t.moment.millis = t.unixMillis := by
  simp only [moment, Moment.millis, millisPerDay]
  omega

theorem moment_second_lt (t : Instant) : t.moment.second < 86400 := by
  simp only [moment, millisPerDay]
  omega

theorem moment_milli_lt (t : Instant) : t.moment.milli < 1000 := by
  simp only [moment]
  omega

end Instant

/-- Outside leap seconds, what has passed is the difference of the clock's readings. -/
theorem moment_since (now start : Instant) :
    now.moment.since start.moment = now.unixMillis - start.unixMillis := by
  have hlt := start.moment_milli_lt
  have hleap : start.moment.isLeap = false := by
    simp only [Moment.isLeap, decide_eq_false_iff_not]
    omega
  simp [Moment.since, Instant.moment_millis, hleap]

theorem readDigits_append {most : Nat} {digits rest : List Char}
    (hdigits : ∀ c ∈ digits, c.isDigit = true) (hne : digits ≠ []) (hle : digits.length ≤ most)
    (hend : digits.length = most ∨ rest.head?.all (!·.isDigit) = true) :
    readDigits most (digits ++ rest) = some (Text.numeralValue digits, rest) := by
  have htake : (digits ++ rest).take most = digits ++ rest.take (most - digits.length) := by
    rw [List.take_append, List.take_of_length_le hle]
  have hrest : (rest.take (most - digits.length)).takeWhile Char.isDigit = [] := by
    rcases hend with hfull | hstop
    · simp [hfull]
    · cases rest with
      | nil => simp
      | cons c cs =>
        have hc : c.isDigit = false := by simpa using hstop
        cases most - digits.length <;> simp [hc]
  have hwhole : ((digits ++ rest).take most).takeWhile Char.isDigit = digits := by
    rw [htake, List.takeWhile_append_of_pos hdigits, hrest, List.append_nil]
  unfold readDigits
  simp only [hwhole, List.isEmpty_iff, hne, if_false, List.drop_left]

theorem dropBlanks_digits {digits rest : List Char} (hdigits : ∀ c ∈ digits, c.isDigit = true)
    (hne : digits ≠ []) : Text.dropBlanks (digits ++ rest) = digits ++ rest := by
  cases digits with
  | nil => exact absurd rfl hne
  | cons c cs =>
    exact Text.dropBlanks_cons (Text.isBlank_of_isDigit (hdigits c List.mem_cons_self)) (cs ++ rest)

theorem readField_append {n : Nat} (h : n < 100) (rest : List Char) :
    readField (paddedNumeral 2 n ++ rest) = some (n, rest) := by
  have hdigits : ∀ c ∈ paddedNumeral 2 n, c.isDigit = true := fun _ => Text.isDigit_paddedNumeral
  have hne := Text.paddedNumeral_ne_nil 2 n
  have hlength : (paddedNumeral 2 n).length = 2 := Text.length_paddedNumeral (by decide) h
  rw [readField, dropBlanks_digits hdigits hne,
    readDigits_append hdigits hne (Nat.le_of_eq hlength) (.inl hlength),
    Text.numeralValue_paddedNumeral]

theorem readYear_unsigned {digits rest : List Char} (hdigits : ∀ c ∈ digits, c.isDigit = true)
    (hne : digits ≠ []) :
    readYear (digits ++ rest) = (readDigits 4 (digits ++ rest)).map fun (n, rest) => ((n : Int), rest) := by
  rw [readYear, dropBlanks_digits hdigits hne]
  cases digits with
  | nil => exact absurd rfl hne
  | cons c cs =>
    have hc := hdigits c List.mem_cons_self
    rw [List.cons_append]
    split
    · next heq =>
      rw [(List.cons.inj heq).1] at hc
      exact absurd hc (by decide)
    · next heq =>
      rw [(List.cons.inj heq).1] at hc
      exact absurd hc (by decide)
    · rfl

theorem readYear_append (y : Int) (rest : List Char) :
    readYear (writeYear y ++ '-' :: rest) = some (y, '-' :: rest) := by
  have hdigits (n : Nat) : ∀ c ∈ paddedNumeral 4 n, c.isDigit = true :=
    fun _ => Text.isDigit_paddedNumeral
  have hne (n : Nat) := Text.paddedNumeral_ne_nil 4 n
  have hsigned (n : Nat) : readDigits (paddedNumeral 4 n ++ '-' :: rest).length
      (paddedNumeral 4 n ++ '-' :: rest) = some (n, '-' :: rest) := by
    rw [readDigits_append (hdigits n) (hne n) (by simp) (.inr rfl), Text.numeralValue_paddedNumeral]
  unfold writeYear
  by_cases hplain : 0 ≤ y ∧ y ≤ 9999
  · have hlength : (paddedNumeral 4 y.toNat).length = 4 :=
      Text.length_paddedNumeral (by decide) (by omega)
    have hvalue : ((y.toNat : Nat) : Int) = y := Int.toNat_of_nonneg hplain.1
    rw [if_pos hplain, readYear_unsigned (hdigits _) (hne _),
      readDigits_append (hdigits _) (hne _) (Nat.le_of_eq hlength) (.inl hlength),
      Text.numeralValue_paddedNumeral]
    simp only [Option.map_some, hvalue]
  · rw [if_neg hplain, List.cons_append]
    by_cases hsign : y < 0
    · have hvalue : -((y.natAbs : Nat) : Int) = y := by omega
      rw [if_pos hsign, readYear, Text.dropBlanks_cons (by decide)]
      simp only [hsigned, Option.map_some, hvalue]
    · have hvalue : ((y.natAbs : Nat) : Int) = y := by omega
      rw [if_neg hsign, readYear, Text.dropBlanks_cons (by decide)]
      simp only [hsigned, Option.map_some, hvalue]

theorem readMillis_append {n : Nat} (h : n < 1000) (rest : List Char) :
    readMillis ('.' :: (paddedNumeral 3 n ++ rest)) = some (n, rest) := by
  have hdigits : ∀ c ∈ paddedNumeral 3 n, c.isDigit = true := fun _ => Text.isDigit_paddedNumeral
  have hlength : (paddedNumeral 3 n).length = 3 := Text.length_paddedNumeral (by decide) h
  have hvalue := Text.numeralValue_paddedNumeral 3 n
  match hchars : paddedNumeral 3 n, hlength with
  | [a, b, c], _ =>
    rw [hchars] at hdigits hvalue
    simp only [List.mem_cons, List.not_mem_nil, or_false, forall_eq_or_imp, forall_eq] at hdigits
    simp [readMillis, hdigits, hvalue]

theorem secondOf_moment {t : Moment} (h : supportsDay t.day = true) (hsecond : t.second < 86400) :
    secondOf (.ofDayNumber t.day) (t.second / 3600) (t.second / 60 % 60) (t.second % 60) 0 =
      some ⟨t.day, t.second, false⟩ := by
  have hexists := Date.exists?_ofDayNumber t.day
  have hyears := h
  simp only [supportsDay, Bool.and_eq_true, decide_eq_true_eq] at hyears
  have hhour : t.second / 3600 < 24 := by omega
  have hminute : t.second / 60 % 60 < 60 := Nat.mod_lt _ (by decide)
  have hlast : t.second % 60 ≠ 60 := by omega
  have hinDay : t.second / 3600 * 3600 + t.second / 60 % 60 * 60 + t.second % 60 = t.second := by
    omega
  have hday : (t.second : Int) / 86400 = 0 := by omega
  have hrest : ((t.second : Int) % 86400).toNat = t.second := by omega
  unfold secondOf
  rw [if_pos (by simp [hexists, hyears, hhour, hminute]; omega)]
  simp only [hlast, if_false, hinDay, Int.sub_zero, hday, hrest, Date.dayNumber_ofDayNumber,
    Int.add_zero, h, if_true, beq_eq_false_iff_ne.2 hlast]

theorem readExact_cons (c : Char) (rest : List Char) : readExact c (c :: rest) = some rest :=
  if_pos rfl

theorem readStamp?_stamp {t : Instant} (h : supportsDay t.moment.day = true) :
    readStamp? (stamp t) = some t.moment := by
  have hsecond := t.moment_second_lt
  obtain ⟨hmonth, hday⟩ := Date.lt_of_exists? (Date.exists?_ofDayNumber t.moment.day)
  have hhour : t.moment.second / 3600 < 100 := by omega
  have hminute : t.moment.second / 60 % 60 < 100 := by omega
  have hrest : t.moment.second % 60 < 100 := by omega
  have hoffset : readOffset (Text.dropBlanks utcOffset) = some (0, []) := by decide
  have hwritten : (stamp t).toList = writeYear (Date.ofDayNumber t.moment.day).year ++ '-' ::
      (paddedNumeral 2 (Date.ofDayNumber t.moment.day).month ++ '-' ::
        (paddedNumeral 2 (Date.ofDayNumber t.moment.day).day ++ 'T' ::
          (paddedNumeral 2 (t.moment.second / 3600) ++ ':' ::
            (paddedNumeral 2 (t.moment.second / 60 % 60) ++ ':' ::
              (paddedNumeral 2 (t.moment.second % 60) ++ '.' ::
                (paddedNumeral 3 t.moment.milli ++ utcOffset)))))) := by
    simp only [stamp, String.toList_ofList, writeToSecond, writeDate, writeTimeOfDay,
      List.append_assoc, List.cons_append]
  rw [readStamp?, hwritten]
  -- each part is read in turn, up to the mark that follows it
  refine Option.bind_eq_some_iff.2 ⟨_, readYear_append _ _, ?_⟩
  refine Option.bind_eq_some_iff.2 ⟨_, readExact_cons '-' _, ?_⟩
  refine Option.bind_eq_some_iff.2 ⟨_, readField_append hmonth _, ?_⟩
  refine Option.bind_eq_some_iff.2 ⟨_, readExact_cons '-' _, ?_⟩
  refine Option.bind_eq_some_iff.2 ⟨_, readField_append hday _, ?_⟩
  refine Option.bind_eq_some_iff.2 ⟨_, readExact_cons 'T' _, ?_⟩
  refine Option.bind_eq_some_iff.2 ⟨_, readField_append hhour _, ?_⟩
  refine Option.bind_eq_some_iff.2 ⟨_, readExact_cons ':' _, ?_⟩
  refine Option.bind_eq_some_iff.2 ⟨_, readField_append hminute _, ?_⟩
  refine Option.bind_eq_some_iff.2 ⟨_, readExact_cons ':' _, ?_⟩
  refine Option.bind_eq_some_iff.2 ⟨_, readField_append hrest _, ?_⟩
  refine Option.bind_eq_some_iff.2 ⟨_, readMillis_append t.moment_milli_lt _, ?_⟩
  refine Option.bind_eq_some_iff.2 ⟨_, hoffset, ?_⟩
  exact Option.bind_eq_some_iff.2 ⟨_, secondOf_moment h hsecond, rfl⟩

theorem elapsed?_stamp {start now : Instant} (h : supportsDay start.moment.day = true)
    (hle : start.unixMillis ≤ now.unixMillis) :
    elapsed? (stamp start) now = some (now.unixMillis - start.unixMillis).toNat := by
  have hpositive : 0 ≤ now.unixMillis - start.unixMillis := by omega
  simp only [elapsed?, readStamp?_stamp h, moment_since, hpositive, if_true]

theorem elapsed?_stamp_of_lt {start now : Instant} (h : supportsDay start.moment.day = true)
    (hlt : now.unixMillis < start.unixMillis) : elapsed? (stamp start) now = none := by
  have hnegative : ¬ 0 ≤ now.unixMillis - start.unixMillis := by omega
  simp only [elapsed?, readStamp?_stamp h, moment_since, hnegative, if_false]

end PodSizing.Time
