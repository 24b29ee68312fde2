import LiveComponent.Proofs.Calendar
import LiveComponent.Proofs.JsonText
import LiveComponent.Time.Instant
import Mathlib

namespace LiveComponent

namespace Instant

/-!
# Written instants are read back

An instant of a known year is given back by its written form.  Leap seconds are at the end of a minute,
and are written as its sixtieth second.
-/

/-! ## Digits -/

/-- A padded number consists of digits. -/
theorem isDigit_of_mem_padded
    {width n : Nat}
    {c : Char}
    (member : c ∈ padded width n) :
    c.isDigit = true := by
  rcases List.mem_append.mp member with zero | digit
  · rw [List.eq_of_mem_replicate zero]
    rfl
  · exact Text.isDigit_of_mem_ofNat digit

/-- Leading zeros do not change a number. -/
theorem numberOf_padded
    (width n : Nat) :
    numberOf (padded width n) = n := by
  change Nat.ofDigitChars 10 (padded width n) 0 = n
  rw [padded, Nat.ofDigitChars_append, Nat.ofDigitChars_replicate_zero, Nat.mul_zero]
  exact Nat.ofDigitChars_ten_toDigits

/-- A number is padded to the given width if it is not larger. -/
theorem length_padded
    {width n : Nat}
    (positive : 0 < width)
    (small : n < 10 ^ width) :
    (padded width n).length = width := by
  have fits : (Text.ofNat n).length ≤ width :=
    (Nat.length_toDigits_le_iff (by decide) positive).mpr small
  simp only [padded, List.length_append, List.length_replicate]
  omega

theorem padded_ne_nil
    (width n : Nat) :
    padded width n ≠ [] :=
  List.append_ne_nil_of_right_ne_nil _ (Text.ofNat_ne_nil n)

/-- A digit is no blank. -/
theorem isBlank_of_isDigit
    {c : Char}
    (digit : c.isDigit = true) :
    isBlank c = false := by
  have bounds := Char.isDigit_iff_toNat.mp digit
  have low : '0'.toNat = 48 := rfl
  have high : '9'.toNat = 57 := rfl
  simp only [isBlank, Bool.or_eq_false_iff, Bool.and_eq_false_iff, decide_eq_false_iff_not,
    beq_eq_false_iff_ne]
  omega

/-- No blank is trimmed in front of a padded number. -/
theorem trimStart_padded
    (width n : Nat)
    (rest : Text) :
    Text.trimStart (padded width n ++ rest) = padded width n ++ rest := by
  obtain ⟨first, others, shape⟩ := List.exists_cons_of_ne_nil (padded_ne_nil width n)
  have digit : first.isDigit = true := isDigit_of_mem_padded (shape ▸ List.mem_cons_self)
  simp [Text.trimStart, shape, isBlank_of_isDigit digit]

/-- A padded number is read back if it has the given width, or something else goes on after it. -/
theorem readDigits?_padded
    {count width n : Nat}
    {rest : Text}
    (fits : (padded width n).length ≤ count)
    (ends : (padded width n).length = count ∨ ∀ c ∈ rest.head?, c.isDigit = false) :
    readDigits? count (padded width n ++ rest) = some (n, rest) := by
  have taken : ((padded width n ++ rest).take count).takeWhile Char.isDigit = padded width n := by
    rw [List.take_append, List.take_of_length_le fits]
    refine Text.takeWhile_isDigit_append (fun c => isDigit_of_mem_padded) fun c member => ?_
    rcases ends with exact | other
    · rw [exact, Nat.sub_self, List.take_zero] at member
      cases member
    · refine other c ?_
      cases rest with
      | nil =>
          rw [List.take_nil] at member
          cases member
      | cons next rest =>
          cases room : count - (padded width n).length with
          | zero =>
              rw [room] at member
              cases member
          | succ room =>
              simpa [room] using member
  simp [readDigits?, taken, padded_ne_nil, numberOf_padded]

/-- A field of two digits is read back. -/
theorem readField?_padded
    {low high n : Nat}
    (above : low ≤ n)
    (below : n ≤ high)
    (small : n < 100)
    (rest : Text) :
    readField? low high (padded 2 n ++ rest) = some (n, rest) := by
  have length : (padded 2 n).length = 2 := length_padded (by decide) small
  simp [readField?, trimStart_padded, readDigits?_padded (Nat.le_of_eq length) (.inl length), above,
    below]

/-- A mark is read back. -/
theorem readMark?_cons
    {mark : Char}
    (noBlank : isBlank mark = false)
    (rest : Text) :
    readMark? mark (mark :: rest) = some rest := by
  simp [readMark?, Text.trimStart, noBlank]

/-! ## Dates -/

/-- A year is read back up to the mark after it. -/
theorem readYear?_yearText
    (year : Int)
    (rest : Text) :
    readYear? (yearText year ++ '-' :: rest) = some (year, '-' :: rest) := by
  have plain (n : Nat) :
      readDigits? (padded 4 n ++ '-' :: rest).length (padded 4 n ++ '-' :: rest) =
        some (n, '-' :: rest) :=
    readDigits?_padded (by simp) (.inr fun c member => by cases member; rfl)
  unfold yearText
  split
  next inRange =>
    have length : (padded 4 year.toNat).length = 4 := length_padded (by decide) (by omega)
    have read (rest : Text) : readDigits? 4 (padded 4 year.toNat ++ rest) = some (year.toNat, rest) :=
      readDigits?_padded (Nat.le_of_eq length) (.inl length)
    have same : (year.toNat : Int) = year := by omega
    obtain ⟨first, others, shape⟩ := List.exists_cons_of_ne_nil (padded_ne_nil 4 year.toNat)
    have digit : first.isDigit = true := isDigit_of_mem_padded (shape ▸ List.mem_cons_self)
    rw [readYear?, trimStart_padded]
    split
    next starts =>
      rw [shape, List.cons_append] at starts
      cases (List.cons.inj starts).1
      cases digit
    next starts =>
      rw [shape, List.cons_append] at starts
      cases (List.cons.inj starts).1
      cases digit
    next =>
      simp [read, same]
  next outOfRange =>
    have kept (sign : Char) (noBlank : isBlank sign = false) (n : Nat) :
        Text.trimStart (sign :: (padded 4 n ++ '-' :: rest)) =
          sign :: (padded 4 n ++ '-' :: rest) := by
      simp [Text.trimStart, noBlank]
    split
    next negative =>
      have same : -((-year).toNat : Int) = year := by omega
      rw [List.cons_append, readYear?, kept '-' rfl]
      change (readDigits? _ _).map _ = _
      rw [plain]
      simp only [Option.map_some, same]
    next late =>
      have same : (year.toNat : Int) = year := by omega
      rw [List.cons_append, readYear?, kept '+' rfl]
      change (readDigits? _ _).map _ = _
      rw [plain]
      simp only [Option.map_some, same]

/-- A date is read back up to the end of its digits. -/
theorem readDate?_written
    {date : Date}
    (valid : date.isValid = true)
    (rest : Text) :
    readDate? (yearText date.year ++ '-' :: (padded 2 date.month ++ '-' :: (padded 2 date.day ++ rest))) =
      some (date, rest) := by
  have month : 1 ≤ date.month ∧ date.month ≤ 12 := by
    simp only [Date.isValid, Bool.and_eq_true, decide_eq_true_eq] at valid
    exact valid.1.1
  have day : 1 ≤ date.day ∧ date.day ≤ 31 := by
    simp only [Date.isValid, Bool.and_eq_true, decide_eq_true_eq] at valid
    exact ⟨valid.1.2, valid.2.trans (Date.daysInMonth_le _ _)⟩
  have mark (rest : Text) : readMark? '-' ('-' :: rest) = some rest := readMark?_cons rfl rest
  simp [readDate?, readYear?_yearText, mark,
    readField?_padded month.1 month.2 (Nat.lt_of_le_of_lt month.2 (by decide)),
    readField?_padded day.1 day.2 (Nat.lt_of_le_of_lt day.2 (by decide))]

/-! ## Times of the day -/

/-- A fraction of a second is read back up to the mark of universal time. -/
theorem readFraction?_fractionText
    {nanos : Nat}
    (small : nanos < 1000000000) :
    readFraction? (fractionText nanos ++ ['Z']) = some (nanos, ['Z']) := by
  have digits (width n : Nat) (positive : 0 < width) (known : width ≤ 9) (fits : n < 10 ^ width) :
      readFraction? ('.' :: padded width n ++ ['Z']) = some (n * 10 ^ (9 - width), ['Z']) := by
    have length := length_padded positive fits
    have taken : (padded width n ++ ['Z']).takeWhile Char.isDigit = padded width n :=
      Text.takeWhile_isDigit_append (fun c => isDigit_of_mem_padded) fun c member => by
        cases member
        rfl
    have whole : (padded width n).take 9 = padded width n :=
      List.take_of_length_le (by rw [length]; exact known)
    have power : Nat.pow 10 (9 - width) = 10 ^ (9 - width) := rfl
    rw [List.cons_append, readFraction?, taken]
    simp [padded_ne_nil, whole, numberOf_padded, length]
  unfold fractionText
  split
  next none =>
    subst none
    rfl
  next =>
    split
    next millis =>
      rw [digits 3 _ (by decide) (by decide) (by omega)]
      simp
      omega
    next =>
      split
      next micros =>
        rw [digits 6 _ (by decide) (by decide) (by omega)]
        simp
        omega
      next =>
        rw [digits 9 _ (by decide) (by decide) small]
        simp

/-- A second of a day is read back with its fraction; the sixtieth of a minute is a leap second. -/
theorem readTime?_written
    {hour minute second nanos : Nat}
    (hourBound : hour < 24)
    (minuteBound : minute < 60)
    (secondBound : second ≤ 60)
    (small : nanos < 1000000000) :
    readTime?
        (padded 2 hour ++ ':' ::
          (padded 2 minute ++ ':' :: (padded 2 second ++ (fractionText nanos ++ ['Z'])))) =
      some (if second = 60 then (hour * 3600 + minute * 60 + 59, nanos + 1000000000, ['Z'])
        else (hour * 3600 + minute * 60 + second, nanos, ['Z'])) := by
  have mark (rest : Text) : readMark? ':' (':' :: rest) = some rest := readMark?_cons rfl rest
  have field {high n : Nat} (below : n ≤ high) (few : high < 100) (rest : Text) :
      readField? 0 high (padded 2 n ++ rest) = some (n, rest) :=
    readField?_padded (Nat.zero_le n) below (Nat.lt_of_le_of_lt below few) rest
  simp [readTime?, mark, field (Nat.le_of_lt_succ hourBound) (by decide),
    field (Nat.le_of_lt_succ minuteBound) (by decide), field secondBound (by decide),
    readFraction?_fractionText small]

/-- The time of a day is read back as the second of the day, also in a leap second. -/
theorem readTime?_ofSecond
    {second nanos : Nat}
    (inDay : second < 86400)
    (leap : nanos < 1000000000 ∨ nanos < 2000000000 ∧ second % 60 = 59) :
    readTime?
        (padded 2 (second / 3600) ++ ':' ::
          (padded 2 (second / 60 % 60) ++ ':' ::
            (padded 2 (if 1000000000 ≤ nanos then second % 60 + 1 else second % 60) ++
              (fractionText (if 1000000000 ≤ nanos then nanos - 1000000000 else nanos) ++ ['Z'])))) =
      some (second, nanos, ['Z']) := by
  have hour : second / 3600 < 24 := by omega
  have minute : second / 60 % 60 < 60 := Nat.mod_lt _ (by decide)
  by_cases isLeap : 1000000000 ≤ nanos
  · obtain ⟨bound, last⟩ : nanos < 2000000000 ∧ second % 60 = 59 := by omega
    have time := readTime?_written hour minute (Nat.le_refl 60)
      (show nanos - 1000000000 < 1000000000 by omega)
    have same : second / 3600 * 3600 + second / 60 % 60 * 60 + 59 = second := by omega
    have whole : nanos - 1000000000 + 1000000000 = nanos := by omega
    simpa [isLeap, last, same, whole] using time
  · have few : nanos < 1000000000 := Nat.lt_of_not_le isLeap
    have time := readTime?_written hour minute (show second % 60 ≤ 60 by omega) few
    have same : second / 3600 * 3600 + second / 60 % 60 * 60 + second % 60 = second := by omega
    have ordinary : second % 60 ≠ 60 := by omega
    simpa [isLeap, ordinary, same] using time

/-! ## Instants -/

/-- An instant of a known year.  It has less than a second of nanoseconds, or less than two in the last
second of a minute. -/
structure IsKnown (instant : Instant) : Prop where
  year :
    isKnownYear instant.date.year = true
  nanos :
    instant.nanos < 1000000000 ∨ instant.nanos < 2000000000 ∧ instant.seconds.fmod 60 = 59

/-- A known instant is given back by its written form. -/
theorem ofText?_toText
    {instant : Instant}
    (known : IsKnown instant) :
    ofText? instant.toText = some instant := by
  obtain ⟨seconds, nanos⟩ := instant
  have wholeDays : seconds.fdiv 86400 = seconds / 86400 := Date.fdiv_eq _ _ (by decide)
  have restOfDay : seconds.fmod 86400 = seconds % 86400 :=
    Int.fmod_eq_emod_of_nonneg seconds (by decide)
  have restOfMinute : seconds.fmod 60 = seconds % 60 :=
    Int.fmod_eq_emod_of_nonneg seconds (by decide)
  obtain ⟨second, inDay⟩ : ∃ second : Nat, seconds.fmod 86400 = second :=
    ⟨(seconds.fmod 86400).toNat, by omega⟩
  have leap : nanos < 1000000000 ∨ nanos < 2000000000 ∧ second % 60 = 59 := by
    rcases known.nanos with few | ⟨more, last⟩
    · exact .inl few
    · exact .inr ⟨more, by dsimp only at last; omega⟩
  have valid : (date ⟨seconds, nanos⟩).isValid = true := Date.isValid_ofDays _
  have time := readTime?_ofSecond (show second < 86400 by omega) leap
  have days : (date ⟨seconds, nanos⟩).toDays = seconds / 86400 := by
    rw [date, Date.toDays_ofDays, wholeDays]
  have sum : seconds / 86400 * 86400 + (second : Int) = seconds := by omega
  have offset : readOffset? ['Z'] = some (0, []) := rfl
  have blank : Text.isBlankText [] = true := rfl
  have small : decide (86400 ≤ (0 : Int).natAbs) = false := rfl
  simp only [ofText?, toText, inDay, Int.toNat_natCast, List.append_assoc, List.cons_append,
    List.nil_append, readDate?_written valid]
  simp only [Option.bind_eq_bind, Option.bind_some, true_or, if_true, time, offset, valid, known.year,
    days, Int.sub_zero, sum, blank, small, Bool.not_true, Bool.or_false, Bool.false_eq_true, if_false]

end Instant

end LiveComponent
