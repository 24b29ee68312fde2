import LiveComponent.Json.Printer
import LiveComponent.Json.Reader

namespace LiveComponent

/-!
# Printed values are read back

The reader gives back every value that the printer writes, as long as all numbers of the value are
natural and all strings stand for texts.
-/

namespace Text

/-! ## Digits -/

/-- A number is written in digits. -/
theorem isDigit_of_mem_ofNat
    {n : Nat}
    {c : Char}
    (member : c ∈ ofNat n) :
    c.isDigit = true :=
  Nat.isDigit_of_mem_toDigits (by decide) (by decide) member

@[simp]
theorem ofNat_ne_nil
    (n : Nat) :
    ofNat n ≠ [] :=
  Nat.toDigits_ne_nil

/-- Only zero is written with a leading zero. -/
theorem eq_zero_of_ofNat
    {n : Nat}
    {rest : Text}
    (leads : ofNat n = '0' :: rest) :
    n = 0 := by
  induction n using Nat.strongRecOn generalizing rest with
  | ind n inductionHypothesis =>
      by_cases small : n < 10
      · rw [ofNat, Nat.toDigits_of_lt_base small, List.cons.injEq] at leads
        simpa using leads.1
      · rw [ofNat, Nat.toDigits_of_base_le (by decide) (Nat.le_of_not_lt small)] at leads
        obtain ⟨first, others, high⟩ := List.exists_cons_of_ne_nil (ofNat_ne_nil (n / 10))
        rw [ofNat] at high
        rw [high, List.cons_append, List.cons.injEq] at leads
        have none := inductionHypothesis (n / 10) (by omega) (high.trans (by rw [leads.1]))
        omega

/-- Digits that go on with something else are taken as a whole. -/
theorem takeWhile_isDigit_append
    {digits rest : Text}
    (all : ∀ c ∈ digits, c.isDigit = true)
    (ends : ∀ c ∈ rest.head?, c.isDigit = false) :
    (digits ++ rest).takeWhile Char.isDigit = digits := by
  rw [List.takeWhile_append_of_pos all]
  cases rest with
  | nil =>
      simp
  | cons c rest =>
      simp [ends c rfl]

end Text

namespace Json

theorem valueOfDigits_ofNat
    (n : Nat) :
    valueOfDigits (Text.ofNat n) = n :=
  Nat.ofDigitChars_ten_toDigits

/-- A number of at most 64 bits is read back. -/
theorem asWord?_ofNat
    {n : Nat}
    (fits : n < UInt64.size) :
    (ofNat n).asWord? = some n := by
  have digits : (Text.ofNat n).all Char.isDigit = true :=
    List.all_eq_true.mpr fun c member => Text.isDigit_of_mem_ofNat member
  simp [asWord?, ofNat, valueOfDigits_ofNat, digits, fits]

/-! ## Strings -/

/-- A text is given back by the code points of its characters. -/
theorem textOfUnits?_map_toNat
    (value : Text) :
    textOfUnits? (value.map Char.toNat) = some value := by
  have whole (c : Char) : isHighHalf c.toNat = false ∧ isLowHalf c.toNat = false := by
    have valid := c.valid
    simp only [isHighHalf, isLowHalf, UInt32.isValidChar, Nat.isValidChar] at valid ⊢
    have same : c.val.toNat = c.toNat := rfl
    simp only [Bool.and_eq_false_iff, decide_eq_false_iff_not]
    omega
  induction value with
  | nil =>
      rfl
  | cons c rest inductionHypothesis =>
      obtain ⟨notHigh, notLow⟩ := whole c
      cases rest with
      | nil =>
          simp [textOfUnits?, notHigh, notLow]
      | cons next rest =>
          simp only [List.map_cons] at inductionHypothesis ⊢
          simp [textOfUnits?, notHigh, notLow, inductionHypothesis]

theorem hexDigit?_digitChar
    {digit : Nat}
    (small : digit < 16) :
    hexDigit? digit.digitChar = some digit := by
  have all : ∀ digit < 16, hexDigit? digit.digitChar = some digit := by decide
  exact all digit small

/-- A printed character is read as its code point. -/
theorem readUnits_printedChar
    (c : Char)
    (rest : Text) :
    readUnits (printedChar c ++ rest) =
      (readUnits rest).map fun (units, after) => (c.toNat :: units, after) := by
  have escaped (letter value : Char)
      (differs : letter ≠ 'u')
      (known : shortEscape? letter = some value) :
      readUnits ('\\' :: letter :: rest) =
        (readUnits rest).map fun (units, after) => (value.toNat :: units, after) := by
    rw [readUnits.eq_def]
    split
    next same => cases same
    next same => cases same
    next same =>
      cases same
      exact absurd rfl differs
    next e rest _ same =>
      cases same
      rw [known]
      cases readUnits rest <;> rfl
    next c rest _ _ plain same =>
      cases same
      exact (plain letter _ rfl rfl).elim
  unfold printedChar
  split
  · exact escaped '"' '"' (by decide) rfl
  · exact escaped '\\' '\\' (by decide) rfl
  · exact escaped 'n' '\n' (by decide) rfl
  · exact escaped 'r' '\r' (by decide) rfl
  · exact escaped 't' '\t' (by decide) rfl
  · exact escaped 'b' '\x08' (by decide) rfl
  · exact escaped 'f' '\x0c' (by decide) rfl
  next noQuote noBackslash _ _ _ _ _ =>
    split
    next control =>
      have unit : hexFour? '0' '0' (c.toNat / 16).digitChar (c.toNat % 16).digitChar =
          some c.toNat := by
        have high := hexDigit?_digitChar (show c.toNat / 16 < 16 by omega)
        have low := hexDigit?_digitChar (show c.toNat % 16 < 16 by omega)
        have whole : c.toNat / 16 * 16 + c.toNat % 16 = c.toNat := by omega
        have zero : hexDigit? '0' = some 0 := rfl
        simp [hexFour?, zero, high, low, whole]
      change readUnits ('\\' :: 'u' :: '0' :: '0' :: _ :: _ :: rest) = _
      rw [readUnits, unit]
      cases readUnits rest <;> rfl
    next printable =>
      rw [List.singleton_append, readUnits.eq_def]
      split
      next same => cases same
      next same =>
        cases same
        exact (noQuote rfl).elim
      next same =>
        cases same
        exact (noBackslash rfl).elim
      next same =>
        cases same
        exact (noBackslash rfl).elim
      next same =>
        cases same
        rw [if_neg printable]

/-- A printed string is read back up to its closing quote. -/
theorem readUnits_flatMap
    (value rest : Text) :
    readUnits (value.flatMap printedChar ++ '"' :: rest) =
      some (value.map Char.toNat, rest) := by
  induction value with
  | nil =>
      simp [readUnits]
  | cons c value inductionHypothesis =>
      simp [readUnits_printedChar, inductionHypothesis]

/-- A printed string is read back. -/
theorem readString?_printed
    (value rest : Text) :
    readString? (value.flatMap printedChar ++ '"' :: rest) = some (.text value, rest) := by
  simp [readString?, readUnits_flatMap, textOfUnits?_map_toNat]

/-! ## Numbers -/

/-- No number goes on with the text. -/
def EndsNumber (rest : Text) : Prop :=
  ∀ c ∈ rest.head?, c.isDigit = false ∧ c ≠ '.' ∧ c ≠ 'e' ∧ c ≠ 'E'

/-- A written number is read back. -/
theorem readNumber?_ofNat
    (n : Nat)
    {rest : Text}
    (ends : EndsNumber rest) :
    readNumber? (Text.ofNat n ++ rest) = some (ofNat n, rest) := by
  obtain ⟨first, others, shape⟩ := List.exists_cons_of_ne_nil (Text.ofNat_ne_nil n)
  have digits : ∀ c ∈ Text.ofNat n, c.isDigit = true := fun c => Text.isDigit_of_mem_ofNat
  have digit : first.isDigit = true := digits first (shape ▸ List.mem_cons_self)
  have unsigned : ((Text.ofNat n ++ rest).takeWhile (· == '-')).take 1 = [] := by
    have plain : (first == '-') = false := by
      rw [beq_eq_false_iff_ne]
      rintro rfl
      cases digit
    simp [shape, plain]
  have whole : digitsAfter? [] (Text.ofNat n ++ rest) = some (Text.ofNat n, rest) := by
    have taken := Text.takeWhile_isDigit_append digits fun c member => (ends c member).1
    simp [digitsAfter?, taken]
  have integral : readIntegral? (Text.ofNat n ++ rest) = some (Text.ofNat n, rest) := by
    unfold readIntegral?
    split
    next after starts =>
      rw [shape, List.cons_append, List.cons.injEq] at starts
      have zero : n = 0 := Text.eq_zero_of_ofNat (shape.trans (by rw [starts.1]))
      subst zero
      have nothing : others = [] := (List.cons.inj shape).2.symm
      rw [nothing, List.nil_append] at starts
      rw [← starts.2]
      cases rest with
      | nil =>
          rfl
      | cons c rest =>
          have other : c.isDigit = false := (ends c rfl).1
          simp [other, Text.ofNat]
    next =>
      exact whole
  have fraction : readFraction? rest = some ([], rest) := by
    unfold readFraction?
    split
    next after =>
      exact absurd rfl (ends '.' rfl).2.1
    next =>
      rfl
  have exponent : readExponent? rest = some ([], rest) := by
    cases rest with
    | nil =>
        rfl
    | cons c rest =>
        obtain ⟨-, -, small, great⟩ := ends c rfl
        simp [readExponent?, small, great]
  simp [readNumber?, unsigned, integral, fraction, exponent, ofNat]

/-! ## Values -/

/-- A value without broken strings, and with no numbers but natural ones. -/
inductive Plain : Json → Prop where
  | null :
      Plain null
  | bool
      (value : Bool) :
      Plain (bool value)
  | number
      (n : Nat) :
      Plain (ofNat n)
  | text
      (value : Text) :
      Plain (text value)
  | list
      (items : List Json)
      (plain : ∀ item ∈ items, Plain item) :
      Plain (list items)
  | object
      (members : List (Text × Json))
      (plain : ∀ member ∈ members, Plain member.2) :
      Plain (object members)

/-- The printed value is read back whatever comes after it, unless this goes on with a number. -/
def IsReadBack (json : Json) : Prop :=
  ∀ count rest, (print json).length ≤ count → EndsNumber rest →
    readValue? count (print json ++ rest) = some (json, rest)

/-- A character with which a value can start. -/
def Starts (c : Char) : Prop :=
  isGap c = false ∧ c ≠ ']' ∧ c ≠ '\x7d'

/-- A printed value is not empty and starts with no blank and no closing bracket. -/
theorem Plain.print_eq_cons
    {json : Json}
    (plain : Plain json) :
    ∃ first others, print json = first :: others ∧ Starts first := by
  have starts (c : Char) (others : Text) (same : print json = c :: others)
      (good : isGap c = false ∧ c ≠ ']' ∧ c ≠ '\x7d') :
      ∃ first others, print json = first :: others ∧ Starts first :=
    ⟨c, others, same, good⟩
  cases plain with
  | null =>
      exact starts 'n' _ (by rw [print]; rfl) (by decide)
  | bool value =>
      cases value with
      | false => exact starts 'f' _ (by rw [print]; rfl) (by decide)
      | true => exact starts 't' _ (by rw [print]; rfl) (by decide)
  | number n =>
      obtain ⟨first, others, shape⟩ := List.exists_cons_of_ne_nil (Text.ofNat_ne_nil n)
      have digit : first.isDigit = true :=
        Text.isDigit_of_mem_ofNat (shape ▸ List.mem_cons_self)
      refine starts first others (by rw [ofNat, print, shape]) ⟨?_, ?_, ?_⟩
      · simp only [isGap, Bool.or_eq_false_iff, beq_eq_false_iff_ne]
        refine ⟨⟨⟨?_, ?_⟩, ?_⟩, ?_⟩ <;> (rintro rfl; cases digit)
      · rintro rfl
        cases digit
      · rintro rfl
        cases digit
  | text value =>
      exact starts '"' _ (by rw [print]; rfl) (by decide)
  | list items =>
      exact starts '[' _ (by rw [print]) (by decide)
  | object members =>
      exact starts '\x7b' _ (by rw [print]) (by decide)

/-- No blank is skipped in front of another character. -/
theorem skipGap_cons
    {c : Char}
    (noGap : isGap c = false)
    (rest : Text) :
    skipGap (c :: rest) = c :: rest := by
  simp [skipGap, noGap]

/-- The items of a list are read back up to its closing bracket. -/
theorem readItems?_printed
    {items : List Json}
    (nonempty : items ≠ [])
    (readBack : ∀ item ∈ items, IsReadBack item)
    (count : Nat)
    (enough : (Text.joinWith [','] (printAll items)).length < count)
    (rest : Text) :
    readItems? count (Text.joinWith [','] (printAll items) ++ ']' :: rest) =
      some (items, rest) := by
  induction items generalizing count with
  | nil =>
      exact absurd rfl nonempty
  | cons item items inductionHypothesis =>
      obtain ⟨count, rfl⟩ := Nat.exists_eq_succ_of_ne_zero (Nat.ne_zero_of_lt enough)
      have first := readBack item List.mem_cons_self
      cases items with
      | nil =>
          have enough : (print item).length ≤ count := by
            simpa [printAll, Text.joinWith] using Nat.le_of_lt_succ enough
          have ended := first count (']' :: rest) enough fun c member => by
            cases member
            decide
          simp [readItems?, printAll, Text.joinWith, ended, skipGap_cons (c := ']') rfl]
      | cons second others =>
          have shape : Text.joinWith [','] (printAll (item :: second :: others)) =
              print item ++ ',' :: Text.joinWith [','] (printAll (second :: others)) := by
            simp [printAll, Text.joinWith]
          rw [shape] at enough ⊢
          simp only [List.length_append, List.length_cons] at enough
          have ended := first count
            (',' :: (Text.joinWith [','] (printAll (second :: others)) ++ ']' :: rest))
            (by omega) fun c member => by
              cases member
              decide
          have later := inductionHypothesis (List.cons_ne_nil second others)
            (fun other member => readBack other (List.mem_cons_of_mem item member))
            count (by omega)
          simp [readItems?, ended, skipGap_cons (c := ',') rfl, later]

/-- The name of a member is read back with its colon. -/
theorem readName?_printed
    (name rest : Text) :
    readName? (printedString name ++ ':' :: rest) = some (name, rest) := by
  have shape : printedString name ++ ':' :: rest =
      '"' :: (name.flatMap printedChar ++ '"' :: ':' :: rest) := by
    simp [printedString]
  simp [shape, readName?, skipGap_cons (c := '"') rfl, readString?_printed,
    skipGap_cons (c := ':') rfl]

/-- The members of an object are read back up to its closing brace. -/
theorem readMembers?_printed
    {members : List (Text × Json)}
    (nonempty : members ≠ [])
    (readBack : ∀ member ∈ members, IsReadBack member.2)
    (count : Nat)
    (enough : (Text.joinWith [','] (printMembers members)).length < count)
    (rest : Text) :
    readMembers? count (Text.joinWith [','] (printMembers members) ++ '\x7d' :: rest) =
      some (members, rest) := by
  induction members generalizing count with
  | nil =>
      exact absurd rfl nonempty
  | cons member members inductionHypothesis =>
      obtain ⟨name, value⟩ := member
      obtain ⟨count, rfl⟩ := Nat.exists_eq_succ_of_ne_zero (Nat.ne_zero_of_lt enough)
      have first : IsReadBack value := readBack (name, value) List.mem_cons_self
      cases members with
      | nil =>
          have shape : Text.joinWith [','] (printMembers [(name, value)]) ++ '\x7d' :: rest =
              printedString name ++ ':' :: (print value ++ '\x7d' :: rest) := by
            simp [printMembers, Text.joinWith]
          have enough : (print value).length ≤ count := by
            simp only [printMembers, Text.joinWith, List.length_append, List.length_cons] at enough
            omega
          have ended := first count ('\x7d' :: rest) enough fun c member => by
            cases member
            decide
          simp [shape, readMembers?, readName?_printed, ended, skipGap_cons (c := '\x7d') rfl]
      | cons second others =>
          have shape : Text.joinWith [','] (printMembers ((name, value) :: second :: others)) =
              printedString name ++
                ':' :: (print value ++
                  ',' :: Text.joinWith [','] (printMembers (second :: others))) := by
            simp [printMembers, Text.joinWith]
          rw [shape] at enough ⊢
          simp only [List.length_append, List.length_cons] at enough
          have ended := first count
            (',' :: (Text.joinWith [','] (printMembers (second :: others)) ++ '\x7d' :: rest))
            (by omega) fun c member => by
              cases member
              decide
          have later := inductionHypothesis (List.cons_ne_nil second others)
            (fun other member => readBack other (List.mem_cons_of_mem (name, value) member))
            count (by omega)
          simp [readMembers?, readName?_printed, ended, skipGap_cons (c := ',') rfl, later]

/-- A number is read back. -/
theorem isReadBack_ofNat
    (n : Nat) :
    IsReadBack (ofNat n) := by
  intro count rest enough ends
  obtain ⟨first, others, shape, noGap, -⟩ := Plain.print_eq_cons (.number n)
  have text : print (ofNat n) = Text.ofNat n := by rw [ofNat, print]
  have digit : first.isDigit = true :=
    Text.isDigit_of_mem_ofNat (n := n) (by rw [← text, shape]; exact List.mem_cons_self)
  rw [shape, List.length_cons] at enough
  obtain ⟨count, rfl⟩ := Nat.exists_eq_succ_of_ne_zero (Nat.ne_zero_of_lt enough)
  have read := readNumber?_ofNat n ends
  rw [← text, shape, List.cons_append] at read
  rw [shape, List.cons_append, readValue?, skipGap_cons noGap]
  -- A digit starts no other value.
  have starts (c : Char) (lead : Text) (same : first :: (others ++ rest) = c :: lead) :
      c.isDigit = true :=
    (List.cons.inj same).1 ▸ digit
  split
  next same => exact absurd (starts _ _ same) (by decide)
  next same => exact absurd (starts _ _ same) (by decide)
  next same => exact absurd (starts _ _ same) (by decide)
  next same => exact absurd (starts _ _ same) (by decide)
  next same => exact absurd (starts _ _ same) (by decide)
  next same => exact absurd (starts _ _ same) (by decide)
  next => exact read

/-- A list is read back if its items are. -/
theorem isReadBack_list
    {items : List Json}
    (plain : ∀ item ∈ items, Plain item)
    (readBack : ∀ item ∈ items, IsReadBack item) :
    IsReadBack (list items) := by
  intro count rest enough _
  rw [print, List.length_cons, List.length_append] at enough
  obtain ⟨count, rfl⟩ := Nat.exists_eq_succ_of_ne_zero (Nat.ne_zero_of_lt enough)
  cases items with
  | nil =>
      simp [print, printAll, Text.joinWith, readValue?, skipGap_cons (c := '[') rfl,
        skipGap_cons (c := ']') rfl]
  | cons item items =>
      have shape : print (list (item :: items)) ++ rest =
          '[' :: (Text.joinWith [','] (printAll (item :: items)) ++ ']' :: rest) := by
        simp [print]
      have read := readItems?_printed (List.cons_ne_nil item items) readBack count
        (Nat.le_of_succ_le_succ enough) rest
      obtain ⟨first, others, starts, noGap, noEnd, -⟩ := (plain item List.mem_cons_self).print_eq_cons
      obtain ⟨after, inside⟩ : ∃ after,
          Text.joinWith [','] (printAll (item :: items)) ++ ']' :: rest = first :: after := by
        cases items <;> simp [printAll, Text.joinWith, starts]
      rw [inside] at read
      simp [shape, readValue?, skipGap_cons (c := '[') rfl, inside, skipGap_cons noGap, noEnd, read]

/-- An object is read back if its members are. -/
theorem isReadBack_object
    {members : List (Text × Json)}
    (readBack : ∀ member ∈ members, IsReadBack member.2) :
    IsReadBack (object members) := by
  intro count rest enough _
  rw [print, List.length_cons, List.length_append] at enough
  obtain ⟨count, rfl⟩ := Nat.exists_eq_succ_of_ne_zero (Nat.ne_zero_of_lt enough)
  cases members with
  | nil =>
      simp [print, printMembers, Text.joinWith, readValue?, skipGap_cons (c := '\x7b') rfl,
        skipGap_cons (c := '\x7d') rfl]
  | cons member members =>
      have shape : print (object (member :: members)) ++ rest =
          '\x7b' ::
            (Text.joinWith [','] (printMembers (member :: members)) ++ '\x7d' :: rest) := by
        simp [print]
      have read := readMembers?_printed (List.cons_ne_nil member members) readBack count
        (Nat.le_of_succ_le_succ enough) rest
      obtain ⟨after, inside⟩ : ∃ after,
          Text.joinWith [','] (printMembers (member :: members)) ++ '\x7d' :: rest =
            '"' :: after := by
        cases members <;> simp [printMembers, Text.joinWith, printedString]
      rw [inside] at read
      simp [shape, readValue?, skipGap_cons (c := '\x7b') rfl, inside, skipGap_cons (c := '"') rfl,
        read]

/-- Every plain value is read back from its text. -/
theorem Plain.isReadBack
    {json : Json}
    (plain : Plain json) :
    IsReadBack json := by
  induction plain with
  | null =>
      intro count rest enough _
      obtain ⟨count, rfl⟩ := Nat.exists_eq_succ_of_ne_zero (Nat.ne_zero_of_lt enough)
      simp [print, readValue?, skipGap_cons (c := 'n') rfl]
  | bool value =>
      intro count rest enough _
      cases value with
      | false =>
          obtain ⟨count, rfl⟩ := Nat.exists_eq_succ_of_ne_zero (Nat.ne_zero_of_lt enough)
          simp [print, readValue?, skipGap_cons (c := 'f') rfl]
      | true =>
          obtain ⟨count, rfl⟩ := Nat.exists_eq_succ_of_ne_zero (Nat.ne_zero_of_lt enough)
          simp [print, readValue?, skipGap_cons (c := 't') rfl]
  | number n =>
      exact isReadBack_ofNat n
  | text value =>
      intro count rest enough _
      obtain ⟨count, rfl⟩ := Nat.exists_eq_succ_of_ne_zero (Nat.ne_zero_of_lt enough)
      simp [print, printedString, readValue?, skipGap_cons (c := '"') rfl, readString?_printed]
  | list items plain inductionHypothesis =>
      exact isReadBack_list plain inductionHypothesis
  | object members _ inductionHypothesis =>
      exact isReadBack_object inductionHypothesis

/-- The text of a plain value stands for this value. -/
theorem read?_print
    {json : Json}
    (plain : Plain json) :
    read? (print json) = some json := by
  have read := plain.isReadBack (2 * (print json).length + 2) [] (by omega)
    fun c member => by cases member
  rw [List.append_nil] at read
  simp [read?, read, skipGap]

end Json

end LiveComponent
