import LiveComponent.Script.Lexer

namespace LiveComponent

/-!
# The sizes of tokens

No token takes more characters than there are, and what is skipped in front of a token is counted.
-/

namespace Lexer

/-- Characters that are skipped are counted. -/
theorem skip_length
    (gap : Gap)
    (offset : Nat)
    (newline : Bool)
    (notes : Notes)
    (text : Text) :
    offset ≤ (skip gap offset newline notes text).offset ∧
      (skip gap offset newline notes text).offset + (skip gap offset newline notes text).rest.length =
        offset + text.length := by
  fun_induction skip gap offset newline notes text <;> grind

theorem length_takeWhile_le
    (keeps : Char → Bool)
    (text : Text) :
    (text.takeWhile keeps).length ≤ text.length :=
  (List.takeWhile_prefix keeps).length_le

/-! ## Words and strings -/

theorem fixedHex?_size
    {count value : Nat}
    {text : Text}
    (found : fixedHex? count text = some value) :
    count ≤ text.length := by
  unfold fixedHex? at found
  grind

theorem codePoint?_size
    {text : Text}
    {value size : Nat}
    (found : codePoint? text = some (value, size)) :
    size ≤ text.length := by
  unfold codePoint? at found
  split at found
  next rest =>
    have shorter := length_takeWhile_le (· != '\x7d') rest
    grind
  next =>
    obtain ⟨number, isHex, same⟩ := Option.map_eq_some_iff.mp found
    have fits := fixedHex?_size isHex
    grind

theorem readName_size
    (count : Nat)
    (isFirst : Bool)
    (text : Text) :
    (readName count isFirst text).2.1 ≤ text.length := by
  fun_induction readName count isFirst text <;> grind [→ codePoint?_size]

theorem stringCodePoint?_size
    {text : Text}
    {value size : Nat}
    (found : stringCodePoint? text = some (value, size)) :
    size ≤ text.length := by
  unfold stringCodePoint? at found
  split at found
  · cases found
  next point length isPoint =>
    have fits := codePoint?_size isPoint
    split at found
    · split at found
      next rest isPair =>
        have longer : text.length = 4 + (rest.length + 2) := by
          have dropped := congrArg List.length isPair
          simp only [List.length_drop, List.length_cons] at dropped
          grind
        split at found
        next low isLow =>
          have lowFits := fixedHex?_size isLow
          grind
        next => grind
      next => grind
    · grind

theorem escape?_size
    {text : Text}
    {values : List Nat}
    {size : Nat}
    (found : escape? text = some (values, size)) :
    size ≤ text.length := by
  unfold escape? at found
  split at found
  all_goals try grind
  next rest =>
    cases hex : fixedHex? 2 rest with
    | none => rw [hex] at found; cases found
    | some value =>
        have fits := fixedHex?_size hex
        grind
  next rest =>
    cases point : stringCodePoint? rest with
    | none => rw [point] at found; cases found
    | some value =>
        have fits := stringCodePoint?_size point
        grind
  next c rest _ _ _ _ _ _ _ _ _ =>
    have shorter := length_takeWhile_le isOctal (rest.take (if c ≤ '3' then 2 else 1))
    grind

theorem readStringBody_size
    {quote : Char}
    {count : Nat}
    {text : Text}
    {points : List Nat}
    {size : Nat}
    (found : readStringBody quote count text = some (points, size)) :
    size + 1 ≤ text.length := by
  fun_induction readStringBody quote count text generalizing points size
  all_goals try rw [Option.map_eq_some_iff] at found
  all_goals grind [→ escape?_size]

theorem readString_size
    (quote : Char)
    (text : Text) :
    (readString quote text).size ≤ text.length + 1 := by
  unfold readString
  split
  next points size found =>
    have fits := readStringBody_size found
    grind
  · exact Nat.le_add_left 1 _

/-! ## Numbers -/

theorem digitRun_size
    (isDigit : Char → Bool)
    (text : Text) :
    (digitRun isDigit text).2.1 ≤ text.length :=
  length_takeWhile_le _ text

theorem readRadix_size
    {base : Nat}
    {isDigit : Char → Bool}
    {text : Text}
    (lead : 2 ≤ text.length) :
    (readRadix base isDigit text).size ≤ text.length := by
  have fits := digitRun_size isDigit (text.drop 2)
  unfold readRadix finishNumber
  grind

theorem readExponent_size
    (text : Text) :
    (readExponent text).2.1 ≤ text.length := by
  unfold readExponent
  split
  next c rest =>
    have afterLetter := digitRun_size Char.isDigit ((c :: rest).drop 1)
    have afterSign := digitRun_size Char.isDigit ((c :: rest).drop 2)
    cases rest <;> grind
  · exact Nat.zero_le _

theorem readDecimal_size
    (text : Text) :
    (readDecimal text).size ≤ text.length := by
  have whole := digitRun_size Char.isDigit text
  unfold readDecimal finishNumber
  dsimp only
  split
  next integer =>
    grind
  next =>
    split
    next rest point =>
      have longer := congrArg List.length point
      rw [List.length_drop, List.length_cons] at longer
      have fraction := digitRun_size Char.isDigit rest
      have exponent := readExponent_size
        (text.drop ((digitRun Char.isDigit text).2.1 + ((digitRun Char.isDigit rest).2.1 + 1)))
      grind
    next =>
      have exponent := readExponent_size (text.drop ((digitRun Char.isDigit text).2.1 + 0))
      grind

theorem readNumber_size
    {text : Text}
    (some : text ≠ []) :
    (readNumber text).size ≤ text.length := by
  unfold readNumber
  split
  next c rest =>
    have lead : 2 ≤ ('0' :: c :: rest).length := Nat.le_add_left 2 _
    have decimal := readDecimal_size ('0' :: c :: rest)
    have octal := length_takeWhile_le Char.isDigit ('0' :: c :: rest)
    repeat' split
    · exact readRadix_size lead
    · exact readRadix_size lead
    · exact readRadix_size lead
    · unfold readZeroLed finishNumber
      grind
    · exact Nat.le_add_left 1 _
    · exact decimal
  · exact readDecimal_size text

/-! ## Templates, regular expressions and marks -/

theorem templateBody?_size
    {text raw : Text}
    {complete : Bool}
    (found : templateBody? text = some (raw, complete)) :
    raw.length + (if complete then 1 else 2) ≤ text.length := by
  fun_induction templateBody? text generalizing raw complete
  all_goals try rw [Option.map_eq_some_iff] at found
  all_goals grind

theorem readTemplate_size
    (text : Text) :
    (readTemplate text).size ≤ text.length + 1 := by
  unfold readTemplate
  split
  next raw complete found =>
    have fits := templateBody?_size found
    grind
  · exact Nat.le_add_left 1 _

theorem regexBody?_size
    {inClass : Bool}
    {text pattern : Text}
    (found : regexBody? inClass text = some pattern) :
    pattern.length + 1 ≤ text.length := by
  fun_induction regexBody? inClass text generalizing pattern
  all_goals try rw [Option.map_eq_some_iff] at found
  all_goals grind

theorem readRegex?_size
    {text pattern flags : Text}
    (found : readRegex? text = some (pattern, flags)) :
    pattern.length + flags.length + 1 ≤ text.length := by
  unfold readRegex? at found
  cases body : regexBody? false text with
  | none => rw [body] at found; cases found
  | some raw =>
      have fits := regexBody?_size body
      have shorter := length_takeWhile_le isIdPart (text.drop (raw.length + 1))
      grind

theorem length_le_of_isPrefixOf
    {mark : String}
    {text : Text}
    (leads : mark.toList.isPrefixOf text = true) :
    mark.length ≤ text.length :=
  (List.isPrefixOf_iff_prefix.mp leads).length_le

theorem readMark_size
    {text : Text}
    (some : text ≠ []) :
    (readMark text).size ≤ text.length := by
  have one : 1 ≤ text.length := List.length_pos_iff.mpr some
  unfold readMark
  split
  · exact one
  · split
    next mark found =>
      have leads := List.find?_some found
      simp only [Bool.and_eq_true] at leads
      exact length_le_of_isPrefixOf leads.1
    · repeat' split
      all_goals exact one

theorem readAngle_size
    {text : Text}
    (some : text ≠ []) :
    (readAngle text).size ≤ text.length := by
  unfold readAngle
  split
  next mark found =>
    have leads : mark.toList.isPrefixOf text = true := List.find?_some
      (p := fun mark : String => mark.toList.isPrefixOf text) found
    exact length_le_of_isPrefixOf leads
  · exact List.length_pos_iff.mpr some

/-! ## All tokens -/

/-- A token takes no more characters than there are. -/
theorem read_size (text : Text) :
    (read text).size ≤ text.length := by
  unfold read
  split
  · exact Nat.le_refl 0
  next c rest =>
    repeat' split
    · exact readName_size _ _ _
    · exact readNumber_size (List.cons_ne_nil c rest)
    · exact readString_size c rest
    · exact readTemplate_size rest
    next name size _ _ same =>
      have fits := readName_size (rest.length + 1) true rest
      rw [same] at fits
      exact Nat.add_le_add_right fits 1
    · exact readMark_size (List.cons_ne_nil c rest)

theorem readMarkup_size (text : Text) :
    (readMarkup text).size ≤ text.length := by
  unfold readMarkup
  split
  · exact Nat.le_refl 0
  · exact Nat.le_add_left 1 _
  · exact Nat.le_add_left 1 _
  next some _ _ =>
    dsimp only
    split
    · exact List.length_pos_iff.mpr some
    · exact length_takeWhile_le _ text

theorem readQuotedValue_size
    (quote : Char)
    (text : Text) :
    (readQuotedValue quote text).size ≤ text.length + 1 := by
  have shorter := length_takeWhile_le (· != quote) text
  unfold readQuotedValue
  grind [Reading.bad]

/-! ## Tokens are not empty -/

theorem digitRun_pos
    {isDigit : Char → Bool}
    {c : Char}
    (digit : isDigit c = true)
    (rest : Text) :
    0 < (digitRun isDigit (c :: rest)).2.1 := by
  have among : (c :: rest).takeWhile (fun c => isDigit c || c == '_') =
      c :: rest.takeWhile fun c => isDigit c || c == '_' := by
    rw [List.takeWhile_cons_of_pos]
    rw [digit, Bool.true_or]
  rw [digitRun]
  dsimp only
  rw [among]
  exact Nat.succ_pos _

theorem readDecimal_pos
    {c : Char}
    {rest : Text}
    (starts : (c.isDigit || c == '.' && rest.head?.any Char.isDigit) = true) :
    0 < (readDecimal (c :: rest)).size := by
  rcases Bool.eq_false_or_eq_true c.isDigit with digit | none
  · have whole := digitRun_pos digit rest
    unfold readDecimal finishNumber
    dsimp only
    split
    · exact Nat.succ_pos _
    · exact Nat.lt_of_lt_of_le whole (by rw [Nat.add_assoc]; exact Nat.le_add_right ..)
  · rw [none, Bool.false_or, Bool.and_eq_true, beq_iff_eq] at starts
    obtain ⟨rfl, digit⟩ := starts
    have empty : digitRun Char.isDigit ('.' :: rest) = ([], 0, true) := rfl
    unfold readDecimal finishNumber
    rw [empty]
    dsimp only
    split
    · exact Nat.succ_pos _
    · change 0 < 0 + ((digitRun Char.isDigit rest).2.1 + 1) + _
      omega

theorem readNumber_pos
    {c : Char}
    {rest : Text}
    (starts : (c.isDigit || c == '.' && rest.head?.any Char.isDigit) = true) :
    0 < (readNumber (c :: rest)).size := by
  unfold readNumber
  split
  next second others same =>
    repeat' split
    · unfold readRadix finishNumber
      grind
    · unfold readRadix finishNumber
      grind
    · unfold readRadix finishNumber
      grind
    next digit =>
      have zeros : 0 < ((c :: rest).takeWhile Char.isDigit).length := by
        rw [same]
        exact Nat.succ_pos _
      unfold readZeroLed finishNumber
      dsimp only
      split
      · exact zeros
      · exact readDecimal_pos starts
    · exact Nat.one_pos
    · exact readDecimal_pos starts
  · exact readDecimal_pos starts

theorem readMark_pos
    (text : Text) :
    0 < (readMark text).size := by
  unfold readMark
  split
  · exact Nat.one_pos
  · split
    next mark found =>
      have among := List.mem_of_find?_eq_some found
      have long : ∀ mark ∈ longMarks, 0 < mark.length := by decide
      exact long mark among
    next =>
      split
      · split <;> exact Nat.one_pos
      · exact Nat.one_pos

theorem readName_pos
    {c : Char}
    (rest : Text)
    (starts : (isIdStart c || c == '\\') = true) :
    0 < (readName ((c :: rest).length + 1) true (c :: rest)).2.1 := by
  unfold readName
  grind

theorem readTemplate_pos
    (text : Text) :
    0 < (readTemplate text).size := by
  unfold readTemplate
  split
  · dsimp only
    split <;> exact Nat.succ_pos _
  · exact Nat.one_pos

theorem readAngle_pos
    (text : Text) :
    0 < (readAngle text).size := by
  unfold readAngle
  split
  next mark found =>
    have long : ∀ mark ∈ angleMarks, 0 < mark.length := by decide
    exact long mark (List.mem_of_find?_eq_some found)
  · exact Nat.one_pos

theorem readQuotedValue_pos
    (quote : Char)
    (text : Text) :
    0 < (readQuotedValue quote text).size := by
  unfold readQuotedValue
  dsimp only
  split
  · exact Nat.one_pos
  · exact Nat.succ_pos _

/-- A token takes some characters, except at the end. -/
theorem read_pos
    {text : Text}
    (some : text ≠ []) :
    0 < (read text).size := by
  unfold read
  split
  · exact (some rfl).elim
  next c rest =>
    split
    next starts =>
      exact readName_pos rest starts
    next =>
      split
      next starts =>
        exact readNumber_pos starts
      next =>
        repeat' split
        · unfold readString
          split
          · exact Nat.succ_pos _
          · exact Nat.one_pos
        · exact readTemplate_pos rest
        · exact Nat.succ_pos _
        · exact readMark_pos _

theorem readMarkup_pos
    {text : Text}
    (some : text ≠ []) :
    0 < (readMarkup text).size := by
  unfold readMarkup
  split
  · exact (some rfl).elim
  · exact Nat.one_pos
  · exact Nat.one_pos
  next _ noTag noBrace =>
    obtain ⟨c, rest, rfl⟩ := List.exists_cons_of_ne_nil some
    dsimp only
    split
    · exact Nat.one_pos
    next closes =>
      have first : c ≠ '<' := fun same => noTag rest (by rw [same])
      have second : c ≠ '\x7b' := fun same => noBrace rest (by rw [same])
      grind [List.takeWhile_cons]

end Lexer

end LiveComponent
