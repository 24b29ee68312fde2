import LiveComponent.Proofs.DocumentText

namespace LiveComponent

/-!
# What is read can be stored

Whatever text a document of a cache is read from, its instants lie in known years and its numbers have 64 bits.
So every document that can be read can be stored again, and is then read back.
-/

namespace Instant

/-! ## Times of the day -/

/-- A number of some digits is less than the power of ten with as many zeros. -/
theorem numberOf_lt
    {digits : Text}
    (decimal : ∀ c ∈ digits, c.isDigit = true) :
    numberOf digits < 10 ^ digits.length := by
  induction digits using List.reverseRecOn with
  | nil =>
      exact Nat.one_pos
  | append_singleton digits last inductionHypothesis =>
      have bounds := Char.isDigit_iff_toNat.mp (decimal last (by simp))
      have zero : '0'.toNat = 48 := rfl
      have nine : '9'.toNat = 57 := rfl
      have smaller := inductionHypothesis fun c member => decimal c (List.mem_append_left _ member)
      have step : numberOf (digits ++ [last]) = 10 * numberOf digits + (last.toNat - '0'.toNat) := by
        simp [numberOf]
      rw [step, List.length_append, List.length_singleton, Nat.pow_succ]
      omega

/-- A fraction is less than a second. -/
theorem readFraction?_lt
    {text rest : Text}
    {nanos : Nat}
    (read : readFraction? text = some (nanos, rest)) :
    nanos < 10 ^ 9 := by
  unfold readFraction? at read
  split at read
  next text =>
    dsimp only at read
    split at read
    · cases read
    obtain ⟨rfl, -⟩ := Prod.mk.inj (Option.some.inj read)
    have known : ((text.takeWhile Char.isDigit).take 9).length ≤ 9 := List.length_take_le _ _
    have smaller : numberOf ((text.takeWhile Char.isDigit).take 9) <
        10 ^ ((text.takeWhile Char.isDigit).take 9).length :=
      numberOf_lt fun c member => List.mem_takeWhile_imp (List.mem_of_mem_take member)
    calc numberOf ((text.takeWhile Char.isDigit).take 9) *
          10 ^ (9 - ((text.takeWhile Char.isDigit).take 9).length)
        < 10 ^ ((text.takeWhile Char.isDigit).take 9).length *
          10 ^ (9 - ((text.takeWhile Char.isDigit).take 9).length) :=
          Nat.mul_lt_mul_of_pos_right smaller (Nat.pow_pos (by decide))
      _ = 10 ^ 9 := by rw [← Nat.pow_add, Nat.add_sub_cancel' known]
  · cases read
    decide

/-- A time of the day has a fraction of less than a second, or of less than two in a leap second. -/
theorem readTime?_nanos
    {text rest : Text}
    {second nanos : Nat}
    (read : readTime? text = some (second, nanos, rest)) :
    nanos < 10 ^ 9 ∨ nanos < 2 * 10 ^ 9 ∧ second % 60 = 59 := by
  simp only [readTime?, Option.bind_eq_bind, Option.bind_eq_some_iff, Prod.exists, Option.pure_def,
    Option.some.injEq] at read
  obtain ⟨hour, _, _, _, _, minute, _, _, _, _, shown, _, _, fraction, _, readFraction, result⟩ := read
  have smaller := readFraction?_lt readFraction
  split at result
  · obtain ⟨rfl, rfl, -⟩ := result
    omega
  · obtain ⟨-, rfl, -⟩ := result
    exact .inl smaller

/-- The size of an offset is a number of minutes. -/
theorem readOffsetSize?_minutes
    {text rest : Text}
    {size : Nat}
    (read : readOffsetSize? text = some (size, rest)) :
    size % 60 = 0 := by
  simp only [readOffsetSize?, Option.bind_eq_bind, Option.bind_eq_some_iff, Prod.exists] at read
  obtain ⟨hours, _, _, minutes, _, _, result⟩ := read
  split at result
  · obtain ⟨rfl, -⟩ := Prod.mk.inj (Option.some.inj result)
    omega
  · cases result

/-- An offset from universal time is a number of minutes. -/
theorem readOffset?_minutes
    {text rest : Text}
    {offset : Int}
    (read : readOffset? text = some (offset, rest)) :
    offset % 60 = 0 := by
  unfold readOffset? at read
  dsimp only at read
  split at read
  · cases read
    rfl
  · split at read
    · cases read
      rfl
    · cases read
      rfl
    · obtain ⟨⟨size, after⟩, found, same⟩ := Option.map_eq_some_iff.mp read
      obtain ⟨rfl, -⟩ := Prod.mk.inj same
      have whole := readOffsetSize?_minutes found
      omega
    · split at read
      · obtain ⟨⟨size, after⟩, found, same⟩ := Option.map_eq_some_iff.mp read
        obtain ⟨rfl, -⟩ := Prod.mk.inj same
        have whole := readOffsetSize?_minutes found
        omega
      · cases read
    · cases read

/-- Every instant that can be read is known. -/
theorem isKnown_of_ofText?
    {text : Text}
    {instant : Instant}
    (read : ofText? text = some instant) :
    instant.IsKnown := by
  simp only [ofText?, Option.bind_eq_bind, Option.bind_eq_some_iff, Prod.exists] at read
  obtain ⟨date, _, _, read⟩ := read
  split at read
  · split at read
    · simp only [Option.bind_some, Option.bind_eq_some_iff, Prod.exists] at read
      obtain ⟨second, nanos, _, time, offset, _, shift, result⟩ := read
      split at result
      · cases result
      split at result
      next year =>
        obtain rfl := Option.some.inj result
        have minutes := readOffset?_minutes shift
        refine ⟨year, ?_⟩
        rcases readTime?_nanos time with few | ⟨few, last⟩
        · exact .inl few
        · refine .inr ⟨few, ?_⟩
          change (date.toDays * 86400 + second - offset).fmod 60 = 59
          rw [Int.fmod_eq_emod_of_nonneg _ (by decide)]
          omega
      · cases result
    · cases read
  · cases read

/-- In known years there are less than `10 ^ 16` milliseconds to 1970. -/
theorem IsKnown.abs_millis_lt
    {instant : Instant}
    (known : instant.IsKnown) :
    |instant.millis| < 10 ^ 16 := by
  have years := known.year
  simp only [isKnownYear, Bool.and_eq_true, decide_eq_true_eq] at years
  have day := Date.toDays_ofDays (instant.seconds.fdiv 86400)
  have valid := Date.isValid_ofDays (instant.seconds.fdiv 86400)
  have fewNanos : instant.nanos < 2000000000 := by
    rcases known.nanos with few | ⟨few, -⟩ <;> omega
  rw [date] at years
  simp only [Date.isValid, Bool.and_eq_true, decide_eq_true_eq] at valid
  have lastDay := valid.2.trans (Date.daysInMonth_le _ _)
  generalize Date.ofDays (instant.seconds.fdiv 86400) = date at *
  simp (disch := decide) only [Date.toDays, Date.fdiv_eq] at day
  rw [abs_lt, millis]
  split at day <;> omega

end Instant

/-! ## Entries and documents -/

namespace Json.Fields

/-- A field that has to be there is decoded from some value. -/
theorem exists_of_required
    {α : Type}
    {fields : Fields}
    {name : String}
    {decode : Json → Option α}
    {value : α}
    (read : fields.required name decode = some value) :
    ∃ json, decode json = some value := by
  obtain ⟨json, _, decoded⟩ := Option.bind_eq_some_iff.mp read
  exact ⟨json, decoded⟩

/-- A field with a default is decoded from some value or has its default. -/
theorem exists_of_withDefault
    {α : Type}
    {fields : Fields}
    {name : String}
    {default value : α}
    {decode : Json → Option α}
    (read : fields.withDefault name default decode = some value) :
    (∃ json, decode json = some value) ∨ value = default := by
  unfold withDefault at read
  split at read
  next json _ => exact .inl ⟨json, read⟩
  · exact .inr (Option.some.inj read).symm

end Json.Fields

namespace Json

/-- A number of at most 64 bits has at most 64 bits. -/
theorem lt_of_asWord?
    {json : Json}
    {n : Nat}
    (read : json.asWord? = some n) :
    n < UInt64.size := by
  unfold asWord? at read
  split at read
  · split at read
    next word =>
      obtain rfl := Option.some.inj read
      simp only [Bool.and_eq_true, decide_eq_true_eq] at word
      exact word.2
    · cases read
  · cases read

end Json

namespace Artifact

/-- Every instant of an artifact that can be read is known. -/
theorem isKnown_of_instantOf?
    {json : Json}
    {instant : Instant}
    (read : instantOf? json = some instant) :
    instant.IsKnown := by
  obtain ⟨text, _, found⟩ := Option.bind_eq_some_iff.mp read
  exact Instant.isKnown_of_ofText? found

/-- Every artifact that can be read can be stored. -/
theorem isStorable_of_ofJson?
    {json : Json}
    {artifact : Artifact}
    (read : ofJson? json = some artifact) :
    artifact.IsStorable := by
  -- The fields are taken one by one, since the rest of the record is large.
  obtain ⟨fields, _, read⟩ := Option.bind_eq_some_iff.mp read
  obtain ⟨_, _, read⟩ := Option.bind_eq_some_iff.mp read
  obtain ⟨_, _, read⟩ := Option.bind_eq_some_iff.mp read
  obtain ⟨_, _, read⟩ := Option.bind_eq_some_iff.mp read
  obtain ⟨_, compiledAt, read⟩ := Option.bind_eq_some_iff.mp read
  obtain ⟨_, _, read⟩ := Option.bind_eq_some_iff.mp read
  obtain ⟨_, _, read⟩ := Option.bind_eq_some_iff.mp read
  obtain ⟨_, byteSize, read⟩ := Option.bind_eq_some_iff.mp read
  obtain ⟨_, _, read⟩ := Option.bind_eq_some_iff.mp read
  obtain ⟨_, _, read⟩ := Option.bind_eq_some_iff.mp read
  obtain ⟨_, _, read⟩ := Option.bind_eq_some_iff.mp read
  obtain rfl := Option.some.inj read
  obtain ⟨_, instant⟩ := Json.Fields.exists_of_required compiledAt
  obtain ⟨_, word⟩ := Json.Fields.exists_of_required byteSize
  exact ⟨isKnown_of_instantOf? instant, Json.lt_of_asWord? word⟩

end Artifact

namespace CacheEntry

/-- Every entry that can be read can be stored. -/
theorem isStorable_of_ofJson?
    {json : Json}
    {entry : CacheEntry}
    (read : ofJson? json = some entry) :
    entry.IsStorable := by
  simp only [ofJson?, Option.bind_eq_bind, Option.bind_eq_some_iff, Option.pure_def, Option.some.injEq] at read
  obtain ⟨fields, _, _, _, _, artifact, _, createdAt, _, lastAccessAt, _, hitCount, _, byteSize, _, seq, rfl⟩ :=
    read
  obtain ⟨_, artifact⟩ := Json.Fields.exists_of_required artifact
  obtain ⟨_, createdAt⟩ := Json.Fields.exists_of_required createdAt
  obtain ⟨_, lastAccessAt⟩ := Json.Fields.exists_of_required lastAccessAt
  obtain ⟨_, hitCount⟩ := Json.Fields.exists_of_required hitCount
  obtain ⟨_, byteSize⟩ := Json.Fields.exists_of_required byteSize
  refine
    { artifact := Artifact.isStorable_of_ofJson? artifact
      createdAt := Artifact.isKnown_of_instantOf? createdAt
      lastAccessAt := Artifact.isKnown_of_instantOf? lastAccessAt
      hitCount := Json.lt_of_asWord? hitCount
      byteSize := Json.lt_of_asWord? byteSize
      seq := ?_ }
  rcases Json.Fields.exists_of_withDefault seq with ⟨_, word⟩ | none
  · exact Json.lt_of_asWord? word
  · exact none ▸ Nat.zero_lt_of_lt (Json.lt_of_asWord? hitCount)

end CacheEntry

/-- What is read item by item consists of items that are read. -/
theorem Json.exists_of_mapM
    {α : Type}
    {decode : Json → Option α}
    {items : List Json}
    {values : List α}
    (read : items.mapM decode = some values)
    {value : α}
    (member : value ∈ values) :
    ∃ item, decode item = some value := by
  induction items generalizing values with
  | nil =>
      cases read
      cases member
  | cons item items inductionHypothesis =>
      simp only [List.mapM_cons, Option.bind_eq_bind, Option.bind_eq_some_iff, Option.pure_def,
        Option.some.injEq] at read
      obtain ⟨first, decoded, rest, others, rfl⟩ := read
      rcases List.mem_cons.mp member with rfl | later
      · exact ⟨item, decoded⟩
      · exact inductionHypothesis others later

namespace CacheDocument

/-- Every document that can be read can be stored. -/
theorem isStorable_of_ofText?
    {text : Text}
    {document : CacheDocument}
    (read : ofText? text = some document) :
    ∀ entry ∈ document.entries, entry.IsStorable := by
  obtain ⟨json, _, found⟩ := Option.bind_eq_some_iff.mp read
  simp only [ofJson?, Option.bind_eq_bind, Option.bind_eq_some_iff, Option.pure_def, Option.some.injEq] at found
  obtain ⟨fields, _, _, _, _, entries, rfl⟩ := found
  obtain ⟨_, listed⟩ := Json.Fields.exists_of_required entries
  obtain ⟨items, _, each⟩ := Option.bind_eq_some_iff.mp listed
  intro entry member
  obtain ⟨item, decoded⟩ := Json.exists_of_mapM each member
  exact CacheEntry.isStorable_of_ofJson? decoded

end CacheDocument

end LiveComponent
