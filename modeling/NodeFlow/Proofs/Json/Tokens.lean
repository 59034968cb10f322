import NodeFlow.Proofs.Json.Loops

namespace NodeFlow

open Json Json.Scan Json.Read

-- What follows cannot belong to a numeral before it.
def Json.Scan.Stops (rest : List Char) : Prop :=
  ∀ c tail, rest = c :: tail → c.isDigit = false ∧ c ≠ '.' ∧ c ≠ 'e' ∧ c ≠ 'E'

def Number.ReadsBack (value : Number) : Prop := Scan.number value.render = .ok (value, [])

instance Number.decidableReadsBack (value : Number) : Decidable value.ReadsBack :=
  match read : Scan.number value.render with
  | .ok (found, []) =>
    if same : found = value then .isTrue (by rw [ReadsBack, read, same])
    else .isFalse (by rw [ReadsBack, read]; simp [same])
  | .ok (found, c :: rest) => .isFalse (by rw [ReadsBack, read]; simp)
  | .error failure => .isFalse (by rw [ReadsBack, read]; simp)

namespace Json.Scan

theorem stops_nil : Stops [] := by intro c tail same; cases same

theorem stops_cons {c : Char} (tail : List Char)
    (ends : c.isDigit = false ∧ c ≠ '.' ∧ c ≠ 'e' ∧ c ≠ 'E') : Stops (c :: tail) := by
  intro d rest same
  cases same
  exact ends

theorem isBlank_iff (c : Char) : isBlank c = true ↔ c = ' ' ∨ c = '\n' ∨ c = '\t' ∨ c = '\r' := by
  simp [isBlank, or_assoc]

theorem stops_append {gap rest : List Char} (blank : ∀ c ∈ gap, isBlank c = true) (stops : Stops rest) :
    Stops (gap ++ rest) := by
  cases gap with
  | nil => exact stops
  | cons c tail =>
    apply stops_cons
    rcases (isBlank_iff c).1 (blank c List.mem_cons_self) with rfl | rfl | rfl | rfl <;> decide

theorem skipBlank_append {gap rest : List Char} (blank : ∀ c ∈ gap, isBlank c = true) :
    skipBlank (gap ++ rest) = skipBlank rest :=
  List.dropWhile_append_of_pos blank

theorem skipBlank_cons {c : Char} (tail : List Char) (visible : isBlank c = false) :
    skipBlank (c :: tail) = c :: tail := by
  simp [skipBlank, visible]

section Numerals

variable {rest : List Char} (stops : Stops rest)

include stops

theorem takeWhile_isDigit_append (text : List Char) :
    (text ++ rest).takeWhile Char.isDigit = text.takeWhile Char.isDigit := by
  induction text with
  | nil =>
    cases rest with
    | nil => rfl
    | cons c tail => simp [(stops c tail rfl).1]
  | cons c tail ih => simp only [List.cons_append, List.takeWhile_cons, ih]

theorem dropWhile_isDigit_append (text : List Char) :
    (text ++ rest).dropWhile Char.isDigit = text.dropWhile Char.isDigit ++ rest := by
  induction text with
  | nil =>
    cases rest with
    | nil => rfl
    | cons c tail => simp [(stops c tail rfl).1]
  | cons c tail ih =>
    simp only [List.cons_append, List.dropWhile_cons, ih]
    split <;> rfl

omit stops in
theorem leadingDigit_eq_ok {cut : Cause} {text after : List Char} {lead : Char}
    (done : leadingDigit cut text = .ok (lead, after)) : text = lead :: after ∧ lead.isDigit = true := by
  unfold leadingDigit at done
  split at done
  · cases done
  · split at done
    · cases done; exact ⟨rfl, ‹_›⟩
    · cases done

omit stops in
theorem leadingDigit_cons (cut : Cause) {lead : Char} (after : List Char) (digit : lead.isDigit = true) :
    leadingDigit cut (lead :: after) = .ok (lead, after) := by
  simp [leadingDigit, digit]

theorem wholePart_append {cut : Cause} {text whole after : List Char}
    (done : wholePart cut text = .ok (whole, after)) :
    wholePart cut (text ++ rest) = .ok (whole, after ++ rest) := by
  obtain ⟨⟨lead, tail⟩, one, made⟩ := (bind_eq_ok_iff _ _ _).1 done
  obtain ⟨rfl, digit⟩ := leadingDigit_eq_ok one
  unfold wholePart
  rw [List.cons_append, leadingDigit_cons cut _ digit]
  simp only [bind, Except.bind, takeWhile_isDigit_append stops, dropWhile_isDigit_append stops]
  dsimp only at made
  split at made
  · rename_i zero
    split at made
    · rename_i single
      cases made
      simp [zero, single]
    · cases made
  · rename_i nonzero
    cases made
    simp [nonzero]

omit stops in
theorem fractionPart_point (cut : Cause) (tail : List Char) (digits : tail.takeWhile Char.isDigit ≠ []) :
    fractionPart cut ('.' :: tail) = .ok (tail.takeWhile Char.isDigit, tail.dropWhile Char.isDigit) := by
  simp only [fractionPart]
  cases found : tail.takeWhile Char.isDigit with
  | nil => exact absurd found digits
  | cons first others => rfl

omit stops in
theorem fractionPart_none (cut : Cause) (text : List Char) (noPoint : ∀ tail, text ≠ '.' :: tail) :
    fractionPart cut text = .ok ([], text) := by
  unfold fractionPart
  split
  · exact absurd rfl (noPoint _)
  · rfl

theorem fractionPart_append {cut : Cause} {text fraction after : List Char}
    (done : fractionPart cut text = .ok (fraction, after)) :
    fractionPart cut (text ++ rest) = .ok (fraction, after ++ rest) := by
  by_cases point : ∃ tail, text = '.' :: tail
  · obtain ⟨tail, rfl⟩ := point
    have digits : tail.takeWhile Char.isDigit ≠ [] := by
      intro none
      simp only [fractionPart, none] at done
      cases tail <;> cases done
    have kept := takeWhile_isDigit_append stops tail
    rw [fractionPart_point cut tail digits] at done
    cases done
    rw [List.cons_append, fractionPart_point cut (tail ++ rest) (kept ▸ digits), kept,
      dropWhile_isDigit_append stops]
  · have noPoint : ∀ tail, text ≠ '.' :: tail := fun tail same => point ⟨tail, same⟩
    rw [fractionPart_none cut text noPoint] at done
    cases done
    apply fractionPart_none
    intro tail same
    cases text with
    | nil => exact (stops '.' tail same).2.1 rfl
    | cons c before =>
      obtain ⟨rfl, _⟩ := List.cons.inj same
      exact noPoint before rfl

theorem exponentPart_append {cut : Cause} {text after : List Char} {exponent : Option (Bool × List Char)}
    (done : exponentPart cut text = .ok (exponent, after)) :
    exponentPart cut (text ++ rest) = .ok (exponent, after ++ rest) := by
  cases text with
  | nil =>
    cases done
    cases rest with
    | nil => rfl
    | cons c tail =>
      have other := (stops c tail rfl).2.2
      simp [exponentPart, other.1, other.2]
  | cons mark tail =>
    unfold exponentPart at done
    dsimp only at done
    split at done
    · rename_i isMark
      obtain ⟨⟨lead, digits⟩, one, made⟩ := (bind_eq_ok_iff _ _ _).1 done
      cases made
      obtain ⟨unsigned, digit⟩ := leadingDigit_eq_ok one
      have read := leadingDigit_cons cut (digits ++ rest) digit
      unfold exponentPart
      simp only [List.cons_append, isMark, if_true]
      split at unsigned
      · cases unsigned
        simp [read, bind, Except.bind, takeWhile_isDigit_append stops, dropWhile_isDigit_append stops]
      · cases unsigned
        simp [read, bind, Except.bind, takeWhile_isDigit_append stops, dropWhile_isDigit_append stops]
      · cases unsigned
        have notPlus : lead ≠ '+' := by rintro rfl; cases digit
        have notMinus : lead ≠ '-' := by rintro rfl; cases digit
        simp [notPlus, notMinus, read, bind, Except.bind, takeWhile_isDigit_append stops,
          dropWhile_isDigit_append stops]
    · rename_i notMark
      cases done
      simp [exponentPart, notMark]

theorem unsignedNumeral_append {cut : Cause} {negative : Bool} {text after : List Char} {made : Numeral}
    (done : unsignedNumeral cut negative text = .ok (made, after)) :
    unsignedNumeral cut negative (text ++ rest) = .ok (made, after ++ rest) := by
  obtain ⟨⟨whole, behind⟩, first, done⟩ := (bind_eq_ok_iff _ _ _).1 done
  obtain ⟨⟨fraction, behind⟩, second, done⟩ := (bind_eq_ok_iff _ _ _).1 done
  obtain ⟨⟨exponent, behind⟩, third, done⟩ := (bind_eq_ok_iff _ _ _).1 done
  cases done
  simp [unsignedNumeral, bind, Except.bind, wholePart_append stops first, fractionPart_append stops second,
    exponentPart_append stops third]

omit stops in
theorem numeral_head {cut : Cause} {text after : List Char} {made : Numeral}
    (done : numeral cut text = .ok (made, after)) :
    ∃ c tail, text = c :: tail ∧ (c = '-' ∨ c.isDigit = true) := by
  unfold numeral at done
  split at done
  · exact ⟨_, _, rfl, .inl rfl⟩
  · obtain ⟨⟨whole, behind⟩, first, _⟩ := (bind_eq_ok_iff _ _ _).1 done
    obtain ⟨⟨lead, tail⟩, one, _⟩ := (bind_eq_ok_iff _ _ _).1 first
    obtain ⟨rfl, digit⟩ := leadingDigit_eq_ok one
    exact ⟨lead, tail, rfl, .inr digit⟩

omit stops in
theorem numeral_of_no_sign (cut : Cause) {c : Char} (tail : List Char) (unsigned : c ≠ '-') :
    numeral cut (c :: tail) = unsignedNumeral cut false (c :: tail) := by
  unfold numeral
  split
  · rename_i same
    exact absurd (List.cons.inj same).1 unsigned
  · rfl

theorem numeral_append {cut : Cause} {text after : List Char} {made : Numeral}
    (done : numeral cut text = .ok (made, after)) :
    numeral cut (text ++ rest) = .ok (made, after ++ rest) := by
  obtain ⟨c, tail, rfl, head⟩ := numeral_head done
  by_cases minus : c = '-'
  · subst minus
    have unsigned : unsignedNumeral cut true tail = .ok (made, after) := done
    exact unsignedNumeral_append stops unsigned
  · rw [numeral_of_no_sign cut _ minus] at done
    rw [List.cons_append, numeral_of_no_sign cut _ minus]
    exact unsignedNumeral_append stops done

theorem number_append {text : List Char} {value : Number} (done : number text = .ok (value, [])) :
    number (text ++ rest) = .ok (value, rest) := by
  obtain ⟨⟨read, after⟩, one, done⟩ := (bind_eq_ok_iff _ _ _).1 done
  dsimp only at done
  split at done
  · rename_i same
    cases done
    simp [number, bind, Except.bind, numeral_append stops one, same]
  · cases done

omit stops in
theorem number_head {text after : List Char} {value : Number} (done : number text = .ok (value, after)) :
    ∃ c tail, text = c :: tail ∧ (c = '-' ∨ c.isDigit = true) := by
  obtain ⟨⟨read, behind⟩, one, _⟩ := (bind_eq_ok_iff _ _ _).1 done
  exact numeral_head one

end Numerals

section Integers

-- Only zero is written with a leading zero.
theorem toDigits_head (n : Nat) : ∃ lead digits, Nat.toDigits 10 n = lead :: digits ∧
    lead.isDigit = true ∧ (∀ c ∈ digits, c.isDigit = true) ∧ (lead = '0' → n = 0 ∧ digits = []) := by
  have isDigit : ∀ c ∈ Nat.toDigits 10 n, c.isDigit = true :=
    fun c member => Nat.isDigit_of_mem_toDigits (by omega) (by omega) member
  have leading : ∀ digits, Nat.toDigits 10 n = '0' :: digits → n = 0 ∧ digits = [] := by
    clear isDigit
    induction n using Nat.strongRecOn with
    | ind n ih =>
      intro digits same
      by_cases small : n < 10
      · rw [Nat.toDigits_of_lt_base small] at same
        obtain ⟨zero, rfl⟩ := List.cons.inj same
        have only : ∀ d, d < 10 → Nat.digitChar d = '0' → d = 0 := by decide
        exact ⟨only n small zero, rfl⟩
      · rw [Nat.toDigits_of_base_le (by omega) (by omega)] at same
        cases front : Nat.toDigits 10 (n / 10) with
        | nil => exact absurd front Nat.toDigits_ne_nil
        | cons lead others =>
          rw [front] at same
          obtain ⟨rfl, _⟩ := List.cons.inj same
          have zero := (ih (n / 10) (by omega) others front).1
          omega
  cases written : Nat.toDigits 10 n with
  | nil => exact absurd written Nat.toDigits_ne_nil
  | cons lead digits =>
    rw [written] at isDigit leading
    refine ⟨lead, digits, rfl, isDigit lead List.mem_cons_self,
      fun c member => isDigit c (List.mem_cons_of_mem _ member), ?_⟩
    intro same
    subst same
    exact leading digits rfl

theorem takeWhile_of_digits {digits : List Char} (each : ∀ c ∈ digits, c.isDigit = true) :
    digits.takeWhile Char.isDigit = digits ∧ digits.dropWhile Char.isDigit = [] := by
  induction digits with
  | nil => exact ⟨rfl, rfl⟩
  | cons c rest ih =>
    have tail := ih fun d member => each d (List.mem_cons_of_mem _ member)
    have digit := each c List.mem_cons_self
    simp [digit, tail.1, tail.2]

theorem unsignedNumeral_toDigits (cut : Cause) (negative : Bool) (n : Nat) :
    unsignedNumeral cut negative (Nat.toDigits 10 n) =
      .ok (⟨negative, Nat.toDigits 10 n, [], none⟩, []) := by
  obtain ⟨lead, digits, written, digit, others, zero⟩ := toDigits_head n
  have whole : wholePart cut (lead :: digits) = .ok (lead :: digits, []) := by
    have span := takeWhile_of_digits others
    unfold wholePart
    rw [leadingDigit_cons cut digits digit]
    simp only [bind, Except.bind, span.1, span.2]
    by_cases isZero : lead = '0'
    · simp [isZero, (zero isZero).2]
    · simp [isZero]
  rw [written]
  simp [unsignedNumeral, bind, Except.bind, whole, fractionPart, exponentPart]

end Integers

section Strings

theorem hexValue?_hexDigit : ∀ d, d < 16 → hexValue? (hexDigit d) = some d := by decide

theorem utf8Size_hexDigit : ∀ d, d < 16 → (hexDigit d).utf8Size = 1 := by decide

theorem hexUnit_low (n : Nat) (low : n < 0x20) (rest : List Char) :
    hexUnit ('0' :: '0' :: hexDigit (n / 16) :: hexDigit (n % 16) :: rest) = .ok (n, rest) := by
  have zero : hexValue? '0' = some 0 := by decide
  have size : ('0' : Char).utf8Size = 1 := by decide
  have high := hexValue?_hexDigit (n / 16) (by omega)
  have digit := hexValue?_hexDigit (n % 16) (by omega)
  have back : n / 16 * 16 + n % 16 = n := by omega
  simp [hexUnit, byteSize, size, utf8Size_hexDigit (n / 16) (by omega),
    utf8Size_hexDigit (n % 16) (by omega), zero, high, digit, back]

theorem escape_ne_nil (c : Char) : escape c ≠ [] := by
  unfold escape
  repeat' split
  all_goals exact List.cons_ne_nil _ _

-- One round of the reader undoes the escape of one character.
theorem stringFrom_escape (c mark : Char) (done bound rest : List Char) :
    stringFrom done (mark :: bound) (escape c ++ rest) = stringFrom (c :: done) bound rest := by
  unfold escape
  iterate 7
    split
    · rename_i same
      subst same
      simp [stringFrom, escaped, shortEscape?, bind, Except.bind]
  split
  · rename_i low
    have unit := hexUnit_low c.toNat low rest
    have notLow : isLowSurrogate c.toNat = false := by simp [isLowSurrogate]; omega
    have notHigh : isHighSurrogate c.toNat = false := by simp [isHighSurrogate]; omega
    simp [stringFrom, escaped, hexEscape, bind, Except.bind, unit, notLow, notHigh, Char.ofNat_toNat]
  · rename_i notQuote notBackslash _ _ _ _ _ high
    simp [stringFrom, notQuote, notBackslash, high]

theorem stringFrom_quoted (chars done bound rest : List Char) (enough : chars.length < bound.length) :
    stringFrom done bound (chars.flatMap escape ++ '"' :: rest) = .ok (done.reverse ++ chars, rest) := by
  induction chars generalizing done bound with
  | nil =>
    cases bound with
    | nil => cases enough
    | cons mark bound => simp [stringFrom]
  | cons c chars ih =>
    cases bound with
    | nil => cases enough
    | cons mark bound =>
      rw [List.flatMap_cons, List.append_assoc, stringFrom_escape,
        ih (c :: done) bound (Nat.lt_of_succ_lt_succ enough)]
      simp

theorem length_le_escaped (chars : List Char) : chars.length ≤ (chars.flatMap escape).length := by
  induction chars with
  | nil => simp
  | cons c chars ih =>
    have positive := List.length_pos_iff.2 (escape_ne_nil c)
    simp only [List.flatMap_cons, List.length_append, List.length_cons]
    omega

theorem stringBody_quoted (text : String) (rest : List Char) :
    stringBody (text.toList.flatMap escape ++ '"' :: rest) = .ok (text, rest) := by
  have enough := length_le_escaped text.toList
  have read := stringFrom_quoted text.toList [] (text.toList.flatMap escape ++ '"' :: rest) rest
    (by simp only [List.length_append, List.length_cons]; omega)
  simp [stringBody, read, bind, Except.bind]

end Strings

theorem colon_cons (rest : List Char) : colon (':' :: rest) = .ok rest := by
  simp [colon, skipBlank, isBlank]

end Json.Scan

theorem Number.integer_readsBack (n : Int) (fits : -0x8000000000000000 ≤ n ∧ n ≤ 0xffffffffffffffff) :
    (Number.integer n fits).ReadsBack := by
  have value := Nat.ofDigitChars_ten_toDigits (n := n.natAbs)
  unfold Number.ReadsBack Number.render
  by_cases negative : n < 0
  · have numeral : numeral .endInValue ('-' :: Nat.toDigits 10 n.natAbs) =
        .ok (⟨true, Nat.toDigits 10 n.natAbs, [], none⟩, []) := unsignedNumeral_toDigits _ _ _
    have nonzero : n.natAbs ≠ 0 := by omega
    have back : -(n.natAbs : Int) = n := by omega
    have made : (⟨true, Nat.toDigits 10 n.natAbs, [], none⟩ : Numeral).integer? = some (.integer n fits) := by
      simp only [Numeral.integer?, List.isEmpty_nil, Option.isNone_none, Bool.and_self, if_true, value, if_neg nonzero,
        back]
      exact dif_pos fits
    simp [negative, Scan.number, numeral, bind, Except.bind, Numeral.number?, made]
  · obtain ⟨lead, digits, written, digit, _⟩ := toDigits_head n.natAbs
    have numeral : numeral .endInValue (Nat.toDigits 10 n.natAbs) =
        .ok (⟨false, Nat.toDigits 10 n.natAbs, [], none⟩, []) := by
      have noSign : lead ≠ '-' := by rintro rfl; exact absurd digit (by decide)
      rw [← unsignedNumeral_toDigits, written, numeral_of_no_sign _ _ noSign]
    have back : (n.natAbs : Int) = n := by omega
    have made : (⟨false, Nat.toDigits 10 n.natAbs, [], none⟩ : Numeral).integer? = some (.integer n fits) := by
      simp only [Numeral.integer?, List.isEmpty_nil, Option.isNone_none, Bool.and_self, if_true, value, back,
        Bool.false_eq_true, if_false]
      exact dif_pos fits
    simp [negative, Scan.number, numeral, bind, Except.bind, Numeral.number?, made]

end NodeFlow
