import NodeFlow.Json.Skim
import NodeFlow.Proofs.Json.Grammar
import NodeFlow.Proofs.Json.Quoting

namespace NodeFlow.Json

open Scan Read

namespace Mark

def shortMeaning (letter : Char) : Char := (shorts.lookup letter).getD letter

def digitValue (c : Char) : Nat :=
  if c ≤ '9' then c.toNat - '0'.toNat
  else if c ≤ 'F' then c.toNat - 'A'.toNat + 10
  else c.toNat - 'a'.toNat + 10

def unitValue (a b c d : Char) : Nat :=
  ((digitValue a * 16 + digitValue b) * 16 + digitValue c) * 16 + digitValue d

end Mark

-- Halves of characters outside the basic plane, which stand in pairs.
def IsHigh (unit : Nat) : Prop := 0xD800 ≤ unit ∧ unit ≤ 0xDBFF

def IsLow (unit : Nat) : Prop := 0xDC00 ≤ unit ∧ unit ≤ 0xDFFF

instance (unit : Nat) : Decidable (IsHigh unit) := inferInstanceAs (Decidable (_ ∧ _))

instance (unit : Nat) : Decidable (IsLow unit) := inferInstanceAs (Decidable (_ ∧ _))

def joined (high low : Nat) : Char := Char.ofNat (0x10000 + (high - 0xD800) * 0x400 + (low - 0xDC00))

namespace Spelling

-- No text if half of a pair is missing.
def chars? : Spelling → Option (List Char)
  | [] => some []
  | .plain c :: rest => (chars? rest).map (c :: ·)
  | .short letter :: rest => (chars? rest).map (Mark.shortMeaning letter :: ·)
  | .unit a b c d :: rest =>
    let first := Mark.unitValue a b c d
    if IsLow first then none
    else if IsHigh first then
      match rest with
      | .unit e f g h :: rest =>
        let second := Mark.unitValue e f g h
        if IsLow second then (chars? rest).map (joined first second :: ·) else none
      | _ => none
    else (chars? rest).map (Char.ofNat first :: ·)

def text? (spelling : Spelling) : Option String := spelling.chars?.map String.ofList

theorem text?_plain (text : String) : (plain text).text? = some text := by
  have chars : ∀ chars : List Char, chars? (chars.map .plain) = some chars := by
    intro chars
    induction chars with
    | nil => rfl
    | cons c rest ih => rw [List.map_cons, chars?, ih, Option.map_some]
  rw [text?, plain, chars, Option.map_some, String.ofList_toList]

inductive Paired : Spelling → Prop
  | nil : Paired []
  | plain {c : Char} {rest : Spelling} (others : Paired rest) : Paired (.plain c :: rest)
  | short {letter : Char} {rest : Spelling} (others : Paired rest) : Paired (.short letter :: rest)
  | basic {a b c d : Char} {rest : Spelling} (notHigh : ¬ IsHigh (Mark.unitValue a b c d))
      (notLow : ¬ IsLow (Mark.unitValue a b c d)) (others : Paired rest) : Paired (.unit a b c d :: rest)
  | pair {a b c d e f g h : Char} {rest : Spelling} (high : IsHigh (Mark.unitValue a b c d))
      (low : IsLow (Mark.unitValue e f g h)) (others : Paired rest) :
      Paired (.unit a b c d :: .unit e f g h :: rest)

theorem paired_plain (text : String) : (plain text).Paired := by
  unfold plain
  induction text.toList with
  | nil => exact .nil
  | cons c rest ih => exact .plain ih

theorem not_isLow_of_isHigh {unit : Nat} (high : IsHigh unit) : ¬ IsLow unit := by
  unfold IsHigh at high
  unfold IsLow
  omega

theorem chars?_basic {a b c d : Char} (rest : Spelling) (notLow : ¬ IsLow (Mark.unitValue a b c d))
    (notHigh : ¬ IsHigh (Mark.unitValue a b c d)) :
    chars? (.unit a b c d :: rest) = (chars? rest).map (Char.ofNat (Mark.unitValue a b c d) :: ·) := by
  rw [chars?.eq_def]
  simp only [if_neg notLow, if_neg notHigh]

theorem chars?_low {a b c d : Char} (rest : Spelling) (low : IsLow (Mark.unitValue a b c d)) :
    chars? (.unit a b c d :: rest) = none := by
  rw [chars?.eq_def]
  simp only [if_pos low]

theorem chars?_pair {a b c d : Char} (e f g h : Char) (rest : Spelling) (high : IsHigh (Mark.unitValue a b c d)) :
    chars? (.unit a b c d :: .unit e f g h :: rest) =
      if IsLow (Mark.unitValue e f g h) then
        (chars? rest).map (joined (Mark.unitValue a b c d) (Mark.unitValue e f g h) :: ·)
      else none := by
  rw [chars?.eq_def]
  simp only [if_neg (not_isLow_of_isHigh high), if_pos high]

theorem chars?_lone {a b c d : Char} {rest : Spelling} (high : IsHigh (Mark.unitValue a b c d))
    (lone : ∀ e f g h after, rest ≠ .unit e f g h :: after) : chars? (.unit a b c d :: rest) = none := by
  rw [chars?.eq_def]
  simp only [if_neg (not_isLow_of_isHigh high), if_pos high]

theorem isSome_chars?_of_paired {spelling : Spelling} (paired : spelling.Paired) :
    spelling.chars?.isSome = true := by
  induction paired with
  | nil => rfl
  | plain _ ih => simpa [chars?] using ih
  | short _ ih => simpa [chars?] using ih
  | basic notHigh notLow _ ih => simpa [chars?_basic _ notLow notHigh] using ih
  | pair high low _ ih => simpa [chars?, high, not_isLow_of_isHigh high, low] using ih

end Spelling

namespace Scan

section Escapes

variable {a b c d : Char}

theorem le_iff_toNat (a b : Char) : a ≤ b ↔ a.toNat ≤ b.toNat := Iff.rfl

theorem digit_of_isHexDigit (hex : Mark.IsHexDigit c) :
    hexValue? c = some (Mark.digitValue c) ∧ c.utf8Size = 1 := by
  simp only [Mark.IsHexDigit, le_iff_toNat, Char.reduceToNat] at hex
  refine ⟨?_, ?_⟩
  · simp only [hexValue?, Mark.digitValue, Char.isDigit_iff_toNat, Bool.and_eq_true, decide_eq_true_eq,
      le_iff_toNat, Char.reduceToNat]
    rcases hex with digit | small | large
    · rw [if_pos digit, if_pos digit.2]
    · rw [if_neg (by omega), if_pos small, if_neg (by omega), if_neg (by omega)]
    · rw [if_neg (by omega), if_neg (by omega), if_pos large, if_neg (by omega), if_pos large.2]
  · rw [Char.utf8Size_eq_one_iff]
    show c.toNat ≤ 127
    omega

theorem isHexDigit_of_hexValue? {value : Nat} (read : hexValue? c = some value) : Mark.IsHexDigit c := by
  simp only [hexValue?, Char.isDigit_iff_toNat, Bool.and_eq_true, decide_eq_true_eq] at read
  split at read
  · exact .inl ‹_›
  · split at read
    · exact .inr (.inl ‹_›)
    · split at read
      · exact .inr (.inr ‹_›)
      · cases read

theorem hexUnit_of_digits (high : Mark.IsHexDigit a ∧ Mark.IsHexDigit b) (low : Mark.IsHexDigit c ∧ Mark.IsHexDigit d)
    (rest : List Char) : hexUnit (a :: b :: c :: d :: rest) = .ok (Mark.unitValue a b c d, rest) := by
  obtain ⟨first, sizeFirst⟩ := digit_of_isHexDigit high.1
  obtain ⟨second, sizeSecond⟩ := digit_of_isHexDigit high.2
  obtain ⟨third, sizeThird⟩ := digit_of_isHexDigit low.1
  obtain ⟨fourth, sizeFourth⟩ := digit_of_isHexDigit low.2
  simp [hexUnit, byteSize, sizeFirst, sizeSecond, sizeThird, sizeFourth, first, second, third, fourth,
    Mark.unitValue]

theorem digits_of_hexUnit {text rest : List Char} {unit : Nat} (done : hexUnit text = .ok (unit, rest)) :
    ∃ a b c d, text = a :: b :: c :: d :: rest ∧ (Mark.unit a b c d).Allowed := by
  unfold hexUnit at done
  split at done
  · cases done
  · split at done
    · rename_i a b c d tail _
      split at done
      · rename_i first second third fourth
        cases done
        exact ⟨a, b, c, d, rfl, .unit ⟨isHexDigit_of_hexValue? first, isHexDigit_of_hexValue? second⟩
          ⟨isHexDigit_of_hexValue? third, isHexDigit_of_hexValue? fourth⟩⟩
      · cases done
    · cases done

theorem isHighSurrogate_eq (unit : Nat) : isHighSurrogate unit = decide (IsHigh unit) := by
  exact (Bool.decide_and ..).symm

theorem isLowSurrogate_eq (unit : Nat) : isLowSurrogate unit = decide (IsLow unit) := by
  exact (Bool.decide_and ..).symm

theorem shortEscape?_of_mem {letter : Char} (known : letter ∈ Mark.shorts.map Prod.fst) :
    letter ≠ 'u' ∧ shortEscape? letter = some (Mark.shortMeaning letter) := by
  simp only [Mark.shorts, List.map_cons, List.map_nil, List.mem_cons, List.not_mem_nil, or_false] at known
  rcases known with rfl | rfl | rfl | rfl | rfl | rfl | rfl | rfl <;> exact ⟨by simp, rfl⟩

theorem mem_of_shortEscape? {letter read : Char} (done : shortEscape? letter = some read) :
    letter ∈ Mark.shorts.map Prod.fst := by
  unfold shortEscape? at done
  simp only [Mark.shorts, List.map_cons, List.map_nil, List.mem_cons, List.not_mem_nil, or_false]
  split at done
  · rename_i same
    simp only [Bool.or_eq_true, decide_eq_true_eq] at same
    rcases same with (rfl | rfl) | rfl <;> simp
  · repeat' split at done
    all_goals simp_all

end Escapes

variable {spelling : Spelling} {rest : List Char}

theorem inside_cons (mark : Mark) (spelling : Spelling) (rest : List Char) :
    Spelling.inside (mark :: spelling) ++ rest = mark.chars ++ (Spelling.inside spelling ++ rest) := by
  simp [Spelling.inside]

theorem length_le_inside (spelling : Spelling) : spelling.length ≤ spelling.inside.length := by
  induction spelling with
  | nil => simp
  | cons mark others ih =>
    have some : 1 ≤ mark.chars.length := by cases mark <;> simp [Mark.chars]
    simp only [Spelling.inside, List.flatMap_cons, List.length_append, List.length_cons] at ih ⊢
    omega

def closing (spelling : Spelling) (rest : List Char) : List Char := spelling.inside ++ '"' :: rest

theorem closing_cons (mark : Mark) (spelling : Spelling) (rest : List Char) :
    closing (mark :: spelling) rest = mark.chars ++ closing spelling rest := inside_cons mark spelling _

section Units

variable {a b c d : Char} (allowed : (Mark.unit a b c d).Allowed) (tail : List Char)

include allowed

theorem hexUnit_of_allowed : hexUnit (a :: b :: c :: d :: tail) = .ok (Mark.unitValue a b c d, tail) := by
  cases allowed with
  | unit high low => exact hexUnit_of_digits high low tail

theorem hexEscape_basic (notLow : ¬ IsLow (Mark.unitValue a b c d)) (notHigh : ¬ IsHigh (Mark.unitValue a b c d)) :
    hexEscape (a :: b :: c :: d :: tail) = .ok (Char.ofNat (Mark.unitValue a b c d), tail) := by
  simp [hexEscape, hexUnit_of_allowed allowed, bind, Except.bind, isLowSurrogate_eq, isHighSurrogate_eq, notLow,
    notHigh]

theorem hexEscape_low (low : IsLow (Mark.unitValue a b c d)) :
    (hexEscape (a :: b :: c :: d :: tail)).toOption = none := by
  simp [hexEscape, hexUnit_of_allowed allowed, bind, Except.bind, isLowSurrogate_eq, low, Except.toOption]

theorem hexEscape_high (high : IsHigh (Mark.unitValue a b c d)) :
    hexEscape (a :: b :: c :: d :: tail) = (do
      let rest ← surrogateMark '\\' tail
      let rest ← surrogateMark 'u' rest
      let (second, rest) ← hexUnit rest
      if IsLow second then .ok (joined (Mark.unitValue a b c d) second, rest)
      else .error (.behind .loneSurrogate rest)) := by
  simp only [hexEscape, hexUnit_of_allowed allowed, bind, Except.bind, isLowSurrogate_eq, isHighSurrogate_eq,
    Spelling.not_isLow_of_isHigh high, high, decide_false, decide_true, Bool.false_eq_true, if_false, if_true,
    decide_eq_true_eq]
  rfl

theorem hexEscape_pair {e f g h : Char} (second : (Mark.unit e f g h).Allowed)
    (high : IsHigh (Mark.unitValue a b c d)) :
    (hexEscape (a :: b :: c :: d :: '\\' :: 'u' :: e :: f :: g :: h :: tail)).toOption =
      if IsLow (Mark.unitValue e f g h) then
        some (joined (Mark.unitValue a b c d) (Mark.unitValue e f g h), tail)
      else none := by
  rw [hexEscape_high allowed _ high]
  simp only [surrogateMark, if_true, bind, Except.bind, hexUnit_of_allowed second]
  split <;> rfl

theorem hexEscape_lone (high : IsHigh (Mark.unitValue a b c d)) {spelling : Spelling} (others : spelling.Allowed)
    (lone : ∀ e f g h after, spelling ≠ .unit e f g h :: after) (rest : List Char) :
    (hexEscape (a :: b :: c :: d :: closing spelling rest)).toOption = none := by
  rw [hexEscape_high allowed _ high]
  cases spelling with
  | nil => rfl
  | cons mark after =>
    rw [closing_cons]
    cases others mark List.mem_cons_self with
    | plain visible bare => simp [Mark.chars, surrogateMark, bare.2, bind, Except.bind, Except.toOption]
    | short known =>
      have other := (shortEscape?_of_mem known).1
      simp [Mark.chars, surrogateMark, other, bind, Except.bind, Except.toOption]
    | unit _ _ => exact absurd rfl (lone _ _ _ _ after)

end Units

theorem toOption_bind {ε α β : Type} (first : Except ε α) (next : α → Except ε β) :
    (first >>= next).toOption = first.toOption.bind fun made => (next made).toOption := by
  cases first <;> rfl

section Steps

variable (done bound : List Char) (m : Char) (others : Spelling) (rest : List Char)

theorem stringFrom_plain {c : Char} (allowed : (Mark.plain c).Allowed) :
    stringFrom done (m :: bound) (closing (.plain c :: others) rest) =
      stringFrom (c :: done) bound (closing others rest) := by
  cases allowed with
  | plain visible bare =>
    rw [closing_cons]
    simp [Mark.chars, stringFrom, bare.1, bare.2, Nat.not_lt.2 visible]

theorem stringFrom_short {letter : Char} (allowed : (Mark.short letter).Allowed) :
    stringFrom done (m :: bound) (closing (.short letter :: others) rest) =
      stringFrom (Mark.shortMeaning letter :: done) bound (closing others rest) := by
  cases allowed with
  | short known =>
    obtain ⟨notUnit, meant⟩ := shortEscape?_of_mem known
    rw [closing_cons]
    simp [Mark.chars, stringFrom, escaped, notUnit, meant, bind, Except.bind]

theorem stringFrom_unit (a b c d : Char) :
    (stringFrom done (m :: bound) (closing (.unit a b c d :: others) rest)).toOption =
      (hexEscape (a :: b :: c :: d :: closing others rest)).toOption.bind fun read =>
        (stringFrom (read.1 :: done) bound read.2).toOption := by
  rw [closing_cons, ← toOption_bind]
  simp [Mark.chars, stringFrom, escaped]

theorem stringFrom_unit_unit (a b c d e f g h : Char) :
    (stringFrom done (m :: bound) (closing (.unit a b c d :: .unit e f g h :: others) rest)).toOption =
      (hexEscape (a :: b :: c :: d :: '\\' :: 'u' :: e :: f :: g :: h :: closing others rest)).toOption.bind
        fun read => (stringFrom (read.1 :: done) bound read.2).toOption := by
  rw [stringFrom_unit, closing_cons]
  rfl

end Steps

-- Reading fails exactly where the spelling stands for no text.
theorem stringFrom_of_spelling (spelling : Spelling) (allowed : spelling.Allowed) (done bound rest : List Char)
    (enough : spelling.length < bound.length) :
    (stringFrom done bound (closing spelling rest)).toOption =
      spelling.chars?.map fun chars => (done.reverse ++ chars, rest) := by
  induction spelling using Spelling.chars?.induct generalizing done bound with
  | case1 =>
    obtain ⟨m, bound, rfl⟩ := List.exists_cons_of_length_pos (Nat.zero_lt_of_lt enough)
    simp [closing, Spelling.inside, stringFrom, Spelling.chars?, Except.toOption]
  | case2 c others ih =>
    obtain ⟨m, bound, rfl⟩ := List.exists_cons_of_length_pos (Nat.zero_lt_of_lt enough)
    obtain ⟨first, allowed⟩ := List.forall_mem_cons.1 allowed
    rw [stringFrom_plain done bound m others rest first, ih allowed _ bound (Nat.lt_of_succ_lt_succ enough)]
    simp [Spelling.chars?, Function.comp_def]
  | case3 letter others ih =>
    obtain ⟨m, bound, rfl⟩ := List.exists_cons_of_length_pos (Nat.zero_lt_of_lt enough)
    obtain ⟨first, allowed⟩ := List.forall_mem_cons.1 allowed
    rw [stringFrom_short done bound m others rest first, ih allowed _ bound (Nat.lt_of_succ_lt_succ enough)]
    simp [Spelling.chars?, Function.comp_def]
  | case4 a b c d others _ low =>
    obtain ⟨m, bound, rfl⟩ := List.exists_cons_of_length_pos (Nat.zero_lt_of_lt enough)
    obtain ⟨first, allowed⟩ := List.forall_mem_cons.1 allowed
    rw [stringFrom_unit, hexEscape_low first _ low, Spelling.chars?_low others low]
    rfl
  | case5 a b c d _ notLow high e f g h others _ low ih =>
    obtain ⟨m, bound, rfl⟩ := List.exists_cons_of_length_pos (Nat.zero_lt_of_lt enough)
    obtain ⟨first, allowed⟩ := List.forall_mem_cons.1 allowed
    obtain ⟨second, allowed⟩ := List.forall_mem_cons.1 allowed
    have fewer : others.length < bound.length := Nat.lt_of_succ_lt (Nat.lt_of_succ_lt_succ enough)
    rw [stringFrom_unit_unit, hexEscape_pair first _ second high, if_pos low, Spelling.chars?_pair _ _ _ _ others high,
      if_pos low, Option.bind_some, ih allowed _ bound fewer]
    simp [Function.comp_def]
  | case6 a b c d _ notLow high e f g h others _ other =>
    obtain ⟨m, bound, rfl⟩ := List.exists_cons_of_length_pos (Nat.zero_lt_of_lt enough)
    obtain ⟨first, allowed⟩ := List.forall_mem_cons.1 allowed
    obtain ⟨second, allowed⟩ := List.forall_mem_cons.1 allowed
    rw [stringFrom_unit_unit, hexEscape_pair first _ second high, if_neg other,
      Spelling.chars?_pair _ _ _ _ others high, if_neg other]
    rfl
  | case7 a b c d others _ notLow high lone =>
    obtain ⟨m, bound, rfl⟩ := List.exists_cons_of_length_pos (Nat.zero_lt_of_lt enough)
    obtain ⟨first, allowed⟩ := List.forall_mem_cons.1 allowed
    rw [stringFrom_unit, hexEscape_lone first high allowed lone, Spelling.chars?_lone high lone]
    rfl
  | case8 a b c d others _ notLow notHigh ih =>
    obtain ⟨m, bound, rfl⟩ := List.exists_cons_of_length_pos (Nat.zero_lt_of_lt enough)
    obtain ⟨first, allowed⟩ := List.forall_mem_cons.1 allowed
    rw [stringFrom_unit, hexEscape_basic first _ notLow notHigh, Spelling.chars?_basic others notLow notHigh]
    show (stringFrom _ bound (closing others rest)).toOption = _
    rw [ih allowed _ bound (Nat.lt_of_succ_lt_succ enough)]
    simp [Function.comp_def]

theorem length_lt_closing (spelling : Spelling) (rest : List Char) :
    spelling.length < (closing spelling rest).length := by
  have marks := length_le_inside spelling
  simp only [closing, List.length_append, List.length_cons]
  omega

theorem stringBody_of_spelling {spelling : Spelling} (allowed : spelling.Allowed) (rest : List Char) :
    (stringBody (closing spelling rest)).toOption = spelling.text?.map fun text => (text, rest) := by
  unfold stringBody
  rw [toOption_bind, stringFrom_of_spelling spelling allowed [] _ rest (length_lt_closing spelling rest)]
  unfold Spelling.text?
  cases spelling.chars? <;> rfl

theorem skim_of_spelling {spelling : Spelling} (allowed : spelling.Allowed) (bound rest : List Char)
    (enough : spelling.length < bound.length) : Skim.stringFrom bound (closing spelling rest) = .ok rest := by
  induction spelling generalizing bound with
  | nil =>
    obtain ⟨m, bound, rfl⟩ := List.exists_cons_of_length_pos (Nat.zero_lt_of_lt enough)
    simp [closing, Spelling.inside, Skim.stringFrom]
  | cons mark others ih =>
    obtain ⟨m, bound, rfl⟩ := List.exists_cons_of_length_pos (Nat.zero_lt_of_lt enough)
    obtain ⟨first, allowed⟩ := List.forall_mem_cons.1 allowed
    have behind := ih allowed bound (Nat.lt_of_succ_lt_succ enough)
    rw [closing_cons]
    cases first with
    | plain visible bare =>
      simpa [Mark.chars, Skim.stringFrom, bare.1, bare.2, Nat.not_lt.2 visible] using behind
    | short known =>
      obtain ⟨notUnit, meant⟩ := shortEscape?_of_mem known
      simpa [Mark.chars, Skim.stringFrom, Skim.escape, notUnit, meant, bind, Except.bind] using behind
    | unit high low =>
      simpa [Mark.chars, Skim.stringFrom, Skim.escape, hexUnit_of_digits high low, bind, Except.bind] using behind

section Sound

variable {text : List Char}

theorem mark_of_skim_escape (done : Skim.escape text = .ok rest) :
    ∃ mark : Mark, mark.Allowed ∧ '\\' :: text = mark.chars ++ rest := by
  cases text with
  | nil => cases done
  | cons c tail =>
    unfold Skim.escape at done
    dsimp only at done
    split at done
    · rename_i unit
      obtain ⟨⟨value, after⟩, one, made⟩ := (bind_eq_ok_iff _ _ _).1 done
      cases made
      obtain ⟨a, b, c, d, rfl, allowed⟩ := digits_of_hexUnit one
      exact ⟨_, allowed, by rw [unit]; rfl⟩
    · split at done
      · rename_i known
        cases done
        obtain ⟨read, meant⟩ := Option.isSome_iff_exists.1 known
        exact ⟨.short c, .short (mem_of_shortEscape? meant), rfl⟩
      · cases done

-- Both readers take only what can be spelled.
theorem spelling_of_skim {bound : List Char} (done : Skim.stringFrom bound text = .ok rest) :
    ∃ spelling : Spelling, spelling.Allowed ∧ text = closing spelling rest := by
  induction bound generalizing text with
  | nil => cases text <;> cases done
  | cons m bound ih =>
    cases text with
    | nil => cases done
    | cons c tail =>
      unfold Skim.stringFrom at done
      split at done
      · rename_i quote
        cases done
        exact ⟨[], by simp [Spelling.Allowed], by simp [closing, Spelling.inside, quote]⟩
      · rename_i notQuote
        split at done
        · rename_i backslash
          obtain ⟨behind, one, others⟩ := (bind_eq_ok_iff _ _ _).1 done
          obtain ⟨spelling, allowed, rfl⟩ := ih others
          obtain ⟨mark, first, same⟩ := mark_of_skim_escape one
          exact ⟨mark :: spelling, List.forall_mem_cons.2 ⟨first, allowed⟩, by rw [closing_cons, ← same, backslash]⟩
        · rename_i notBackslash
          split at done
          · cases done
          · rename_i visible
            obtain ⟨spelling, allowed, rfl⟩ := ih done
            have first : (Mark.plain c).Allowed := .plain (Nat.not_lt.1 visible) ⟨notQuote, notBackslash⟩
            exact ⟨.plain c :: spelling, List.forall_mem_cons.2 ⟨first, allowed⟩, by rw [closing_cons]; rfl⟩

theorem spelling_of_hexEscape {c : Char} (done : hexEscape text = .ok (c, rest)) :
    ∃ spelling : Spelling, spelling.Allowed ∧ '\\' :: 'u' :: text = spelling.inside ++ rest := by
  obtain ⟨⟨unit, behind⟩, one, made⟩ := (bind_eq_ok_iff _ _ _).1 done
  obtain ⟨a, b, c, d, rfl, first⟩ := digits_of_hexUnit one
  dsimp only at made
  split at made
  · cases made
  · split at made
    · obtain ⟨_, backslash, made⟩ := (bind_eq_ok_iff _ _ _).1 made
      obtain ⟨_, letter, made⟩ := (bind_eq_ok_iff _ _ _).1 made
      obtain ⟨⟨low, after⟩, two, made⟩ := (bind_eq_ok_iff _ _ _).1 made
      obtain ⟨e, f, g, h, same, second⟩ := digits_of_hexUnit two
      rw [surrogateMark_eq_ok backslash, surrogateMark_eq_ok letter, same]
      dsimp only at made
      split at made
      · obtain ⟨_, rfl⟩ := Prod.mk.inj (Except.ok.inj made)
        exact ⟨[.unit a b c d, .unit e f g h], by simp [Spelling.Allowed, first, second], rfl⟩
      · cases made
    · cases made
      exact ⟨[.unit a b c d], by simp [Spelling.Allowed, first], rfl⟩

theorem spelling_of_escaped {c : Char} (done : escaped text = .ok (c, rest)) :
    ∃ spelling : Spelling, spelling.Allowed ∧ '\\' :: text = spelling.inside ++ rest := by
  cases text with
  | nil => cases done
  | cons letter tail =>
    unfold escaped at done
    dsimp only at done
    split at done
    · rename_i unit
      rw [unit]
      exact spelling_of_hexEscape done
    · split at done
      · rename_i meant
        cases done
        have known : (Mark.short letter).Allowed := .short (mem_of_shortEscape? meant)
        exact ⟨[.short letter], by simp [Spelling.Allowed, known], rfl⟩
      · cases done

theorem closing_append (first second : Spelling) (rest : List Char) :
    closing (first ++ second) rest = first.inside ++ closing second rest := by
  simp [closing, Spelling.inside]

theorem spelling_of_stringFrom {done bound chars : List Char} (read : stringFrom done bound text = .ok (chars, rest)) :
    ∃ spelling : Spelling, spelling.Allowed ∧ text = closing spelling rest := by
  induction bound generalizing done text with
  | nil => cases text <;> cases read
  | cons m bound ih =>
    cases text with
    | nil => cases read
    | cons c tail =>
      unfold stringFrom at read
      split at read
      · rename_i quote
        cases read
        exact ⟨[], by simp [Spelling.Allowed], by simp [closing, Spelling.inside, quote]⟩
      · rename_i notQuote
        split at read
        · rename_i backslash
          obtain ⟨⟨d, behind⟩, one, others⟩ := (bind_eq_ok_iff _ _ _).1 read
          obtain ⟨spelling, allowed, rfl⟩ := ih others
          obtain ⟨marks, first, same⟩ := spelling_of_escaped one
          refine ⟨marks ++ spelling, ?_, by rw [closing_append, ← same, backslash]⟩
          exact fun mark member => (List.mem_append.1 member).elim (first mark) (allowed mark)
        · rename_i notBackslash
          split at read
          · cases read
          · rename_i visible
            obtain ⟨spelling, allowed, rfl⟩ := ih read
            have first : (Mark.plain c).Allowed := .plain (Nat.not_lt.1 visible) ⟨notQuote, notBackslash⟩
            exact ⟨.plain c :: spelling, List.forall_mem_cons.2 ⟨first, allowed⟩, by rw [closing_cons]; rfl⟩

theorem spelling_of_stringBody {read : String} (done : stringBody text = .ok (read, rest)) :
    ∃ spelling : Spelling, spelling.Allowed ∧ text = closing spelling rest := by
  obtain ⟨⟨chars, behind⟩, one, made⟩ := (bind_eq_ok_iff _ _ _).1 done
  cases made
  exact spelling_of_stringFrom one

end Sound

end Scan

end NodeFlow.Json
