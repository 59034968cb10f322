import NodeFlow.Proofs.Json.Tokens

namespace NodeFlow.Json

open Scan Read

inductive Side
  | outside
  | inside
  | escaped

def isBare (c : Char) : Bool := c != '\\' && c != '\x60' && c != '_'

def Side.step? : Side → Char → Option Side
  | .outside, c => if c = '"' then some .inside else if isBare c then some .outside else none
  | .inside, c => some (if c = '"' then .outside else if c = '\\' then .escaped else .inside)
  | .escaped, _ => some .inside

-- The side on which a text ends that begins on the given one.
def walk? : Side → List Char → Option Side
  | side, [] => some side
  | side, c :: rest => (side.step? c).bind fun next => walk? next rest

theorem walk?_append (side : Side) (first second : List Char) :
    walk? side (first ++ second) = (walk? side first).bind fun middle => walk? middle second := by
  induction first generalizing side with
  | nil => rfl
  | cons c rest ih =>
    simp only [List.cons_append, walk?, Option.bind_assoc]
    congr 1
    funext next
    exact ih next

theorem walk?_append_eq_some {side last : Side} {first second : List Char}
    (walked : walk? side (first ++ second) = some last) :
    ∃ middle, walk? side first = some middle ∧ walk? middle second = some last := by
  rw [walk?_append] at walked
  exact Option.bind_eq_some_iff.1 walked

theorem walk?_outside {text : List Char} (bare : ∀ c ∈ text, c ≠ '"' ∧ isBare c = true) :
    walk? .outside text = some .outside := by
  induction text with
  | nil => rfl
  | cons c rest ih =>
    have first := bare c List.mem_cons_self
    have others := ih fun d member => bare d (List.mem_cons_of_mem _ member)
    simp [walk?, Side.step?, first, others]

theorem walk?_inside {text : List Char} (plain : ∀ c ∈ text, c ≠ '"' ∧ c ≠ '\\') :
    walk? .inside text = some .inside := by
  induction text with
  | nil => rfl
  | cons c rest ih =>
    have first := plain c List.mem_cons_self
    have others := ih fun d member => plain d (List.mem_cons_of_mem _ member)
    simp [walk?, Side.step?, first, others]

-- The two walks are on opposite sides at every place, so each character is outside for one of them.
theorem bare_of_walks (text : List Char) (first second : Side) (outside : walk? .outside text = some first)
    (inside : walk? .inside text = some second) : ∀ c ∈ text, isBare c = true := by
  induction text generalizing first second with
  | nil => simp
  | cons c rest ih =>
    simp only [walk?, Side.step?] at outside inside
    by_cases quote : c = '"'
    · simp only [quote, if_true, Option.bind_some] at outside inside
      intro d member
      rcases List.mem_cons.1 member with rfl | later
      · rw [quote]; decide
      · exact ih _ _ inside outside d later
    · by_cases bare : isBare c = true
      · have noEscape : c ≠ '\\' := by rintro rfl; exact absurd bare (by decide)
        simp only [quote, bare, noEscape, if_true, if_false, Option.bind_some] at outside inside
        intro d member
        rcases List.mem_cons.1 member with rfl | later
        · exact bare
        · exact ih _ _ outside inside d later
      · simp [quote, bare] at outside

-- A backtick stands in a string, so that three of them end in one.
theorem walk?_fence {side last : Side} (walked : walk? side ['\x60', '\x60', '\x60'] = some last) :
    last = .inside := by
  cases side with
  | outside => cases walked
  | inside => exact (Option.some.inj walked).symm
  | escaped => exact (Option.some.inj walked).symm

-- Without a backslash in the text nothing but its own characters can make up a name.
def Spells (text : List Char) (name : String) : Prop := '\\' ∈ text ∨ ∀ c ∈ name.toList, c ∈ text

theorem Spells.append_left {text : List Char} {name : String} (spells : Spells text name) (before : List Char) :
    Spells (before ++ text) name :=
  spells.imp (List.mem_append_right _) fun each c member => List.mem_append_right _ (each c member)

theorem Spells.append_right {text : List Char} {name : String} (spells : Spells text name) (after : List Char) :
    Spells (text ++ after) name :=
  spells.imp (List.mem_append_left _) fun each c member => List.mem_append_left _ (each c member)

-- What a reader took off the front of a text, and the names that it found there.
def Takes (text rest : List Char) (names : List String) : Prop :=
  ∃ used, text = used ++ rest ∧ walk? .outside used = some .outside ∧ ∀ name ∈ names, Spells used name

namespace Takes

variable {text middle rest : List Char} {names others : List String}

theorem trans (first : Takes text middle names) (second : Takes middle rest others) :
    Takes text rest (names ++ others) := by
  obtain ⟨used, rfl, walked, spelled⟩ := first
  obtain ⟨more, rfl, onward, found⟩ := second
  refine ⟨used ++ more, by rw [List.append_assoc], ?_, ?_⟩
  · rw [walk?_append, walked, Option.bind_some, onward]
  · intro name member
    rcases List.mem_append.1 member with early | late
    · exact (spelled name early).append_right more
    · exact (found name late).append_left used

theorem mono (takes : Takes text rest names) (fewer : ∀ name ∈ others, name ∈ names) :
    Takes text rest others := by
  obtain ⟨used, split, walked, spelled⟩ := takes
  exact ⟨used, split, walked, fun name member => spelled name (fewer name member)⟩

theorem of_bare {used : List Char} (bare : ∀ c ∈ used, c ≠ '"' ∧ isBare c = true) (rest : List Char) :
    Takes (used ++ rest) rest [] :=
  ⟨used, rfl, walk?_outside bare, by simp⟩

theorem cons {c : Char} (notQuote : c ≠ '"') (bare : isBare c = true) (rest : List Char) :
    Takes (c :: rest) rest [] :=
  ⟨[c], rfl, walk?_outside (by simp [notQuote, bare]), by simp⟩

end Takes

namespace Scan

theorem skipBlank_takes (text : List Char) : Takes text (skipBlank text) [] := by
  have blank : ∀ c ∈ text.takeWhile isBlank, c ≠ '"' ∧ isBare c = true := by
    intro c member
    rcases (isBlank_iff c).1 (List.all_eq_true.1 List.all_takeWhile c member) with rfl | rfl | rfl | rfl <;> decide
  have takes := Takes.of_bare blank (skipBlank text)
  rwa [skipBlank, List.takeWhile_append_dropWhile] at takes

theorem takes_of_skipBlank {text rest : List Char} {c : Char} (skipped : skipBlank text = c :: rest)
    (mark : c ≠ '"' ∧ isBare c = true) : Takes text rest [] := by
  have blank := skipBlank_takes text
  rw [skipped] at blank
  exact blank.trans (.cons mark.1 mark.2 rest)

theorem word_eq_ok {letters text rest : List Char} (done : word letters text = .ok rest) :
    text = letters ++ rest := by
  induction letters generalizing text with
  | nil => cases done; rfl
  | cons letter letters ih =>
    cases text with
    | nil => cases done
    | cons c tail =>
      unfold word at done
      split at done
      · rename_i same
        rw [same, ih done, List.cons_append]
      · cases done

theorem colon_takes {text rest : List Char} (done : colon text = .ok rest) : Takes text rest [] := by
  unfold colon at done
  split at done
  · cases done
  · split at done
    · rename_i skipped same
      cases done
      subst same
      exact takes_of_skipBlank skipped (by decide)
    · cases done

section Numerals

def isNumeralMark (c : Char) : Bool := c.isDigit || c == '-' || c == '+' || c == '.' || c == 'e' || c == 'E'

theorem bare_of_numeralMark {c : Char} (mark : isNumeralMark c = true) : c ≠ '"' ∧ isBare c = true := by
  refine ⟨?_, ?_⟩
  · rintro rfl; exact absurd mark (by decide)
  · unfold isBare
    simp only [Bool.and_eq_true, bne_iff_ne]
    refine ⟨⟨?_, ?_⟩, ?_⟩ <;> rintro rfl <;> exact absurd mark (by decide)

def Numeric (text rest : List Char) : Prop := ∃ used, text = used ++ rest ∧ ∀ c ∈ used, isNumeralMark c = true

theorem Numeric.trans {text middle rest : List Char} (first : Numeric text middle) (second : Numeric middle rest) :
    Numeric text rest := by
  obtain ⟨used, rfl, marks⟩ := first
  obtain ⟨more, rfl, others⟩ := second
  refine ⟨used ++ more, by rw [List.append_assoc], ?_⟩
  intro c member
  exact (List.mem_append.1 member).elim (marks c) (others c)

theorem Numeric.cons {c : Char} (mark : isNumeralMark c = true) (rest : List Char) : Numeric (c :: rest) rest :=
  ⟨[c], rfl, by simp [mark]⟩

theorem Numeric.refl (text : List Char) : Numeric text text := ⟨[], rfl, by simp⟩

theorem Numeric.digits (text : List Char) : Numeric text (text.dropWhile Char.isDigit) := by
  refine ⟨text.takeWhile Char.isDigit, List.takeWhile_append_dropWhile.symm, ?_⟩
  intro c member
  have digit := List.all_eq_true.1 List.all_takeWhile c member
  simp [isNumeralMark, digit]

theorem leadingDigit_numeric {cut : Cause} {text rest : List Char} {lead : Char}
    (done : leadingDigit cut text = .ok (lead, rest)) : Numeric text rest := by
  obtain ⟨rfl, digit⟩ := leadingDigit_eq_ok done
  exact .cons (by simp [isNumeralMark, digit]) rest

theorem wholePart_numeric {cut : Cause} {text whole rest : List Char}
    (done : wholePart cut text = .ok (whole, rest)) : Numeric text rest := by
  obtain ⟨⟨lead, tail⟩, one, made⟩ := (bind_eq_ok_iff _ _ _).1 done
  have first := leadingDigit_numeric one
  dsimp only at made
  split at made
  · split at made <;> cases made
    exact first
  · cases made
    exact first.trans (.digits tail)

theorem fractionPart_numeric {cut : Cause} {text fraction rest : List Char}
    (done : fractionPart cut text = .ok (fraction, rest)) : Numeric text rest := by
  unfold fractionPart at done
  split at done
  · split at done
    · cases done
    · cases done
    · cases done
      exact (Numeric.cons (by decide) _).trans (.digits _)
  · cases done
    exact .refl _

theorem exponentPart_numeric {cut : Cause} {text rest : List Char} {exponent : Option (Bool × List Char)}
    (done : exponentPart cut text = .ok (exponent, rest)) : Numeric text rest := by
  unfold exponentPart at done
  split at done
  · cases done
    exact .refl _
  · rename_i c tail
    split at done
    · rename_i isMark
      have mark : Numeric (c :: tail) tail := by
        simp only [Bool.or_eq_true, decide_eq_true_eq] at isMark
        refine .cons ?_ tail
        rcases isMark with rfl | rfl <;> decide
      obtain ⟨⟨lead, digits⟩, one, made⟩ := (bind_eq_ok_iff _ _ _).1 done
      cases made
      have first := leadingDigit_numeric one
      refine mark.trans (Numeric.trans ?_ (first.trans (.digits digits)))
      split
      · exact .cons (by decide) _
      · exact .cons (by decide) _
      · exact .refl _
    · cases done
      exact .refl _

theorem unsignedNumeral_numeric {cut : Cause} {negative : Bool} {text rest : List Char} {made : Numeral}
    (done : unsignedNumeral cut negative text = .ok (made, rest)) : Numeric text rest := by
  obtain ⟨⟨whole, behind⟩, first, done⟩ := (bind_eq_ok_iff _ _ _).1 done
  obtain ⟨⟨fraction, behind⟩, second, done⟩ := (bind_eq_ok_iff _ _ _).1 done
  obtain ⟨⟨exponent, behind⟩, third, done⟩ := (bind_eq_ok_iff _ _ _).1 done
  cases done
  exact (wholePart_numeric first).trans ((fractionPart_numeric second).trans (exponentPart_numeric third))

theorem numeral_numeric {cut : Cause} {text rest : List Char} {made : Numeral}
    (done : numeral cut text = .ok (made, rest)) : Numeric text rest := by
  unfold numeral at done
  split at done
  · exact (Numeric.cons (by decide) _).trans (unsignedNumeral_numeric done)
  · exact unsignedNumeral_numeric done

theorem number_takes {text rest : List Char} {value : Number} (done : number text = .ok (value, rest)) :
    Takes text rest [] := by
  obtain ⟨⟨read, behind⟩, one, made⟩ := (bind_eq_ok_iff _ _ _).1 done
  obtain ⟨used, rfl, marks⟩ := numeral_numeric one
  dsimp only at made
  split at made
  · cases made
    exact .of_bare (fun c member => bare_of_numeralMark (marks c member)) _
  · cases made

end Numerals

section Strings

theorem plain_of_hexValue {c : Char} {n : Nat} (digit : hexValue? c = some n) : c ≠ '"' ∧ c ≠ '\\' := by
  refine ⟨?_, ?_⟩ <;> rintro rfl <;> cases digit

theorem hexUnit_walk {text rest : List Char} {unit : Nat} (done : hexUnit text = .ok (unit, rest)) :
    ∃ used, text = used ++ rest ∧ walk? .inside used = some .inside := by
  unfold hexUnit at done
  split at done
  · cases done
  · split at done
    · rename_i a b c d tail _
      split at done
      · rename_i first second third fourth
        cases done
        refine ⟨[a, b, c, d], rfl, walk?_inside ?_⟩
        simp [plain_of_hexValue first, plain_of_hexValue second, plain_of_hexValue third,
          plain_of_hexValue fourth]
      · cases done
    · cases done

theorem surrogateMark_eq_ok {mark : Char} {text rest : List Char} (done : surrogateMark mark text = .ok rest) :
    text = mark :: rest := by
  cases text with
  | nil => cases done
  | cons c tail =>
    by_cases same : c = mark
    · simp only [surrogateMark, same, if_true] at done
      cases done
      rw [same]
    · simp only [surrogateMark, same, if_false] at done
      cases done

theorem hexEscape_walk {text rest : List Char} {c : Char} (done : hexEscape text = .ok (c, rest)) :
    ∃ used, text = used ++ rest ∧ walk? .inside used = some .inside := by
  obtain ⟨⟨unit, behind⟩, one, made⟩ := (bind_eq_ok_iff _ _ _).1 done
  obtain ⟨used, rfl, walked⟩ := hexUnit_walk one
  dsimp only at made
  split at made
  · cases made
  · split at made
    · obtain ⟨_, backslash, made⟩ := (bind_eq_ok_iff _ _ _).1 made
      obtain ⟨_, letter, made⟩ := (bind_eq_ok_iff _ _ _).1 made
      obtain ⟨⟨second, after⟩, two, made⟩ := (bind_eq_ok_iff _ _ _).1 made
      obtain ⟨more, same, onward⟩ := hexUnit_walk two
      rw [surrogateMark_eq_ok backslash, surrogateMark_eq_ok letter, same]
      dsimp only at made
      split at made
      · obtain ⟨_, rfl⟩ := Prod.mk.inj (Except.ok.inj made)
        refine ⟨used ++ '\\' :: 'u' :: more, by simp, ?_⟩
        rw [walk?_append, walked]
        simp [walk?, Side.step?, onward]
      · cases made
    · cases made
      exact ⟨used, rfl, walked⟩

theorem escaped_walk {text rest : List Char} {c : Char} (done : escaped text = .ok (c, rest)) :
    ∃ used, text = used ++ rest ∧ walk? .escaped used = some .inside := by
  cases text with
  | nil => cases done
  | cons d tail =>
    unfold escaped at done
    dsimp only at done
    split at done
    · obtain ⟨used, rfl, walked⟩ := hexEscape_walk done
      exact ⟨d :: used, rfl, by simp [walk?, Side.step?, walked]⟩
    · split at done
      · cases done
        exact ⟨[d], rfl, rfl⟩
      · cases done

theorem stringFrom_walk {done bound text chars rest : List Char} (read : stringFrom done bound text = .ok (chars, rest)) :
    ∃ used, text = used ++ rest ∧ walk? .inside used = some .outside ∧
      ('\\' ∈ used ∨ ∀ c ∈ chars, c ∈ done ∨ c ∈ used) := by
  induction bound generalizing done text with
  | nil => cases text <;> cases read
  | cons mark bound ih =>
    cases text with
    | nil => cases read
    | cons c tail =>
      unfold stringFrom at read
      split at read
      · rename_i quote
        cases read
        refine ⟨[c], rfl, by simp [walk?, Side.step?, quote], .inr fun d member => .inl ?_⟩
        exact List.mem_reverse.1 member
      · rename_i notQuote
        split at read
        · rename_i backslash
          obtain ⟨⟨d, behind⟩, one, others⟩ := (bind_eq_ok_iff _ _ _).1 read
          obtain ⟨used, rfl, walked⟩ := escaped_walk one
          obtain ⟨more, rfl, onward, _⟩ := ih others
          refine ⟨c :: (used ++ more), by simp, ?_, .inl (by simp [backslash])⟩
          simp [walk?, Side.step?, backslash, walk?_append, walked, onward]
        · rename_i notBackslash
          split at read
          · cases read
          · obtain ⟨used, rfl, walked, spelled⟩ := ih read
            refine ⟨c :: used, rfl, by simp [walk?, Side.step?, notQuote, notBackslash, walked], ?_⟩
            refine spelled.imp (List.mem_cons_of_mem _) fun each d member => ?_
            rcases each d member with early | late
            · exact (List.mem_cons.1 early).elim (fun same => .inr (by simp [same])) .inl
            · exact .inr (List.mem_cons_of_mem _ late)

theorem stringBody_takes {text rest : List Char} {name : String} (done : stringBody text = .ok (name, rest)) :
    Takes ('"' :: text) rest [name] := by
  obtain ⟨⟨chars, behind⟩, one, made⟩ := (bind_eq_ok_iff _ _ _).1 done
  cases made
  obtain ⟨used, rfl, walked, spelled⟩ := stringFrom_walk one
  refine ⟨'"' :: used, rfl, by simp [walk?, Side.step?, walked], ?_⟩
  intro name member
  rw [List.mem_singleton.1 member]
  refine spelled.imp (List.mem_cons_of_mem _) fun each c present => ?_
  rw [String.toList_ofList] at present
  exact List.mem_cons_of_mem _ ((each c present).resolve_left (by simp))

end Strings

end Scan

end NodeFlow.Json
