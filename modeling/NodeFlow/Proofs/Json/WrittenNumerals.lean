import NodeFlow.Proofs.Json.Grammar

namespace NodeFlow.Json

open Scan Read

section Complete

variable (cut : Cause) {text rest : List Char}

theorem WrittenFraction.ends {digits point after : List Char} (fraction : WrittenFraction digits point)
    (ends : Ends after) : Ends (point ++ after) := by
  cases fraction with
  | none => exact ends
  | some any each =>
    intro c tail same
    cases same
    rfl

theorem fractionPart_of_written {digits point after : List Char} (fraction : WrittenFraction digits point)
    (ends : Ends after) (noPoint : ∀ tail, after ≠ '.' :: tail) :
    fractionPart cut (point ++ after) = .ok (digits, after) := by
  cases fraction with
  | none => exact fractionPart_none cut after noPoint
  | some any each =>
    have span := takeWhile_digits each ends
    rw [List.cons_append, fractionPart_point cut _ (by rw [span.1]; exact any), span.1, span.2]

theorem WrittenExponent.ends {exponent : Option (Bool × List Char)} {raised : List Char}
    (scaled : WrittenExponent exponent raised) : Ends raised ∧ ∀ tail, raised ≠ '.' :: tail := by
  cases scaled with
  | none => exact ⟨nofun, nofun⟩
  | some marked signed any each =>
    refine ⟨?_, ?_⟩
    · intro c tail same
      cases same
      rcases marked with rfl | rfl <;> rfl
    · intro tail same
      cases same
      simp at marked

theorem exponentPart_of_written {exponent : Option (Bool × List Char)} {raised : List Char}
    (scaled : WrittenExponent exponent raised) : exponentPart cut raised = .ok (exponent, []) := by
  cases scaled with
  | none => rfl
  | @some mark below sign digits marked signed any each =>
    obtain ⟨lead, others, rfl⟩ := List.exists_cons_of_ne_nil any
    have digit := each lead List.mem_cons_self
    have span := takeWhile_of_digits fun c member => each c (List.mem_cons_of_mem _ member)
    have isMark : (decide (mark = 'e') || decide (mark = 'E')) = true := by simpa using marked
    unfold exponentPart
    simp only [isMark, if_true]
    rcases signed with (_ | _) | ⟨rfl, rfl⟩
    · have notPlus : lead ≠ '+' := by rintro rfl; cases digit
      have notMinus : lead ≠ '-' := by rintro rfl; cases digit
      simp [notPlus, notMinus, leadingDigit_cons cut others digit, bind, Except.bind, span.1, span.2]
    · simp [leadingDigit_cons cut others digit, bind, Except.bind, span.1, span.2]
    · simp [leadingDigit_cons cut others digit, bind, Except.bind, span.1, span.2]

theorem numeral_of_written {made : Numeral} (written : WrittenNumeral made text) (stops : Stops rest) :
    numeral cut (text ++ rest) = .ok (made, rest) := by
  have alone : numeral cut text = .ok (made, []) := by
    obtain ⟨signed, shape, fraction, scaled⟩ := written
    rename_i negative whole digits sign point raised exponent
    obtain ⟨ends, noPoint⟩ := scaled.ends
    have first := wholePart_whole cut shape (fraction.ends ends)
    have second := fractionPart_of_written cut fraction ends noPoint
    have third := exponentPart_of_written cut scaled
    have unsigned : ∀ negative, unsignedNumeral cut negative (whole ++ (point ++ raised)) =
        .ok (⟨negative, whole, digits, exponent⟩, []) := by
      intro negative
      simp [unsignedNumeral, bind, Except.bind, first, second, third]
    cases signed with
    | minus => exact unsigned true
    | none =>
      obtain ⟨lead, others, rfl, each, _⟩ := shape
      have noSign : lead ≠ '-' := by
        rintro rfl
        cases each '-' List.mem_cons_self
      exact (numeral_of_no_sign cut _ noSign).trans (unsigned false)
  exact numeral_append stops alone

end Complete

section Sound

variable {cut : Cause} {text rest : List Char}

theorem digits_takeWhile (text : List Char) : Digits (text.takeWhile Char.isDigit) :=
  List.all_eq_true.1 (List.all_takeWhile ..)

theorem whole_of_wholePart {whole : List Char} (done : wholePart cut text = .ok (whole, rest)) :
    text = whole ++ rest ∧ Whole whole := by
  obtain ⟨⟨lead, tail⟩, one, made⟩ := (bind_eq_ok_iff _ _ _).1 done
  obtain ⟨rfl, digit⟩ := leadingDigit_eq_ok one
  dsimp only at made
  split at made
  · split at made
    · cases made
      exact ⟨rfl, lead, [], rfl, by simpa [Digits] using digit, fun _ => rfl⟩
    · cases made
  · rename_i nonzero
    cases made
    refine ⟨by rw [List.cons_append, List.takeWhile_append_dropWhile], lead, _, rfl, ?_,
      fun zero => absurd zero nonzero⟩
    intro c member
    rcases List.mem_cons.1 member with rfl | later
    · exact digit
    · exact digits_takeWhile tail c later

theorem written_of_fractionPart {digits : List Char} (done : fractionPart cut text = .ok (digits, rest)) :
    ∃ point, text = point ++ rest ∧ WrittenFraction digits point := by
  by_cases point : ∃ tail, text = '.' :: tail
  · obtain ⟨tail, rfl⟩ := point
    have any : tail.takeWhile Char.isDigit ≠ [] := by
      intro none
      simp only [fractionPart, none] at done
      cases tail <;> cases done
    rw [fractionPart_point cut tail any] at done
    cases done
    exact ⟨'.' :: tail.takeWhile Char.isDigit, by rw [List.cons_append, List.takeWhile_append_dropWhile],
      .some any (digits_takeWhile tail)⟩
  · rw [fractionPart_none cut text fun tail same => point ⟨tail, same⟩] at done
    cases done
    exact ⟨[], rfl, .none⟩

theorem written_of_exponentPart {exponent : Option (Bool × List Char)}
    (done : exponentPart cut text = .ok (exponent, rest)) :
    ∃ raised, text = raised ++ rest ∧ WrittenExponent exponent raised := by
  unfold exponentPart at done
  split at done
  · cases done
    exact ⟨[], rfl, .none⟩
  · rename_i mark tail
    split at done
    · rename_i isMark
      have marked : mark = 'e' ∨ mark = 'E' := by simpa using isMark
      obtain ⟨⟨lead, digits⟩, one, made⟩ := (bind_eq_ok_iff _ _ _).1 done
      cases made
      obtain ⟨unsigned, digit⟩ := leadingDigit_eq_ok one
      have each : Digits (lead :: digits.takeWhile Char.isDigit) := by
        intro c member
        rcases List.mem_cons.1 member with rfl | later
        · exact digit
        · exact digits_takeWhile digits c later
      have whole : digits = digits.takeWhile Char.isDigit ++ digits.dropWhile Char.isDigit :=
        List.takeWhile_append_dropWhile.symm
      split at unsigned
      · cases unsigned
        exact ⟨_, by simp [← whole], .some marked (.inr ⟨rfl, rfl⟩) (List.cons_ne_nil _ _) each⟩
      · cases unsigned
        exact ⟨_, by simp [← whole], .some marked (.inl .minus) (List.cons_ne_nil _ _) each⟩
      · cases unsigned
        exact ⟨_, by simp [← whole], .some marked (.inl .none) (List.cons_ne_nil _ _) each⟩
    · cases done
      exact ⟨[], rfl, .none⟩

theorem written_of_unsignedNumeral {negative : Bool} {sign : List Char} {made : Numeral}
    (signed : WrittenSign negative sign) (done : unsignedNumeral cut negative text = .ok (made, rest)) :
    ∃ used, sign ++ text = used ++ rest ∧ WrittenNumeral made used := by
  obtain ⟨⟨whole, behind⟩, first, done⟩ := (bind_eq_ok_iff _ _ _).1 done
  obtain ⟨⟨fraction, behind⟩, second, done⟩ := (bind_eq_ok_iff _ _ _).1 done
  obtain ⟨⟨exponent, behind⟩, third, done⟩ := (bind_eq_ok_iff _ _ _).1 done
  cases done
  obtain ⟨rfl, shape⟩ := whole_of_wholePart first
  obtain ⟨point, rfl, fraction⟩ := written_of_fractionPart second
  obtain ⟨raised, rfl, scaled⟩ := written_of_exponentPart third
  exact ⟨_, by simp, .mk signed shape fraction scaled⟩

theorem written_of_numeral {made : Numeral} (done : numeral cut text = .ok (made, rest)) :
    ∃ used, text = used ++ rest ∧ WrittenNumeral made used := by
  unfold numeral at done
  split at done
  · exact written_of_unsignedNumeral .minus done
  · exact written_of_unsignedNumeral .none done

end Sound

end NodeFlow.Json
