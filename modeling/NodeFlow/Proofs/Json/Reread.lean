import Mathlib.Data.List.Forall2
import NodeFlow.Proofs.Json.Lookups
import NodeFlow.Proofs.Json.RoundTrip

namespace NodeFlow.Json

open Scan Read

-- Whatever the reader makes of the text has the property, and nothing that follows is read with it.
def Yields {α : Type} (reader : Reader α) (text : List Char) (P : α → Prop) : Prop :=
  ∀ rest made after, Stops rest → reader (text ++ rest) = .ok (made, after) → after = rest ∧ P made

theorem Yields.mono {α : Type} {reader : Reader α} {text : List Char} {P Q : α → Prop}
    (yields : Yields reader text P) (weaker : ∀ made, P made → Q made) : Yields reader text Q := by
  intro rest made after stops done
  exact (yields rest made after stops done).imp_right (weaker made)

theorem Reads.yields {α : Type} {reader : Reader α} {text : List Char} {made : α} {P : α → Prop}
    (reads : Reads reader text made) (holds : P made) : Yields reader text P := by
  intro rest other after stops done
  rw [reads rest stops] at done
  cases done
  exact ⟨rfl, holds⟩

variable {style : Style}

section Lists

variable {α : Type} {item : Reader α} {P : Json → α → Prop} {level : Nat}

theorem moreItems_yields (blank : style.Blank) (items : List Json)
    (each : ∀ value ∈ items, Yields item (value.render style level) (P value))
    {gap : List Char} (blankGap : ∀ c ∈ gap, isBlank c = true) {bound rest after : List Char} {made : List α}
    (done : moreItems item bound (renderItems style level items ++ (gap ++ ']' :: rest)) = .ok (made, after)) :
    after = rest ∧ List.Forall₂ P items made := by
  induction items generalizing bound made with
  | nil =>
    rcases bound with _ | ⟨mark, bound⟩
    · cases done
    · have closing := skipBlank_cons (c := ']') rest (by decide)
      have read : moreItems item (mark :: bound) (gap ++ ']' :: rest) = .ok ([], rest) := by
        simp [moreItems, skipBlank_append blankGap, closing]
      rw [renderItems, List.nil_append, read] at done
      cases done
      exact ⟨rfl, .nil⟩
  | cons value others ih =>
    rcases bound with _ | ⟨mark, bound⟩
    · cases done
    · have comma := fun tail => skipBlank_cons (c := ',') tail (by decide)
      obtain ⟨c, tail, skipped, open_, _, same⟩ := skipBlank_render style level value _ (blank.newline level)
        (renderItems style level others ++ (gap ++ ']' :: rest))
      simp only [renderItems, List.cons_append, List.append_assoc, moreItems, comma, skipped] at done
      simp only [open_, if_false, Char.reduceEq, if_true] at done
      obtain ⟨⟨first, behind⟩, one, done⟩ := (bind_eq_ok_iff _ _ _).1 done
      obtain ⟨⟨more, behind⟩, two, done⟩ := (bind_eq_ok_iff _ _ _).1 done
      cases done
      rw [same] at one
      obtain ⟨rfl, holds⟩ := each value List.mem_cons_self _ _ _
        (stops_renderItems style level others (stops_closing blankGap (.inl rfl) rest)) one
      obtain ⟨rfl, rest⟩ := ih (fun value member => each value (List.mem_cons_of_mem _ member)) two
      exact ⟨rfl, .cons holds rest⟩

theorem items_yields (blank : style.Blank) (first : Json) (others : List Json)
    (each : ∀ value ∈ first :: others, Yields item (value.render style level) (P value))
    {opening closing : List Char} (blankOpening : ∀ c ∈ opening, isBlank c = true)
    (blankClosing : ∀ c ∈ closing, isBlank c = true) {rest after : List Char} {made : List α}
    (done : items item (opening ++ (first.render style level ++ (renderItems style level others ++
      (closing ++ ']' :: rest)))) = .ok (made, after)) : after = rest ∧ List.Forall₂ P (first :: others) made := by
  obtain ⟨c, tail, skipped, open_, _, same⟩ := skipBlank_render style level first _ blankOpening
    (renderItems style level others ++ (closing ++ ']' :: rest))
  simp only [items, skipped, open_, if_false] at done
  obtain ⟨⟨one, behind⟩, read, done⟩ := (bind_eq_ok_iff _ _ _).1 done
  obtain ⟨⟨more, behind⟩, reads, done⟩ := (bind_eq_ok_iff _ _ _).1 done
  cases done
  rw [same] at read
  obtain ⟨rfl, holds⟩ := each first List.mem_cons_self _ _ _
    (stops_renderItems style level others (stops_closing blankClosing (.inl rfl) rest)) read
  obtain ⟨rfl, later⟩ := moreItems_yields blank others
    (fun value member => each value (List.mem_cons_of_mem _ member)) blankClosing reads
  exact ⟨rfl, .cons holds later⟩

end Lists

section Objects

variable {σ : Type} {level : Nat} {field : FieldReader σ}

-- If the members are read one after the other, they lead from the state to one with the property.
def Leads (style : Style) (level : Nat) (field : FieldReader σ) (P : σ → Prop) : σ → List (String × Json) → Prop
  | state, [] => P state
  | state, (name, value) :: rest =>
    Yields (field state name) (':' :: (style.space ++ value.render style level))
      fun next => Leads style level field P next rest

theorem Leads.append {P Q : σ → Prop} {first second : List (String × Json)} {state : σ}
    (one : Leads style level field P state first) (two : ∀ next, P next → Leads style level field Q next second) :
    Leads style level field Q state (first ++ second) := by
  induction first generalizing state with
  | nil => exact two state one
  | cons member rest ih => exact Yields.mono one fun next leads => ih leads

theorem Gathers.leads {P : σ → Prop} {state final : σ} {members : List (String × Json)}
    (gathers : Gathers style level field state members final) (holds : P final) :
    Leads style level field P state members := by
  induction gathers with
  | nil state => exact holds
  | cons reads _ ih => exact reads.yields (ih holds)

variable {P : σ → Prop}

theorem moreMembers_yields (blank : style.Blank) {state final : σ} {members : List (String × Json)}
    (leads : Leads style level field P state members) {gap : List Char} (blankGap : ∀ c ∈ gap, isBlank c = true)
    {bound rest after : List Char}
    (done : moreMembers field bound state (renderMembers style level members ++ (gap ++ '}' :: rest)) =
      .ok (final, after)) : after = rest ∧ P final := by
  induction members generalizing bound state with
  | nil =>
    rcases bound with _ | ⟨mark, bound⟩
    · cases done
    · have closing := skipBlank_cons (c := '}') rest (by decide)
      have read : moreMembers field (mark :: bound) state (gap ++ '}' :: rest) = .ok (state, rest) := by
        simp [moreMembers, skipBlank_append blankGap, closing]
      rw [renderMembers, List.nil_append, read] at done
      cases done
      exact ⟨rfl, leads⟩
  | cons member members ih =>
    obtain ⟨name, value⟩ := member
    rcases bound with _ | ⟨mark, bound⟩
    · cases done
    · have comma := fun tail => skipBlank_cons (c := ',') tail (by decide)
      have mark := fun tail => skipBlank_cons (c := '"') tail (by decide)
      simp only [renderMembers, quote, List.cons_append, List.append_assoc, List.nil_append, moreMembers, comma,
        skipBlank_append (blank.newline level), mark, Char.reduceEq, if_false, if_true, stringBody_quoted, bind,
        Except.bind] at done
      obtain ⟨⟨next, behind⟩, one, done⟩ := (bind_eq_ok_iff _ _ _).1 done
      obtain ⟨rfl, later⟩ := leads _ _ _
        (stops_renderMembers style level members (stops_closing blankGap (.inr rfl) rest))
        (by simpa only [List.cons_append, List.append_assoc] using one)
      exact ih later done

theorem object_yields (blank : style.Blank) {state : σ} {members : List (String × Json)}
    (leads : Leads style (level + 1) field P state members) :
    ∃ body, (Json.object members).render style level = '{' :: body ∧ ∀ rest final after,
      Read.members field state (body ++ rest) = .ok (final, after) → after = rest ∧ P final := by
  cases members with
  | nil =>
    refine ⟨['}'], by simp only [render], ?_⟩
    intro rest final after done
    have closing := skipBlank_cons (c := '}') rest (by decide)
    have read : Read.members field state (['}'] ++ rest) = .ok (state, rest) := by simp [Read.members, closing]
    rw [read] at done
    cases done
    exact ⟨rfl, leads⟩
  | cons member members =>
    obtain ⟨name, value⟩ := member
    refine ⟨_, by simp only [render, List.cons_append]; rfl, ?_⟩
    intro rest final after done
    have mark := fun tail => skipBlank_cons (c := '"') tail (by decide)
    simp only [quote, List.cons_append, List.append_assoc, List.nil_append, Read.members,
      skipBlank_append (blank.newline (level + 1)), mark, Char.reduceEq, if_false, if_true, stringBody_quoted, bind,
      Except.bind] at done
    obtain ⟨⟨next, behind⟩, one, done⟩ := (bind_eq_ok_iff _ _ _).1 done
    obtain ⟨rfl, later⟩ := leads _ _ _
      (stops_renderMembers style (level + 1) members (stops_closing (blank.newline level) (.inr rfl) rest))
      (by simpa only [List.cons_append, List.append_assoc] using one)
    exact moreMembers_yields blank later (blank.newline level) done

theorem keptField_yields (blank : style.Blank) {budget : Nat} (keep : σ → String → Json → σ) (state : σ)
    (name : String) {written : Json} {P : Json → Prop} (yields : Yields (value budget) (written.render style level) P) :
    Yields (keptField (value budget) keep state name) (':' :: (style.space ++ written.render style level))
      fun next => ∃ read, P read ∧ next = keep state name read := by
  intro rest made after stops done
  obtain ⟨behind, punctuated, done⟩ := (bind_eq_ok_iff _ _ _).1 done
  obtain ⟨⟨read, behind⟩, one, done⟩ := (bind_eq_ok_iff _ _ _).1 done
  cases done
  rw [List.cons_append, colon_cons, List.append_assoc] at punctuated
  cases punctuated
  rw [value_skipBlank budget blank.space] at one
  exact (yields rest read _ stops one).imp_right fun holds => ⟨read, holds, rfl⟩

end Objects

section Values

structure Reread (budget : Nat) (written made : Json) : Prop where
  depth_le : written.depth ≤ budget
  readBack : made.same written = true → ∀ n ∈ written.numbers, n.ReadsBack

theorem same_of_sameItems {P : Json → Json → Prop} {items made : List Json} (each : List.Forall₂ P items made)
    (equal : sameItems made items = true) : ∀ item ∈ items, ∃ read, P item read ∧ read.same item = true := by
  induction each with
  | nil => simp
  | cons holds _ ih =>
    simp only [sameItems, Bool.and_eq_true] at equal
    intro item member
    rcases List.mem_cons.1 member with rfl | later
    · exact ⟨_, holds, equal.1⟩
    · exact ih equal.2 item later

theorem same_of_sameMembers {made members : List (String × Json)} (equal : sameMembers made members = true)
    {name : String} {read : Json} (found : (name, read) ∈ made) :
    ∃ value, (name, value) ∈ members ∧ read.same value = true := by
  induction made generalizing members with
  | nil => cases found
  | cons first rest ih =>
    obtain ⟨label, made⟩ := first
    cases members with
    | nil => simp [sameMembers] at equal
    | cons second others =>
      obtain ⟨other, value⟩ := second
      simp only [sameMembers, Bool.and_eq_true, beq_iff_eq] at equal
      rcases List.mem_cons.1 found with same | later
      · cases same
        exact ⟨value, equal.1.1 ▸ List.mem_cons_self, equal.1.2⟩
      · obtain ⟨partner, member, same⟩ := ih equal.2 later
        exact ⟨partner, List.mem_cons_of_mem _ member, same⟩

theorem insertMember_mem (name : String) (value : Json) (members : List (String × Json)) :
    (name, value) ∈ insertMember name value members := by
  induction members with
  | nil => exact List.mem_cons_self
  | cons first rest ih =>
    unfold insertMember
    split
    · exact List.mem_cons_self
    · split
      · exact List.mem_cons_self
      · exact List.mem_cons_of_mem _ ih

theorem mem_insertMember_of_ne {name other : String} (value : Json) {old : Json} {members : List (String × Json)}
    (found : (other, old) ∈ members) (different : other ≠ name) : (other, old) ∈ insertMember name value members := by
  induction members with
  | nil => cases found
  | cons first rest ih =>
    unfold insertMember
    rcases List.mem_cons.1 found with rfl | later
    · split
      · rename_i same
        exact absurd same.symm different
      · split
        · exact List.mem_cons_of_mem _ List.mem_cons_self
        · exact List.mem_cons_self
    · split
      · exact List.mem_cons_of_mem _ later
      · split
        · exact List.mem_cons_of_mem _ (List.mem_cons_of_mem _ later)
        · exact List.mem_cons_of_mem _ (ih later)

theorem Ascending.eq_of_mem {members : List (String × Json)} (ascending : Ascending members) {name : String}
    {a b : Json} (one : (name, a) ∈ members) (two : (name, b) ∈ members) : a = b :=
  congrArg Prod.snd (List.inj_on_of_nodup_map ascending.distinct one two rfl)

theorem number_yields (budget level : Nat) (n : Number) :
    Yields (value budget) ((Json.number n).render style level) (Reread budget (.number n)) := by
  intro rest made after stops done
  obtain ⟨c, tail, skipped, _, _, same⟩ := skipBlank_render style level (.number n) [] (by simp) rest
  obtain ⟨_, read⟩ := n.render_numeral .endInValue
  obtain ⟨lead, digits, text, head⟩ := numeral_head read
  simp only [render] at same skipped done
  rw [List.nil_append] at skipped
  have first := same
  rw [text, List.cons_append] at first
  obtain ⟨rfl, _⟩ := List.cons.inj first
  have notWord : c ≠ 'n' ∧ c ≠ 't' ∧ c ≠ 'f' := by
    refine ⟨?_, ?_, ?_⟩ <;> rintro rfl <;> exact absurd head (by decide)
  unfold value at done
  rw [skipped] at done
  simp only [notWord, if_false, Bool.or_eq_true, decide_eq_true_eq, head, if_true] at done
  obtain ⟨⟨found, behind⟩, one, done⟩ := (bind_eq_ok_iff _ _ _).1 done
  cases done
  rw [same] at one
  obtain ⟨rfl, alone⟩ := number_of_append n stops one
  refine ⟨rfl, Nat.zero_le _, ?_⟩
  intro back m member
  rw [List.mem_singleton.1 member]
  exact Number.readsBack_of_same alone (by simpa only [Json.same] using back)

def MembersRead (budget : Nat) (members done : List (String × Json)) : Prop :=
  ∀ name value, (name, value) ∈ members → ∃ read, (name, read) ∈ done ∧ Reread budget value read

theorem MembersRead.insert {budget : Nat} {members done : List (String × Json)} (held : MembersRead budget members done)
    {name : String} {value read : Json} (fresh : ∀ member ∈ members, member.1 ≠ name)
    (reread : Reread budget value read) :
    MembersRead budget (members ++ [(name, value)]) (insertMember name read done) := by
  intro other old member
  rcases List.mem_append.1 member with earlier | new
  · obtain ⟨found, present, back⟩ := held other old earlier
    exact ⟨found, mem_insertMember_of_ne read present (fresh _ earlier), back⟩
  · cases List.mem_singleton.1 new
    exact ⟨read, insertMember_mem name read done, reread⟩

theorem members_lead (blank : style.Blank) {budget level : Nat} (members : List (String × Json))
    (ascending : Ascending members) (each : ∀ member ∈ members,
      Yields (value budget) (member.2.render style level) (Reread budget member.2)) :
    Leads style level (keptField (value budget) fun done name read => insertMember name read done)
      (MembersRead budget members) [] members := by
  suffices along : ∀ (later before done : List (String × Json)), members = before ++ later →
      MembersRead budget before done →
      Leads style level (keptField (value budget) fun done name read => insertMember name read done)
        (MembersRead budget members) done later from along members [] [] rfl nofun
  intro later
  induction later with
  | nil =>
    intro before done whole held
    rw [List.append_nil] at whole
    rw [whole]
    exact held
  | cons member later ih =>
    obtain ⟨name, first⟩ := member
    intro before done whole held
    have fresh : ∀ member ∈ before, member.1 ≠ name := by
      rintro ⟨other, value⟩ old rfl
      exact Text.precedes_irrefl other ((whole ▸ ascending).behind other first _ old)
    have yields := keptField_yields blank (fun done name read => insertMember name read done) done name
      (each (name, first) (by rw [whole]; simp))
    refine yields.mono ?_
    rintro next ⟨read, reread, rfl⟩
    exact ih (before ++ [(name, first)]) _ (by rw [whole]; simp) (held.insert fresh reread)

theorem scalar_yields (budget level : Nat) (written : Json) (flat : written.depth = 0) :
    Yields (value budget) (written.render style level) (Reread budget written) := by
  cases written with
  | number n => exact number_yields budget level n
  | array items => simp [depth] at flat
  | object members => simp [depth] at flat
  | _ => exact (scalar_reads budget level _ rfl (by simp [numbers])).yields ⟨Nat.zero_le _, by simp [numbers]⟩

theorem array_reread (blank : style.Blank) {budget level : Nat} (list : List Json)
    (each : ∀ item ∈ list, Yields (value budget) (item.render style (level + 1)) (Reread budget item)) :
    Yields (value (budget + 1)) ((Json.array list).render style level) (Reread (budget + 1) (.array list)) := by
  intro rest made after _ done
  have opening := fun tail => skipBlank_cons (c := '[') tail (by decide)
  cases list with
  | nil =>
    have closing := skipBlank_cons (c := ']') rest (by decide)
    have read : value (budget + 1) ((Json.array []).render style level ++ rest) = .ok (.array [], rest) := by
      simp [render, value, opening, Read.items, closing, bind, Except.bind]
    rw [read] at done
    cases done
    exact ⟨rfl, by simp [depth, depthOfItems], by simp [numbers, numbersOfItems]⟩
  | cons first others =>
    simp only [render, List.cons_append, List.append_assoc, List.nil_append] at done
    unfold value at done
    simp only [opening, Char.reduceEq, if_false, if_true] at done
    obtain ⟨⟨read, behind⟩, one, done⟩ := (bind_eq_ok_iff _ _ _).1 done
    cases done
    obtain ⟨rfl, rereads⟩ :=
      items_yields blank first others each (blank.newline (level + 1)) (blank.newline level) one
    have deep := (List.forall₂_and_left _ _).1 (rereads.imp fun _ _ reread => ⟨reread.depth_le, reread⟩)
    refine ⟨rfl, Nat.succ_le_succ ((depthOfItems_le_iff _ budget).2 deep.1), ?_⟩
    intro back n member
    obtain ⟨item, inside, found⟩ := (mem_numbersOfItems _ n).1 member
    obtain ⟨made, reread, equal⟩ := same_of_sameItems rereads (by simpa only [same] using back) item inside
    exact reread.readBack equal n found

theorem object_reread (blank : style.Blank) {budget level : Nat} (members : List (String × Json))
    (ascending : Ascending members) (each : ∀ member ∈ members,
      Yields (value budget) (member.2.render style (level + 1)) (Reread budget member.2)) :
    Yields (value (budget + 1)) ((Json.object members).render style level) (Reread (budget + 1) (.object members)) := by
  intro rest made after _ done
  have opening := fun tail => skipBlank_cons (c := '{') tail (by decide)
  obtain ⟨body, text, yields⟩ := object_yields blank (members_lead blank members ascending each)
  rw [text, List.cons_append] at done
  unfold value at done
  simp only [opening, Char.reduceEq, if_false, if_true] at done
  obtain ⟨⟨read, behind⟩, one, done⟩ := (bind_eq_ok_iff _ _ _).1 done
  cases done
  obtain ⟨rfl, rereads⟩ := yields _ _ _ one
  have deep : ∀ member ∈ members, member.2.depth ≤ budget := by
    intro member inside
    obtain ⟨found, _, reread⟩ := rereads member.1 member.2 inside
    exact reread.depth_le
  refine ⟨rfl, Nat.succ_le_succ ((depthOfMembers_le_iff members budget).2 deep), ?_⟩
  intro back n member
  obtain ⟨⟨name, value⟩, inside, found⟩ := (mem_numbersOfMembers _ n).1 member
  obtain ⟨made, present, reread⟩ := rereads name value inside
  obtain ⟨other, partner, equal⟩ := same_of_sameMembers (by simpa only [same] using back) present
  exact reread.readBack (ascending.eq_of_mem partner inside ▸ equal) n found

-- Along the budget, as the reader itself goes.
theorem value_yields (blank : style.Blank) (budget level : Nat) (written : Json) (canonical : written.Canonical) :
    Yields (value budget) (written.render style level) (Reread budget written) := by
  induction budget generalizing level written with
  | zero =>
    cases written with
    | array items =>
      intro rest made after _ done
      have opening := fun tail => skipBlank_cons (c := '[') tail (by decide)
      cases items <;> simp [render, value, opening] at done
    | object members =>
      intro rest made after _ done
      have opening := fun tail => skipBlank_cons (c := '{') tail (by decide)
      cases members <;> simp [render, value, opening] at done
    | _ => exact scalar_yields 0 level _ rfl
  | succ budget ih =>
    cases written with
    | array items =>
      exact array_reread blank items fun item member =>
        ih (level + 1) item ((canonicalItems_iff items).1 canonical item member)
    | object members =>
      exact object_reread blank members canonical.1 fun member found =>
        ih (level + 1) member.2 ((canonicalMembers_iff members).1 canonical.2 member found)
    | _ => exact scalar_yields _ level _ rfl

theorem names_of_sameMembers : {members others : List (String × Json)} → sameMembers members others = true →
    members.map Prod.fst = others.map Prod.fst
  | [], [], _ => rfl
  | [], _ :: _, equal | _ :: _, [], equal => by cases equal
  | (name, a) :: members, (other, b) :: others, equal => by
    simp only [sameMembers, Bool.and_eq_true, beq_iff_eq] at equal
    rw [List.map_cons, List.map_cons, names_of_sameMembers equal.2, equal.1.1]

mutual
theorem canonical_of_same : (a b : Json) → a.same b = true → a.Canonical → b.Canonical
  | .array items, .array others, equal, canonical => canonicalItems_of_same items others equal canonical
  | .object members, .object others, equal, canonical => by
    refine ⟨?_, canonicalMembers_of_same members others equal canonical.2⟩
    have ascending := canonical.1
    rwa [Ascending, names_of_sameMembers equal] at ascending
  | _, .null, _, _ | _, .bool _, _, _ | _, .number _, _, _ | _, .string _, _, _ => by simp only [Canonical]

theorem canonicalItems_of_same : (items others : List Json) → sameItems items others = true →
    CanonicalItems items → CanonicalItems others
  | _, [], _, _ => trivial
  | [], _ :: _, equal, _ => by cases equal
  | a :: items, b :: others, equal, canonical => by
    simp only [sameItems, Bool.and_eq_true] at equal
    exact ⟨canonical_of_same a b equal.1 canonical.1, canonicalItems_of_same items others equal.2 canonical.2⟩

theorem canonicalMembers_of_same : (members others : List (String × Json)) → sameMembers members others = true →
    CanonicalMembers members → CanonicalMembers others
  | _, [], _, _ => trivial
  | [], _ :: _, equal, _ => by cases equal
  | (_, a) :: members, (_, b) :: others, equal, canonical => by
    simp only [sameMembers, Bool.and_eq_true] at equal
    exact ⟨canonical_of_same a b equal.1.2 canonical.1, canonicalMembers_of_same members others equal.2 canonical.2⟩
end

-- The reader makes canonical values only, so that one that it read as an equal value is canonical as well.
theorem stored_of_read?_render (blank : style.Blank) {written made : Json}
    (read : read? (String.ofList (written.render style 0)) = some made) (equal : made.same written = true) :
    written.Stored depthLimit ∧ ∀ n ∈ written.numbers, n.ReadsBack := by
  have canonical := canonical_of_same made written equal (stored_of_read? read).canonical
  obtain ⟨rest, done, _⟩ := whole_eq_ok (read_of_read? read)
  have yields := value_yields blank depthLimit 0 written canonical [] made rest stops_nil
  rw [List.append_nil, ← String.toList_ofList (l := written.render style 0)] at yields
  have reread := (yields done).2
  exact ⟨⟨canonical, reread.depth_le⟩, reread.readBack equal⟩

end Values

end NodeFlow.Json
