import NodeFlow.Proofs.Graph.DocumentShape
import NodeFlow.Proofs.Json.Lookups

namespace NodeFlow.Graph.Document

open Json Json.Read

variable {α β γ σ : Type}

def lastOf (name : String) (entries : List (Spelling × Tree)) : Option Tree := (valuesOf name entries).getLast?

theorem lastOf_cons {spelling : Spelling} {name : String} (spelled : spelling.text? = some name) (own : String)
    (tree : Tree) (rest : List (Spelling × Tree)) :
    lastOf own ((spelling, tree) :: rest) =
      if name = own then (lastOf own rest).or (some tree) else lastOf own rest := by
  unfold lastOf valuesOf
  rw [List.filter_cons, spelled]
  by_cases same : name = own
  · simp [same, List.getLast?_cons, Option.or_some]
  · simp [same]

-- A member changes what is found under its own name, and nothing that is found under another one.
theorem look_of_gather {step : σ → String → Tree → Option σ} (look : σ → Option α) {meaning : Tree → Option α}
    {own : String}
    (here : ∀ state tree next, step state own tree = some next →
      ∃ made, meaning tree = some made ∧ look next = some made)
    (elsewhere : ∀ state name tree next, name ≠ own → step state name tree = some next → look next = look state)
    {entries : List (Spelling × Tree)} {state final : σ} (done : gather step state entries = some final) :
    ((lastOf own entries).map meaning).or ((look state).map some) = (look final).map some := by
  induction entries generalizing state with
  | nil => rw [← Option.some.inj done]; rfl
  | cons entry rest ih =>
    obtain ⟨spelling, tree⟩ := entry
    obtain ⟨name, next, spelled, taken, done⟩ := (gather_cons_iff _ _ _ _ _).1 done
    rw [lastOf_cons spelled, ← ih done]
    by_cases same : name = own
    · subst same
      obtain ⟨made, meant, found⟩ := here _ _ _ taken
      rw [if_pos rfl, found, Option.map_some, ← meant]
      cases lastOf name rest <;> rfl
    · rw [if_neg same, elsewhere _ _ _ _ same taken]

-- Two readings of one object agree on what they find under a name if they agree on the member.
theorem agree_of_last {last : Option Tree} {one : Tree → Option α} {two : Tree → Option β} {a : Option α}
    {b : Option β} (first : last.map one = a.map some) (second : last.map two = b.map some) {f : α → γ} {g : β → γ}
    (each : ∀ tree x y, a = some x → b = some y → one tree = some x → two tree = some y → f x = g y) :
    a.map f = b.map g := by
  cases last with
  | none =>
    cases a with
    | some _ => cases first
    | none =>
      cases b with
      | some _ => cases second
      | none => rfl
  | some tree =>
    obtain ⟨x, rfl, meansX⟩ := Option.map_eq_some_iff.1 first.symm
    obtain ⟨y, rfl, meansY⟩ := Option.map_eq_some_iff.1 second.symm
    exact congrArg some (each tree x y rfl rfl meansX.symm meansY.symm)

theorem look_of_slot {own : String} {meaning : Tree → Option α} {entries : List (Spelling × Tree)}
    {found : Option α} (done : gather (slotStep own meaning) none entries = some found) :
    (lastOf own entries).map meaning = found.map some := by
  refine (Option.or_none).symm.trans (look_of_gather id ?_ ?_ done)
  · intro seen tree next taken
    rw [slotStep, if_pos rfl] at taken
    cases seen with
    | some _ => cases taken
    | none =>
      obtain ⟨made, meant, rfl⟩ := Option.map_eq_some_iff.1 taken
      exact ⟨made, meant, rfl⟩
  · intro seen name tree next other taken
    rw [slotStep, if_neg other] at taken
    exact (Option.some.inj taken).symm

theorem look_of_puts (put : σ → String → α → σ) (look : σ → String → Option α) {meaning : Tree → Option α}
    (found : ∀ state name value own,
      look (put state name value) own = if own = name then some value else look state own)
    {entries : List (Spelling × Tree)} {start final : σ} (empty : ∀ own, look start own = none)
    (done : gather (fun state name tree => (meaning tree).map (put state name)) start entries = some final)
    (own : String) : (lastOf own entries).map meaning = (look final own).map some := by
  have fresh : (look start own).map some = none := congrArg (Option.map some) (empty own)
  rw [← look_of_gather (fun state => look state own) ?_ ?_ done, fresh, Option.or_none]
  · intro state tree next taken
    obtain ⟨made, meant, rfl⟩ := Option.map_eq_some_iff.1 taken
    exact ⟨made, meant, (found ..).trans (if_pos rfl)⟩
  · intro state name tree next other taken
    obtain ⟨made, _, rfl⟩ := Option.map_eq_some_iff.1 taken
    exact (found ..).trans (if_neg fun same => other same.symm)

theorem lookup_of_json? (budget : Nat) {entries : List (Spelling × Tree)} {value : Json}
    (made : (Tree.object entries).json? (budget + 1) = some value) : ∃ members, value = .object members ∧
      ∀ name, (lastOf name entries).map (Tree.json? budget) = (members.lookup name).map some := by
  rw [Tree.json?, Option.map_eq_some_iff] at made
  obtain ⟨members, done, rfl⟩ := made
  exact ⟨members, rfl, look_of_puts (fun done name value => insertMember name value done)
    (fun done own => done.lookup own) (fun done name value own => lookup_insertMember name own value done)
    (fun _ => rfl) done⟩

end NodeFlow.Graph.Document
