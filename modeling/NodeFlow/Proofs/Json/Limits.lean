import NodeFlow.Proofs.Json.Meaning
import NodeFlow.Proofs.Number.Magnitudes

namespace NodeFlow.Json

namespace Tree

-- The limits of the reader, by the numbers that are within them. An array or an object takes one level
-- of the budget.
inductive Fits (finite : Numeral → Prop) : Nat → Tree → Prop
  | null {budget : Nat} : Fits finite budget .null
  | bool {budget : Nat} {value : Bool} : Fits finite budget (.bool value)
  | number {budget : Nat} {numeral : Numeral} (inRange : finite numeral) : Fits finite budget (.number numeral)
  | string {budget : Nat} {spelling : Spelling} (paired : spelling.Paired) : Fits finite budget (.string spelling)
  | array {budget : Nat} {items : List Tree} (inner : ∀ item ∈ items, Fits finite budget item) :
      Fits finite (budget + 1) (.array items)
  | object {budget : Nat} {members : List (Spelling × Tree)} (named : ∀ entry ∈ members, entry.1.Paired)
      (inner : ∀ entry ∈ members, Fits finite budget entry.2) : Fits finite (budget + 1) (.object members)

end Tree

variable {σ : Type}

theorem isSome_text?_of_paired {spelling : Spelling} (paired : spelling.Paired) : spelling.text?.isSome := by
  rw [Spelling.text?, Option.isSome_map]
  exact Spelling.isSome_chars?_of_paired paired

theorem isSome_mapM {α β : Type} {f : α → Option β} {items : List α} (each : ∀ item ∈ items, (f item).isSome) :
    (items.mapM f).isSome := by
  induction items with
  | nil => rfl
  | cons item rest ih =>
    obtain ⟨first, head⟩ := Option.isSome_iff_exists.1 (each item List.mem_cons_self)
    have later := ih fun item member => each item (List.mem_cons_of_mem _ member)
    obtain ⟨others, tail⟩ := Option.isSome_iff_exists.1 later
    rw [List.mapM_cons, head, tail]
    rfl

theorem isSome_gather {step : σ → String → Tree → Option σ} {entries : List (Spelling × Tree)}
    (named : ∀ entry ∈ entries, entry.1.text?.isSome)
    (each : ∀ entry ∈ entries, ∀ state name, (step state name entry.2).isSome) (state : σ) :
    (gather step state entries).isSome := by
  induction entries generalizing state with
  | nil => rfl
  | cons entry rest ih =>
    obtain ⟨spelling, tree⟩ := entry
    obtain ⟨name, spelled⟩ := Option.isSome_iff_exists.1 (named _ List.mem_cons_self)
    obtain ⟨next, taken⟩ := Option.isSome_iff_exists.1 (each _ List.mem_cons_self state name)
    rw [gather, spelled]
    show ((step state name tree).bind fun next => gather step next rest).isSome
    rw [taken]
    exact ih (fun entry member => named entry (List.mem_cons_of_mem _ member))
      (fun entry member => each entry (List.mem_cons_of_mem _ member)) next

theorem Tree.Fits.named {finite : Numeral → Prop} {budget : Nat} {entries : List (Spelling × Tree)}
    (fits : (Tree.object entries).Fits finite (budget + 1)) : ∀ entry ∈ entries, entry.1.text?.isSome := by
  cases fits with
  | object named _ => exact fun entry member => isSome_text?_of_paired (named entry member)

theorem Tree.Fits.inner {finite : Numeral → Prop} {budget : Nat} {entries : List (Spelling × Tree)}
    (fits : (Tree.object entries).Fits finite (budget + 1)) : ∀ entry ∈ entries, entry.2.Fits finite budget := by
  cases fits with
  | object _ inner => exact inner

theorem json?_of_fits {budget : Nat} {tree : Tree} (fits : tree.Fits Numeral.InRange budget) :
    (tree.json? budget).isSome := by
  induction fits with
  | null => simp [Tree.json?]
  | bool => simp [Tree.json?]
  | number inRange => simpa [Tree.json?] using Numeral.number?_of_inRange inRange
  | string paired => simpa [Tree.json?] using isSome_text?_of_paired paired
  | array inner ih =>
    rw [Tree.json?, Option.isSome_map]
    exact isSome_mapM ih
  | object named inner ih =>
    rw [Tree.json?, Option.isSome_map]
    refine isSome_gather (fun entry member => isSome_text?_of_paired (named entry member)) ?_ []
    intro entry member state name
    rw [Option.isSome_map]
    exact ih entry member

end NodeFlow.Json
