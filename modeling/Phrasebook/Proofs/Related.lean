import Mathlib.Data.List.Forall2

/-! # Lists in relation

Two lists stand in a relation item by item. Then each item of one of them has a partner in the
other, and they agree in whatever related items agree in. Lists whose items carry a key may
be related value by value under the same keys (`Phrasebook.Related.keyed_iff`).
-/

namespace Phrasebook.Related

variable {α β γ : Type} {related : α → β → Prop} {items : List α} {others : List β}

theorem exists_right (pairs : List.Forall₂ related items others) {item : α}
    (member : item ∈ items) : ∃ other ∈ others, related item other := by
  induction pairs with
  | nil => cases member
  | cons first _ ih =>
    rcases List.mem_cons.mp member with rfl | later
    · exact ⟨_, List.mem_cons_self, first⟩
    · obtain ⟨other, present, pair⟩ := ih later
      exact ⟨other, List.mem_cons_of_mem _ present, pair⟩

theorem exists_left (pairs : List.Forall₂ related items others) {other : β}
    (member : other ∈ others) : ∃ item ∈ items, related item other :=
  exists_right pairs.flip member

/-- Items at the same place of both lists are related. -/
theorem exists_getElem?_right (pairs : List.Forall₂ related items others) {number : Nat}
    {other : β} (there : others[number]? = some other) :
    ∃ item, items[number]? = some item ∧ related item other := by
  induction pairs generalizing number with
  | nil => cases there
  | cons first _ ih =>
    cases number with
    | zero =>
      cases there
      exact ⟨_, rfl, first⟩
    | succ number => exact ih there

theorem map_eq {first : α → γ} {second : β → γ} (pairs : List.Forall₂ related items others)
    (same : ∀ item other, related item other → first item = second other) :
    items.map first = others.map second := by
  induction pairs with
  | nil => rfl
  | cons pair _ ih => rw [List.map_cons, List.map_cons, same _ _ pair, ih]

theorem congr_left {other : α → β → Prop} {items : List α}
    (same : ∀ item ∈ items, ∀ value, related item value ↔ other item value) {values : List β} :
    List.Forall₂ related items values ↔ List.Forall₂ other items values := by
  induction items generalizing values with
  | nil => rw [List.forall₂_nil_left_iff, List.forall₂_nil_left_iff]
  | cons item rest ih =>
    obtain ⟨first, later⟩ := List.forall_mem_cons.mp same
    rw [List.forall₂_cons_left_iff, List.forall₂_cons_left_iff]
    simp only [first, ih later]

section Keyed

variable {κ : Type} {items : List (κ × α)} {others : List (κ × β)}

/-- Values in relation under the same keys, said of the lists of keys and of the pairs of items. -/
theorem keyed_iff (related : α → β → Prop) :
    List.Forall₂ (fun item other => item.1 = other.1 ∧ related item.2 other.2) items others ↔
      items.map Prod.fst = others.map Prod.fst ∧
        ∀ pair ∈ items.zip others, related pair.1.2 pair.2.2 := by
  induction items generalizing others with
  | nil => cases others <;> simp
  | cons item rest ih =>
    cases others with
    | nil => simp
    | cons other later =>
      simp only [List.forall₂_cons, ih, List.map_cons, List.cons.injEq, List.zip_cons_cons,
        List.forall_mem_cons]
      tauto

theorem zip_of_keys {related : α → β → Prop} (keys : items.map Prod.fst = others.map Prod.fst)
    (each : ∀ key value other, (key, value) ∈ items → (key, other) ∈ others → related value other) :
    ∀ pair ∈ items.zip others, related pair.1.2 pair.2.2 := by
  intro pair listed
  obtain ⟨here, there⟩ := List.of_mem_zip listed
  have alike := (keyed_iff fun _ _ => True).mpr ⟨keys, fun _ _ => trivial⟩
  have same := ((List.forall₂_iff_zip.mp alike).2 listed).1
  refine each pair.1.1 _ _ here ?_
  rw [same]
  exact there

/-- Under each key both lists have related values, or neither has one. -/
theorem lookup [BEq κ] {related : α → β → Prop}
    (pairs : List.Forall₂ (fun item other => item.1 = other.1 ∧ related item.2 other.2)
      items others)
    (key : κ) : Option.Rel related (items.lookup key) (others.lookup key) := by
  induction pairs with
  | nil => exact .none
  | @cons item other _ _ pair _ ih =>
    obtain ⟨same, pair⟩ := pair
    rw [List.lookup_cons, List.lookup_cons, same]
    cases key == other.1 with
    | true => exact .some pair
    | false => exact ih

end Keyed

end Phrasebook.Related
