/-! # Lists kept in increasing key order

Namespaces, registries and sets of paths are lists whose items carry a key, in
strictly increasing order of the keys (`Phrasebook.Ordered.Increasing`). One
insertion serves them all (`Phrasebook.Ordered.insert`): it keeps the order
(`Phrasebook.Ordered.increasing_insert`), and the inserted item is found again
under its key while every other key finds what it found before
(`Phrasebook.Ordered.lookup_insert_self`,
`Phrasebook.Ordered.lookup_insert_of_ne`).
-/

namespace Phrasebook.Ordered

variable {α β κ : Type}

/-- The keys of the items grow strictly from left to right. -/
def Increasing [LT κ] (key : α → κ) (items : List α) : Prop :=
  items.Pairwise fun first second => key first < key second

/-- Puts an item in its place; an item under the same key gives way to it. -/
def insert [LT κ] [DecidableLT κ] (key : α → κ) (item : α) : List α → List α
  | [] => [item]
  | head :: rest =>
    if key item < key head then item :: head :: rest
    else if key head < key item then head :: insert key item rest
    else item :: rest

/-- The items of a list in increasing key order; of items under one key the
last is kept. -/
def ofList [LT κ] [DecidableLT κ] (key : α → κ) (items : List α) : List α :=
  items.foldl (fun sorted item => insert key item sorted) []

section Laws

variable [LT κ] [DecidableLT κ] {key : α → κ}

theorem mem_of_mem_insert {item other : α} {items : List α}
    (member : other ∈ insert key item items) : other = item ∨ other ∈ items := by
  induction items with
  | nil => simpa [insert] using member
  | cons head rest ih =>
    grind [insert]

/-- Insertion keeps the order, for an order in which keys that are neither
smaller nor larger are equal. -/
theorem increasing_insert [Std.Trichotomous (α := κ) (· < ·)]
    [Trans (α := κ) (· < ·) (· < ·) (· < ·)]
    {item : α} {items : List α} (increasing : Increasing key items) :
    Increasing key (insert key item items) := by
  induction items with
  | nil => simp [insert, Increasing]
  | cons head rest ih =>
    obtain ⟨above, tail⟩ := List.pairwise_cons.mp increasing
    unfold insert
    split
    · next less =>
      refine List.pairwise_cons.mpr ⟨fun other member => ?_, increasing⟩
      rcases List.mem_cons.mp member with same | later
      · exact same ▸ less
      · exact Trans.trans less (above other later)
    · next notLess =>
      split
      · next greater =>
        refine List.pairwise_cons.mpr ⟨fun other member => ?_, ih tail⟩
        rcases mem_of_mem_insert member with same | later
        · exact same ▸ greater
        · exact above other later
      · next notGreater =>
        have same : key item = key head :=
          Std.Trichotomous.trichotomous (r := (· < ·)) _ _ notLess notGreater
        exact List.pairwise_cons.mpr ⟨fun other member => same ▸ above other member, tail⟩

end Laws

section Lookup

variable [LT κ] [DecidableLT κ] [DecidableEq κ]

theorem lookup_insert_self [Std.Irrefl (α := κ) (· < ·)] (key : κ) (value : β)
    (items : List (κ × β)) : (insert Prod.fst (key, value) items).lookup key = some value := by
  induction items with
  | nil => simp [insert]
  | cons head rest ih =>
    unfold insert
    split
    · simp
    · split
      · next greater =>
        have different : key ≠ head.1 := by
          rintro rfl
          exact Std.Irrefl.irrefl (r := (· < ·)) _ greater
        rw [List.lookup_cons, beq_false_of_ne different]
        exact ih
      · simp

theorem lookup_insert_of_ne [Std.Trichotomous (α := κ) (· < ·)] {key other : κ}
    (different : other ≠ key) (value : β) (items : List (κ × β)) :
    (insert Prod.fst (key, value) items).lookup other = items.lookup other := by
  induction items with
  | nil => simp [insert, List.lookup_cons, beq_false_of_ne different]
  | cons head rest ih =>
    unfold insert
    split
    · rw [List.lookup_cons, beq_false_of_ne different]
    · next notLess =>
      split
      · rw [List.lookup_cons, List.lookup_cons, ih]
      · next notGreater =>
        have same : key = head.1 :=
          Std.Trichotomous.trichotomous (r := (· < ·)) _ _ notLess notGreater
        rw [List.lookup_cons, List.lookup_cons, ← same, beq_false_of_ne different]

end Lookup

end Phrasebook.Ordered
