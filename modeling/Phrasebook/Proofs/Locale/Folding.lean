import Mathlib
import Phrasebook.Proofs.Locale.Canonical

/-! # Folding subtags

Folding changes the case of letters and nothing else, so it keeps the form of a subtag
(`Phrasebook.Subtag.Kind.admits_fold`), and a second folding changes nothing
(`Phrasebook.Subtag.Kind.fold_fold`). A text therefore writes a subtag of a kind exactly when it
has the form of the kind, in any case (`Phrasebook.Subtag.read?_eq_some_iff`).
-/

namespace Phrasebook

namespace Text

@[simp] theorem isDigit_toLower (c : Char) : c.toLower.isDigit = c.isDigit := by
  rw [Bool.eq_iff_iff, Char.isDigit_iff_toNat, Char.isDigit_iff_toNat, toNat_toLower]
  change 48 ≤ _ ∧ _ ≤ 57 ↔ 48 ≤ c.toNat ∧ c.toNat ≤ 57
  grind

@[simp] theorem isDigit_toUpper (c : Char) : c.toUpper.isDigit = c.isDigit := by
  rw [Bool.eq_iff_iff, Char.isDigit_iff_toNat, Char.isDigit_iff_toNat, toNat_toUpper]
  change 48 ≤ _ ∧ _ ≤ 57 ↔ 48 ≤ c.toNat ∧ c.toNat ≤ 57
  grind

@[simp] theorem isAlphanum_toLower (c : Char) : c.toLower.isAlphanum = c.isAlphanum := by
  simp [Char.isAlphanum]

end Text

namespace Subtag

namespace Kind

@[simp] theorem isPlain_toLower (c : Char) : isPlain c.toLower = isPlain c := by
  simp only [isPlain, Text.toNat_toLower]
  grind

@[simp] theorem length_fold (kind : Kind) (text : List Char) :
    (kind.fold text).length = text.length := by
  cases kind with
  | language | variant | region => simp [fold]
  | script =>
    cases text with
    | nil => rfl
    | cons c rest => simp [fold]

/-- Folding keeps the form of a subtag. -/
@[simp] theorem admits_fold (kind : Kind) (text : List Char) :
    kind.admits (kind.fold text) = kind.admits text := by
  cases kind with
  | language | region => simp [admits, fold, List.all_map, Function.comp_def]
  | script | variant =>
    -- the first character is looked at apart from the others
    cases text with
    | nil => rfl
    | cons c rest => simp [admits, fold, List.all_map, Function.comp_def]

/-- A second folding changes nothing. -/
@[simp] theorem fold_fold (kind : Kind) (text : List Char) :
    kind.fold (kind.fold text) = kind.fold text := by
  cases kind with
  | language | variant | region => simp [fold]
  | script =>
    cases text with
    | nil => rfl
    | cons c rest => simp [fold]

/-- Letters in lower case are folded like the letters themselves. -/
theorem fold_map_toLower (kind : Kind) (text : List Char) :
    kind.fold (text.map Char.toLower) = kind.fold text := by
  cases kind with
  | language | variant | region => simp [fold]
  | script =>
    cases text with
    | nil => rfl
    | cons c rest => simp [fold]

end Kind

/-- The characters of a subtag. -/
def spelling {kind : Kind} (subtag : Subtag kind) : List Char := subtag.text.toList

theorem admits_spelling {kind : Kind} (subtag : Subtag kind) :
    kind.admits subtag.spelling = true := subtag.admitted

theorem fold_spelling {kind : Kind} (subtag : Subtag kind) :
    kind.fold subtag.spelling = subtag.spelling := subtag.folded

theorem ofText?_eq_some_iff {kind : Kind} {text : List Char} {subtag : Subtag kind} :
    ofText? kind text = some subtag ↔ subtag.spelling = text := by
  rw [ofText?]
  constructor
  · intro made
    split at made
    · cases made
      exact String.toList_ofList
    · cases made
  · rintro rfl
    rw [dif_pos ⟨subtag.admitted, subtag.folded⟩]
    exact congrArg some (text_injective kind String.ofList_toList)

/-- **Reading a subtag.** The text as it stands has to have the form of the kind, and the subtag is
the text in the case of the kind. -/
theorem read?_eq_some_iff {kind : Kind} {piece : List Char} {subtag : Subtag kind} :
    read? kind piece = some subtag ↔
      kind.admits piece = true ∧ subtag.spelling = kind.fold piece := by
  rw [read?, ofText?_eq_some_iff]
  constructor
  · intro same
    refine ⟨?_, same⟩
    rw [← Kind.admits_fold, ← same]
    exact subtag.admits_spelling
  · exact And.right

theorem read?_eq_none_iff {kind : Kind} {piece : List Char} :
    read? kind piece = none ↔ kind.admits piece = false := by
  simp [read?, ofText?]

theorem read?_spelling {kind : Kind} (subtag : Subtag kind) :
    read? kind subtag.spelling = some subtag :=
  read?_eq_some_iff.mpr ⟨subtag.admits_spelling, subtag.fold_spelling.symm⟩

/-- A subtag is read alike in any case. -/
theorem read?_map_toLower (kind : Kind) (piece : List Char) :
    read? kind (piece.map Char.toLower) = read? kind piece := by
  rw [read?, read?, Kind.fold_map_toLower]

end Subtag

end Phrasebook
