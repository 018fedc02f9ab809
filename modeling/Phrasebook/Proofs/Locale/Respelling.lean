import Phrasebook.Proofs.Locale.Rereading
import Phrasebook.Proofs.Registry.Growth

/-! # Spellings of a locale

A text that writes a locale may be changed in the case of its letters, in the marks between
its subtags, in the white space around it, and by an ending behind a dot or an at sign
(`Phrasebook.Locale.Respells`). None of these changes the subtags but for their case
(`Phrasebook.Locale.Respells.tagPart_eq`), and the case of a subtag is not read
(`Phrasebook.Subtag.read?_map_toLower`). All spellings of a locale therefore write it, and a
catalogue is registered under all of them at once (`Phrasebook.Locale.parse_of_respelled`).
-/

namespace Phrasebook

namespace Subtag

theorem takeFirst_map_toLower (kind : Kind) (pieces : List (List Char)) :
    takeFirst kind (pieces.map (List.map Char.toLower)) =
      ((takeFirst kind pieces).1, (takeFirst kind pieces).2.map (List.map Char.toLower)) := by
  cases pieces with
  | nil => rfl
  | cons piece rest =>
    rw [List.map_cons, takeFirst, takeFirst, read?_map_toLower]
    cases read? kind piece <;> rfl

theorem readAll?_map_toLower (kind : Kind) (pieces : List (List Char)) :
    readAll? kind (pieces.map (List.map Char.toLower)) = readAll? kind pieces := by
  induction pieces with
  | nil => rfl
  | cons piece rest ih =>
    rw [readAll?] at ih
    rw [readAll?, readAll?, List.map_cons, List.mapM_cons, List.mapM_cons, read?_map_toLower, ih,
      readAll?]

end Subtag

namespace Locale

/-- Subtags in any case write one locale, or none for one reason. -/
theorem ofSubtags_map_toLower (pieces : List (List Char)) :
    ofSubtags (pieces.map (List.map Char.toLower)) = ofSubtags pieces := by
  unfold ofSubtags
  rw [Subtag.takeFirst_map_toLower]
  obtain ⟨language, rest⟩ := Subtag.takeFirst .language pieces
  cases language with
  | none => rfl
  | some language => simp only [Subtag.takeFirst_map_toLower, Subtag.readAll?_map_toLower]

/-- The characters in front of an ending. -/
def isKept (c : Char) : Bool := c != '.' && c != '@'

/-- A hyphen for a mark between subtags. -/
def hyphened (c : Char) : Char := if c = '_' then '-' else c

theorem isKept_iff {c : Char} : isKept c = true ↔ c ≠ '.' ∧ c ≠ '@' := by
  simp [isKept]

theorem isKept_of_isBlank {c : Char} (blank : Text.isBlank c = true) : isKept c = true := by
  apply isKept_iff.mpr
  refine ⟨?_, ?_⟩
  · intro dot
    rw [dot] at blank
    exact absurd blank (by decide)
  · intro sign
    rw [sign] at blank
    exact absurd blank (by decide)

theorem isKept_toLower (c : Char) : isKept c.toLower = isKept c := by
  rw [Bool.eq_iff_iff, isKept_iff, isKept_iff, Ne, Ne, Text.toLower_eq_iff (by decide),
    Text.toLower_eq_iff (by decide)]

theorem hyphened_toLower (c : Char) : hyphened c.toLower = (hyphened c).toLower := by
  unfold hyphened
  by_cases underscore : c = '_'
  · rw [if_pos underscore, if_pos ((Text.toLower_eq_iff (by decide)).mpr underscore)]
    rfl
  · rw [if_neg underscore, if_neg (mt (Text.toLower_eq_iff (by decide)).mp underscore)]

/-- What holds of both marks and of no other character is not changed by a hyphen. -/
theorem apply_hyphened {test : Char → Bool} (marks : test '-' = test '_') (c : Char) :
    test (hyphened c) = test c := by
  unfold hyphened
  split
  · next underscore => rw [underscore, marks]
  · rfl

theorem hyphened_hyphened (c : Char) : hyphened (hyphened c) = hyphened c := by
  by_cases underscore : c = '_'
  · rw [underscore]
    rfl
  · have kept : hyphened c = c := if_neg underscore
    rw [kept, kept]

/-- White space may stay at the ends until the ending is cut off. -/
theorem tagPart_eq (text : List Char) :
    tagPart text = (Text.trim (text.takeWhile isKept)).map hyphened :=
  congrArg (List.map hyphened) (Text.trim_takeWhile_trim (fun _ => isKept_of_isBlank) text)

/-- A change of characters is made in the part of a text that writes the subtags, unless it
makes an ending or white space or takes it away. -/
theorem tagPart_map {change : Char → Char} (kept : ∀ c, isKept (change c) = isKept c)
    (blank : ∀ c, Text.isBlank (change c) = Text.isBlank c) (text : List Char) :
    tagPart (text.map change) =
      ((Text.trim (text.takeWhile isKept)).map change).map hyphened := by
  have cut : isKept ∘ change = isKept := funext kept
  rw [tagPart_eq, List.takeWhile_map, cut, Text.trim_map blank]

theorem tagPart_map_toLower (text : List Char) :
    tagPart (text.map Char.toLower) = (tagPart text).map Char.toLower := by
  rw [tagPart_map isKept_toLower Text.isBlank_toLower, tagPart_eq, List.map_map, List.map_map]
  exact List.map_congr_left fun c _ => hyphened_toLower c

theorem tagPart_map_hyphened (text : List Char) : tagPart (text.map hyphened) = tagPart text := by
  rw [tagPart_map (apply_hyphened rfl) (apply_hyphened rfl), tagPart_eq, List.map_map]
  exact List.map_congr_left fun c _ => hyphened_hyphened c

/-- A character and the same one in any case, if it is an ASCII letter. -/
def Recases (first second : Char) : Prop :=
  second = first ∨ second = first.toLower ∨ second = first.toUpper

/-- A character and the same one, or two marks that may stand between subtags. -/
def Separates (first second : Char) : Prop :=
  second = first ∨ first ∈ ['-', '_'] ∧ second ∈ ['-', '_']

instance : DecidableRel Recases :=
  fun _ _ => inferInstanceAs (Decidable (_ ∨ _))

instance : DecidableRel Separates :=
  fun _ _ => inferInstanceAs (Decidable (_ ∨ _))

/-- One change of a text that keeps the locale which it writes. -/
inductive Respells : List Char → List Char → Prop
  | recase {text other : List Char} (letters : List.Forall₂ Recases text other) :
      Respells text other
  | separate {text other : List Char} (marks : List.Forall₂ Separates text other) :
      Respells text other
  | pad {front back : List Char} (text : List Char)
      (blankFront : ∀ c ∈ front, Text.isBlank c = true)
      (blankBack : ∀ c ∈ back, Text.isBlank c = true) : Respells text (front ++ text ++ back)
  | strip {front back : List Char} (text : List Char)
      (blankFront : ∀ c ∈ front, Text.isBlank c = true)
      (blankBack : ∀ c ∈ back, Text.isBlank c = true) : Respells (front ++ text ++ back) text
  | extend (text : List Char) {mark : Char} (ends : mark ∈ ['.', '@']) (ending : List Char) :
      Respells text (text ++ mark :: ending)

theorem tagPart_append {front back : List Char} (blankFront : ∀ c ∈ front, Text.isBlank c = true)
    (blankBack : ∀ c ∈ back, Text.isBlank c = true) (text : List Char) :
    tagPart (front ++ text ++ back) = tagPart text := by
  rw [tagPart, tagPart, Text.trim_append blankFront blankBack]

theorem Recases.toLower_eq {first second : Char} (recases : Recases first second) :
    first.toLower = second.toLower := by
  rcases recases with rfl | rfl | rfl
  · rfl
  · exact (Char.toLower_toLower_eq_toLower first).symm
  · exact (Char.toLower_toUpper_eq_toLower first).symm

theorem Separates.hyphened_eq {first second : Char} (separates : Separates first second) :
    hyphened first = hyphened second := by
  have mark {c : Char} (member : c ∈ ['-', '_']) : hyphened c = '-' := by
    simp only [List.mem_cons, List.not_mem_nil, or_false] at member
    rcases member with rfl | rfl <;> rfl
  rcases separates with rfl | ⟨here, there⟩
  · rfl
  · rw [mark here, mark there]

/-- No change reaches the subtags, but for the case of their letters. -/
theorem Respells.tagPart_eq {text other : List Char} (respells : Respells text other) :
    (tagPart text).map Char.toLower = (tagPart other).map Char.toLower := by
  cases respells with
  | recase letters =>
    have same := Related.map_eq letters fun _ _ recases => recases.toLower_eq
    rw [← tagPart_map_toLower, ← tagPart_map_toLower, same]
  | separate marks =>
    have same := Related.map_eq marks fun _ _ separates => separates.hyphened_eq
    rw [← tagPart_map_hyphened, same, tagPart_map_hyphened]
  | pad _ blankFront blankBack => rw [tagPart_append blankFront blankBack]
  | strip _ blankFront blankBack => rw [tagPart_append blankFront blankBack]
  | @extend _ mark ends ending =>
    have cut : isKept mark = false := by
      simp only [List.mem_cons, List.not_mem_nil, or_false] at ends
      rcases ends with rfl | rfl <;> rfl
    rw [Locale.tagPart_eq, Locale.tagPart_eq, Text.takeWhile_append_cons cut]

/-- What is read of a text are its subtags, in any case. -/
theorem read_eq_of_tagPart {raw other : String}
    (same : (tagPart raw.toList).map Char.toLower = (tagPart other.toList).map Char.toLower) :
    read raw = read other := by
  have split (tag : List Char) :
      ofSubtags (tag.splitOn '-') = ofSubtags ((tag.map Char.toLower).splitOn '-') := by
    rw [Text.splitOn_map fun c => Text.toLower_eq_iff (by decide), ofSubtags_map_toLower]
  unfold read
  cases own : tagPart raw.toList with
  | nil =>
    rw [own] at same
    rw [List.map_eq_nil_iff.mp same.symm]
  | cons c rest =>
    cases others : tagPart other.toList with
    | nil =>
      rw [own, others] at same
      cases same
    | cons d later =>
      dsimp only
      rw [split, ← own, same, others, ← split]

theorem tagPart_eq_of_respelled {text other : List Char}
    (respelled : Relation.ReflTransGen Respells text other) :
    (tagPart text).map Char.toLower = (tagPart other).map Char.toLower := by
  induction respelled with
  | refl => rfl
  | tail _ last ih => exact ih.trans last.tagPart_eq

/-- **All spellings write one locale.** Whatever the changes are and in whatever order they
are made, the changed text writes the locale of the unchanged one, and a catalogue that is
registered under either is found under the other. -/
theorem parse_of_respelled {raw other : String} {locale : Locale}
    (accepted : parse raw = .ok locale)
    (respelled : Relation.ReflTransGen Respells raw.toList other.toList) :
    parse other = .ok locale ∧
      ∀ found, parse other = .ok found → ∀ (registry : Registry) (catalogue : Catalogue),
        (registry.register locale catalogue).get found = .ok catalogue ∧
          (registry.register found catalogue).get locale = .ok catalogue := by
  have reread : parse other = .ok locale := by
    rw [parse_eq_ok_iff, ← read_eq_of_tagPart (tagPart_eq_of_respelled respelled),
      ← parse_eq_ok_iff]
    exact accepted
  refine ⟨reread, fun found again registry catalogue => ?_⟩
  cases reread.symm.trans again
  have registered := Registry.get?_register_self registry locale catalogue
  simp only [Registry.get, registered, and_self]

/-- A Slovene tag that already has an ending, with white space in front of it, in another
case, with other marks, with white space around it and with one more ending. -/
theorem parse_of_respelled_slovene :
    ∃ locale, parse "sl_ROZAJ-nedis @old" = .ok locale ∧
      Relation.ReflTransGen Respells "sl_ROZAJ-nedis @old".toList
        "\tSL-rozaj_Nedis @OLD .utf-8".toList ∧
      parse "\tSL-rozaj_Nedis @OLD .utf-8" = .ok locale ∧
        ∀ found, parse "\tSL-rozaj_Nedis @OLD .utf-8" = .ok found →
          ∀ (registry : Registry) (catalogue : Catalogue),
            (registry.register locale catalogue).get found = .ok catalogue ∧
              (registry.register found catalogue).get locale = .ok catalogue := by
  let slovene : Locale := { english with
    language := ⟨"sl", by decide, by decide⟩
    variants := [⟨"nedis", by decide, by decide⟩, ⟨"rozaj", by decide, by decide⟩]
    increasing := List.pairwise_pair.mpr (by decide) }
  have accepted : parse "sl_ROZAJ-nedis @old" = .ok slovene := by decide +kernel
  have respelled : Relation.ReflTransGen Respells "sl_ROZAJ-nedis @old".toList
      "\tSL-rozaj_Nedis @OLD .utf-8".toList := by
    have recased : Respells "sl_ROZAJ-nedis @old".toList "SL_rozaj-Nedis @OLD".toList :=
      .recase (by decide +kernel)
    have separated : Respells "SL_rozaj-Nedis @OLD".toList "SL-rozaj_Nedis @OLD".toList :=
      .separate (by decide +kernel)
    have padded : Respells "SL-rozaj_Nedis @OLD".toList "\tSL-rozaj_Nedis @OLD ".toList :=
      .pad _ (List.forall_mem_singleton.mpr rfl) (List.forall_mem_singleton.mpr rfl)
    have extended : Respells "\tSL-rozaj_Nedis @OLD ".toList
        "\tSL-rozaj_Nedis @OLD .utf-8".toList :=
      .extend _ (List.mem_cons_self) "utf-8".toList
    exact .tail (.tail (.tail (.single recased) separated) padded) extended
  exact ⟨slovene, accepted, respelled, parse_of_respelled accepted respelled⟩

end Locale

end Phrasebook
