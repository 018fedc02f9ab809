import Phrasebook.Locale.Reading
import Phrasebook.Proofs.Registry.Growth

/-! # Comparing locales by their tags

A canonical tag leaves out what its locale does not say, and it does not mark which of its subtags
is a script, a region or a variant. The texts tell: no text is a subtag of two of these kinds
(`Phrasebook.Subtag.Kind.eq_of_writes`), so a text of one kind stands behind the language exactly
where the locale has it as a subtag of that kind (`Phrasebook.Locale.mem_tail_canonical_iff`).
Equality and order of canonical tags, and the places of catalogues in a registry, are therefore
those of the locales, part by part (`Phrasebook.Locale.canonical_identifies`).
-/

namespace Phrasebook

/-- A text is a subtag of one kind only, behind the language. -/
theorem Subtag.Kind.eq_of_writes {kind other : Kind} (behind : kind ≠ .language)
    (otherBehind : other ≠ .language) {text : String} (writes : kind.Writes text)
    (otherWrites : other.Writes text) : kind = other := by
  cases kind with
  | language => exact absurd rfl behind
  | script =>
    cases other with
    | language => exact absurd rfl otherBehind
    | script => rfl
    | region => exact absurd otherWrites (not_writes_region_of_script writes)
    | variant => exact absurd otherWrites (not_writes_variant_of_script writes)
  | region =>
    cases other with
    | language => exact absurd rfl otherBehind
    | script => exact absurd writes (not_writes_region_of_script otherWrites)
    | region => rfl
    | variant => exact absurd otherWrites (not_writes_variant_of_region writes)
  | variant =>
    cases other with
    | language => exact absurd rfl otherBehind
    | script => exact absurd writes (not_writes_variant_of_script otherWrites)
    | region => exact absurd writes (not_writes_variant_of_region otherWrites)
    | variant => rfl

namespace Locale

open Subtag (Kind)

/-- The subtags of one kind that a locale has. -/
def ofKind (locale : Locale) : (kind : Kind) → List (Subtag kind)
  | .language => [locale.language]
  | .script => locale.script.toList
  | .region => locale.region.toList
  | .variant => locale.variants

theorem mem_tail_subtags_iff {locale : Locale} {text : String} :
    text ∈ locale.subtags.tail ↔
      ∃ kind ≠ Kind.language, ∃ subtag ∈ locale.ofKind kind, subtag.text = text := by
  constructor
  · intro member
    simp only [subtags, List.cons_append, List.tail_cons, List.mem_append, List.mem_map,
      Option.mem_toList, Option.map_eq_some_iff] at member
    rcases member with (⟨script, here, same⟩ | ⟨region, here, same⟩) | ⟨variant, here, same⟩
    · exact ⟨.script, by decide, script, Option.mem_toList.mpr here, same⟩
    · exact ⟨.region, by decide, region, Option.mem_toList.mpr here, same⟩
    · exact ⟨.variant, by decide, variant, here, same⟩
  · rintro ⟨kind, behind, subtag, here, rfl⟩
    simp only [subtags, List.cons_append, List.tail_cons, List.mem_append]
    cases kind with
    | language => exact absurd rfl behind
    | script =>
      have stands := Option.mem_map_of_mem Subtag.text (Option.mem_toList.mp here)
      exact .inl (.inl (Option.mem_toList.mpr stands))
    | region =>
      have stands := Option.mem_map_of_mem Subtag.text (Option.mem_toList.mp here)
      exact .inl (.inr (Option.mem_toList.mpr stands))
    | variant => exact .inr (List.mem_map_of_mem here)

/-- **No kind is taken for another.** Behind the language, a canonical tag has the text of a subtag
exactly where the locale has this subtag as one of its kind. -/
theorem mem_tail_canonical_iff {locale : Locale} {kind : Kind} (behind : kind ≠ .language)
    (subtag : Subtag kind) :
    subtag.text.toList ∈ (locale.canonical.toList.splitOn '-').tail ↔
      subtag ∈ locale.ofKind kind := by
  rw [splitOn_canonical, ← List.map_tail,
    List.mem_map_of_injective fun _ _ => String.toList_inj.mp, mem_tail_subtags_iff]
  constructor
  · rintro ⟨other, otherBehind, found, here, same⟩
    have writes := found.writes_text
    rw [same] at writes
    cases Kind.eq_of_writes behind otherBehind subtag.writes_text writes
    exact Subtag.text_injective kind same ▸ here
  · exact fun here => ⟨kind, behind, subtag, here, rfl⟩

theorem eq_iff_parts {first second : Locale} :
    first = second ↔ first.language = second.language ∧ first.script = second.script ∧
      first.region = second.region ∧ first.variants = second.variants := by
  cases first
  cases second
  rw [Locale.mk.injEq]

/-- Neither of two locales comes before the other one only when they are the same. -/
theorem not_lt_iff {first second : Locale} :
    ¬ first < second ∧ ¬ second < first ↔ first = second := by
  constructor
  · rintro ⟨notLess, notGreater⟩
    exact Std.Trichotomous.trichotomous (r := (· < ·)) _ _ notLess notGreater
  · rintro rfl
    exact ⟨Std.Irrefl.irrefl first, Std.Irrefl.irrefl first⟩

/-- **Comparing canonical tags is comparing locales.** Two locales, read from texts or not, have
one canonical tag exactly when their languages, scripts, regions and lists of variants are equal.
This is when they are equal as keys, when neither comes before the other one, and when a catalogue
that is registered for the first takes the place of that of the second. A canonical tag does not
confuse the kinds: behind the language, the texts of each kind are those of the subtags that the
locale has of this kind. -/
theorem canonical_identifies (first second : Locale) :
    (first.canonical = second.canonical ↔
        first.language = second.language ∧ first.script = second.script ∧
          first.region = second.region ∧ first.variants = second.variants) ∧
      (first = second ↔ first.canonical = second.canonical) ∧
      (¬ first < second ∧ ¬ second < first ↔ first.canonical = second.canonical) ∧
      (∀ (registry : Registry) (catalogue : Catalogue),
        (registry.register first catalogue).get? second =
          if first.canonical = second.canonical then some catalogue else registry.get? second) ∧
      ∀ kind, kind ≠ Kind.language → ∀ subtag : Subtag kind,
        subtag.text.toList ∈ (first.canonical.toList.splitOn '-').tail ↔
          subtag ∈ first.ofKind kind := by
  have tags : first.canonical = second.canonical ↔ first = second := canonical_injective.eq_iff
  refine ⟨tags.trans eq_iff_parts, tags.symm, not_lt_iff.trans tags.symm, ?_, ?_⟩
  · intro registry catalogue
    by_cases same : first = second
    · subst same
      rw [if_pos rfl, registry.get?_register_self]
    · rw [if_neg (mt tags.mp same), registry.get?_register_of_ne (Ne.symm same)]
  · exact fun kind behind subtag => mem_tail_canonical_iff behind subtag

/-- A variant of four letters is written small and a script is not, so their tags differ. -/
example : (Locale.parse "en-rozaj-latn").map canonical = .ok "en-latn-rozaj" ∧
    (Locale.parse "en-latn-rozaj").map canonical = .ok "en-Latn-rozaj" := by decide +kernel

end Locale

end Phrasebook
