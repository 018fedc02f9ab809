import Phrasebook.Locale.Basic
import Phrasebook.Proofs.Text.Case

/-! # Canonical tags

A canonical tag says all that a locale says. No subtag holds a hyphen, so the tag
splits into its subtags (`Phrasebook.Locale.splitOn_canonical`), and no text is a
subtag of two of the kinds that may follow the language, so the subtags say which of
them are a script, a region and variants. Locales with one canonical tag are therefore
equal (`Phrasebook.Locale.canonical_injective`), and the order of the canonical tags
orders the locales.
-/

namespace Phrasebook

namespace Subtag

/-- A text in the form and in the case of a kind of subtag. -/
def Kind.Writes (kind : Kind) (text : String) : Prop :=
  kind.admits text.toList = true ∧ kind.fold text.toList = text.toList

theorem writes_text {kind : Kind} (subtag : Subtag kind) : kind.Writes subtag.text :=
  ⟨subtag.admitted, subtag.folded⟩

theorem text_injective (kind : Kind) : Function.Injective (@Subtag.text kind) := by
  rintro ⟨first, _, _⟩ ⟨second, _, _⟩ same
  cases same
  rfl

theorem hyphen_notMem {kind : Kind} (subtag : Subtag kind) : '-' ∉ subtag.text.toList := by
  intro member
  have allowed {test : Char → Bool} (all : subtag.text.toList.all test = true) :
      test '-' = true := List.all_eq_true.mp all '-' member
  have admitted := subtag.admitted
  cases kind with
  | language =>
    simp only [Kind.admits, Bool.and_eq_true] at admitted
    exact absurd (allowed admitted.1) (by decide)
  | script =>
    simp only [Kind.admits, Bool.and_eq_true] at admitted
    exact absurd (allowed admitted.1) (by decide)
  | region =>
    simp only [Kind.admits, Bool.and_eq_true, Bool.or_eq_true] at admitted
    rcases admitted with ⟨letters, _⟩ | ⟨digits, _⟩
    · exact absurd (allowed letters) (by decide)
    · exact absurd (allowed digits) (by decide)
  | variant =>
    simp only [Kind.admits, Bool.and_eq_true, Bool.or_eq_true] at admitted
    rcases admitted with ⟨⟨long, _⟩, _⟩ | ⟨⟨plain, _⟩, _⟩
    · exact absurd (allowed long) (by decide)
    · exact absurd (allowed plain) (by decide)

namespace Kind

theorem length_of_admits_script {text : List Char} (script : Kind.script.admits text = true) :
    text.length = 4 := by
  simp only [admits, Bool.and_eq_true, beq_iff_eq] at script
  exact script.2

theorem length_of_admits_region {text : List Char} (region : Kind.region.admits text = true) :
    text.length < 4 := by
  simp only [admits, Bool.and_eq_true, Bool.or_eq_true, beq_iff_eq] at region
  omega

theorem length_of_admits_variant {text : List Char} (variant : Kind.variant.admits text = true) :
    4 ≤ text.length := by
  simp only [admits, Bool.and_eq_true, Bool.or_eq_true, beq_iff_eq, decide_eq_true_eq] at variant
  omega

theorem not_writes_region_of_script {text : String} (script : Kind.script.Writes text) :
    ¬ Kind.region.Writes text := by
  intro region
  have long := length_of_admits_script script.1
  have short := length_of_admits_region region.1
  omega

theorem not_writes_variant_of_region {text : String} (region : Kind.region.Writes text) :
    ¬ Kind.variant.Writes text := by
  intro variant
  have short := length_of_admits_region region.1
  have long := length_of_admits_variant variant.1
  omega

/-- A script begins with a capital letter, a variant does not. -/
theorem not_writes_variant_of_script {text : String} (script : Kind.script.Writes text) :
    ¬ Kind.variant.Writes text := by
  intro variant
  have long := length_of_admits_script script.1
  have letters := script.1
  have capital := script.2
  have small := variant.2
  cases shape : text.toList with
  | nil =>
    rw [shape] at long
    cases long
  | cons c rest =>
    rw [shape] at letters capital small
    simp only [admits, List.all_cons, Bool.and_eq_true] at letters
    simp only [fold, List.take_succ_cons, List.take_zero, List.map_cons, List.map_nil,
      List.cons_append, List.nil_append, List.cons.injEq] at capital small
    have letter := (Text.isAlpha_iff c).mp letters.1.1
    have upper := Text.toNat_toUpper c
    have lower := Text.toNat_toLower c
    rw [capital.1] at upper
    rw [small.1] at lower
    split at upper <;> split at lower <;> omega

end Kind

end Subtag

namespace Locale

open Subtag (Kind)

/-- Lists that may begin with a text of a kind and go on without one are equal only
part by part. -/
theorem append_optional_inj {kind : Kind} {first second : Option (Subtag kind)}
    {rest others : List String} (restOther : ∀ text ∈ rest, ¬ kind.Writes text)
    (othersOther : ∀ text ∈ others, ¬ kind.Writes text)
    (same : (first.map Subtag.text).toList ++ rest = (second.map Subtag.text).toList ++ others) :
    first = second ∧ rest = others := by
  cases first with
  | none =>
    cases second with
    | none => exact ⟨rfl, same⟩
    | some subtag =>
      have member : subtag.text ∈ rest := by
        rw [show rest = _ from same]
        exact List.mem_cons_self
      exact absurd subtag.writes_text (restOther _ member)
  | some subtag =>
    cases second with
    | none =>
      have member : subtag.text ∈ others := by
        rw [show others = _ from same.symm]
        exact List.mem_cons_self
      exact absurd subtag.writes_text (othersOther _ member)
    | some other =>
      obtain ⟨texts, tails⟩ := List.cons.inj same
      exact ⟨congrArg some (Subtag.text_injective kind texts), tails⟩

theorem writes_of_mem_variants {locale : Locale} {text : String}
    (member : text ∈ locale.variants.map Subtag.text) : Kind.variant.Writes text := by
  obtain ⟨variant, _, rfl⟩ := List.mem_map.mp member
  exact variant.writes_text

theorem not_writes_script_of_mem {locale : Locale} {text : String}
    (member : text ∈ (locale.region.map Subtag.text).toList ++ locale.variants.map Subtag.text) :
    ¬ Kind.script.Writes text := by
  intro script
  rcases List.mem_append.mp member with region | variant
  · obtain ⟨subtag, _, rfl⟩ := Option.map_eq_some_iff.mp (Option.mem_toList.mp region)
    exact Kind.not_writes_region_of_script script subtag.writes_text
  · exact Kind.not_writes_variant_of_script script (writes_of_mem_variants variant)

theorem not_writes_region_of_mem {locale : Locale} {text : String}
    (member : text ∈ locale.variants.map Subtag.text) : ¬ Kind.region.Writes text :=
  fun region => Kind.not_writes_variant_of_region region (writes_of_mem_variants member)

/-- The subtags of a locale say which of them are its script, its region and its
variants. -/
theorem subtags_injective : Function.Injective subtags := by
  intro first second same
  rw [subtags, subtags, List.append_assoc, List.append_assoc] at same
  obtain ⟨languages, tails⟩ := List.cons.inj same
  obtain ⟨scripts, tails⟩ := append_optional_inj (fun _ => not_writes_script_of_mem)
    (fun _ => not_writes_script_of_mem) tails
  obtain ⟨regions, tails⟩ := append_optional_inj (fun _ => not_writes_region_of_mem)
    (fun _ => not_writes_region_of_mem) tails
  have variants := (List.map_inj_right fun _ _ same => Subtag.text_injective _ same).mp tails
  obtain ⟨language, script, region, _, _⟩ := first
  cases Subtag.text_injective _ languages
  cases scripts
  cases regions
  cases variants
  rfl

theorem splitOn_canonical (locale : Locale) :
    locale.canonical.toList.splitOn '-' = locale.subtags.map String.toList := by
  rw [canonical, String.toList_intercalate]
  apply List.splitOn_intercalate
  · intro text member
    obtain ⟨subtag, present, rfl⟩ := List.mem_map.mp member
    simp only [subtags, List.mem_append, List.mem_cons, List.mem_map, Option.mem_toList,
      Option.map_eq_some_iff] at present
    rcases present with ((rfl | ⟨script, _, rfl⟩) | ⟨region, _, rfl⟩) | ⟨variant, _, rfl⟩
    · exact locale.language.hyphen_notMem
    · exact script.hyphen_notMem
    · exact region.hyphen_notMem
    · exact variant.hyphen_notMem
  · simp [subtags]

/-- **A canonical tag names one locale.** -/
theorem canonical_injective : Function.Injective canonical := by
  intro first second same
  have texts : first.subtags.map String.toList = second.subtags.map String.toList := by
    rw [← splitOn_canonical, ← splitOn_canonical, same]
  exact subtags_injective
    ((List.map_inj_right fun _ _ same => String.toList_inj.mp same).mp texts)

instance : Std.Irrefl (α := Locale) (· < ·) where
  irrefl locale := String.lt_irrefl locale.canonical

instance : Trans (α := Locale) (· < ·) (· < ·) (· < ·) where
  trans := String.lt_trans

instance : Std.Trichotomous (α := Locale) (· < ·) where
  trichotomous _ _ notLess notGreater :=
    canonical_injective
      (String.le_antisymm (String.not_lt.mp notGreater) (String.not_lt.mp notLess))

/-- The locale of the German language, with nothing else said. -/
def german : Locale := { english with language := ⟨"de", by decide, by decide⟩ }

theorem german_lt_english : german < english := by decide

theorem german_ne_english : german ≠ english := by decide

end Locale

end Phrasebook
