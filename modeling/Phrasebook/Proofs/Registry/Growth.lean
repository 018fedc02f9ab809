import Mathlib.Logic.Relation
import Phrasebook.Proofs.Locale.Canonical
import Phrasebook.Proofs.Ordered
import Phrasebook.Registry.Basic

/-! # How registries grow

A registration makes one more locale known or replaces its catalogue, and a declaration
of a fallback needs a known locale. Both keep the catalogues of a registry in order and
the declared fallback registered (`Phrasebook.Registry.Sound`); a look-up is then one in
two editions (`Phrasebook.Registry.find_eq_edition_find`). Along any number of them
(`Phrasebook.Registry.Grows`) registered locales stay registered, and a fallback stays
declared, though it may become another locale.
-/

namespace Phrasebook.Registry

/-- The catalogues of a registry stand under growing locales, and a declared fallback
is registered. -/
structure Sound (registry : Registry) : Prop where
  increasing : Ordered.Increasing Prod.fst registry.catalogues
  declared : ∀ locale, registry.fallback = some locale → registry.contains locale = true

theorem contains_iff {registry : Registry} {locale : Locale} :
    registry.contains locale = true ↔ ∃ catalogue, registry.get? locale = some catalogue := by
  rw [contains, Option.isSome_iff_exists]

theorem get?_register_self (registry : Registry) (locale : Locale) (catalogue : Catalogue) :
    (registry.register locale catalogue).get? locale = some catalogue :=
  Ordered.lookup_insert_self locale catalogue registry.catalogues

theorem get?_register_of_ne (registry : Registry) {locale other : Locale}
    (different : other ≠ locale) (catalogue : Catalogue) :
    (registry.register locale catalogue).get? other = registry.get? other :=
  Ordered.lookup_insert_of_ne different catalogue registry.catalogues

theorem contains_register {registry : Registry} {locale other : Locale}
    {catalogue : Catalogue} : (registry.register locale catalogue).contains other = true ↔
      other = locale ∨ registry.contains other = true := by
  by_cases same : other = locale
  · subst same
    rw [contains, get?_register_self]
    simp
  · rw [contains, get?_register_of_ne registry same, ← contains]
    simp [same]

/-- What a declaration of a fallback does: it needs a registered locale and changes
nothing else. -/
theorem setFallback_eq_ok_iff {registry next : Registry} {locale : Locale} :
    registry.setFallback locale = .ok next ↔
      registry.contains locale = true ∧ next = { registry with fallback := some locale } := by
  unfold setFallback
  by_cases known : registry.contains locale = true
  · simp [known, eq_comm]
  · simp [known]

theorem Sound.get?_eq_some_iff {registry : Registry} (sound : registry.Sound) {locale : Locale}
    {catalogue : Catalogue} : registry.get? locale = some catalogue ↔
      (locale, catalogue) ∈ registry.catalogues :=
  Ordered.lookup_eq_some_iff_mem sound.increasing.nodup

/-- A sound registry is determined by what it finds. -/
theorem Sound.eq_of_get?_eq {registry other : Registry} (sound : registry.Sound)
    (otherSound : other.Sound) (registered : ∀ locale, registry.get? locale = other.get? locale)
    (declared : registry.fallback = other.fallback) : registry = other := by
  have same (item : Locale × Catalogue) : item ∈ registry.catalogues ↔ item ∈ other.catalogues := by
    rw [← sound.get?_eq_some_iff, registered, otherSound.get?_eq_some_iff]
  have distinct {registry : Registry} (sound : registry.Sound) : registry.catalogues.Nodup :=
    List.Pairwise.of_map Prod.fst (fun _ _ different same => different (congrArg Prod.fst same))
      sound.increasing.nodup
  have perm := (List.perm_ext_iff_of_nodup (distinct sound) (distinct otherSound)).mpr same
  have catalogues := sound.increasing.eq_of_perm otherSound.increasing perm
  cases registry
  cases other
  cases catalogues
  cases declared
  rfl

theorem sound_empty : Registry.empty.Sound where
  increasing := List.Pairwise.nil
  declared := by
    intro locale declared
    cases declared

theorem Sound.register {registry : Registry} (sound : registry.Sound) (locale : Locale)
    (catalogue : Catalogue) : (registry.register locale catalogue).Sound where
  increasing := Ordered.increasing_insert sound.increasing
  declared := fun other declared => contains_register.mpr (.inr (sound.declared other declared))

theorem Sound.setFallback {registry next : Registry} (sound : registry.Sound) {locale : Locale}
    (declared : registry.setFallback locale = .ok next) : next.Sound := by
  obtain ⟨known, rfl⟩ := setFallback_eq_ok_iff.mp declared
  refine ⟨sound.increasing, ?_⟩
  intro other same
  cases same
  exact known

/-- A look-up with a declared fallback asks the edition of its locale and that of the
fallback. -/
theorem find_eq_edition_find {registry : Registry} {locale fallback : Locale}
    {own other : Catalogue} (declared : registry.fallback = some fallback)
    (registered : registry.get? locale = some own)
    (fallbackRegistered : registry.get? fallback = some other) (address : Address)
    (index : Option Position) : registry.find locale address index =
      Edition.find ⟨locale, own⟩ ⟨fallback, other⟩ address index := by
  simp only [find, editions, declared, get, registered, fallbackRegistered]
  rfl

/-- One registration, or one declaration of a fallback. -/
inductive Changes : Registry → Registry → Prop
  | register (registry : Registry) (locale : Locale) (catalogue : Catalogue) :
      Changes registry (registry.register locale catalogue)
  | setFallback {registry next : Registry} {locale : Locale}
      (declared : registry.setFallback locale = .ok next) : Changes registry next

/-- Any number of registrations and declarations, one after another. -/
def Grows (before after : Registry) : Prop := Relation.ReflTransGen Changes before after

namespace Grows

variable {before after : Registry}

theorem sound (grows : Grows before after) (sound : before.Sound) : after.Sound := by
  induction grows with
  | refl => exact sound
  | tail _ change ih =>
    cases change with
    | register locale catalogue => exact ih.register locale catalogue
    | setFallback declared => exact ih.setFallback declared

theorem contains (grows : Grows before after) {locale : Locale}
    (registered : before.contains locale = true) : after.contains locale = true := by
  induction grows with
  | refl => exact registered
  | tail _ change ih =>
    cases change with
    | register other catalogue => exact contains_register.mpr (.inr ih)
    | setFallback declared =>
      obtain ⟨_, rfl⟩ := setFallback_eq_ok_iff.mp declared
      exact ih

theorem isSome_fallback (grows : Grows before after)
    (declared : before.fallback.isSome = true) : after.fallback.isSome = true := by
  induction grows with
  | refl => exact declared
  | tail _ change ih =>
    cases change with
    | register other catalogue => exact ih
    | setFallback declared =>
      obtain ⟨_, rfl⟩ := setFallback_eq_ok_iff.mp declared
      rfl

end Grows

end Phrasebook.Registry
