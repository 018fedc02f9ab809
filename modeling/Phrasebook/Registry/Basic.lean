import Phrasebook.Catalogue.Search

/-! # Registries

A registry holds one catalogue per locale and declares one of the registered
locales as the fallback (`Phrasebook.Registry`). A catalogue that is registered
again replaces the earlier one as a whole. Look-ups need a declared fallback
(`Phrasebook.Registry.editions`).
-/

namespace Phrasebook

/-- Catalogues by locale, in increasing order of the locales, and the declared
fallback. -/
structure Registry where
  catalogues : List (Locale × Catalogue) := []
  fallback : Option Locale := none

namespace Registry

/-- The registry without catalogues and without a fallback. -/
def empty : Registry := {}

/-- Registers a catalogue, in place of an earlier one of the same locale. -/
def register (registry : Registry) (locale : Locale) (catalogue : Catalogue) : Registry :=
  { registry with
    catalogues := Ordered.insert Prod.fst (locale, catalogue) registry.catalogues }

/-- The catalogue of a locale. -/
def get? (registry : Registry) (locale : Locale) : Option Catalogue :=
  registry.catalogues.lookup locale

/-- The catalogue of a locale that must be registered. -/
def get (registry : Registry) (locale : Locale) : Except Error Catalogue :=
  match registry.get? locale with
  | some catalogue => .ok catalogue
  | none => .error (.unknownLocale locale)

/-- Whether a locale is registered. -/
def contains (registry : Registry) (locale : Locale) : Bool :=
  (registry.get? locale).isSome

/-- The registered locales, in increasing order. -/
def locales (registry : Registry) : List Locale :=
  registry.catalogues.map Prod.fst

/-- Declares a registered locale as the fallback. -/
def setFallback (registry : Registry) (locale : Locale) : Except Error Registry :=
  if registry.contains locale then .ok { registry with fallback := some locale }
  else .error (.unknownLocale locale)

/-- The editions that a look-up for a locale asks: its own and the fallback's. The
fallback is looked at first. -/
def editions (registry : Registry) (wanted : Locale) : Except Error (Edition × Edition) := do
  let some fallback := registry.fallback | throw .notInitialized
  let fallbackCatalogue ← registry.get fallback
  let catalogue ← registry.get wanted
  pure (⟨wanted, catalogue⟩, ⟨fallback, fallbackCatalogue⟩)

/-- The entry at an address for a locale. -/
def find (registry : Registry) (wanted : Locale) (address : Address) (index : Option Position) :
    Except Error Finding := do
  let (edition, fallback) ← registry.editions wanted
  edition.find fallback address index

end Registry

end Phrasebook
