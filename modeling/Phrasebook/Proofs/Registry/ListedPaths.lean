import Phrasebook.Proofs.Catalogue.Holding
import Phrasebook.Proofs.Registry.Reachable

/-! # Looking up listed paths

The paths that a catalogue lists are read as one step for each key, and all keys but
the first one are found again as they stand. A first key that is a numeral with
needless zeros in front is written without them by its step, so a look-up of a listed
path has the listed entry unless the first key is such a numeral
(`Phrasebook.Registry.Reachable.find_entryPath_iff`).
-/

namespace Phrasebook

namespace Registry

theorem find_eq_own_iff {registry : Registry} {locale fallback : Locale} {own other : Catalogue}
    (declared : registry.fallback = some fallback)
    (registered : registry.get? locale = some own)
    (fallbackRegistered : registry.get? fallback = some other) {address : Address}
    {index : Option Position} {entry : Entry} :
    registry.find locale address index = .ok ⟨entry, locale, false⟩ ↔
      own.find address index = .ok entry := by
  rw [find_eq_edition_find declared registered fallbackRegistered, Edition.find_eq_ok_iff]
  simp

/-- **Addressing listed paths.** In a registry with a declared fallback, every path that
the catalogue of a locale lists is the path of a chain of keys that leads to an entry
there, and it can be read. Looking it up for the locale has that entry, not from the
fallback, exactly when the first key is not padded with zeros or the chain without the
padding holds an equal entry. -/
theorem Reachable.find_entryPath_iff {registry : Registry} (reachable : registry.Reachable)
    {fallback : Locale} (declared : registry.fallback = some fallback) {locale : Locale}
    {catalogue : Catalogue} (registered : registry.get? locale = some catalogue) {path : String}
    (listed : path ∈ catalogue.entryPaths) :
    ∃ root below entry address, Address.keys path = root :: below ∧
      catalogue.node? (root :: below) = some (.entry entry) ∧
      Address.parse path = .ok address ∧
      (registry.find locale address none = .ok ⟨entry, locale, false⟩ ↔
        ¬ Address.IsPadded root ∨ catalogue.Holds (Address.respell root :: below) entry) := by
  have wellFormed := reachable.wellFormed registered
  obtain ⟨other, fallbackRegistered⟩ :=
    contains_iff.mp (reachable.sound.declared fallback declared)
  obtain ⟨names, entry, reached, rfl⟩ := wellFormed.mem_entryPaths_iff.mp listed
  obtain ⟨nonempty, valid⟩ := wellFormed.isKey_of_node?_entry reached
  obtain ⟨root, below, rfl, _, belowNames, _⟩ := wellFormed.node?_entry reached
  refine ⟨root, below, entry, _, Address.keys_join valid nonempty, reached,
    Address.parse_join valid nonempty, ?_⟩
  -- only the first key may be a numeral, so the others are spelled as they stand
  have kept : below.map Address.respell = below := by
    rw [List.map_congr_left fun name member =>
      Address.respell_of_not_numeral (belowNames name member).2]
    exact List.map_id' below
  rw [find_eq_own_iff declared registered fallbackRegistered, Catalogue.find_eq_ok_iff_holds,
    List.map_cons, kept]
  constructor
  · exact .inr
  · rintro (unpadded | held)
    · rw [Address.respell_of_not_isPadded unpadded]
      exact .inl reached
    · exact held

/-- The path of an entry in a namespace leads to the entry. -/
theorem Reachable.find_entryPath_menu :
    let catalogue : Catalogue := ⟨[("menu", .branch [("play", .entry (.scalar ⟨"Play"⟩))])]⟩
    let registry : Registry := ⟨[(.english, catalogue)], some .english⟩
    registry.Reachable ∧ "menu.play" ∈ catalogue.entryPaths ∧
      ∃ root below entry address, Address.keys "menu.play" = root :: below ∧
        catalogue.node? (root :: below) = some (.entry entry) ∧
        Address.parse "menu.play" = .ok address ∧
        (registry.find .english address none = .ok ⟨entry, .english, false⟩ ↔
          ¬ Address.IsPadded root ∨ catalogue.Holds (Address.respell root :: below) entry) := by
  intro catalogue registry
  have accepted : Catalogue.ofDocument (.mapping [("menu", .mapping [("play", .text "Play")])]) =
      .ok catalogue := rfl
  have reachable : registry.Reachable :=
    .setFallback (.register .empty .english accepted) .english
      (setFallback_eq_ok_iff.mpr ⟨rfl, rfl⟩)
  have listing : catalogue.entryPaths = ["menu.play"] := rfl
  have listed : "menu.play" ∈ catalogue.entryPaths := listing ▸ List.mem_singleton_self _
  exact ⟨reachable, listed, reachable.find_entryPath_iff rfl rfl listed⟩

/-- A listed path whose first key is padded with a zero is looked up in vain. -/
theorem find_padded_entryPath :
    ∃ registry catalogue address, Reachable registry ∧ registry.fallback = some .english ∧
      registry.get? .english = some catalogue ∧ "01" ∈ catalogue.entryPaths ∧
      catalogue.node? ["01"] = some (.entry (.scalar ⟨"first"⟩)) ∧
      Address.parse "01" = .ok address ∧
      registry.find .english address none = .error (.missingKey "01") := by
  have accepted : Catalogue.ofDocument (.mapping [("01", .text "first")]) =
      .ok ⟨[("01", .entry (.scalar ⟨"first"⟩))]⟩ := rfl
  refine ⟨_, ⟨[("01", .entry (.scalar ⟨"first"⟩))]⟩, ⟨"01", [.position 1]⟩,
    .setFallback (.register .empty .english accepted) .english
      (setFallback_eq_ok_iff.mpr ⟨rfl, rfl⟩),
    rfl, rfl, ?_, rfl, rfl, rfl⟩
  have listing : Catalogue.entryPaths ⟨[("01", .entry (.scalar ⟨"first"⟩))]⟩ = ["01"] := rfl
  exact listing ▸ List.mem_singleton_self "01"

end Registry

end Phrasebook
