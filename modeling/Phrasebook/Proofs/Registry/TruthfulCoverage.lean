import Phrasebook.Proofs.Catalogue.Overlay
import Phrasebook.Proofs.Registry.ListedPaths

/-! # What the coverage report says of look-ups

The report counts a path of some catalogue as present, fallback-only or missing for each
locale; a look-up of the path finds an entry of the locale itself, finds one of the
fallback, or fails. The report is truthful about a path
(`Phrasebook.LocaleCoverage.Truthful`) exactly when each of the two catalogues serves
the path if it counts it and the locale does not have a namespace in its place
(`Phrasebook.Registry.Reachable.coverage_truthful_iff`). That is so when the registered
catalogues are alike and no key is padded
(`Phrasebook.Registry.Reachable.coverage_truthful_of_alike`).
-/

namespace Phrasebook

/-- The keys of a path as their steps write them. -/
def Address.plainKeys (path : String) : List String := (keys path).map respell

/-- What a catalogue serves for a chain of keys: an entry that it counts under their
path, a whole indexed map, or an item of a list. -/
def Catalogue.Serves (catalogue : Catalogue) (names : List String) : Prop :=
  Address.join names ∈ catalogue.coveragePaths ∨ catalogue.HoldsUncounted names

theorem Catalogue.WellFormed.exists_holds_iff_serves {catalogue : Catalogue}
    (wellFormed : catalogue.WellFormed) {names : List String} (nonempty : names ≠ [])
    (valid : ∀ name ∈ names, Address.IsKey name) :
    (∃ entry, catalogue.Holds (names.map Address.respell) entry) ↔
      catalogue.Serves (names.map Address.respell) := by
  refine wellFormed.holds_iff (by simpa using nonempty) ?_ ?_
  · intro name member
    obtain ⟨key, present, rfl⟩ := List.mem_map.mp member
    exact (valid key present).respell
  · intro name member
    obtain ⟨key, _, rfl⟩ := List.mem_map.mp member
    rw [Address.respell, Address.stepOf_respell, Address.respell]

theorem Catalogue.node?_above {catalogue : Catalogue} {front : List String} {last : String}
    {node : Node} (reached : catalogue.node? (front ++ [last]) = some node) :
    ∃ children, catalogue.node? front = some (.branch children) := by
  rw [node?, List.foldlM_append, ← node?] at reached
  obtain ⟨above, found, below⟩ := Option.bind_eq_some_iff.mp reached
  cases above with
  | branch children => exact ⟨children, found⟩
  | entry entry => cases below

/-- Where a catalogue that is alike counts a chain of keys, no namespace stands, and
nothing is served that is not counted. -/
theorem Catalogue.Alike.of_counts {own counter : Catalogue} (alike : own.Alike counter)
    {names : List String} (counts : counter.Counts names) :
    ¬ own.Groups names ∧ ¬ own.HoldsUncounted names := by
  rcases counts with ⟨found, reached, counted⟩ | ⟨front, last, map, _, rfl, reached, _⟩
  · constructor
    · rintro ⟨children, grouped⟩
      cases found <;> cases alike _ _ _ grouped reached
    · rintro (⟨map, whole⟩ | ⟨front, last, items, index, rfl, listed, _⟩)
      · exact counted (alike _ _ _ whole reached).symm
      · obtain ⟨children, above⟩ := node?_above reached
        cases alike _ _ _ listed above
  · constructor
    · rintro ⟨children, grouped⟩
      obtain ⟨siblings, above⟩ := node?_above grouped
      cases alike _ _ _ above reached
    · rintro (⟨other, whole⟩ | ⟨above, key, items, index, shape, listed, _⟩)
      · obtain ⟨siblings, above⟩ := node?_above whole
        cases alike _ _ _ above reached
      · obtain ⟨rfl, _⟩ := List.append_inj' shape rfl
        cases alike _ _ _ listed reached

/-- What the report says of a path is what looking the path up for the locale does. -/
structure LocaleCoverage.Truthful (coverage : LocaleCoverage) (registry : Registry)
    (own : Catalogue) (path : String) (address : Address) : Prop where
  fallbackOnly : path ∈ coverage.fallbackOnly ↔ ∃ finding,
    registry.find coverage.locale address none = .ok finding ∧ finding.fellBack = true
  missing : path ∈ coverage.missing ↔
    ∃ cause, registry.find coverage.locale address none = .error cause
  present : path ∈ own.coveragePaths ↔ ∃ finding,
    registry.find coverage.locale address none = .ok finding ∧ finding.fellBack = false

namespace Registry

theorem Sound.mem_locales_coverage_iff {registry : Registry} (sound : registry.Sound)
    {coverage : LocaleCoverage} : coverage ∈ registry.coverage.locales ↔
      ∃ own, registry.get? coverage.locale = some own ∧
        coverage.present = own.coveragePaths.length ∧
        coverage.fallbackOnly = (registry.coveragePaths.filter fun path =>
          !own.coveragePaths.contains path).filter registry.fallbackPaths.contains ∧
        coverage.missing = (registry.coveragePaths.filter fun path =>
          !own.coveragePaths.contains path).filter
            fun path => !registry.fallbackPaths.contains path := by
  rw [Registry.coverage, List.mem_map]
  constructor
  · rintro ⟨⟨locale, own⟩, member, rfl⟩
    exact ⟨own, sound.get?_eq_some_iff.mpr member, rfl, rfl, rfl⟩
  · obtain ⟨locale, present, fallbackOnly, missing⟩ := coverage
    rintro ⟨own, registered, rfl, rfl, rfl⟩
    exact ⟨(locale, own), sound.get?_eq_some_iff.mp registered, rfl⟩

theorem fallbackPaths_eq {registry : Registry} {fallback : Locale} {other : Catalogue}
    (declared : registry.fallback = some fallback)
    (registered : registry.get? fallback = some other) :
    registry.fallbackPaths = other.coveragePaths := by
  simp only [fallbackPaths, declared, Option.bind_some, registered]

theorem Sound.mem_coveragePaths_iff {registry : Registry} (sound : registry.Sound)
    {path : String} : path ∈ registry.coveragePaths ↔
      ∃ locale catalogue, registry.get? locale = some catalogue ∧
        path ∈ catalogue.coveragePaths := by
  rw [coveragePaths, Ordered.mem_ofList_id, List.mem_flatMap]
  constructor
  · rintro ⟨⟨locale, catalogue⟩, member, counted⟩
    exact ⟨locale, catalogue, sound.get?_eq_some_iff.mpr member, counted⟩
  · rintro ⟨locale, catalogue, registered, counted⟩
    exact ⟨(locale, catalogue), sound.get?_eq_some_iff.mp registered, counted⟩

/-- A row counts a path once: as present, as fallback-only or as missing. -/
theorem Sound.mem_row_iff {registry : Registry} (sound : registry.Sound) {fallback : Locale}
    {own other : Catalogue} (declared : registry.fallback = some fallback)
    (fallbackRegistered : registry.get? fallback = some other) {coverage : LocaleCoverage}
    (row : coverage ∈ registry.coverage.locales)
    (registered : registry.get? coverage.locale = some own) {path : String}
    (counted : path ∈ registry.coveragePaths) :
    (path ∈ coverage.fallbackOnly ↔ path ∉ own.coveragePaths ∧ path ∈ other.coveragePaths) ∧
      (path ∈ coverage.missing ↔ path ∉ own.coveragePaths ∧ path ∉ other.coveragePaths) := by
  obtain ⟨same, registeredSame, _, fallbackOnly, missing⟩ :=
    sound.mem_locales_coverage_iff.mp row
  rw [registered] at registeredSame
  cases registeredSame
  rw [fallbackOnly, missing, fallbackPaths_eq declared fallbackRegistered]
  simp [counted, and_comm]

section Lookup

variable {registry : Registry} {locale fallback : Locale} {own other : Catalogue}
  (declared : registry.fallback = some fallback)
  (registered : registry.get? locale = some own)
  (fallbackRegistered : registry.get? fallback = some other)
include declared registered fallbackRegistered

/-- A look-up has an entry of the locale itself where its catalogue holds one. -/
theorem exists_find_own_iff {text : String} {names : List String} :
    (∃ finding, registry.find locale ⟨text, names.map Address.stepOf⟩ none = .ok finding ∧
        finding.fellBack = false) ↔
      ∃ entry, own.Holds (names.map Address.respell) entry := by
  rw [find_eq_edition_find declared registered fallbackRegistered]
  simp only [← @Catalogue.find_eq_ok_iff_holds _ text]
  constructor
  · rintro ⟨finding, found, own⟩
    rcases Edition.find_eq_ok_iff.mp found with ⟨here, _, _⟩ | ⟨_, _, _, _, fellBack⟩
    · exact ⟨finding.entry, here⟩
    · rw [own] at fellBack
      cases fellBack
  · rintro ⟨entry, here⟩
    exact ⟨⟨entry, locale, false⟩, Edition.find_eq_ok_iff.mpr (.inl ⟨here, rfl, rfl⟩), rfl⟩

/-- A look-up has an entry of the fallback where that is another locale whose
catalogue holds one, and the chain of keys leads nowhere in the locale's own. -/
theorem exists_find_fellBack_iff {text : String} {names : List String} :
    (∃ finding, registry.find locale ⟨text, names.map Address.stepOf⟩ none = .ok finding ∧
        finding.fellBack = true) ↔
      (¬ own.Groups (names.map Address.respell) ∧
        ¬ ∃ entry, own.Holds (names.map Address.respell) entry) ∧
      locale ≠ fallback ∧ ∃ entry, other.Holds (names.map Address.respell) entry := by
  rw [find_eq_edition_find declared registered fallbackRegistered, not_exists,
    ← @Catalogue.find_allowsFallback_iff _ text]
  simp only [← @Catalogue.find_eq_ok_iff_holds _ text]
  constructor
  · rintro ⟨finding, found, fellBack⟩
    rcases Edition.find_eq_ok_iff.mp found with ⟨_, _, own⟩ | ⟨missed, different, there, _, _⟩
    · rw [fellBack] at own
      cases own
    · exact ⟨missed, different, finding.entry, there⟩
  · rintro ⟨missed, different, entry, there⟩
    exact ⟨⟨entry, fallback, true⟩,
      Edition.find_eq_ok_iff.mpr (.inr ⟨missed, different, there, rfl, rfl⟩), rfl⟩

end Lookup

/-- A look-up fails when it neither has an entry of the locale nor falls back. -/
theorem exists_find_error_iff {registry : Registry} {locale : Locale} {address : Address} :
    (∃ cause, registry.find locale address none = .error cause) ↔
      (¬ ∃ finding, registry.find locale address none = .ok finding ∧ finding.fellBack = false) ∧
        ¬ ∃ finding, registry.find locale address none = .ok finding ∧
          finding.fellBack = true := by
  cases outcome : registry.find locale address none with
  | error cause => simp
  | ok finding => cases fellBack : finding.fellBack <;> simp [fellBack]

/-- What the report says of the path of a chain of keys is what a look-up does exactly
when the catalogues that count the path are those that serve it. -/
theorem Reachable.truthful_iff {registry : Registry} (reachable : registry.Reachable)
    {fallback : Locale} {own other : Catalogue} (declared : registry.fallback = some fallback)
    (fallbackRegistered : registry.get? fallback = some other) {coverage : LocaleCoverage}
    (row : coverage ∈ registry.coverage.locales)
    (registered : registry.get? coverage.locale = some own) {names : List String}
    (nonempty : names ≠ []) (valid : ∀ name ∈ names, Address.IsKey name)
    (counted : Address.join names ∈ registry.coveragePaths) :
    coverage.Truthful registry own (Address.join names)
        ⟨Address.join names, names.map Address.stepOf⟩ ↔
      (Address.join names ∈ own.coveragePaths ↔ own.Serves (names.map Address.respell)) ∧
      (Address.join names ∉ own.coveragePaths → coverage.locale ≠ fallback →
        (Address.join names ∈ other.coveragePaths ↔
          ¬ own.Groups (names.map Address.respell) ∧
            other.Serves (names.map Address.respell))) := by
  obtain ⟨fallbackOnly, missing⟩ :=
    reachable.sound.mem_row_iff declared fallbackRegistered row registered counted
  have found := @exists_find_own_iff _ _ _ _ _ declared registered fallbackRegistered
    (Address.join names) names
  have fellBack := @exists_find_fellBack_iff _ _ _ _ _ declared registered fallbackRegistered
    (Address.join names) names
  rw [(reachable.wellFormed registered).exists_holds_iff_serves nonempty valid] at found fellBack
  rw [(reachable.wellFormed fallbackRegistered).exists_holds_iff_serves nonempty valid] at fellBack
  -- nothing is fallback-only for the fallback itself
  have alone : coverage.locale = fallback → own = other := by
    intro same
    rw [same, fallbackRegistered] at registered
    exact (Option.some.inj registered).symm
  constructor
  · rintro ⟨saysFallback, _, saysPresent⟩
    rw [fallbackOnly, fellBack] at saysFallback
    rw [found] at saysPresent
    exact ⟨saysPresent, by grind⟩
  · rintro ⟨saysPresent, saysFallback⟩
    constructor
    · rw [fallbackOnly, fellBack]
      grind
    · rw [missing, exists_find_error_iff, found, fellBack]
      grind
    · rw [found]
      exact saysPresent

/-- **When the report is truthful.** Every registered locale has a row, and every counted
path can be read. What the row says of the path is what looking it up for the locale
does exactly when the locale's catalogue counts the path if and only if it serves it,
and, where it does not count it, the fallback's catalogue counts it if and only if it
serves it and the locale has no namespace in its place. -/
theorem Reachable.coverage_truthful_iff {registry : Registry} (reachable : registry.Reachable)
    {fallback : Locale} (declared : registry.fallback = some fallback) {locale : Locale}
    {own : Catalogue} (registered : registry.get? locale = some own) {path : String}
    (counted : path ∈ registry.coveragePaths) :
    ∃ other address, registry.get? fallback = some other ∧ Address.parse path = .ok address ∧
      (∃ coverage ∈ registry.coverage.locales, coverage.locale = locale) ∧
      ∀ coverage ∈ registry.coverage.locales, coverage.locale = locale →
        (coverage.Truthful registry own path address ↔
          (path ∈ own.coveragePaths ↔ own.Serves (Address.plainKeys path)) ∧
          (path ∉ own.coveragePaths → locale ≠ fallback →
            (path ∈ other.coveragePaths ↔ ¬ own.Groups (Address.plainKeys path) ∧
              other.Serves (Address.plainKeys path)))) := by
  have sound := reachable.sound
  obtain ⟨other, fallbackRegistered⟩ := contains_iff.mp (sound.declared fallback declared)
  obtain ⟨counter, catalogue, counterRegistered, counts⟩ := sound.mem_coveragePaths_iff.mp counted
  obtain ⟨names, nonempty, valid, rfl, _⟩ :=
    (reachable.wellFormed counterRegistered).exists_keys_of_mem_coveragePaths counts
  refine ⟨other, _, fallbackRegistered, Address.parse_join valid nonempty, ?_, ?_⟩
  · exact ⟨⟨locale, _, _, _⟩,
      sound.mem_locales_coverage_iff.mpr ⟨own, registered, rfl, rfl, rfl⟩, rfl⟩
  · rintro coverage row rfl
    rw [Address.plainKeys, Address.keys_join valid nonempty]
    exact reachable.truthful_iff declared fallbackRegistered row registered nonempty valid counted

/-- The report is truthful about a title that only the fallback has. -/
theorem Reachable.coverage_truthful_title :
    let english : Catalogue := ⟨[("title", .entry (.scalar ⟨"Menu"⟩))]⟩
    let registry : Registry := ⟨[(.german, .empty), (.english, english)], some .english⟩
    registry.Reachable ∧ "title" ∈ registry.coveragePaths ∧
      ∃ other address, registry.get? .english = some other ∧
        Address.parse "title" = .ok address ∧
        (∃ coverage ∈ registry.coverage.locales, coverage.locale = .german) ∧
        ∀ coverage ∈ registry.coverage.locales, coverage.locale = .german →
          (coverage.Truthful registry .empty "title" address ↔
            ("title" ∈ Catalogue.empty.coveragePaths ↔
              Catalogue.empty.Serves (Address.plainKeys "title")) ∧
            ("title" ∉ Catalogue.empty.coveragePaths → Locale.german ≠ .english →
              ("title" ∈ other.coveragePaths ↔
                ¬ Catalogue.empty.Groups (Address.plainKeys "title") ∧
                  other.Serves (Address.plainKeys "title")))) := by
  intro english registry
  have reachable : registry.Reachable :=
    .germanAndEnglish (.mapping [("title", .text "Menu")]) (.mapping []) rfl rfl
  have listing : registry.coveragePaths = ["title"] := rfl
  have counted : "title" ∈ registry.coveragePaths := listing ▸ List.mem_singleton_self _
  exact ⟨reachable, counted, reachable.coverage_truthful_iff rfl rfl counted⟩

/-- A path that the report counts as fallback-only, although a namespace of the locale
stands in its place and looking it up fails. -/
theorem find_fallbackOnly_misshapen :
    ∃ registry coverage address, Reachable registry ∧ registry.fallback = some .english ∧
      coverage ∈ registry.coverage.locales ∧ "title" ∈ coverage.fallbackOnly ∧
      Address.parse "title" = .ok address ∧
      registry.find coverage.locale address none =
        .error (.unexpectedShape "title" .scalar .namespaced) := by
  let english : Catalogue := ⟨[("title", .entry (.scalar ⟨"Menu"⟩))]⟩
  let other : Catalogue := ⟨[("title", .branch [("main", .entry (.scalar ⟨"Auswahl"⟩))])]⟩
  have reachable : Reachable ⟨[(.german, other), (.english, english)], some .english⟩ :=
    .germanAndEnglish (.mapping [("title", .text "Menu")])
      (.mapping [("title", .mapping [("main", .text "Auswahl")])]) rfl rfl
  refine ⟨_, ⟨.german, 1, ["title"], []⟩, ⟨"title", [.name "title"]⟩, reachable, rfl, ?_,
    List.mem_singleton_self "title", rfl, rfl⟩
  have rows : (Registry.coverage ⟨[(.german, other), (.english, english)], some .english⟩).locales =
      [⟨.german, 1, ["title"], []⟩, ⟨.english, 1, [], ["title.main"]⟩] := rfl
  rw [rows]
  exact List.mem_cons_self

/-- **Catalogues that are alike.** The report is truthful about every path whose keys are
not padded when the registered catalogues are alike. -/
theorem Reachable.coverage_truthful_of_alike {registry : Registry}
    (reachable : registry.Reachable) {fallback : Locale}
    (declared : registry.fallback = some fallback)
    (alike : ∀ first second own other, registry.get? first = some own →
      registry.get? second = some other → own.Alike other)
    {coverage : LocaleCoverage} (row : coverage ∈ registry.coverage.locales) {own : Catalogue}
    (registered : registry.get? coverage.locale = some own) {path : String}
    (counted : path ∈ registry.coveragePaths)
    (unpadded : ∀ key ∈ Address.keys path, ¬ Address.IsPadded key) :
    ∃ address, Address.parse path = .ok address ∧
      coverage.Truthful registry own path address := by
  have sound := reachable.sound
  obtain ⟨other, fallbackRegistered⟩ := contains_iff.mp (sound.declared fallback declared)
  obtain ⟨counter, catalogue, counterRegistered, counts⟩ := sound.mem_coveragePaths_iff.mp counted
  obtain ⟨names, nonempty, valid, rfl, chain⟩ :=
    (reachable.wellFormed counterRegistered).exists_keys_of_mem_coveragePaths counts
  rw [Address.keys_join valid nonempty] at unpadded
  have kept : names.map Address.respell = names := by
    rw [List.map_congr_left fun key member =>
      Address.respell_of_not_isPadded (unpadded key member)]
    exact List.map_id' names
  have serves {locale : Locale} {catalogue : Catalogue}
      (registered : registry.get? locale = some catalogue) :
      ¬ catalogue.Groups names ∧
        (catalogue.Serves names ↔ Address.join names ∈ catalogue.coveragePaths) := by
    obtain ⟨ungrouped, exact⟩ :=
      (alike _ _ _ _ registered counterRegistered).of_counts chain
    exact ⟨ungrouped, or_iff_left exact⟩
  obtain ⟨ungrouped, ownServes⟩ := serves registered
  refine ⟨_, Address.parse_join valid nonempty,
    (reachable.truthful_iff declared fallbackRegistered row registered nonempty valid
      counted).mpr ?_⟩
  rw [kept, ownServes, (serves fallbackRegistered).2]
  exact ⟨Iff.rfl, fun _ _ => ⟨fun counts => ⟨ungrouped, counts⟩, And.right⟩⟩

end Registry

end Phrasebook
