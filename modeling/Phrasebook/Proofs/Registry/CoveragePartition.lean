import Phrasebook.Proofs.Catalogue.CompleteListing
import Phrasebook.Proofs.Registry.TruthfulCoverage

/-! # The coverage report is a partition

A catalogue counts one path for each scalar, each list and each key of an indexed map
(`Phrasebook.Catalogue.tally`), and no two of them share a path
(`Phrasebook.Catalogue.WellFormed.nodup_coveragePathsBelow`). So the paths of a locale, those
that it has from the fallback alone and those that it lacks are the paths of all registered
catalogues, each of them once (`Phrasebook.Registry.Sound.row_perm`). The numbers of a row of
the report are the sizes of these three parts
(`Phrasebook.Registry.Reachable.coverage_partition`).
-/

namespace Phrasebook

/-- How much an entry counts for: a scalar and a list for one, an indexed map for the number
of its keys. -/
def Entry.tally : Entry → Nat
  | .scalar _ | .list _ => 1
  | .indexed map => map.entries.length

namespace Node

mutual

/-- How much the entries at and below a place count for. -/
def tally : Node → Nat
  | .entry found => found.tally
  | .branch children => tallyBelow children

/-- How much the entries below a namespace count for. -/
def tallyBelow : List (String × Node) → Nat
  | [] => 0
  | (_, node) :: rest => tally node + tallyBelow rest

end

end Node

/-- The number of scalars, lists and keys of indexed maps of a catalogue. -/
def Catalogue.tally (catalogue : Catalogue) : Nat := Node.tallyBelow catalogue.root

theorem Entry.length_coveragePaths (place : String) (entry : Entry) :
    (entry.coveragePaths place).length = entry.tally := by
  cases entry with
  | scalar template => rfl
  | list items => rfl
  | indexed map => exact List.length_map _

namespace Node

mutual

theorem length_coveragePaths (place : String) (node : Node) :
    (node.coveragePaths place).length = node.tally := by
  cases node with
  | entry found => exact found.length_coveragePaths place
  | branch children => exact length_coveragePathsBelow place children

theorem length_coveragePathsBelow (place : String) (children : List (String × Node)) :
    (coveragePathsBelow place children).length = tallyBelow children := by
  cases children with
  | nil => rfl
  | cons head rest =>
    obtain ⟨name, node⟩ := head
    rw [coveragePathsBelow, tallyBelow, List.length_append, length_coveragePaths,
      length_coveragePathsBelow]

end

end Node

theorem Entry.WellFormed.nodup_coveragePaths {entry : Entry} (sound : entry.WellFormed)
    (place : String) : (entry.coveragePaths place).Nodup := by
  cases entry with
  | scalar template => exact List.nodup_singleton place
  | list items => exact List.nodup_singleton place
  | indexed map =>
    have paths : (Entry.indexed map).coveragePaths place =
        (map.entries.map fun item => item.1.text).map fun text => place ++ "." ++ text := by
      rw [List.map_map]
      rfl
    rw [paths]
    exact (IndexedMap.WellFormed.nodup_texts sound).map fun first second same =>
      (String.append_right_inj _).mp same

namespace Catalogue

/-- Nothing stands below an entry: chains of keys that lead to entries are equal where they, or
they and one more key, are. -/
theorem eq_of_node?_entry {catalogue : Catalogue} {names others keys : List String}
    {entry other : Entry} (reached : catalogue.node? names = some (.entry entry))
    (reachedOther : catalogue.node? others = some (.entry other))
    (shape : keys = names ∨ ∃ last, keys = names ++ [last])
    (shapeOther : keys = others ∨ ∃ last, keys = others ++ [last]) : names = others := by
  rcases shape with rfl | ⟨last, rfl⟩ <;> rcases shapeOther with same | ⟨otherLast, same⟩
  · exact same
  · rw [same] at reached
    obtain ⟨children, above⟩ := node?_above reached
    cases reachedOther.symm.trans above
  · rw [← same] at reachedOther
    obtain ⟨children, above⟩ := node?_above reachedOther
    cases reached.symm.trans above
  · exact (List.append_inj' same rfl).1

namespace WellFormed

variable {catalogue : Catalogue} (wellFormed : catalogue.WellFormed)
include wellFormed

/-- Two entries of a catalogue share no path that they count as. -/
theorem disjoint_coveragePaths {names others : List String} {entry other : Entry}
    (reached : catalogue.node? names = some (.entry entry))
    (reachedOther : catalogue.node? others = some (.entry other)) (different : names ≠ others) :
    List.Disjoint (entry.coveragePaths (Address.join names))
      (other.coveragePaths (Address.join others)) := by
  intro path listed listedOther
  obtain ⟨keys, nonempty, valid, joined, _, shape⟩ :=
    wellFormed.exists_keys_of_mem_entry_coveragePaths reached listed
  obtain ⟨otherKeys, otherNonempty, otherValid, otherJoined, _, otherShape⟩ :=
    wellFormed.exists_keys_of_mem_entry_coveragePaths reachedOther listedOther
  have same : keys = otherKeys := Address.join_injective valid nonempty otherValid otherNonempty
    (joined.symm.trans otherJoined)
  subst same
  exact different (eq_of_node?_entry reached reachedOther shape otherShape)

/-- **No path is counted twice.** The scalars, lists and keys of indexed maps of a catalogue
all count as different paths. -/
theorem nodup_coveragePathsBelow : (Node.coveragePathsBelow "" catalogue.root).Nodup := by
  rw [wellFormed.listing_eq Node.isListing_coveragePaths, List.nodup_flatMap]
  refine ⟨?_, (List.pairwise_map.mp wellFormed.nodup_entries).imp_of_mem ?_⟩
  · intro ⟨names, entry⟩ member
    obtain ⟨_, _, _, _, _, sound⟩ := wellFormed.node?_entry (wellFormed.mem_entries_iff.mp member)
    exact sound.nodup_coveragePaths _
  · intro first second member otherMember different
    exact wellFormed.disjoint_coveragePaths (wellFormed.mem_entries_iff.mp member)
      (wellFormed.mem_entries_iff.mp otherMember) different

theorem length_coveragePaths_eq_tally : catalogue.coveragePaths.length = catalogue.tally := by
  have distinct : ((Node.coveragePathsBelow "" catalogue.root).map id).Nodup := by
    rw [List.map_id]
    exact wellFormed.nodup_coveragePathsBelow
  rw [coveragePaths, (Ordered.ofList_perm distinct).length_eq, Node.length_coveragePathsBelow,
    tally]

end WellFormed

end Catalogue

/-- What a row of the coverage report of a registry says of the catalogue of its locale. The
paths of the catalogue, those of the fallback alone and the missing ones have none in common;
together they are the paths of all registered catalogues. -/
structure LocaleCoverage.Partitions (row : LocaleCoverage) (registry : Registry)
    (own : Catalogue) : Prop where
  present : row.present = own.tally
  unshared : (Node.coveragePathsBelow "" own.root).Nodup
  fallbackOnlyIncreasing : Ordered.Increasing id row.fallbackOnly
  missingIncreasing : Ordered.Increasing id row.missing
  fallbackOnlyMissing : List.Disjoint row.fallbackOnly row.missing
  ownFallbackOnly : List.Disjoint own.coveragePaths row.fallbackOnly
  ownMissing : List.Disjoint own.coveragePaths row.missing
  union : ∀ path, (path ∈ own.coveragePaths ∨ path ∈ row.fallbackOnly ∨ path ∈ row.missing) ↔
    ∃ locale catalogue, registry.get? locale = some catalogue ∧ path ∈ catalogue.coveragePaths
  total : row.present + row.fallbackOnly.length + row.missing.length = registry.coverage.totalPaths
  /-- Nothing falls back for the fallback itself, nor where no fallback is declared. -/
  noFallback : registry.fallback = some row.locale ∨ registry.fallback = none →
    row.fallbackOnly = []
  complete : row.isComplete = true ↔ row.present = registry.coverage.totalPaths

namespace Registry

theorem Sound.increasing_locales_coverage {registry : Registry} (sound : registry.Sound) :
    Ordered.Increasing LocaleCoverage.locale registry.coverage.locales :=
  List.pairwise_map.mpr sound.increasing

theorem increasing_coveragePaths (registry : Registry) :
    Ordered.Increasing id registry.coveragePaths := Ordered.increasing_ofList _

section Row

variable {registry : Registry} (sound : registry.Sound) {row : LocaleCoverage} {own : Catalogue}
  (reported : row ∈ registry.coverage.locales)
  (registered : registry.get? row.locale = some own)
include sound reported registered

/-- **The parts of a row.** The paths of the locale, those of the fallback alone and those that
are missing are the paths of all registered catalogues in another order. -/
theorem Sound.row_perm :
    (own.coveragePaths ++ (row.fallbackOnly ++ row.missing)).Perm registry.coveragePaths := by
  obtain ⟨same, registeredSame, _, fallbackOnly, missing⟩ :=
    sound.mem_locales_coverage_iff.mp reported
  cases registered.symm.trans registeredSame
  rw [fallbackOnly, missing]
  have kept : (registry.coveragePaths.filter own.coveragePaths.contains).Perm
      own.coveragePaths := by
    have distinct := registry.increasing_coveragePaths.nodup_id
    refine (List.perm_ext_iff_of_nodup (distinct.filter _) ?_).mpr fun path => ?_
    · exact (Ordered.increasing_ofList _).nodup_id
    · rw [List.mem_filter, List.contains_iff_mem, sound.mem_coveragePaths_iff]
      exact and_iff_right_of_imp fun counted => ⟨row.locale, own, registered, counted⟩
  have lacking := List.filter_append_perm registry.fallbackPaths.contains
    (registry.coveragePaths.filter fun path => !own.coveragePaths.contains path)
  have whole := List.filter_append_perm own.coveragePaths.contains registry.coveragePaths
  exact (kept.symm.append lacking).trans whole

theorem Sound.row_length :
    own.coveragePaths.length + row.fallbackOnly.length + row.missing.length =
      registry.coverage.totalPaths := by
  have lengths := (sound.row_perm reported registered).length_eq
  rw [List.length_append, List.length_append, ← Nat.add_assoc] at lengths
  exact lengths

/-- The row of the fallback, and any row where there is no fallback, has nothing from the
fallback alone. -/
theorem Sound.fallbackOnly_eq_nil
    (alone : registry.fallback = some row.locale ∨ registry.fallback = none) :
    row.fallbackOnly = [] := by
  obtain ⟨same, registeredSame, _, fallbackOnly, _⟩ := sound.mem_locales_coverage_iff.mp reported
  cases registered.symm.trans registeredSame
  rw [fallbackOnly, List.filter_eq_nil_iff]
  intro path lacking
  rcases alone with declared | undeclared
  · rw [fallbackPaths_eq declared registered]
    exact (Bool.not_eq_true' _).mp (List.mem_filter.mp lacking).2 ▸ Bool.false_ne_true
  · simp [fallbackPaths, undeclared]

end Row

/-- Every row parts the paths of all catalogues, for a locale whose catalogue is well-formed. -/
theorem Sound.partitions {registry : Registry} (sound : registry.Sound) {row : LocaleCoverage}
    (reported : row ∈ registry.coverage.locales) {own : Catalogue}
    (registered : registry.get? row.locale = some own) (wellFormed : own.WellFormed) :
    row.Partitions registry own := by
  obtain ⟨same, registeredSame, present, fallbackOnly, missing⟩ :=
    sound.mem_locales_coverage_iff.mp reported
  cases registered.symm.trans registeredSame
  have parts := sound.row_perm reported registered
  obtain ⟨_, rest, ownApart⟩ :=
    List.nodup_append'.mp (parts.nodup_iff.mpr registry.increasing_coveragePaths.nodup_id)
  obtain ⟨_, _, restApart⟩ := List.nodup_append'.mp rest
  obtain ⟨ownFallbackOnly, ownMissing⟩ := List.disjoint_append_right.mp ownApart
  have total := sound.row_length reported registered
  rw [← present] at total
  have increasing := registry.increasing_coveragePaths
  refine ⟨present.trans wellFormed.length_coveragePaths_eq_tally,
    wellFormed.nodup_coveragePathsBelow, ?_, ?_, restApart, ownFallbackOnly, ownMissing, ?_,
    total, sound.fallbackOnly_eq_nil reported registered, ?_⟩
  · rw [fallbackOnly]
    exact (increasing.filter _).filter _
  · rw [missing]
    exact (increasing.filter _).filter _
  · intro path
    rw [← sound.mem_coveragePaths_iff, ← parts.mem_iff, List.mem_append, List.mem_append]
  · rw [LocaleCoverage.isComplete, Bool.and_eq_true, List.isEmpty_iff_length_eq_zero,
      List.isEmpty_iff_length_eq_zero]
    omega

/-- As many different paths are counted as the registered catalogues have together. -/
theorem Sound.encard_coveragePaths {registry : Registry} (sound : registry.Sound) :
    {path | ∃ locale catalogue, registry.get? locale = some catalogue ∧
      path ∈ catalogue.coveragePaths}.encard = registry.coverage.totalPaths := by
  have counted : {path | ∃ locale catalogue, registry.get? locale = some catalogue ∧
      path ∈ catalogue.coveragePaths} = (registry.coveragePaths.toFinset : Set String) := by
    ext path
    rw [List.coe_toFinset, Set.mem_ofPred_eq, Set.mem_ofPred_eq, sound.mem_coveragePaths_iff]
  rw [counted, Set.encard_coe_eq_coe_finsetCard,
    List.toFinset_card_of_nodup registry.increasing_coveragePaths.nodup_id]
  rfl

theorem Sound.existsUnique_row_iff {registry : Registry} (sound : registry.Sound)
    {locale : Locale} : registry.contains locale = true ↔
      ∃! row, row ∈ registry.coverage.locales ∧ row.locale = locale := by
  rw [contains_iff]
  constructor
  · rintro ⟨own, registered⟩
    refine ⟨⟨locale, _, _, _⟩,
      ⟨sound.mem_locales_coverage_iff.mpr ⟨own, registered, rfl, rfl, rfl⟩, rfl⟩, ?_⟩
    rintro row ⟨reported, rfl⟩
    obtain ⟨same, registeredSame, present, fallbackOnly, missing⟩ :=
      sound.mem_locales_coverage_iff.mp reported
    cases registered.symm.trans registeredSame
    rw [← present, ← fallbackOnly, ← missing]
  · rintro ⟨row, ⟨reported, rfl⟩, _⟩
    obtain ⟨own, registered, _⟩ := sound.mem_locales_coverage_iff.mp reported
    exact ⟨own, registered⟩

/-- **The report is a partition.** The coverage report of a registry that a host can make has
one row for each registered locale, in increasing order of the locales. Each row counts the
scalars, lists and keys of indexed maps of the locale's catalogue, and parts the paths of all
registered catalogues into those of the locale, those of the fallback alone and those that are
missing; the total is the number of all these paths. -/
theorem Reachable.coverage_partition {registry : Registry} (reachable : registry.Reachable) :
    (∀ locale, registry.contains locale = true ↔
        ∃! row, row ∈ registry.coverage.locales ∧ row.locale = locale) ∧
      Ordered.Increasing LocaleCoverage.locale registry.coverage.locales ∧
      {path | ∃ locale catalogue, registry.get? locale = some catalogue ∧
        path ∈ catalogue.coveragePaths}.encard = registry.coverage.totalPaths ∧
      ∀ row ∈ registry.coverage.locales, ∃ own,
        registry.get? row.locale = some own ∧ row.Partitions registry own := by
  have sound := reachable.sound
  refine ⟨fun _ => sound.existsUnique_row_iff, sound.increasing_locales_coverage,
    sound.encard_coveragePaths, fun row reported => ?_⟩
  obtain ⟨own, registered, _⟩ := sound.mem_locales_coverage_iff.mp reported
  exact ⟨own, registered, sound.partitions reported registered (reachable.wellFormed registered)⟩

/-- The report of a German catalogue that lacks a title and a plural form of the English one. -/
theorem Reachable.coverage_partition_days :
    let english : Catalogue := ⟨[("days", .entry (.indexed ⟨[(.position 1, ⟨"day"⟩),
      (.name "other", ⟨"days"⟩)]⟩)), ("title", .entry (.scalar ⟨"Menu"⟩))]⟩
    let german : Catalogue := ⟨[("days", .entry (.indexed ⟨[(.position 1, ⟨"Tag"⟩)]⟩))]⟩
    let registry : Registry := ⟨[(.german, german), (.english, english)], some .english⟩
    registry.Reachable ∧
      (∀ locale, registry.contains locale = true ↔
        ∃! row, row ∈ registry.coverage.locales ∧ row.locale = locale) ∧
      Ordered.Increasing LocaleCoverage.locale registry.coverage.locales ∧
      {path | ∃ locale catalogue, registry.get? locale = some catalogue ∧
        path ∈ catalogue.coveragePaths}.encard = registry.coverage.totalPaths ∧
      ∀ row ∈ registry.coverage.locales, ∃ own,
        registry.get? row.locale = some own ∧ row.Partitions registry own := by
  intro english german registry
  have reachable : registry.Reachable := .germanAndEnglish
    (.mapping [("title", .text "Menu"),
      ("days", .mapping [("1", .text "day"), ("other", .text "days")])])
    (.mapping [("days", .mapping [("1", .text "Tag")])]) rfl rfl
  exact ⟨reachable, reachable.coverage_partition⟩

end Registry

end Phrasebook
