import Mathlib.Data.List.Nodup
import Phrasebook.Proofs.Catalogue.Listing

/-! # What a chain of keys holds

A chain of keys holds an entry of a tree, or a template of a list or an indexed map
that its last key names (`Phrasebook.Catalogue.Holds`); it may instead lead to a
namespace (`Phrasebook.Catalogue.Groups`). A look-up of a path follows the chain of its
keys as their steps write them, and has exactly the entry that this chain holds
(`Phrasebook.Catalogue.find_eq_ok_iff_holds`). The chains that hold an entry are those of
the paths that the catalogue counts, of whole indexed maps, and of items of lists
(`Phrasebook.Catalogue.WellFormed.holds_iff`).
-/

namespace Phrasebook

namespace Node

/-- A chain of names leads to an entry, but for its last name, and that one names a template
of the entry. -/
def HasItem (node : Node) (names : List String) (template : Template) : Prop :=
  ∃ front last found, names = front ++ [last] ∧ node.descend? front = some (.entry found) ∧
    found.item? (Address.stepOf last) = some template

theorem not_hasItem_nil (node : Node) (template : Template) : ¬ node.HasItem [] template := by
  rintro ⟨front, last, _, shape, _⟩
  exact List.append_ne_nil_of_right_ne_nil front (List.cons_ne_nil last []) shape.symm

theorem hasItem_branch_cons {children : Namespace} {name : String} {names : List String}
    {template : Template} : (Node.branch children).HasItem (name :: names) template ↔
      ∃ child, children.get? name = some child ∧ child.HasItem names template := by
  constructor
  · rintro ⟨front, last, found, shape, descended, item⟩
    cases front with
    | nil =>
      rw [descend?_nil] at descended
      cases descended
    | cons first front =>
      obtain ⟨rfl, tail⟩ := List.cons.inj shape
      obtain ⟨child, present, below⟩ := Option.bind_eq_some_iff.mp descended
      exact ⟨child, present, front, last, found, tail, below, item⟩
  · rintro ⟨child, present, front, last, found, rfl, below, item⟩
    refine ⟨name :: front, last, found, rfl, ?_, item⟩
    rw [descend?_branch_cons, present]
    exact below

theorem hasItem_entry_cons {entry : Entry} {name : String} {names : List String}
    {template : Template} : (Node.entry entry).HasItem (name :: names) template ↔
      names = [] ∧ entry.item? (Address.stepOf name) = some template := by
  constructor
  · rintro ⟨front, last, found, shape, descended, item⟩
    cases front with
    | nil =>
      rw [descend?_nil] at descended
      cases descended
      obtain ⟨rfl, tail⟩ := List.cons.inj shape
      exact ⟨tail, item⟩
    | cons first front => cases descended
  · rintro ⟨rfl, item⟩
    exact ⟨[], name, entry, rfl, descend?_nil _, item⟩

/-- The texts of steps name the same children as the steps do. A step also goes on to
a template of an entry, which no name does. -/
theorem follow?_map_stepOf_eq_some_iff {node reached : Node} {names : List String} :
    node.follow? (names.map Address.stepOf) = some reached ↔
      node.descend? (names.map Address.respell) = some reached ∨
        ∃ template, node.HasItem (names.map Address.respell) template ∧
          reached = .entry (.scalar template) := by
  induction names generalizing node with
  | nil => simp [not_hasItem_nil]
  | cons name rest ih =>
    rw [List.map_cons, List.map_cons, follow?_cons]
    cases node with
    | branch children =>
      simp only [hasItem_branch_cons]
      rw [descend?_branch_cons, below?]
      change (Namespace.get? children (Address.respell name)).bind _ = _ ↔ _
      cases Namespace.get? children (Address.respell name) with
      | none => simp
      | some child => simpa using ih
    | entry entry =>
      simp only [hasItem_entry_cons, Address.stepOf_respell]
      rw [descend?_entry_cons, below?]
      cases entry.item? (Address.stepOf name) with
      | none => simp
      | some template =>
        cases rest with
        | nil => simp [@eq_comm _ reached]
        | cons next rest => simp [below?, Entry.item?]

end Node

namespace Catalogue

/-- A chain of keys holds an entry of the tree, or a template of a list or an indexed
map under its last key. -/
def Holds (catalogue : Catalogue) (names : List String) (entry : Entry) : Prop :=
  catalogue.node? names = some (.entry entry) ∨
    ∃ front last found template, names = front ++ [last] ∧
      catalogue.node? front = some (.entry found) ∧
      found.item? (Address.stepOf last) = some template ∧ entry = .scalar template

/-- A chain of keys leads to a namespace. -/
def Groups (catalogue : Catalogue) (names : List String) : Prop :=
  ∃ children, catalogue.node? names = some (.branch children)

theorem follow?_eq_entry_iff {catalogue : Catalogue} {names : List String} {entry : Entry} :
    (Node.branch catalogue.root).follow? (names.map Address.stepOf) = some (.entry entry) ↔
      catalogue.Holds (names.map Address.respell) entry := by
  simp only [Node.follow?_map_stepOf_eq_some_iff, Node.entry.injEq, Holds, node?_eq_descend?]
  refine or_congr_right ⟨?_, ?_⟩
  · rintro ⟨template, ⟨front, last, found, shape, reached, item⟩, scalar⟩
    exact ⟨front, last, found, template, shape, reached, item, scalar⟩
  · rintro ⟨front, last, found, template, shape, reached, item, scalar⟩
    exact ⟨template, ⟨front, last, found, shape, reached, item⟩, scalar⟩

theorem follow?_eq_branch_iff {catalogue : Catalogue} {names : List String}
    {children : Namespace} :
    (Node.branch catalogue.root).follow? (names.map Address.stepOf) = some (.branch children) ↔
      catalogue.node? (names.map Address.respell) = some (.branch children) := by
  simp only [Node.follow?_map_stepOf_eq_some_iff, node?_eq_descend?, reduceCtorEq, and_false,
    exists_false, or_false]

/-- **What a look-up finds.** The look-up of a chain of keys has the entry that the
chain, as its steps write it, holds. -/
theorem find_eq_ok_iff_holds {catalogue : Catalogue} {text : String} {names : List String}
    {entry : Entry} : catalogue.find ⟨text, names.map Address.stepOf⟩ none = .ok entry ↔
      catalogue.Holds (names.map Address.respell) entry := by
  rw [← follow?_eq_entry_iff]
  cases reached : (Node.branch catalogue.root).follow? (names.map Address.stepOf) with
  | none =>
    obtain ⟨miss, missed, _⟩ := @find_of_follow?_eq_none catalogue ⟨text, _⟩ reached none
    simp [missed]
  | some node =>
    rw [@find_of_follow?_eq_some catalogue ⟨text, _⟩ _ reached]
    cases node <;> simp [Node.entryAt]

/-- A look-up goes on to the fallback where the chain leads nowhere, neither to an
entry nor to a namespace. -/
theorem find_allowsFallback_iff {catalogue : Catalogue} {text : String} {names : List String} :
    (∃ miss, catalogue.find ⟨text, names.map Address.stepOf⟩ none = .error miss ∧
        miss.AllowsFallback) ↔
      ¬ catalogue.Groups (names.map Address.respell) ∧
        ∀ entry, ¬ catalogue.Holds (names.map Address.respell) entry := by
  cases reached : (Node.branch catalogue.root).follow? (names.map Address.stepOf) with
  | none =>
    obtain ⟨miss, missed, allows⟩ := @find_of_follow?_eq_none catalogue ⟨text, _⟩ reached none
    refine ⟨fun _ => ⟨?_, ?_⟩, fun _ => ⟨miss, missed, allows⟩⟩
    · rintro ⟨children, grouped⟩
      rw [follow?_eq_branch_iff.mpr grouped] at reached
      cases reached
    · intro entry held
      rw [follow?_eq_entry_iff.mpr held] at reached
      cases reached
  | some node =>
    rw [@find_of_follow?_eq_some catalogue ⟨text, _⟩ _ reached]
    cases node with
    | entry entry =>
      have held := follow?_eq_entry_iff.mp reached
      constructor
      · exact fun ⟨_, missed, _⟩ => by cases missed
      · exact fun ⟨_, nothing⟩ => absurd held (nothing entry)
    | branch children =>
      have grouped : catalogue.Groups _ := ⟨children, follow?_eq_branch_iff.mp reached⟩
      constructor
      · rintro ⟨miss, missed, allows⟩
        cases missed
        exact allows.elim
      · exact fun ⟨ungrouped, _⟩ => absurd grouped ungrouped

/-- What a catalogue counts: an entry that is no indexed map, and each template of an
indexed map. -/
def Counts (catalogue : Catalogue) (names : List String) : Prop :=
  (∃ found, catalogue.node? names = some (.entry found) ∧ found.shape ≠ .indexedMap) ∨
    ∃ front last map template, names = front ++ [last] ∧
      catalogue.node? front = some (.entry (.indexed map)) ∧
      map.get? (Address.stepOf last).key = some template

/-- What a look-up serves although the catalogue does not count it: an indexed map as a
whole, and an item of a list. -/
def HoldsUncounted (catalogue : Catalogue) (names : List String) : Prop :=
  (∃ map, catalogue.node? names = some (.entry (.indexed map))) ∨
    ∃ front last items index, names = front ++ [last] ∧
      catalogue.node? front = some (.entry (.list items)) ∧
      Position.ofNumeral? last.toList = some index ∧ index.toNat < items.length

theorem exists_holds_iff {catalogue : Catalogue} {names : List String} :
    (∃ entry, catalogue.Holds names entry) ↔
      catalogue.Counts names ∨ catalogue.HoldsUncounted names := by
  constructor
  · rintro ⟨entry, reached | ⟨front, last, found, template, shape, reached, item, _⟩⟩
    · cases entry with
      | scalar template => exact .inl (.inl ⟨_, reached, nofun⟩)
      | list items => exact .inl (.inl ⟨_, reached, nofun⟩)
      | indexed map => exact .inr (.inl ⟨map, reached⟩)
    · cases found with
      | scalar other => cases item
      | list items =>
        cases read : Position.ofNumeral? last.toList with
        | none => simp [Entry.item?, Address.stepOf, read] at item
        | some index =>
          simp only [Entry.item?, Address.stepOf, read] at item
          obtain ⟨inside, _⟩ := List.getElem?_eq_some_iff.mp item
          exact .inr (.inr ⟨front, last, items, index, shape, reached, read, inside⟩)
      | indexed map => exact .inl (.inr ⟨front, last, map, template, shape, reached, item⟩)
  · rintro ((⟨found, reached, _⟩ | ⟨front, last, map, template, shape, reached, item⟩) |
      ⟨map, reached⟩ | ⟨front, last, items, index, shape, reached, read, inside⟩)
    · exact ⟨found, .inl reached⟩
    · exact ⟨_, .inr ⟨front, last, _, template, shape, reached, item, rfl⟩⟩
    · exact ⟨_, .inl reached⟩
    · refine ⟨_, .inr ⟨front, last, _, items[index.toNat], shape, reached, ?_, rfl⟩⟩
      simp [Entry.item?, Address.stepOf, read, inside]

end Catalogue

theorem Address.join_append_singleton {names : List String} (nonempty : names ≠ [])
    (last : String) : join (names ++ [last]) = join names ++ "." ++ last := by
  rw [join, String.intercalate_append_of_ne_nil nonempty (List.cons_ne_nil last []),
    String.intercalate_singleton]
  rfl

theorem Address.text_key_stepOf (key : String) : (stepOf key).key.text = respell key := by
  rw [respell]
  cases stepOf key <;> rfl

namespace IndexedMap.Key

theorem WellFormed.key_stepOf {key : IndexedMap.Key} (wellFormed : key.WellFormed) :
    (Address.stepOf key.text).key = key := by
  cases key with
  | position index => simp [text, Address.stepOf, Address.Step.key]
  | name name =>
    rw [text, Address.stepOf_of_not_numeral wellFormed.2]
    rfl

theorem WellFormed.isKey_text {key : IndexedMap.Key} (wellFormed : key.WellFormed) :
    Address.IsKey key.text := by
  cases key with
  | position index => exact Address.isKey_numeral index
  | name name => exact wellFormed.1

theorem WellFormed.text_inj {key other : IndexedMap.Key} (sound : key.WellFormed)
    (otherSound : other.WellFormed) (same : key.text = other.text) : key = other := by
  rw [← sound.key_stepOf, same, otherSound.key_stepOf]

end IndexedMap.Key

/-- Different keys of an indexed map have different texts. -/
theorem IndexedMap.WellFormed.nodup_texts {map : IndexedMap} (wellFormed : map.WellFormed) :
    (map.entries.map fun item => item.1.text).Nodup := by
  have texts : (map.entries.map fun item => item.1.text) =
      (map.entries.map Prod.fst).map IndexedMap.Key.text := by
    rw [List.map_map]
    rfl
  rw [texts]
  refine wellFormed.distinct.map_on ?_
  intro key here other there same
  obtain ⟨item, member, rfl⟩ := List.mem_map.mp here
  obtain ⟨otherItem, otherMember, rfl⟩ := List.mem_map.mp there
  exact (wellFormed.keys item member).text_inj (wellFormed.keys otherItem otherMember) same

namespace Catalogue.WellFormed

variable {catalogue : Catalogue} (wellFormed : catalogue.WellFormed)
include wellFormed

/-- A path that an entry counts as joins the keys that lead to the entry, with one more key
where the entry is an indexed map. -/
theorem exists_keys_of_mem_entry_coveragePaths {names : List String} {found : Entry}
    (reached : catalogue.node? names = some (.entry found)) {path : String}
    (listed : path ∈ found.coveragePaths (Address.join names)) :
    ∃ keys, keys ≠ [] ∧ (∀ key ∈ keys, Address.IsKey key) ∧ path = Address.join keys ∧
      catalogue.Counts keys ∧ (keys = names ∨ ∃ last, keys = names ++ [last]) := by
  obtain ⟨_, _, _, _, _, sound⟩ := wellFormed.node?_entry reached
  obtain ⟨nonempty, valid⟩ := wellFormed.isKey_of_node?_entry reached
  cases found with
  | scalar template =>
    exact ⟨names, nonempty, valid, List.mem_singleton.mp listed, .inl ⟨_, reached, nofun⟩, .inl rfl⟩
  | list items =>
    exact ⟨names, nonempty, valid, List.mem_singleton.mp listed, .inl ⟨_, reached, nofun⟩, .inl rfl⟩
  | indexed map =>
    obtain ⟨⟨key, template⟩, member, rfl⟩ := List.mem_map.mp listed
    have keyed := sound.keys _ member
    have held : map.get? (Address.stepOf key.text).key = some template := by
      rw [keyed.key_stepOf]
      exact sound.get?_eq_some_iff.mpr member
    refine ⟨names ++ [key.text], by simp, ?_, (Address.join_append_singleton nonempty _).symm,
      .inr ⟨names, key.text, map, template, rfl, reached, held⟩, .inr ⟨key.text, rfl⟩⟩
    intro name present
    rcases List.mem_append.mp present with before | last
    · exact valid name before
    · rw [List.mem_singleton.mp last]
      exact keyed.isKey_text

/-- A path that a catalogue counts joins keys that an address can name. -/
theorem exists_keys_of_mem_coveragePaths {path : String}
    (counted : path ∈ catalogue.coveragePaths) :
    ∃ names, names ≠ [] ∧ (∀ name ∈ names, Address.IsKey name) ∧ path = Address.join names ∧
      catalogue.Counts names := by
  obtain ⟨names, found, reached, listed⟩ := wellFormed.mem_coveragePaths_iff.mp counted
  obtain ⟨keys, nonempty, valid, joined, counts, _⟩ :=
    wellFormed.exists_keys_of_mem_entry_coveragePaths reached listed
  exact ⟨keys, nonempty, valid, joined, counts⟩

/-- A catalogue counts the path of a chain of keys, as their steps write them, when it
counts the chain. -/
theorem join_mem_coveragePaths_iff {names : List String} (nonempty : names ≠ [])
    (valid : ∀ name ∈ names, Address.IsKey name)
    (plain : ∀ name ∈ names, Address.respell name = name) :
    Address.join names ∈ catalogue.coveragePaths ↔ catalogue.Counts names := by
  constructor
  · intro counted
    obtain ⟨others, othersNonempty, othersValid, joined, counts⟩ :=
      wellFormed.exists_keys_of_mem_coveragePaths counted
    have same : names = others :=
      Address.join_injective valid nonempty othersValid othersNonempty joined
    exact same ▸ counts
  · rw [wellFormed.mem_coveragePaths_iff]
    rintro (⟨found, reached, notIndexed⟩ | ⟨front, last, map, template, rfl, reached, held⟩)
    · refine ⟨names, found, reached, ?_⟩
      cases found with
      | scalar template => exact List.mem_singleton_self _
      | list items => exact List.mem_singleton_self _
      | indexed map => exact absurd rfl notIndexed
    · obtain ⟨_, _, _, _, _, sound⟩ := wellFormed.node?_entry reached
      refine ⟨front, _, reached, List.mem_map.mpr ⟨_, sound.get?_eq_some_iff.mp held, ?_⟩⟩
      change Address.join front ++ "." ++ (Address.stepOf last).key.text = _
      rw [Address.text_key_stepOf, plain last (by simp),
        Address.join_append_singleton (wellFormed.isKey_of_node?_entry reached).1]

/-- **What look-ups serve.** A chain of keys holds an entry exactly when the catalogue
counts its path, or it leads to a whole indexed map or to an item of a list. -/
theorem holds_iff {names : List String} (nonempty : names ≠ [])
    (valid : ∀ name ∈ names, Address.IsKey name)
    (plain : ∀ name ∈ names, Address.respell name = name) :
    (∃ entry, catalogue.Holds names entry) ↔
      Address.join names ∈ catalogue.coveragePaths ∨ catalogue.HoldsUncounted names := by
  rw [exists_holds_iff, wellFormed.join_mem_coveragePaths_iff nonempty valid plain]

end Catalogue.WellFormed

end Phrasebook
