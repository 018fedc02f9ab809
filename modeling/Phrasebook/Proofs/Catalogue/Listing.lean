import Phrasebook.Proofs.Catalogue.Following
import Phrasebook.Proofs.Catalogue.WellFormed
import Phrasebook.Registry.Coverage

/-! # Listed paths

The entries of a tree with the chains of keys that lead to them
(`Phrasebook.Catalogue.entries`) are what descending the tree finds
(`Phrasebook.Catalogue.mem_entries_iff`). Both listings of a catalogue write each of
these chains with dots: the paths of its entries
(`Phrasebook.Catalogue.entryPaths_eq`), and the paths that its entries count as
(`Phrasebook.Catalogue.mem_coveragePaths_iff`).
-/

namespace Phrasebook

namespace Node

mutual

/-- The entries at and below a node, with the names that lead to them. -/
def entries : Node → List (List String × Entry)
  | .entry found => [([], found)]
  | .branch children => entriesBelow children

/-- The entries below a namespace, with the names that lead to them. -/
def entriesBelow : List (String × Node) → List (List String × Entry)
  | [] => []
  | (name, node) :: rest =>
    (entries node).map (fun item => (name :: item.1, item.2)) ++ entriesBelow rest

end

theorem mem_entriesBelow {children : Namespace} {item : List String × Entry} :
    item ∈ entriesBelow children ↔
      ∃ child ∈ children, ∃ names, item.1 = child.1 :: names ∧
        (names, item.2) ∈ child.2.entries := by
  induction children with
  | nil => simp [entriesBelow]
  | cons head rest ih =>
    obtain ⟨name, node⟩ := head
    rw [entriesBelow, List.mem_append, ih]
    constructor
    · rintro (here | ⟨child, present, below⟩)
      · obtain ⟨⟨names, found⟩, member, rfl⟩ := List.mem_map.mp here
        exact ⟨(name, node), List.mem_cons_self, names, rfl, member⟩
      · exact ⟨child, List.mem_cons_of_mem _ present, below⟩
    · rintro ⟨child, present, names, shape, member⟩
      rcases List.mem_cons.mp present with rfl | later
      · exact .inl (List.mem_map.mpr ⟨(names, item.2), member, Prod.ext shape.symm rfl⟩)
      · exact .inr ⟨child, later, names, shape, member⟩

/-- The entries below a namespace are those that descending it finds, when this holds
of its children. -/
theorem mem_entriesBelow_iff_descend? {children : Namespace} (keyed : children.Keyed)
    (nodes : ∀ child ∈ children, ∀ names found,
      (names, found) ∈ child.2.entries ↔ child.2.descend? names = some (.entry found))
    {names : List String} {found : Entry} :
    (names, found) ∈ entriesBelow children ↔
      (Node.branch children).descend? names = some (.entry found) := by
  rw [mem_entriesBelow]
  constructor
  · rintro ⟨child, present, below, rfl, member⟩
    rw [descend?_branch_cons, keyed.get?_eq_some_iff.mpr present]
    exact (nodes child present below found).mp member
  · intro reached
    cases names with
    | nil =>
      rw [descend?_nil] at reached
      cases reached
    | cons name below =>
      obtain ⟨node, child, reached⟩ := Option.bind_eq_some_iff.mp reached
      have present := keyed.get?_eq_some_iff.mp child
      exact ⟨(name, node), present, below, rfl, (nodes _ present below found).mpr reached⟩

theorem WellFormed.mem_entries_iff {node : Node} (wellFormed : node.WellFormed)
    (names : List String) (found : Entry) :
    (names, found) ∈ node.entries ↔ node.descend? names = some (.entry found) := by
  induction wellFormed generalizing names found with
  | @entry leaf _ =>
    cases names with
    | nil => simp [entries, eq_comm]
    | cons name below => simp [entries]
  | branch keyed _ _ ih => exact mem_entriesBelow_iff_descend? keyed ih

/-- Descending a well-formed tree passes names that are no numerals and reaches a
well-formed tree. -/
theorem WellFormed.descend {node reached : Node} (wellFormed : node.WellFormed)
    {names : List String} (found : node.descend? names = some reached) :
    reached.WellFormed ∧
      ∀ name ∈ names, Address.IsKey name ∧ Text.isNumeral name.toList = false := by
  induction names generalizing node with
  | nil =>
    rw [descend?_nil] at found
    cases found
    exact ⟨wellFormed, by simp⟩
  | cons name below ih =>
    cases wellFormed with
    | entry _ => cases found
    | branch keyed plain nodes =>
      obtain ⟨child, first, later⟩ := Option.bind_eq_some_iff.mp found
      have present := keyed.get?_eq_some_iff.mp first
      obtain ⟨sound, names⟩ := ih (nodes _ present) later
      refine ⟨sound, List.forall_mem_cons.mpr ⟨?_, names⟩⟩
      exact ⟨keyed.keys _ present, plain _ present⟩

/-- A listing goes through a tree in order and writes what it has to say of each entry
at the entry's dotted path. -/
structure IsListing (ofEntry : String → Entry → List String)
    (ofNode : String → Node → List String)
    (ofChildren : String → List (String × Node) → List String) : Prop where
  entry : ∀ place found, ofNode place (.entry found) = ofEntry place found
  branch : ∀ place children, ofNode place (.branch children) = ofChildren place children
  nil : ∀ place, ofChildren place [] = []
  cons : ∀ place name node rest, ofChildren place ((name, node) :: rest) =
    ofNode (Address.under place name) node ++ ofChildren place rest

theorem isListing_entryPaths : IsListing (fun place _ => [place]) entryPaths entryPathsBelow where
  entry _ _ := by rw [entryPaths]
  branch _ _ := by rw [entryPaths]
  nil _ := by rw [entryPathsBelow]
  cons _ _ _ _ := by rw [entryPathsBelow]

theorem isListing_coveragePaths :
    IsListing (fun place found => found.coveragePaths place) coveragePaths coveragePathsBelow where
  entry _ _ := by rw [coveragePaths]
  branch _ _ := by rw [coveragePaths]
  nil _ := by rw [coveragePathsBelow]
  cons _ _ _ _ := by rw [coveragePathsBelow]

namespace IsListing

variable {ofEntry : String → Entry → List String} {ofNode : String → Node → List String}
  {ofChildren : String → List (String × Node) → List String}

/-- A listing of children lists the entries below them, when this holds of each
child. -/
theorem children_eq (listing : IsListing ofEntry ofNode ofChildren) {place : List String}
    (valid : ∀ name ∈ place, Address.IsKey name) {children : Namespace}
    (nodes : ∀ child ∈ children, ofNode (Address.join (place ++ [child.1])) child.2 =
      child.2.entries.flatMap fun item =>
        ofEntry (Address.join (place ++ [child.1] ++ item.1)) item.2) :
    ofChildren (Address.join place) children =
      (entriesBelow children).flatMap fun item =>
        ofEntry (Address.join (place ++ item.1)) item.2 := by
  induction children with
  | nil => exact listing.nil _
  | cons head rest ih =>
    obtain ⟨name, node⟩ := head
    obtain ⟨first, later⟩ := List.forall_mem_cons.mp nodes
    rw [listing.cons, Address.under_join valid, first, ih later, entriesBelow,
      List.flatMap_append, List.flatMap_map]
    simp only [List.append_assoc, List.cons_append, List.nil_append]

theorem node_eq (listing : IsListing ofEntry ofNode ofChildren) {node : Node}
    (wellFormed : node.WellFormed) {place : List String}
    (valid : ∀ name ∈ place, Address.IsKey name) :
    ofNode (Address.join place) node =
      node.entries.flatMap fun item => ofEntry (Address.join (place ++ item.1)) item.2 := by
  induction wellFormed generalizing place with
  | entry _ =>
    rw [listing.entry, entries, List.flatMap_singleton, List.append_nil]
  | branch keyed _ _ ih =>
    rw [listing.branch, entries]
    refine listing.children_eq valid fun child present => ih child present ?_
    intro name member
    rcases List.mem_append.mp member with before | last
    · exact valid name before
    · rw [List.mem_singleton.mp last]
      exact keyed.keys child present

end IsListing

end Node

namespace Catalogue

/-- The entries of a catalogue, with the keys that lead to them. -/
def entries (catalogue : Catalogue) : List (List String × Entry) :=
  Node.entriesBelow catalogue.root

namespace WellFormed

variable {catalogue : Catalogue} (wellFormed : catalogue.WellFormed)
include wellFormed

/-- The listed entries of a catalogue are those that its keys lead to. -/
theorem mem_entries_iff {names : List String} {found : Entry} :
    (names, found) ∈ catalogue.entries ↔ catalogue.node? names = some (.entry found) := by
  rw [node?_eq_descend?]
  exact Node.mem_entriesBelow_iff_descend? wellFormed.keyed fun child present =>
    (wellFormed.nodes child present).mem_entries_iff

/-- Only the first key of a chain that leads to an entry may be a numeral. -/
theorem node?_entry {names : List String} {found : Entry}
    (reached : catalogue.node? names = some (.entry found)) :
    ∃ root below, names = root :: below ∧ Address.IsKey root ∧
      (∀ name ∈ below, Address.IsKey name ∧ Text.isNumeral name.toList = false) ∧
      found.WellFormed := by
  rw [node?_eq_descend?] at reached
  cases names with
  | nil =>
    rw [Node.descend?_nil] at reached
    cases reached
  | cons root below =>
    obtain ⟨child, first, later⟩ := Option.bind_eq_some_iff.mp reached
    have present := wellFormed.keyed.get?_eq_some_iff.mp first
    obtain ⟨sound, names⟩ := (wellFormed.nodes _ present).descend later
    cases sound with
    | entry sound => exact ⟨root, below, rfl, wellFormed.keyed.keys _ present, names, sound⟩

theorem isKey_of_node?_entry {names : List String} {found : Entry}
    (reached : catalogue.node? names = some (.entry found)) :
    names ≠ [] ∧ ∀ name ∈ names, Address.IsKey name := by
  obtain ⟨root, below, rfl, first, later, _⟩ := wellFormed.node?_entry reached
  exact ⟨List.cons_ne_nil root below,
    List.forall_mem_cons.mpr ⟨first, fun name member => (later name member).1⟩⟩

theorem listing_eq {ofEntry : String → Entry → List String} {ofNode : String → Node → List String}
    {ofChildren : String → List (String × Node) → List String}
    (listing : Node.IsListing ofEntry ofNode ofChildren) :
    ofChildren "" catalogue.root =
      catalogue.entries.flatMap fun item => ofEntry (Address.join item.1) item.2 := by
  have nowhere : ∀ name ∈ ([] : List String), Address.IsKey name := by simp
  refine listing.children_eq nowhere fun child present => ?_
  refine listing.node_eq (wellFormed.nodes child present) ?_
  intro name member
  rw [List.mem_singleton.mp member]
  exact wellFormed.keyed.keys child present

theorem entryPaths_eq :
    catalogue.entryPaths = catalogue.entries.map fun item => Address.join item.1 := by
  rw [entryPaths, wellFormed.listing_eq Node.isListing_entryPaths, List.map_eq_flatMap]

/-- The listed paths are those of the chains of keys that lead to an entry. -/
theorem mem_entryPaths_iff {path : String} : path ∈ catalogue.entryPaths ↔
    ∃ names found, catalogue.node? names = some (.entry found) ∧ path = Address.join names := by
  rw [wellFormed.entryPaths_eq, List.mem_map]
  constructor
  · rintro ⟨⟨names, found⟩, member, rfl⟩
    exact ⟨names, found, wellFormed.mem_entries_iff.mp member, rfl⟩
  · rintro ⟨names, found, reached, rfl⟩
    exact ⟨(names, found), wellFormed.mem_entries_iff.mpr reached, rfl⟩

theorem mem_coveragePaths_iff {path : String} : path ∈ catalogue.coveragePaths ↔
    ∃ names found, catalogue.node? names = some (.entry found) ∧
      path ∈ found.coveragePaths (Address.join names) := by
  rw [coveragePaths, Ordered.mem_ofList_id, wellFormed.listing_eq Node.isListing_coveragePaths,
    List.mem_flatMap]
  constructor
  · rintro ⟨⟨names, found⟩, member, counted⟩
    exact ⟨names, found, wellFormed.mem_entries_iff.mp member, counted⟩
  · rintro ⟨names, found, reached, counted⟩
    exact ⟨(names, found), wellFormed.mem_entries_iff.mpr reached, counted⟩

end WellFormed

end Catalogue

end Phrasebook
