import Phrasebook.Proofs.Catalogue.Checking

/-! # Well-formed catalogues

What a document is checked for is a property of the tree that it becomes
(`Phrasebook.Catalogue.WellFormed`): every key can be named by an address, siblings
have different keys, and a mapping with a key of digits is an indexed map unless it is
the root. Every catalogue that is made from a document has it
(`Phrasebook.Catalogue.wellFormed_of_ofDocument`).
-/

namespace Phrasebook

/-- A name of an indexed map can be named by an address and is no numeral. -/
def IndexedMap.Key.WellFormed : IndexedMap.Key → Prop
  | .position _ => True
  | .name text => Address.IsKey text ∧ Text.isNumeral text.toList = false

/-- The keys of an indexed map are well-formed and different. -/
structure IndexedMap.WellFormed (map : IndexedMap) : Prop where
  keys : ∀ item ∈ map.entries, item.1.WellFormed
  distinct : (map.entries.map Prod.fst).Nodup

/-- An entry whose keys, if it has any, are well-formed. -/
def Entry.WellFormed : Entry → Prop
  | .indexed map => map.WellFormed
  | _ => True

/-- The names of a namespace grow and can be named by an address. -/
structure Namespace.Keyed (children : Namespace) : Prop where
  increasing : Ordered.Increasing Prod.fst children
  keys : ∀ child ∈ children, Address.IsKey child.1

/-- A tree below the root of a catalogue, in which no namespace has a name of
digits. -/
inductive Node.WellFormed : Node → Prop
  | entry {found : Entry} (wellFormed : found.WellFormed) : WellFormed (.entry found)
  | branch {children : Namespace} (keyed : children.Keyed)
      (names : ∀ child ∈ children, Text.isNumeral child.1.toList = false)
      (nodes : ∀ child ∈ children, WellFormed child.2) : WellFormed (.branch children)

/-- A catalogue whose keys can be named; its root may have names of digits. -/
structure Catalogue.WellFormed (catalogue : Catalogue) : Prop where
  keyed : Namespace.Keyed catalogue.root
  nodes : ∀ child ∈ catalogue.root, child.2.WellFormed

theorem IndexedMap.WellFormed.get?_eq_some_iff {map : IndexedMap} (wellFormed : map.WellFormed)
    {key : IndexedMap.Key} {template : Template} :
    map.get? key = some template ↔ (key, template) ∈ map.entries :=
  Ordered.lookup_eq_some_iff_mem wellFormed.distinct

namespace Namespace

theorem Keyed.get?_eq_some_iff {children : Namespace} (keyed : children.Keyed) {name : String}
    {node : Node} : children.get? name = some node ↔ (name, node) ∈ children :=
  Ordered.lookup_eq_some_iff_mem keyed.increasing.nodup

theorem keyed_nil : Keyed [] := ⟨.nil, List.forall_mem_nil _⟩

theorem mem_put {children : Namespace} {name : String} {node : Node} {child : String × Node}
    (member : child ∈ children.put name node) : child = (name, node) ∨ child ∈ children :=
  Ordered.mem_of_mem_insert member

theorem Keyed.put {children : Namespace} (keyed : children.Keyed) {name : String}
    (valid : Address.IsKey name) (node : Node) : (children.put name node).Keyed where
  increasing := Ordered.increasing_insert keyed.increasing
  keys := by
    intro child member
    rcases mem_put member with rfl | earlier
    · exact valid
    · exact keyed.keys child earlier

end Namespace

namespace Catalogue

theorem wellFormed_of_reading {slot : IndexedMap.Key} {key : String} (valid : Address.IsKey key)
    (reading : slot.reading = IndexedMap.readingOf key) : slot.WellFormed := by
  cases slot with
  | position index => trivial
  | name text =>
    cases numeral : Text.isNumeral key.toList with
    | true =>
      rw [IndexedMap.readingOf_of_numeral numeral] at reading
      cases reading
    | false =>
      rw [IndexedMap.readingOf_of_not_numeral numeral] at reading
      rw [Sum.inr.inj reading]
      exact ⟨valid, numeral⟩

theorem wellFormed_of_entriesOf {place : String} {members : List (String × Document)}
    {earlier entries : List (IndexedMap.Key × Template)}
    (wellFormed : IndexedMap.WellFormed ⟨earlier⟩)
    (built : entriesOf place earlier members = .ok entries) : IndexedMap.WellFormed ⟨entries⟩ := by
  induction members generalizing earlier with
  | nil =>
    cases built
    exact wellFormed
  | cons member rest ih =>
    obtain ⟨slot, writes, valid, fresh, built⟩ := entriesOf_cons_eq_ok built
    refine ih ⟨?_, ?_⟩ built
    · intro item present
      rcases List.mem_append.mp present with before | last
      · exact wellFormed.keys item before
      · rw [List.mem_singleton.mp last]
        exact wellFormed_of_reading valid writes.key
    · rw [List.map_append]
      refine List.nodup_append.mpr ⟨wellFormed.distinct, by simp, ?_⟩
      intro key before other last same
      rw [same, List.mem_singleton.mp last] at before
      exact fresh before

theorem wellFormed_of_indexedOf {place : String} {members : List (String × Document)}
    {node : Node} (built : indexedOf place members = .ok node) : node.WellFormed := by
  obtain ⟨entries, listed, made⟩ := Outcome.bind_eq_ok_iff.mp built
  cases made
  exact .entry (wellFormed_of_entriesOf ⟨by simp, by simp⟩ listed)

theorem keyed_of_childrenOf {place : String} {earlier children : Namespace}
    {members : List (String × Document)} (keyed : earlier.Keyed)
    (built : childrenOf place earlier members = .ok children) : children.Keyed := by
  induction members generalizing earlier with
  | nil =>
    rw [childrenOf] at built
    cases built
    exact keyed
  | cons member rest ih =>
    obtain ⟨valid, _, node, _, built⟩ := childrenOf_cons_eq_ok built
    exact ih (keyed.put valid node) built

/-- Every child of a namespace comes from a member of the mapping. -/
theorem exists_member_of_childrenOf {place : String} {children : Namespace}
    {members : List (String × Document)} (built : childrenOf place [] members = .ok children)
    {child : String × Node} (present : child ∈ children) :
    ∃ value, (child.1, value) ∈ members ∧
      nodeOf (Address.under place child.1) value = .ok child.2 := by
  have keyed := keyed_of_childrenOf Namespace.keyed_nil built
  exact (joins_of_childrenOf built).exists_member (keyed.get?_eq_some_iff.mpr present)

theorem wellFormed_of_nodeOf {place : String} {document : Document} {node : Node}
    (built : nodeOf place document = .ok node) : node.WellFormed := by
  induction document using Document.inductionOnReading generalizing place node with
  | text value =>
    rw [nodeOf] at built
    cases built
    exact .entry trivial
  | sequence items =>
    rw [nodeOf] at built
    obtain ⟨templates, _, made⟩ := Outcome.bind_eq_ok_iff.mp built
    cases made
    exact .entry trivial
  | literal kind =>
    rw [nodeOf] at built
    cases built
  | indexed reads =>
    rw [nodeOf_of_readsIndexed reads] at built
    exact wellFormed_of_indexedOf built
  | namespaced reads ih =>
    rw [nodeOf_of_readsNamespace reads] at built
    obtain ⟨children, listed, made⟩ := Outcome.bind_eq_ok_iff.mp built
    cases made
    refine .branch (keyed_of_childrenOf Namespace.keyed_nil listed) ?_ ?_
    · intro child present
      obtain ⟨value, written, _⟩ := exists_member_of_childrenOf listed present
      cases reads with
      | named names => exact names (child.1, value) written
    · intro child present
      obtain ⟨value, written, made⟩ := exists_member_of_childrenOf listed present
      exact ih (child.1, value) written made

/-- **Accepted documents.** Every catalogue that is made from a document is
well-formed. -/
theorem wellFormed_of_ofDocument {document : Document} {catalogue : Catalogue}
    (accepted : ofDocument document = .ok catalogue) : catalogue.WellFormed := by
  obtain ⟨members, root, rfl, rfl, listed⟩ := childrenOf_of_ofDocument accepted
  refine ⟨keyed_of_childrenOf Namespace.keyed_nil listed, fun child present => ?_⟩
  obtain ⟨value, _, made⟩ := exists_member_of_childrenOf listed present
  exact wellFormed_of_nodeOf made

end Catalogue

end Phrasebook
