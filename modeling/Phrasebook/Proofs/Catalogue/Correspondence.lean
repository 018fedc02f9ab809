import Phrasebook.Proofs.Catalogue.Following
import Phrasebook.Proofs.Catalogue.Validation

/-! # Documents and their catalogues, node by node

A value of a document stands at a place, which is given by the numbers of the members that lead
to it, under the chain of their keys (`Phrasebook.Document.Holds`). What a node keeps of the
value that wrote it is everything: the text, the items in their order, the entries in their
order under the keys as they are read (`Phrasebook.Document.Writes`). In a document that is
accepted, the places and the nodes of the catalogue belong together, one to one
(`Phrasebook.Catalogue.nodes_correspond_to_places`).
-/

namespace Phrasebook

namespace Document

/-- A value at a place below members that are read as a namespace, and the keys on the way. -/
inductive Holds : List (String × Document) → List Nat → List String → Document → Prop
  | member {members : List (String × Document)} {number : Nat} {member : String × Document}
      (stands : members[number]? = some member) : Holds members [number] [member.1] member.2
  | inside {members : List (String × Document)} {number : Nat} {member : String × Document}
      (stands : members[number]? = some member) {inner : List (String × Document)}
      (reads : member.2.ReadsNamespace inner) {place : List Nat} {keys : List String}
      {value : Document} (holds : Holds inner place keys value) :
      Holds members (number :: place) (member.1 :: keys) value

/-- A node keeps what a value says. -/
inductive Writes : Document → Node → Prop
  | text (value : String) : Writes (.text value) (.entry (.scalar ⟨value⟩))
  | sequence (texts : List String) :
      Writes (.sequence (texts.map .text)) (.entry (.list (texts.map .mk)))
  | indexed {document : Document} {members : List (String × Document)}
      {entries : List (IndexedMap.Key × Template)} (reads : document.ReadsIndexed members)
      (slots : List.Forall₂ WritesSlot members entries) :
      Writes document (.entry (.indexed ⟨entries⟩))
  | namespaced {document : Document} {members : List (String × Document)} {children : Namespace}
      (reads : document.ReadsNamespace members)
      (names : (children.map Prod.fst).Perm (members.map Prod.fst)) :
      Writes document (.branch children)

theorem Holds.keys_ne_nil {members : List (String × Document)} {place : List Nat}
    {keys : List String} {value : Document} (holds : Holds members place keys value) :
    keys ≠ [] := by
  cases holds with
  | member stands => exact List.cons_ne_nil _ _
  | inside stands reads holds => exact List.cons_ne_nil _ _

theorem Keyed.number_eq {members : List (String × Document)} (keyed : Keyed members)
    {first second : Nat} {member other : String × Document}
    (stands : members[first]? = some member) (otherStands : members[second]? = some other)
    (same : member.1 = other.1) : first = second := by
  have key : (members.map Prod.fst)[first]? = some member.1 := by
    rw [List.getElem?_map, stands, Option.map_some]
  have otherKey : (members.map Prod.fst)[second]? = some member.1 := by
    rw [List.getElem?_map, otherStands, Option.map_some, same]
  have bound := (List.getElem?_eq_some_iff.mp key).1
  exact (List.getElem?_inj bound keyed.distinct).mp (key.trans otherKey.symm)

end Document

namespace Catalogue

open Document (Holds)

/-- The children of a namespace have the keys of the members that joined it. -/
theorem Joins.perm_names {place : String} {members : List (String × Document)}
    {children : Namespace} (joins : Joins place [] members children) (keyed : children.Keyed) :
    (children.map Prod.fst).Perm (members.map Prod.fst) := by
  apply (List.perm_ext_iff_of_nodup keyed.increasing.nodup joins.keyed.distinct).mpr
  intro name
  constructor
  · intro listed
    obtain ⟨child, present, rfl⟩ := List.mem_map.mp listed
    obtain ⟨value, written, _⟩ := joins.exists_member (keyed.get?_eq_some_iff.mpr present)
    exact List.mem_map.mpr ⟨_, written, rfl⟩
  · intro listed
    obtain ⟨member, written, rfl⟩ := List.mem_map.mp listed
    obtain ⟨node, _, found⟩ := joins.own member written
    exact List.mem_map.mpr ⟨_, keyed.get?_eq_some_iff.mp found, rfl⟩

/-- A node keeps what its value says. -/
theorem writes_of_nodeOf {place : String} {document : Document} {node : Node}
    (built : nodeOf place document = .ok node) : document.Writes node := by
  cases document using Document.inductionOnReading with
  | text value =>
    rw [nodeOf] at built
    cases built
    exact .text value
  | sequence items =>
    rw [nodeOf] at built
    obtain ⟨templates, listed, made⟩ := Outcome.bind_eq_ok_iff.mp built
    cases made
    have texts := Document.Writes.sequence (templates.map Template.text)
    rw [List.map_map, List.map_map] at texts
    rw [eq_of_templatesOf listed]
    have same : templates.map (Template.mk ∘ Template.text) = templates := List.map_id _
    rw [same] at texts
    exact texts
  | literal kind =>
    rw [nodeOf] at built
    cases built
  | indexed reads =>
    obtain ⟨entries, rfl, slots⟩ := exists_entries_of_readsIndexed reads built
    exact .indexed reads slots
  | namespaced reads _ =>
    rw [nodeOf_of_readsNamespace reads] at built
    obtain ⟨children, listed, made⟩ := Outcome.bind_eq_ok_iff.mp built
    cases made
    have keyed := keyed_of_childrenOf Namespace.keyed_nil listed
    exact .namespaced reads ((joins_of_childrenOf listed).perm_names keyed)

/-- The children of a namespace come from the members that it is read from. -/
theorem childrenOf_of_nodeOf_branch {place : String} {document : Document} {children : Namespace}
    (built : nodeOf place document = .ok (.branch children)) :
    ∃ members, document.ReadsNamespace members ∧ childrenOf place [] members = .ok children := by
  cases writes_of_nodeOf built with
  | @namespaced _ members _ reads _ =>
    rw [nodeOf_of_readsNamespace reads] at built
    obtain ⟨listed, same, made⟩ := Outcome.bind_eq_ok_iff.mp built
    cases made
    exact ⟨members, reads, same⟩

/-- **Nothing is lost.** The keys on the way to a value lead to a node that keeps it. -/
theorem exists_node_of_holds {members : List (String × Document)} {place : List Nat}
    {keys : List String} {value : Document} (holds : Holds members place keys value)
    {path : String} {children : Namespace} (listed : childrenOf path [] members = .ok children) :
    ∃ node, (Node.branch children).descend? keys = some node ∧ value.Writes node := by
  induction holds generalizing path children with
  | member stands =>
    have joins := joins_of_childrenOf listed
    obtain ⟨node, made, found⟩ := joins.own _ (List.mem_of_getElem? stands)
    refine ⟨node, ?_, writes_of_nodeOf made⟩
    rw [Node.descend?_branch_cons, found, Option.bind_some, Node.descend?_nil]
  | inside stands reads holds ih =>
    have joins := joins_of_childrenOf listed
    obtain ⟨node, made, found⟩ := joins.own _ (List.mem_of_getElem? stands)
    rw [nodeOf_of_readsNamespace reads] at made
    obtain ⟨inner, listed, branch⟩ := Outcome.bind_eq_ok_iff.mp made
    cases branch
    obtain ⟨reached, descends, writes⟩ := ih listed
    refine ⟨reached, ?_, writes⟩
    rw [Node.descend?_branch_cons, found, Option.bind_some, descends]

/-- **Nothing is invented or merged.** A node comes from one place only. -/
theorem existsUnique_place_of_descend {keys : List String} (nonempty : keys ≠ [])
    {members : List (String × Document)} {path : String} {children : Namespace}
    (listed : childrenOf path [] members = .ok children) {node : Node}
    (reached : (Node.branch children).descend? keys = some node) :
    ∃! place, ∃ value, Holds members place keys value := by
  induction keys generalizing members path children with
  | nil => exact absurd rfl nonempty
  | cons key rest ih =>
    have joins := joins_of_childrenOf listed
    obtain ⟨child, found, further⟩ := Option.bind_eq_some_iff.mp reached
    obtain ⟨value, present, made⟩ := joins.exists_member found
    obtain ⟨number, stands⟩ := List.mem_iff_getElem?.mp present
    by_cases last : rest = []
    · subst last
      refine ⟨[number], ⟨value, .member stands⟩, fun other holds => ?_⟩
      obtain ⟨otherValue, holds⟩ := holds
      cases holds with
      | member otherStands => rw [joins.keyed.number_eq otherStands stands rfl]
      | inside otherStands reads holds => exact absurd rfl holds.keys_ne_nil
    · -- a node with something below it is a namespace, which comes from a mapping
      obtain ⟨inner, isBranch⟩ : ∃ inner, child = .branch inner := by
        cases child with
        | branch inner => exact ⟨inner, rfl⟩
        | entry found =>
          obtain ⟨next, below, rfl⟩ := List.exists_cons_of_ne_nil last
          cases further
      subst isBranch
      obtain ⟨innerMembers, reads, innerListed⟩ := childrenOf_of_nodeOf_branch made
      obtain ⟨place, ⟨innerValue, holds⟩, unique⟩ := ih last innerListed further
      refine ⟨number :: place, ⟨innerValue, .inside stands reads holds⟩, fun other holds => ?_⟩
      obtain ⟨otherValue, holds⟩ := holds
      cases holds with
      | member otherStands => exact absurd rfl last
      | @inside _ otherNumber member otherStands otherMembers otherReads otherPlace _ _ holds =>
        have sameNumber := joins.keyed.number_eq otherStands stands rfl
        subst sameNumber
        have sameMember := Option.some.inj (otherStands.symm.trans stands)
        rw [congrArg Prod.snd sameMember] at otherReads
        cases reads.members_eq otherReads
        rw [unique otherPlace ⟨otherValue, holds⟩]

/-- **An accepted document is kept whole.** Each value that stands in the document, under a chain
of keys that leads through namespaces, has a node of the catalogue under the same chain, which
keeps its text, its items or its entries in their order, or its keys. Each node of the catalogue
comes in this way from exactly one place of the document. -/
theorem nodes_correspond_to_places {document : Document} {catalogue : Catalogue}
    (accepted : ofDocument document = .ok catalogue) :
    ∃ members, document = .mapping members ∧
      (∃ root, catalogue.node? [] = some (.branch root) ∧
        (root.map Prod.fst).Perm (members.map Prod.fst)) ∧
      (∀ place keys value, Holds members place keys value →
        ∃ node, catalogue.node? keys = some node ∧ value.Writes node) ∧
      ∀ keys node, keys ≠ [] → catalogue.node? keys = some node →
        ∃! place, ∃ value, Holds members place keys value ∧ value.Writes node := by
  obtain ⟨members, root, rfl, rfl, listed⟩ := childrenOf_of_ofDocument accepted
  have keyed := keyed_of_childrenOf Namespace.keyed_nil listed
  have names := (joins_of_childrenOf listed).perm_names keyed
  have kept (place : List Nat) (keys : List String) (value : Document)
      (holds : Holds members place keys value) :
      ∃ node, Catalogue.node? ⟨root⟩ keys = some node ∧ value.Writes node := by
    rw [node?_eq_descend?]
    exact exists_node_of_holds holds listed
  refine ⟨members, rfl, ⟨root, rfl, names⟩, kept, fun keys node nonempty reached => ?_⟩
  have descends := reached
  rw [node?_eq_descend?] at descends
  obtain ⟨place, ⟨value, holds⟩, unique⟩ :=
    existsUnique_place_of_descend nonempty listed descends
  obtain ⟨written, found, writes⟩ := kept place keys value holds
  cases found.symm.trans reached
  refine ⟨place, ⟨value, holds, writes⟩, fun other holds => ?_⟩
  obtain ⟨otherValue, holds, _⟩ := holds
  exact unique other ⟨otherValue, holds⟩

/-- An indexed map, with a padded numeral behind a name, below a root that has a numeral for a
key as well. -/
theorem nodes_correspond_to_places_hints :
    let hints : Document := .mapping [("spare", .text "Ask."), ("01", .text "Wait.")]
    let members := [("7", .text "seven"), ("menu", .mapping [("hints", hints)])]
    let node := Node.entry (.indexed ⟨[(.name "spare", ⟨"Ask."⟩), (.position 1, ⟨"Wait."⟩)]⟩)
    let catalogue : Catalogue :=
      ⟨[("7", .entry (.scalar ⟨"seven"⟩)), ("menu", .branch [("hints", node)])]⟩
    ofDocument (.mapping members) = .ok catalogue ∧
      catalogue.node? ["menu", "hints"] = some node ∧ hints.Writes node ∧
      ∃! place, ∃ value, Holds members place ["menu", "hints"] value ∧ value.Writes node := by
  intro hints members node catalogue
  have accepted : ofDocument (.mapping members) = .ok catalogue := by decide +kernel
  have found : catalogue.node? ["menu", "hints"] = some node := rfl
  have stands : Holds members [1, 0] ["menu", "hints"] hints := by
    have menu : members[1]? = some ("menu", .mapping [("hints", hints)]) := rfl
    have plain : Text.isNumeral "hints".toList = false := rfl
    have inner : Holds [("hints", hints)] [0] ["hints"] hints :=
      @Holds.member _ 0 ("hints", hints) rfl
    exact .inside menu (.named (List.forall_mem_singleton.mpr plain)) inner
  obtain ⟨others, same, _, kept, unique⟩ := nodes_correspond_to_places accepted
  rw [Document.mapping.injEq] at same
  subst same
  obtain ⟨reached, same, writes⟩ := kept _ _ _ stands
  cases found.symm.trans same
  exact ⟨accepted, found, writes, unique _ _ (List.cons_ne_nil _ _) found⟩

end Catalogue

end Phrasebook
