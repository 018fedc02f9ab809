import Mathlib.Data.List.Nodup
import Mathlib.Data.Set.Card
import Phrasebook.Proofs.Catalogue.Holding

/-! # The listing is complete

The chains of keys that lead to an entry are all different, and so are their paths: a
catalogue lists each of its entries once (`Phrasebook.Catalogue.WellFormed.nodup_entryPaths`).
The listing also names whatever a look-up finds. The steps of the address spell a listed path
or go one step beyond it, to a template of the entry there
(`Phrasebook.Node.descend?_of_follow?_eq_some`).
-/

namespace Phrasebook

/-- The dotted form of the steps of an address. -/
def Address.dotted (address : Address) : String :=
  join (address.steps.map Step.text)

namespace Node

theorem nodup_entriesBelow {children : Namespace} (distinct : (children.map Prod.fst).Nodup)
    (nodes : ∀ child ∈ children, (child.2.entries.map Prod.fst).Nodup) :
    ((entriesBelow children).map Prod.fst).Nodup := by
  induction children with
  | nil => simp [entriesBelow]
  | cons head rest ih =>
    obtain ⟨name, node⟩ := head
    obtain ⟨fresh, distinct⟩ := List.nodup_cons.mp distinct
    obtain ⟨first, later⟩ := List.forall_mem_cons.mp nodes
    rw [entriesBelow, List.map_append, List.map_map]
    refine List.Nodup.append ?_ (ih distinct later) ?_
    · have below : Prod.fst ∘ (fun item : List String × Entry => (name :: item.1, item.2)) =
          (fun names => name :: names) ∘ Prod.fst := rfl
      rw [below, ← List.map_map]
      exact first.map (List.cons_injective)
    · intro names here there
      obtain ⟨item, _, rfl⟩ := List.mem_map.mp here
      obtain ⟨other, present, same⟩ := List.mem_map.mp there
      obtain ⟨child, member, below, shape, _⟩ := mem_entriesBelow.mp present
      rw [shape] at same
      exact fresh (List.mem_map.mpr ⟨child, member, (List.cons.inj same).1⟩)

theorem WellFormed.nodup_entries {node : Node} (wellFormed : node.WellFormed) :
    (node.entries.map Prod.fst).Nodup := by
  induction wellFormed with
  | entry _ => simp [entries]
  | branch keyed _ _ ih => exact nodup_entriesBelow keyed.increasing.nodup ih

/-- What steps lead to is a node that their texts lead to, or a template one step below an
entry. -/
theorem descend?_of_follow?_eq_some {node reached : Node} {steps : List Address.Step}
    (followed : node.follow? steps = some reached) :
    node.descend? (steps.map Address.Step.text) = some reached ∨
      ∃ front last found template, steps = front ++ [last] ∧
        node.descend? (front.map Address.Step.text) = some (.entry found) ∧
        found.item? last = some template ∧ reached = .entry (.scalar template) := by
  induction steps generalizing node with
  | nil =>
    rw [follow?_nil] at followed
    exact .inl (by rw [List.map_nil, descend?_nil, followed])
  | cons step rest ih =>
    obtain ⟨next, first, later⟩ := Option.bind_eq_some_iff.mp followed
    cases node with
    | branch children =>
      have child : Namespace.get? children step.text = some next := first
      rcases ih later with below | ⟨front, last, found, template, shape, below, item, scalar⟩
      · refine .inl ?_
        rw [List.map_cons, descend?_branch_cons, child]
        exact below
      · refine .inr ⟨step :: front, last, found, template, ?_, ?_, item, scalar⟩
        · rw [shape, List.cons_append]
        · rw [List.map_cons, descend?_branch_cons, child]
          exact below
    | entry found =>
      obtain ⟨template, item, rfl⟩ := Option.map_eq_some_iff.mp first
      cases rest with
      | nil =>
        cases later
        exact .inr ⟨[], step, found, template, rfl, descend?_nil _, item, rfl⟩
      | cons further rest => cases later

/-- The entry at an index of an entry is its template one step below. -/
theorem item?_of_entryAt_some {found entry : Entry} {index : Position}
    (reached : (Node.entry found).entryAt (some index) = .ok entry) :
    ∃ template, found.item? (.position index) = some template ∧ entry = .scalar template := by
  by_cases scalar : found.shape = .scalar
  · cases found <;> cases scalar
    cases reached
  · rw [entryAt_some_of_item? found index scalar] at reached
    cases item : found.item? (.position index) with
    | none =>
      rw [item] at reached
      cases reached
    | some template =>
      rw [item] at reached
      cases reached
      exact ⟨template, rfl, rfl⟩

end Node

namespace Catalogue

namespace WellFormed

variable {catalogue : Catalogue} (wellFormed : catalogue.WellFormed)
include wellFormed

theorem nodup_entries : (catalogue.entries.map Prod.fst).Nodup :=
  Node.nodup_entriesBelow wellFormed.keyed.increasing.nodup fun child present =>
    (wellFormed.nodes child present).nodup_entries

theorem join_injective_of_entry {names others : List String} {entry other : Entry}
    (reached : catalogue.node? names = some (.entry entry))
    (reachedOther : catalogue.node? others = some (.entry other))
    (same : Address.join names = Address.join others) : names = others := by
  obtain ⟨nonempty, valid⟩ := wellFormed.isKey_of_node?_entry reached
  obtain ⟨othersNonempty, othersValid⟩ := wellFormed.isKey_of_node?_entry reachedOther
  exact Address.join_injective valid nonempty othersValid othersNonempty same

/-- **No path is listed twice.** -/
theorem nodup_entryPaths : catalogue.entryPaths.Nodup := by
  have paths : catalogue.entryPaths = (catalogue.entries.map Prod.fst).map Address.join := by
    rw [wellFormed.entryPaths_eq, List.map_map]
    rfl
  rw [paths]
  refine wellFormed.nodup_entries.map_on ?_
  intro names here others there same
  obtain ⟨⟨_, entry⟩, member, rfl⟩ := List.mem_map.mp here
  obtain ⟨⟨_, other⟩, otherMember, rfl⟩ := List.mem_map.mp there
  exact wellFormed.join_injective_of_entry (wellFormed.mem_entries_iff.mp member)
    (wellFormed.mem_entries_iff.mp otherMember) same

/-- As many chains of keys lead to an entry as the catalogue counts entries. -/
theorem encard_entries :
    {names | ∃ entry, catalogue.node? names = some (.entry entry)}.encard =
      catalogue.entryCount := by
  have listed : {names | ∃ entry, catalogue.node? names = some (.entry entry)} =
      ((catalogue.entries.map Prod.fst).toFinset : Set (List String)) := by
    ext names
    simp only [Set.mem_ofPred_eq, List.coe_toFinset, List.mem_map, Prod.exists, exists_and_right,
      exists_eq_right, wellFormed.mem_entries_iff]
  rw [listed, Set.encard_coe_eq_coe_finsetCard,
    List.toFinset_card_of_nodup wellFormed.nodup_entries, entryCount, wellFormed.entryPaths_eq,
    List.length_map, List.length_map]

/-- The path of an entry that the steps of an address spell is listed, and its keys lead to
the entry. -/
theorem listed_of_descend {steps : List Address.Step} {found : Entry}
    (reached : catalogue.node? (steps.map Address.Step.text) = some (.entry found)) :
    Address.join (steps.map Address.Step.text) ∈ catalogue.entryPaths ∧
      catalogue.node? (Address.keys (Address.join (steps.map Address.Step.text))) =
        some (.entry found) := by
  obtain ⟨nonempty, valid⟩ := wellFormed.isKey_of_node?_entry reached
  refine ⟨wellFormed.mem_entryPaths_iff.mpr ⟨_, found, reached, rfl⟩, ?_⟩
  rw [Address.keys_join valid nonempty]
  exact reached

end WellFormed

theorem exists_follow?_of_find_eq_ok {catalogue : Catalogue} {address : Address}
    {index : Option Position} {entry : Entry} (found : catalogue.find address index = .ok entry) :
    ∃ node, (Node.branch catalogue.root).follow? address.steps = some (.entry node) ∧
      (Node.entry node).entryAt index = .ok entry := by
  cases reached : (Node.branch catalogue.root).follow? address.steps with
  | none =>
    obtain ⟨miss, missed, _⟩ := find_of_follow?_eq_none reached index
    rw [found] at missed
    cases missed
  | some node =>
    rw [find_of_follow?_eq_some reached] at found
    cases node with
    | branch children => cases index <;> cases found
    | entry node => exact ⟨node, rfl, found⟩

/-- **A complete listing.** A catalogue that is made from a document lists the path of each
of its entries exactly once and no other path, no two entries share a path, and it counts as
many entries as there are. Whatever a look-up without an index finds is the entry at a listed
path that its steps spell, or the template of an entry at a listed path that they spell but
for the last one; whatever a look-up with an index finds is the template at the index of the
entry at a listed path that its steps spell. -/
theorem entryPaths_complete {document : Document} {catalogue : Catalogue}
    (accepted : ofDocument document = .ok catalogue) :
    (∀ names entry, catalogue.node? names = some (.entry entry) →
        catalogue.entryPaths.count (Address.join names) = 1) ∧
      (∀ path ∈ catalogue.entryPaths, ∃ names entry,
        catalogue.node? names = some (.entry entry) ∧ path = Address.join names) ∧
      (∀ names others entry other, catalogue.node? names = some (.entry entry) →
        catalogue.node? others = some (.entry other) →
        Address.join names = Address.join others → names = others) ∧
      {names | ∃ entry, catalogue.node? names = some (.entry entry)}.encard =
        catalogue.entryCount ∧
      (∀ (address : Address) (entry : Entry), catalogue.find address none = .ok entry →
        ∃ path ∈ catalogue.entryPaths, ∃ found,
          catalogue.node? (Address.keys path) = some (.entry found) ∧
            ((address.dotted = path ∧ entry = found) ∨
              ∃ front last template, address.steps = front ++ [last] ∧
                address.dotted = path ++ "." ++ last.text ∧
                found.item? last = some template ∧ entry = .scalar template)) ∧
      ∀ (address : Address) (index : Position) (entry : Entry),
        catalogue.find address (some index) = .ok entry →
        address.dotted ∈ catalogue.entryPaths ∧ ∃ found template,
          catalogue.node? (Address.keys address.dotted) = some (.entry found) ∧
            found.item? (.position index) = some template ∧ entry = .scalar template := by
  have wellFormed := wellFormed_of_ofDocument accepted
  refine ⟨?_, ?_, ?_, wellFormed.encard_entries, ?_, ?_⟩
  · intro names entry reached
    have listed := wellFormed.mem_entryPaths_iff.mpr ⟨names, entry, reached, rfl⟩
    exact List.count_eq_one_of_mem wellFormed.nodup_entryPaths listed
  · exact fun path listed => wellFormed.mem_entryPaths_iff.mp listed
  · intro names others entry other reached reachedOther same
    exact wellFormed.join_injective_of_entry reached reachedOther same
  · intro address entry found
    obtain ⟨node, followed, atNode⟩ := exists_follow?_of_find_eq_ok found
    cases atNode
    rcases Node.descend?_of_follow?_eq_some followed with
      reached | ⟨front, last, above, template, shape, reached, item, scalar⟩
    · rw [← node?_eq_descend?] at reached
      obtain ⟨listed, keys⟩ := wellFormed.listed_of_descend reached
      exact ⟨_, listed, _, keys, .inl ⟨rfl, rfl⟩⟩
    · rw [← node?_eq_descend?] at reached
      obtain ⟨listed, keys⟩ := wellFormed.listed_of_descend reached
      cases scalar
      refine ⟨_, listed, above, keys, .inr ⟨front, last, template, shape, ?_, item, rfl⟩⟩
      rw [Address.dotted, shape, List.map_append]
      exact Address.join_append_singleton (wellFormed.isKey_of_node?_entry reached).1 _
  · intro address index entry found
    obtain ⟨node, followed, atNode⟩ := exists_follow?_of_find_eq_ok found
    obtain ⟨template, item, same⟩ := Node.item?_of_entryAt_some atNode
    rcases Node.descend?_of_follow?_eq_some followed with
      reached | ⟨_, _, _, _, _, _, _, scalar⟩
    · rw [← node?_eq_descend?] at reached
      obtain ⟨listed, keys⟩ := wellFormed.listed_of_descend reached
      exact ⟨listed, node, template, keys, item, same⟩
    · -- a template has no further templates below it
      cases scalar
      cases item

/-- A list and an indexed map in a namespace, each looked up as a whole and by a
template of it. -/
theorem entryPaths_complete_tools :
    let document : Document := .mapping [("tools", .mapping
      [("saws", .sequence [.text "band", .text "jig"]), ("drills", .mapping
        [("2", .text "bench"), ("spare", .text "hand")])])]
    ∃ catalogue address, ofDocument document = .ok catalogue ∧
      Address.parse "tools.drills.spare" = .ok address ∧
      catalogue.find address none = .ok (.scalar ⟨"hand"⟩) ∧
      ∃ path ∈ catalogue.entryPaths, ∃ found,
        catalogue.node? (Address.keys path) = some (.entry found) ∧
          ((address.dotted = path ∧ Entry.scalar ⟨"hand"⟩ = found) ∨
            ∃ front last template, address.steps = front ++ [last] ∧
              address.dotted = path ++ "." ++ last.text ∧
              found.item? last = some template ∧ Entry.scalar ⟨"hand"⟩ = .scalar template) := by
  intro document
  obtain ⟨catalogue, accepted⟩ : ∃ catalogue, ofDocument document = .ok catalogue := ⟨_, rfl⟩
  have read : Address.parse "tools.drills.spare" =
      .ok ⟨"tools.drills.spare", [.name "tools", .name "drills", .name "spare"]⟩ := by
    rfl
  have found : catalogue.find ⟨"tools.drills.spare",
      [.name "tools", .name "drills", .name "spare"]⟩ none = .ok (.scalar ⟨"hand"⟩) := by
    cases accepted
    rfl
  exact ⟨catalogue, _, accepted, read, found,
    (entryPaths_complete accepted).2.2.2.2.1 _ _ found⟩

end Catalogue

end Phrasebook
