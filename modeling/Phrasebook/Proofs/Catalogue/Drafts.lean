import Phrasebook.Proofs.Catalogue.Following
import Phrasebook.Proofs.Catalogue.Validation
import Phrasebook.Proofs.Document.Reordering
import Phrasebook.Proofs.Json.Nesting
import Phrasebook.Proofs.Related

/-! # Drafts and their JSON texts

A draft marks its indexed maps, and a JSON text does not: it tells an indexed map by a key of
digits. The mark makes no difference where every indexed map has such a key
(`Phrasebook.Catalogue.nodeOf_plain`). A draft with this property and a text that writes its
items in the same order become the same catalogue, or are refused with the same fault at the
same place (`Phrasebook.Draft.ofJson_eq_ofDraft`).
-/

namespace Phrasebook

/-- Every indexed map of a document that was written as one has a key of digits. -/
inductive Document.Numbered : Document → Prop
  | text (value : String) : Numbered (.text value)
  | literal (kind : Literal) : Numbered (.literal kind)
  | sequence {items : List Document} (each : ∀ item ∈ items, Numbered item) :
      Numbered (.sequence items)
  | mapping {members : List (String × Document)} (values : ∀ member ∈ members, Numbered member.2) :
      Numbered (.mapping members)
  | indexed {members : List (String × Document)}
      (digits : ∃ member ∈ members, Text.isNumeral member.1.toList = true)
      (values : ∀ member ∈ members, Numbered member.2) : Numbered (.indexed members)

namespace Catalogue

theorem templateOf_plain (place : String) (document : Document) :
    templateOf place document.plain = templateOf place document := by
  cases document <;> rfl

theorem templatesOf_plain (place : String) (index : Nat) (items : List Document) :
    templatesOf place index (Document.plainItems items) = templatesOf place index items := by
  induction items generalizing index with
  | nil => rfl
  | cons item rest ih =>
    rw [Document.plainItems, templatesOf, templatesOf, templateOf_plain, ih]

theorem entriesOf_plain (place : String) (earlier : List (IndexedMap.Key × Template))
    (members : List (String × Document)) :
    entriesOf place earlier (Document.plainMembers members) = entriesOf place earlier members := by
  induction members generalizing earlier with
  | nil => rfl
  | cons member rest ih =>
    obtain ⟨key, value⟩ := member
    simp only [Document.plainMembers, entriesOf, templateOf_plain, ih]

theorem childrenOf_plain {members : List (String × Document)}
    (values : ∀ member ∈ members, ∀ place, nodeOf place member.2.plain = nodeOf place member.2)
    (place : String) (earlier : Namespace) :
    childrenOf place earlier (Document.plainMembers members) =
      childrenOf place earlier members := by
  induction members generalizing earlier with
  | nil => rfl
  | cons member rest ih =>
    obtain ⟨key, value⟩ := member
    obtain ⟨first, later⟩ := List.forall_mem_cons.mp values
    simp only [Document.plainMembers, childrenOf, first, ih later]

theorem indexedOf_plain (place : String) (members : List (String × Document)) :
    indexedOf place (Document.plainMembers members) = indexedOf place members := by
  rw [indexedOf, indexedOf, entriesOf_plain]

theorem any_isPositionKey_plain (members : List (String × Document)) :
    ((Document.plainMembers members).any fun member => isPositionKey member.1) =
      members.any fun member => isPositionKey member.1 := by
  rw [Document.plainMembers_eq_map, List.any_map]
  rfl

/-- **The mark of an indexed map.** Where every indexed map has a key of digits, a document
becomes the same node, or has the same fault, when its mappings do not say what they are. -/
theorem nodeOf_plain {document : Document} (numbered : document.Numbered) (place : String) :
    nodeOf place document.plain = nodeOf place document := by
  induction numbered generalizing place with
  | text value => rfl
  | literal kind => rfl
  | sequence _ _ => rw [Document.plain, nodeOf, nodeOf, templatesOf_plain]
  | @indexed members digits _ _ =>
    have hasDigits : (members.any fun member => isPositionKey member.1) = true :=
      List.any_eq_true.mpr digits
    rw [Document.plain, nodeOf, nodeOf, any_isPositionKey_plain, if_pos hasDigits, indexedOf_plain]
  | mapping _ ih =>
    rw [Document.plain, nodeOf, nodeOf, any_isPositionKey_plain, indexedOf_plain,
      childrenOf_plain ih]

theorem ofDocument_plain {members : List (String × Document)}
    (numbered : ∀ member ∈ members, member.2.Numbered) :
    ofDocument (Document.mapping members).plain = ofDocument (.mapping members) := by
  rw [Document.plain, ofDocument, ofDocument,
    childrenOf_plain fun member present => nodeOf_plain (numbered member present)]

end Catalogue

namespace Draft

/-- A draft has an item behind the keys of the groups that it stands in. -/
inductive Contains : Draft → List String → Item → Prop
  | here {draft : Draft} {item : Item} (present : item ∈ draft) :
      Contains draft [item.member.1] item
  | inside {draft : Draft} {key : String} {items : List Item} (present : .group key items ∈ draft)
      {keys : List String} {item : Item} (inner : Contains items keys item) :
      Contains draft (key :: keys) item

/-- Every indexed map of a draft has an item whose key consists of digits. -/
def Numbered (draft : Draft) : Prop :=
  ∀ keys key slots, draft.Contains keys (.indexed key slots) →
    ∃ slot ∈ slots, Text.isNumeral slot.member.1.toList = true

theorem Contains.mono {draft other : Draft} {keys : List String} {item : Item}
    (contains : draft.Contains keys item) (more : ∀ item ∈ draft, item ∈ other) :
    other.Contains keys item := by
  cases contains with
  | here present => exact .here (more _ present)
  | inside present inner => exact .inside (more _ present) inner

theorem Numbered.mono {draft other : Draft} (numbered : other.Numbered)
    (fewer : ∀ item ∈ draft, item ∈ other) : draft.Numbered :=
  fun keys key slots contains => numbered keys key slots (contains.mono fewer)

theorem members_eq_map (items : List Item) : Item.members items = items.map Item.member := by
  induction items with
  | nil => rfl
  | cons item rest ih => rw [Item.members, ih, List.map_cons]

mutual

theorem Item.numbered_member (item : Item) (numbered : Numbered [item]) :
    item.member.2.Numbered := by
  cases item with
  | scalar key text => exact .text text
  | list key texts =>
    refine .sequence fun value present => ?_
    obtain ⟨text, _, rfl⟩ := List.mem_map.mp present
    exact .text text
  | indexed key slots =>
    obtain ⟨slot, present, digits⟩ := numbered _ key slots (.here List.mem_cons_self)
    refine .indexed ⟨_, List.mem_map_of_mem present, digits⟩ fun member inside => ?_
    obtain ⟨slot, _, rfl⟩ := List.mem_map.mp inside
    cases slot with
    | «at» index text => exact .text text
    | named name text => exact .text text
  | group key items =>
    exact .mapping (numbered_members items fun keys inner slots contains =>
      numbered (key :: keys) inner slots (.inside List.mem_cons_self contains))

theorem Item.numbered_members (items : List Item) (numbered : Numbered items) :
    ∀ member ∈ Item.members items, member.2.Numbered := by
  cases items with
  | nil => exact List.forall_mem_nil _
  | cons item rest =>
    exact List.forall_mem_cons.mpr ⟨item.numbered_member (numbered.mono (by simp)),
      numbered_members rest (numbered.mono fun _ => List.mem_cons_of_mem item)⟩

end

mutual

theorem Item.literal_notMem_tokens (item : Item) (kind : Document.Literal) :
    .literal kind ∉ item.member.2.tokens := by
  cases item with
  | scalar key text => simp [Item.member, Document.tokens]
  | list key texts =>
    refine Document.literal_notMem_sequence fun value present => ?_
    obtain ⟨text, _, rfl⟩ := List.mem_map.mp present
    simp [Document.tokens]
  | indexed key slots =>
    refine Document.literal_notMem_mapping fun member inside => ?_
    obtain ⟨slot, _, rfl⟩ := List.mem_map.mp inside
    cases slot <;> simp [Slot.member, Document.tokens]
  | group key items => exact Document.literal_notMem_mapping (literal_notMem_members items kind)

theorem Item.literal_notMem_members (items : List Item) (kind : Document.Literal) :
    ∀ member ∈ Item.members items, .literal kind ∉ member.2.tokens := by
  cases items with
  | nil => exact List.forall_mem_nil _
  | cons item rest =>
    exact List.forall_mem_cons.mpr
      ⟨item.literal_notMem_tokens kind, literal_notMem_members rest kind⟩

end

/-- Every draft can be written without white space. -/
theorem spells_document (draft : Draft) :
    Json.Spells (draft.document.tokens.flatMap Json.Token.written) draft.document.tokens :=
  Json.spells_written fun kind =>
    Document.literal_notMem_mapping (Item.literal_notMem_members draft kind)

end Draft

namespace Catalogue

/-- The members of a mapping stand in a catalogue as the entries of an indexed map behind a
chain of keys, in their order. -/
def IndexesAt (catalogue : Catalogue) (keys : List String)
    (members : List (String × Document)) : Prop :=
  ∃ entries, catalogue.node? keys = some (.entry (.indexed ⟨entries⟩)) ∧
    List.Forall₂ Document.WritesSlot members entries

end Catalogue

namespace Draft

/-- A draft with an item that is no text, at any depth, has one that is no text itself. -/
theorem Contains.exists_member {draft : Draft} {keys : List String} {item : Item}
    (contains : draft.Contains keys item) (noText : ¬ item.member.2.IsText) :
    ∃ member ∈ Item.members draft, ¬ member.2.IsText := by
  rw [members_eq_map]
  cases contains with
  | here present => exact ⟨_, List.mem_map_of_mem present, noText⟩
  | inside present inner => exact ⟨_, List.mem_map_of_mem present, nofun⟩

/-- In an accepted draft a mapping that is read as an indexed map becomes one, behind the keys of
the groups that it stands in. -/
theorem Contains.exists_entries {draft : Draft} {keys : List String} {item : Item}
    (contains : draft.Contains keys item) {members : List (String × Document)}
    (reads : item.member.2.ReadsIndexed members) {place : String} {children : Namespace}
    (listed : Catalogue.childrenOf place [] (Item.members draft) = .ok children) :
    ∃ entries, (Node.branch children).descend? keys = some (.entry (.indexed ⟨entries⟩)) ∧
      List.Forall₂ Document.WritesSlot members entries := by
  have noText : ¬ item.member.2.IsText := by
    rintro ⟨value, same⟩
    rw [same] at reads
    cases reads
  induction contains generalizing place children with
  | @here draft item present =>
    have joins := Catalogue.joins_of_childrenOf listed
    rw [members_eq_map] at joins
    obtain ⟨node, made, found⟩ := joins.own _ (List.mem_map_of_mem present)
    obtain ⟨entries, rfl, slots⟩ := Catalogue.exists_entries_of_readsIndexed reads made
    refine ⟨entries, ?_, slots⟩
    rw [Node.descend?_branch_cons, found, Option.bind_some, Node.descend?_nil]
  | @inside draft key items present keys item inner ih =>
    have joins := Catalogue.joins_of_childrenOf listed
    rw [members_eq_map] at joins
    obtain ⟨node, made, found⟩ := joins.own _ (List.mem_map_of_mem present)
    rcases Document.reads_mapping (Item.members items) with indexed | namespaced
    · -- an indexed map takes texts only, so nothing stands inside a group that is read as one
      obtain ⟨entries, _, slots⟩ := Catalogue.exists_entries_of_readsIndexed indexed made
      obtain ⟨member, stands, otherwise⟩ := inner.exists_member noText
      obtain ⟨slot, _, writes⟩ := Related.exists_right slots stands
      exact absurd ⟨_, writes.value⟩ otherwise
    · rw [Item.member, Catalogue.nodeOf_of_readsNamespace namespaced] at made
      obtain ⟨below, built, branch⟩ := Outcome.bind_eq_ok_iff.mp made
      cases branch
      obtain ⟨entries, descends, slots⟩ := ih reads built noText
      refine ⟨entries, ?_, slots⟩
      have named : children.get? key = some (.branch below) := found
      rw [Node.descend?_branch_cons, named, Option.bind_some, descends]

theorem Contains.indexesAt {draft : Draft} {keys : List String} {item : Item}
    (contains : draft.Contains keys item) {members : List (String × Document)}
    (reads : item.member.2.ReadsIndexed members) {catalogue : Catalogue}
    (accepted : Catalogue.ofDraft draft = .ok catalogue) : catalogue.IndexesAt keys members := by
  obtain ⟨root, listed, made⟩ := Outcome.bind_eq_ok_iff.mp accepted
  cases made
  rw [Catalogue.IndexesAt, Catalogue.node?_eq_descend?]
  exact contains.exists_entries reads listed

/-- **Drafts and JSON texts agree.** Every draft can be written as a JSON text. Where every
indexed map of the draft has a key of digits and its items are not nested too deep for the reader,
each text that writes the items in their order, however it spells them, becomes the catalogue that
the draft becomes, or is refused with the same fault. A group with a key of digits becomes an
indexed map, and so does a mapping of the text that writes an indexed map. -/
theorem ofJson_eq_ofDraft {draft : Draft} (numbered : draft.Numbered)
    (shallow : draft.document.depth ≤ Json.maxDepth) :
    (∃ text : String, Json.Spells text.toList draft.document.tokens) ∧
      (∀ text : String, Json.Spells text.toList draft.document.tokens →
        Catalogue.ofJson text = Catalogue.ofDraft draft) ∧
      ∀ catalogue, Catalogue.ofDraft draft = .ok catalogue →
        (∀ keys key items, draft.Contains keys (.group key items) →
          (∃ item ∈ items, Text.isNumeral item.member.1.toList = true) →
          catalogue.IndexesAt keys (Item.members items)) ∧
        ∀ keys key slots, draft.Contains keys (.indexed key slots) →
          catalogue.IndexesAt keys (slots.map Slot.member) := by
  refine ⟨?_, ?_, ?_⟩
  · refine ⟨String.ofList (draft.document.tokens.flatMap Json.Token.written), ?_⟩
    rw [String.toList_ofList]
    exact draft.spells_document
  · intro text spells
    rw [Catalogue.ofJson, Document.ofJson?_of_spells spells shallow]
    exact Catalogue.ofDocument_plain (Item.numbered_members draft numbered)
  · intro catalogue accepted
    refine ⟨fun keys key items contains digits => ?_, fun keys key slots contains => ?_⟩
    · obtain ⟨item, present, numeral⟩ := digits
      have listed : item.member ∈ Item.members items :=
        members_eq_map items ▸ List.mem_map_of_mem present
      exact contains.indexesAt (.numbered ⟨_, listed, numeral⟩) accepted
    · exact contains.indexesAt (.declared _) accepted

/-- A draft with an indexed map, and a group that becomes one, and a text that writes both. -/
theorem ofJson_eq_ofDraft_days :
    let draft : Draft := [.group "steps" [.scalar "1" "Go"],
      .indexed "days" [.at 1 "day", .named "all" "days"]]
    let text :=
      "\x7b\"steps\":\x7b\"1\":\"Go\"\x7d,\"days\":\x7b\"1\":\"day\",\"all\":\"days\"\x7d\x7d"
    let catalogue : Catalogue := ⟨[
      ("days", .entry (.indexed ⟨[(.position 1, ⟨"day"⟩), (.name "all", ⟨"days"⟩)]⟩)),
      ("steps", .entry (.indexed ⟨[(.position 1, ⟨"Go"⟩)]⟩))]⟩
    draft.Numbered ∧ draft.document.depth ≤ Json.maxDepth ∧
      Json.Spells text.toList draft.document.tokens ∧
      Catalogue.ofJson text = Catalogue.ofDraft draft ∧ Catalogue.ofDraft draft = .ok catalogue ∧
      catalogue.IndexesAt ["steps"] (Item.members [.scalar "1" "Go"]) ∧
      catalogue.IndexesAt ["days"]
        ([Slot.at 1 "day", Slot.named "all" "days"].map Slot.member) := by
  intro draft text catalogue
  have numbered : draft.Numbered := by
    intro keys key slots contains
    cases contains with
    | here present =>
      obtain ⟨rfl, rfl⟩ : key = "days" ∧ slots = [.at 1 "day", .named "all" "days"] := by
        simpa [draft] using present
      exact ⟨.at 1 "day", List.mem_cons_self, rfl⟩
    | @inside _ group items present keys _ inner =>
      obtain ⟨rfl, rfl⟩ : group = "steps" ∧ items = [.scalar "1" "Go"] := by
        simpa [draft] using present
      cases inner with
      | here present => simp at present
      | inside present _ => simp at present
  have shallow : draft.document.depth ≤ Json.maxDepth := by decide
  have spells : Json.Spells text.toList draft.document.tokens := by
    have written : text.toList = draft.document.tokens.flatMap Json.Token.written := by
      decide +kernel
    rw [written]
    exact draft.spells_document
  obtain ⟨_, agrees, indexes⟩ := ofJson_eq_ofDraft numbered shallow
  have accepted : Catalogue.ofDraft draft = .ok catalogue := rfl
  obtain ⟨groups, maps⟩ := indexes catalogue accepted
  refine ⟨numbered, shallow, spells, agrees text spells, accepted, ?_, ?_⟩
  · have stands : draft.Contains ["steps"] (.group "steps" [.scalar "1" "Go"]) :=
      .here List.mem_cons_self
    exact groups _ _ _ stands ⟨_, List.mem_cons_self, rfl⟩
  · exact maps _ "days" _ (.here (List.mem_cons_of_mem _ List.mem_cons_self))

end Draft

end Phrasebook
