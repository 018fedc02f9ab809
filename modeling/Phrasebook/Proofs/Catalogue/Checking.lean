import Mathlib.Data.List.Forall2
import Phrasebook.Catalogue.Checking
import Phrasebook.Proofs.Document.Validity
import Phrasebook.Proofs.Ordered
import Phrasebook.Proofs.Outcome

/-! # What checking a document does

Each part of the check is described once, by what it has seen when it succeeds and by what
is wrong when it fails. A member that joins a namespace has a key that an address can name and
that no earlier sibling has, and its value stands under that key
(`Phrasebook.Catalogue.joins_of_childrenOf`). The members that join an indexed map become its
entries one by one (`Phrasebook.Catalogue.adds_of_entriesOf`).
-/

namespace Phrasebook

open Document (KeyFlawed)

/-- An entry of an indexed map has the text of a member and the key that the member's is read
as. -/
structure Document.WritesSlot (member : String × Document)
    (slot : IndexedMap.Key × Template) : Prop where
  key : slot.1.reading = IndexedMap.readingOf member.1
  value : member.2 = .text slot.2.text

namespace Namespace

theorem get?_put_self (children : Namespace) (name : String) (node : Node) :
    (children.put name node).get? name = some node :=
  Ordered.lookup_insert_self name node children

theorem get?_put_of_ne (children : Namespace) {name other : String} (different : other ≠ name)
    (node : Node) : (children.put name node).get? other = children.get? other :=
  Ordered.lookup_insert_of_ne different node children

theorem isSome_get?_put_iff {children : Namespace} {name other : String} {node : Node} :
    ((children.put name node).get? other).isSome = true ↔
      other = name ∨ (children.get? other).isSome = true := by
  by_cases same : other = name
  · rw [same, get?_put_self]
    simp
  · rw [get?_put_of_ne children same]
    simp [same]

end Namespace

namespace Catalogue

theorem checkKey_eq_ok_iff {place key : String} :
    checkKey place key = .ok () ↔ Address.IsKey key := by
  have plain : (key.toList.any fun c => c == '.' || c == '[' || c == ']') = false ↔
      '.' ∉ key.toList ∧ '[' ∉ key.toList ∧ ']' ∉ key.toList := by
    grind
  unfold checkKey Address.IsKey
  by_cases empty : key = ""
  · simp [empty]
  · cases reserved : key.toList.any fun c => c == '.' || c == '[' || c == ']' with
    | true => simp_all
    | false => simp_all

theorem keyFlawed_of_checkKey {place key : String} {fault : Fault}
    (failed : checkKey place key = .error fault) :
    ∃ reason, KeyFlawed key reason ∧ fault = .invalid place reason := by
  unfold checkKey at failed
  split at failed
  · next empty =>
    cases failed
    rw [String.isEmpty_iff.mp empty]
    exact ⟨.emptyKey, .empty, rfl⟩
  · split at failed
    · next reserved =>
      cases failed
      have holds : '.' ∈ key.toList ∨ '[' ∈ key.toList ∨ ']' ∈ key.toList := by grind
      exact ⟨.reservedKey, .reserved holds, rfl⟩
    · cases failed

theorem templateOf_eq_ok_iff {place : String} {document : Document} {template : Template} :
    templateOf place document = .ok template ↔ document = .text template.text := by
  cases document with
  | text value =>
    rw [templateOf, Except.ok.injEq, Document.text.injEq]
    exact ⟨fun same => same ▸ rfl, fun same => same ▸ rfl⟩
  | sequence items => simp [templateOf]
  | mapping members => simp [templateOf]
  | indexed members => simp [templateOf]
  | literal kind => simp [templateOf]

theorem templateOf_eq_error_iff {place : String} {document : Document} {fault : Fault} :
    templateOf place document = .error fault ↔
      ¬ document.IsText ∧ fault = .invalid place (.noText document.kind) := by
  cases document <;> simp [templateOf, Document.IsText, eq_comm]

theorem keyOf_eq_ok_iff {place key : String} {slot : IndexedMap.Key} :
    keyOf place key = .ok slot ↔ slot.reading = IndexedMap.readingOf key := by
  unfold keyOf isPositionKey
  cases numeral : Text.isNumeral key.toList with
  | false =>
    rw [IndexedMap.readingOf_of_not_numeral numeral]
    cases slot <;> simp [IndexedMap.Key.reading, eq_comm]
  | true =>
    rw [IndexedMap.readingOf_of_numeral numeral, if_pos rfl]
    cases read : Position.ofNumeral? key.toList with
    | some index =>
      have value := (Position.ofNumeral?_eq_some_iff.mp read).2
      cases slot <;> simp [IndexedMap.Key.reading, value, eq_comm, UInt64.toNat_inj]
    | none =>
      have absent (index : Position) : Text.numeralValue key.toList ≠ index.toNat := by
        intro value
        have found := Position.ofNumeral?_eq_some_iff.mpr ⟨numeral, value⟩
        cases read.symm.trans found
      cases slot with
      | name text => simp [IndexedMap.Key.reading]
      | position index => simp [IndexedMap.Key.reading, (absent index).symm]

theorem large_of_keyOf {place key : String} {fault : Fault}
    (failed : keyOf place key = .error fault) :
    Text.isNumeral key.toList = true ∧ UInt64.size ≤ Text.numeralValue key.toList ∧
      fault = .invalid place .largeIndex := by
  unfold keyOf isPositionKey at failed
  split at failed
  · next numeral =>
    split at failed
    · cases failed
    · next absent =>
      cases failed
      have large : ¬ Text.numeralValue key.toList < UInt64.size := by
        intro small
        rw [Position.ofNumeral?, numeral, decide_eq_true small] at absent
        cases absent
      exact ⟨numeral, Nat.le_of_not_lt large, rfl⟩
  · cases failed

theorem eq_of_templatesOf {place : String} {index : Nat} {items : List Document}
    {templates : List Template} (built : templatesOf place index items = .ok templates) :
    items = templates.map fun template => .text template.text := by
  induction items generalizing index templates with
  | nil =>
    cases built
    rfl
  | cons item rest ih =>
    obtain ⟨template, first, built⟩ := Outcome.bind_eq_ok_iff.mp built
    obtain ⟨others, later, made⟩ := Outcome.bind_eq_ok_iff.mp built
    cases made
    rw [List.map_cons, ← ih later, templateOf_eq_ok_iff.mp first]

/-- An item that is no text is reported with its number. -/
theorem exists_of_templatesOf_eq_error {place : String} {index : Nat} {items : List Document}
    {fault : Fault} (failed : templatesOf place index items = .error fault) :
    ∃ number item, items[number]? = some item ∧ ¬ item.IsText ∧
      fault = .invalid (place ++ "." ++ String.ofList (Nat.toDigits 10 (index + number)))
        (.noText item.kind) := by
  induction items generalizing index with
  | nil => cases failed
  | cons item rest ih =>
    rcases Outcome.bind_eq_error_iff.mp failed with first | ⟨template, _, failed⟩
    · have noText := templateOf_eq_error_iff.mp first
      exact ⟨0, item, rfl, noText⟩
    · rcases Outcome.bind_eq_error_iff.mp failed with later | ⟨templates, _, failed⟩
      · obtain ⟨number, item, stands, noText, same⟩ := ih later
        have further : index + 1 + number = index + (number + 1) := by omega
        exact ⟨number + 1, item, stands, noText, further ▸ same⟩
      · cases failed

/-- How a member joins an indexed map. -/
theorem entriesOf_cons_eq_ok {place : String} {member : String × Document}
    {earlier entries : List (IndexedMap.Key × Template)} {rest : List (String × Document)}
    (built : entriesOf place earlier (member :: rest) = .ok entries) :
    ∃ slot, Document.WritesSlot member slot ∧ Address.IsKey member.1 ∧
      slot.1 ∉ earlier.map Prod.fst ∧ entriesOf place (earlier ++ [slot]) rest = .ok entries := by
  rw [entriesOf] at built
  obtain ⟨_, checked, built⟩ := Outcome.bind_eq_ok_iff.mp built
  obtain ⟨key, read, built⟩ := Outcome.bind_eq_ok_iff.mp built
  obtain ⟨fresh, built⟩ := Outcome.guard_eq_ok_iff.mp built
  obtain ⟨template, written, built⟩ := Outcome.bind_eq_ok_iff.mp built
  have writes : Document.WritesSlot member (key, template) :=
    ⟨keyOf_eq_ok_iff.mp read, templateOf_eq_ok_iff.mp written⟩
  refine ⟨(key, template), writes, checkKey_eq_ok_iff.mp checked, ?_, built⟩
  simpa using fresh

/-- Why a member, or one behind it, does not join an indexed map. -/
theorem entriesOf_cons_eq_error {place : String} {member : String × Document}
    {earlier : List (IndexedMap.Key × Template)} {rest : List (String × Document)} {fault : Fault}
    (failed : entriesOf place earlier (member :: rest) = .error fault) :
    (∃ reason, KeyFlawed member.1 reason ∧
        fault = .invalid (Address.under place member.1) reason) ∨
      (Text.isNumeral member.1.toList = true ∧ UInt64.size ≤ Text.numeralValue member.1.toList ∧
        fault = .invalid (Address.under place member.1) .largeIndex) ∨
      ((∃ slot ∈ earlier, slot.1.reading = IndexedMap.readingOf member.1) ∧
        fault = .duplicateKey (Address.under place member.1)) ∨
      (¬ member.2.IsText ∧
        fault = .invalid (Address.under place member.1) (.noText member.2.kind)) ∨
      ∃ slot, Document.WritesSlot member slot ∧
        entriesOf place (earlier ++ [slot]) rest = .error fault := by
  rw [entriesOf] at failed
  rcases Outcome.bind_eq_error_iff.mp failed with form | ⟨_, _, failed⟩
  · exact .inl (keyFlawed_of_checkKey form)
  rcases Outcome.bind_eq_error_iff.mp failed with large | ⟨key, read, failed⟩
  · exact .inr (.inl (large_of_keyOf large))
  have reading := keyOf_eq_ok_iff.mp read
  rcases Outcome.guard_eq_error_iff.mp failed with ⟨taken, rfl⟩ | ⟨_, failed⟩
  · obtain ⟨slot, present, same⟩ := List.any_eq_true.mp taken
    have alike : slot.1.reading = IndexedMap.readingOf member.1 := by
      rw [← reading, eq_of_beq same]
    exact .inr (.inr (.inl ⟨⟨slot, present, alike⟩, rfl⟩))
  rcases Outcome.bind_eq_error_iff.mp failed with noText | ⟨template, written, failed⟩
  · exact .inr (.inr (.inr (.inl (templateOf_eq_error_iff.mp noText))))
  · have writes : Document.WritesSlot member (key, template) :=
      ⟨reading, templateOf_eq_ok_iff.mp written⟩
    exact .inr (.inr (.inr (.inr ⟨(key, template), writes, failed⟩)))

/-- The members of a mapping become the entries of an indexed map, one by one. -/
theorem adds_of_entriesOf {place : String} {members : List (String × Document)}
    {earlier entries : List (IndexedMap.Key × Template)}
    (built : entriesOf place earlier members = .ok entries) :
    ∃ added, entries = earlier ++ added ∧ List.Forall₂ Document.WritesSlot members added ∧
      ∀ member ∈ members, Address.IsKey member.1 := by
  induction members generalizing earlier with
  | nil =>
    cases built
    exact ⟨[], (List.append_nil _).symm, .nil, List.forall_mem_nil _⟩
  | cons member rest ih =>
    obtain ⟨slot, writes, valid, _, built⟩ := entriesOf_cons_eq_ok built
    obtain ⟨added, same, others, keys⟩ := ih built
    refine ⟨slot :: added, ?_, .cons writes others, List.forall_mem_cons.mpr ⟨valid, keys⟩⟩
    rw [same, List.append_assoc]
    rfl

/-- How a member joins a namespace. -/
theorem childrenOf_cons_eq_ok {place : String} {member : String × Document}
    {earlier children : Namespace} {rest : List (String × Document)}
    (built : childrenOf place earlier (member :: rest) = .ok children) :
    Address.IsKey member.1 ∧ earlier.get? member.1 = none ∧
      ∃ node, nodeOf (Address.under place member.1) member.2 = .ok node ∧
        childrenOf place (earlier.put member.1 node) rest = .ok children := by
  rw [childrenOf] at built
  obtain ⟨_, checked, built⟩ := Outcome.bind_eq_ok_iff.mp built
  obtain ⟨fresh, built⟩ := Outcome.guard_eq_ok_iff.mp built
  obtain ⟨node, made, built⟩ := Outcome.bind_eq_ok_iff.mp built
  exact ⟨checkKey_eq_ok_iff.mp checked, Option.not_isSome_iff_eq_none.mp fresh, node, made, built⟩

/-- Why a member, or one behind it, does not join a namespace. -/
theorem childrenOf_cons_eq_error {place : String} {member : String × Document}
    {earlier : Namespace} {rest : List (String × Document)} {fault : Fault}
    (failed : childrenOf place earlier (member :: rest) = .error fault) :
    (∃ reason, KeyFlawed member.1 reason ∧
        fault = .invalid (Address.under place member.1) reason) ∨
      ((earlier.get? member.1).isSome = true ∧
        fault = .duplicateKey (Address.under place member.1)) ∨
      (Address.IsKey member.1 ∧
        nodeOf (Address.under place member.1) member.2 = .error fault) ∨
      ∃ node, childrenOf place (earlier.put member.1 node) rest = .error fault := by
  rw [childrenOf] at failed
  rcases Outcome.bind_eq_error_iff.mp failed with form | ⟨_, checked, failed⟩
  · exact .inl (keyFlawed_of_checkKey form)
  rcases Outcome.guard_eq_error_iff.mp failed with ⟨taken, rfl⟩ | ⟨_, failed⟩
  · exact .inr (.inl ⟨taken, rfl⟩)
  rcases Outcome.bind_eq_error_iff.mp failed with inside | ⟨node, _, failed⟩
  · exact .inr (.inr (.inl ⟨checkKey_eq_ok_iff.mp checked, inside⟩))
  · exact .inr (.inr (.inr ⟨node, failed⟩))

/-- What a namespace holds when the members of a mapping have joined earlier children. -/
structure Joins (place : String) (earlier : Namespace) (members : List (String × Document))
    (children : Namespace) : Prop where
  keyed : Document.Keyed members
  fresh : ∀ member ∈ members, earlier.get? member.1 = none
  own : ∀ member ∈ members, ∃ node,
    nodeOf (Address.under place member.1) member.2 = .ok node ∧
      children.get? member.1 = some node
  others : ∀ name, name ∉ members.map Prod.fst → children.get? name = earlier.get? name

theorem joins_of_childrenOf {place : String} {earlier children : Namespace}
    {members : List (String × Document)}
    (built : childrenOf place earlier members = .ok children) :
    Joins place earlier members children := by
  induction members generalizing earlier with
  | nil =>
    rw [childrenOf] at built
    cases built
    exact ⟨⟨List.forall_mem_nil _, .nil⟩, List.forall_mem_nil _, List.forall_mem_nil _,
      fun _ _ => rfl⟩
  | cons member rest ih =>
    obtain ⟨valid, free, node, made, built⟩ := childrenOf_cons_eq_ok built
    have later := ih built
    -- the children that a later member meets include the one that has just joined
    have different : ∀ other ∈ rest, other.1 ≠ member.1 := by
      intro other present same
      have taken := later.fresh other present
      rw [same, Namespace.get?_put_self] at taken
      cases taken
    have notAgain : member.1 ∉ rest.map Prod.fst := by
      intro again
      obtain ⟨other, present, same⟩ := List.mem_map.mp again
      exact different other present same
    have here : children.get? member.1 = some node := by
      rw [later.others _ notAgain, Namespace.get?_put_self]
    refine ⟨⟨?_, ?_⟩, ?_, ?_, ?_⟩
    · exact List.forall_mem_cons.mpr ⟨valid, later.keyed.keys⟩
    · exact List.nodup_cons.mpr ⟨notAgain, later.keyed.distinct⟩
    · refine List.forall_mem_cons.mpr ⟨free, fun other present => ?_⟩
      rw [← later.fresh other present, Namespace.get?_put_of_ne _ (different other present)]
    · exact List.forall_mem_cons.mpr ⟨⟨node, made, here⟩, later.own⟩
    · intro name absent
      obtain ⟨other, missing⟩ := not_or.mp (List.mem_cons.not.mp absent)
      rw [later.others name missing, Namespace.get?_put_of_ne _ other]

/-- A child of a namespace that was empty before comes from a member. -/
theorem Joins.exists_member {place : String} {members : List (String × Document)}
    {children : Namespace} (joins : Joins place [] members children) {name : String} {node : Node}
    (found : children.get? name = some node) :
    ∃ value, (name, value) ∈ members ∧ nodeOf (Address.under place name) value = .ok node := by
  by_cases listed : name ∈ members.map Prod.fst
  · obtain ⟨⟨key, value⟩, present, rfl⟩ := List.mem_map.mp listed
    obtain ⟨own, made, here⟩ := joins.own _ present
    cases here.symm.trans found
    exact ⟨value, present, made⟩
  · rw [joins.others name listed] at found
    cases found

/-- A mapping that is read as an indexed map is checked as one. -/
theorem nodeOf_of_readsIndexed {document : Document} {members : List (String × Document)}
    (reads : document.ReadsIndexed members) (place : String) :
    nodeOf place document = indexedOf place members := by
  cases reads with
  | declared members => rw [nodeOf]
  | numbered digits =>
    have hasDigits : (members.any fun member => isPositionKey member.1) = true :=
      List.any_eq_true.mpr digits
    rw [nodeOf, if_pos hasDigits]

/-- The members of a mapping that is read as an indexed map become its entries. -/
theorem exists_entries_of_readsIndexed {document : Document} {members : List (String × Document)}
    (reads : document.ReadsIndexed members) {place : String} {node : Node}
    (built : nodeOf place document = .ok node) :
    ∃ entries, node = .entry (.indexed ⟨entries⟩) ∧
      List.Forall₂ Document.WritesSlot members entries := by
  rw [nodeOf_of_readsIndexed reads] at built
  obtain ⟨entries, listed, made⟩ := Outcome.bind_eq_ok_iff.mp built
  cases made
  obtain ⟨added, same, slots, _⟩ := adds_of_entriesOf listed
  rw [List.nil_append] at same
  exact ⟨entries, rfl, same ▸ slots⟩

/-- A mapping that is read as a namespace is checked as one. -/
theorem nodeOf_of_readsNamespace {document : Document} {members : List (String × Document)}
    (reads : document.ReadsNamespace members) (place : String) :
    nodeOf place document = (childrenOf place [] members >>= fun children =>
      .ok (.branch children)) := by
  cases reads with
  | named names =>
    have noDigits : ¬ (members.any fun member => isPositionKey member.1) = true := by
      intro digits
      obtain ⟨member, present, numeral⟩ := List.any_eq_true.mp digits
      exact absurd numeral (Bool.eq_false_iff.mp (names member present))
    rw [nodeOf, if_neg noDigits]
    rfl

/-- An accepted document is a mapping, whose members make up the root of the catalogue. -/
theorem childrenOf_of_ofDocument {document : Document} {catalogue : Catalogue}
    (accepted : ofDocument document = .ok catalogue) :
    ∃ members root, document = .mapping members ∧ catalogue = ⟨root⟩ ∧
      childrenOf "" [] members = .ok root := by
  cases document with
  | mapping members =>
    obtain ⟨root, listed, made⟩ := Outcome.bind_eq_ok_iff.mp accepted
    cases made
    exact ⟨members, root, rfl, rfl, listed⟩
  | text value => cases accepted
  | sequence items => cases accepted
  | indexed members => cases accepted
  | literal kind => cases accepted

end Catalogue

end Phrasebook
