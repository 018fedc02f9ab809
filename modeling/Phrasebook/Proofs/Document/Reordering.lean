import Mathlib.Data.List.Forall2
import Mathlib.Data.List.Zip
import Phrasebook.Proofs.Document.Validity
import Phrasebook.Proofs.Ordered
import Phrasebook.Proofs.Related

/-! # Reordering documents

Two documents may differ only in the order of the members of their mappings, at any depth
(`Phrasebook.Document.Reorders`). Then each member of a mapping has a partner under its key in
the other mapping (`Phrasebook.Document.Matched`), so the rules for catalogues hold of both
documents or of neither (`Phrasebook.Document.Reorders.isCatalogue_iff`). Sorting the members of
all mappings (`Phrasebook.Document.sorted`) reorders a document that repeats no key
(`Phrasebook.Document.Unrepeated.reorders_sorted`).
-/

namespace Phrasebook.Document

/-- A mapping is read in one of the two ways. -/
theorem reads_mapping (members : List (String × Document)) :
    (mapping members).ReadsIndexed members ∨ (mapping members).ReadsNamespace members := by
  by_cases digits : ∃ member ∈ members, Text.isNumeral member.1.toList = true
  · exact .inl (.numbered digits)
  · refine .inr (.named fun member here => ?_)
    exact Bool.eq_false_iff.mpr fun numeral => digits ⟨member, here, numeral⟩

/-- Two documents differ at most in the order in which the members of mappings stand: first the
values of the members may be reordered, then the members. -/
inductive Reorders : Document → Document → Prop
  | text (value : String) : Reorders (.text value) (.text value)
  | literal (kind : Literal) : Reorders (.literal kind) (.literal kind)
  | sequence {items others : List Document} (length : items.length = others.length)
      (each : ∀ pair ∈ items.zip others, Reorders pair.1 pair.2) :
      Reorders (.sequence items) (.sequence others)
  | mapping {members between others : List (String × Document)}
      (keys : members.map Prod.fst = between.map Prod.fst)
      (values : ∀ pair ∈ members.zip between, Reorders pair.1.2 pair.2.2)
      (order : between.Perm others) : Reorders (.mapping members) (.mapping others)
  | indexed {members between others : List (String × Document)}
      (keys : members.map Prod.fst = between.map Prod.fst)
      (values : ∀ pair ∈ members.zip between, Reorders pair.1.2 pair.2.2)
      (order : between.Perm others) : Reorders (.indexed members) (.indexed others)

/-- Two mappings have the same keys, and each member of either one has a partner under its key
in the other one. -/
structure Matched (related : Document → Document → Prop)
    (members others : List (String × Document)) : Prop where
  keys : (members.map Prod.fst).Perm (others.map Prod.fst)
  right : ∀ member ∈ members, ∃ other ∈ others, other.1 = member.1 ∧ related member.2 other.2
  left : ∀ other ∈ others, ∃ member ∈ members, other.1 = member.1 ∧ related member.2 other.2

section Pairs

variable {related : Document → Document → Prop} {members between others : List (String × Document)}

theorem matched_of_pairs (keys : members.map Prod.fst = between.map Prod.fst)
    (values : ∀ pair ∈ members.zip between, related pair.1.2 pair.2.2)
    (order : between.Perm others) : Matched related members others := by
  have pairs := (Related.keyed_iff _).mpr ⟨keys, values⟩
  refine ⟨keys ▸ order.map Prod.fst, fun member present => ?_, fun other present => ?_⟩
  · obtain ⟨other, there, same, pair⟩ := Related.exists_right pairs present
    exact ⟨other, order.mem_iff.mp there, same.symm, pair⟩
  · obtain ⟨member, here, same, pair⟩ := Related.exists_left pairs (order.mem_iff.mpr present)
    exact ⟨member, here, same.symm, pair⟩

/-- Members that are reordered in the other direction. -/
theorem exists_pairs_symm (keys : members.map Prod.fst = between.map Prod.fst)
    (values : ∀ pair ∈ members.zip between, Function.swap related pair.1.2 pair.2.2)
    (order : between.Perm others) :
    ∃ middle, others.map Prod.fst = middle.map Prod.fst ∧
      (∀ pair ∈ others.zip middle, related pair.1.2 pair.2.2) ∧ middle.Perm members := by
  have pairs : List.Forall₂ (fun other member => other.1 = member.1 ∧ related other.2 member.2)
      between members :=
    (List.Forall₂.flip ((Related.keyed_iff _).mpr ⟨keys, values⟩)).imp
      fun _ _ pair => ⟨pair.1.symm, pair.2⟩
  obtain ⟨middle, pairs, order⟩ := List.perm_comp_forall₂ order.symm pairs
  obtain ⟨keys, values⟩ := (Related.keyed_iff _).mp pairs
  exact ⟨middle, keys, values, order⟩

end Pairs

namespace Reorders

theorem symm {document other : Document} (reorders : document.Reorders other) :
    other.Reorders document := by
  induction reorders with
  | text value => exact .text value
  | literal kind => exact .literal kind
  | @sequence items others length each ih =>
    refine .sequence length.symm fun pair present => ?_
    rw [← List.zip_swap] at present
    obtain ⟨swapped, here, rfl⟩ := List.mem_map.mp present
    exact ih swapped here
  | mapping keys values order ih =>
    obtain ⟨middle, keys, values, order⟩ := exists_pairs_symm keys ih order
    exact .mapping keys values order
  | indexed keys values order ih =>
    obtain ⟨middle, keys, values, order⟩ := exists_pairs_symm keys ih order
    exact .indexed keys values order

theorem text_eq {value : String} {other : Document}
    (reorders : (Document.text value).Reorders other) : other = .text value := by
  cases reorders
  rfl

theorem isText {document other : Document} (reorders : document.Reorders other)
    (isText : document.IsText) : other.IsText := by
  obtain ⟨value, rfl⟩ := isText
  exact ⟨value, reorders.text_eq⟩

/-- A sequence of texts has nothing to reorder. -/
theorem texts_eq {items others : List Document} (pairs : List.Forall₂ Reorders items others)
    (texts : ∀ item ∈ items, item.IsText) : others = items := by
  induction pairs with
  | nil => rfl
  | cons pair _ ih =>
    obtain ⟨⟨value, rfl⟩, later⟩ := List.forall_mem_cons.mp texts
    rw [pair.text_eq, ih later]

end Reorders

namespace Matched

variable {related : Document → Document → Prop} {members others : List (String × Document)}
  (matched : Matched related members others)
include matched

theorem symm : Matched (Function.swap related) others members where
  keys := matched.keys.symm
  right := by
    intro other there
    obtain ⟨member, here, same, pair⟩ := matched.left other there
    exact ⟨member, here, same.symm, pair⟩
  left := by
    intro member here
    obtain ⟨other, there, same, pair⟩ := matched.right member here
    exact ⟨other, there, same.symm, pair⟩

theorem forall_key (holds : String → Prop) (all : ∀ member ∈ members, holds member.1) :
    ∀ other ∈ others, holds other.1 := by
  intro other present
  obtain ⟨member, here, same, _⟩ := matched.left other present
  rw [same]
  exact all member here

theorem keyed (keyed : Keyed members) : Keyed others where
  keys := matched.forall_key _ keyed.keys
  distinct := matched.keys.nodup_iff.mp keyed.distinct

theorem slotted (slotted : Slotted members)
    (texts : ∀ document other, related document other → document.IsText → other.IsText) :
    Slotted others where
  keys := matched.forall_key _ slotted.keys
  texts := by
    intro other present
    obtain ⟨member, here, _, pair⟩ := matched.left other present
    exact texts _ _ pair (slotted.texts member here)
  small := matched.forall_key (fun key => Text.isNumeral key.toList = true →
    Text.numeralValue key.toList < UInt64.size) slotted.small
  distinct := by
    have order := matched.keys.map IndexedMap.readingOf
    rw [List.map_map, List.map_map] at order
    exact order.nodup_iff.mp slotted.distinct

theorem readsIndexed (reads : (mapping members).ReadsIndexed members) :
    (mapping others).ReadsIndexed others := by
  cases reads with
  | numbered digits =>
    obtain ⟨member, here, numeral⟩ := digits
    obtain ⟨other, there, same, _⟩ := matched.right member here
    exact .numbered ⟨other, there, same ▸ numeral⟩

theorem readsNamespace (reads : (mapping members).ReadsNamespace members) :
    (mapping others).ReadsNamespace others := by
  cases reads with
  | named names =>
    exact .named (matched.forall_key (fun key => Text.isNumeral key.toList = false) names)

theorem valid_mapping
    (transfers : ∀ document other, related document other →
      (document.IsText → other.IsText) ∧ (document.Valid → other.Valid))
    (valid : (mapping members).Valid) : (mapping others).Valid := by
  rcases reads_mapping members with reads | reads
  · have slotted := valid.slotted reads
    exact .indexed (matched.readsIndexed reads)
      (matched.slotted slotted fun _ _ pair => (transfers _ _ pair).1)
  · obtain ⟨keyed, values⟩ := valid.keyed reads
    refine .namespaced (matched.readsNamespace reads) (matched.keyed keyed) fun other there => ?_
    obtain ⟨member, here, _, pair⟩ := matched.left other there
    exact (transfers _ _ pair).2 (values member here)

end Matched

namespace Reorders

theorem valid {document other : Document} (reorders : document.Reorders other) :
    document.Valid → other.Valid := by
  induction reorders with
  | text value => exact id
  | literal kind => exact id
  | @sequence items others length each ih =>
    intro valid
    have texts := valid.texts
    have pairs : List.Forall₂ Reorders items others :=
      List.forall₂_iff_zip.mpr ⟨length, fun present => each _ present⟩
    rw [texts_eq pairs texts]
    exact .sequence texts
  | @mapping members between others keys values order ih =>
    have matched : Matched (fun document other => (document.IsText → other.IsText) ∧
        (document.Valid → other.Valid)) members others :=
      matched_of_pairs keys (fun pair present => ⟨(values pair present).isText, ih pair present⟩)
        order
    exact matched.valid_mapping fun _ _ pair => pair
  | indexed keys values order ih =>
    intro valid
    have slotted := valid.slotted (.declared _)
    exact .indexed (.declared _)
      ((matched_of_pairs keys values order).slotted slotted fun _ _ pair => pair.isText)

theorem isCatalogue {document other : Document} (reorders : document.Reorders other)
    (isCatalogue : document.IsCatalogue) : other.IsCatalogue := by
  obtain ⟨keyed, values⟩ := isCatalogue
  cases reorders with
  | mapping keys pairs order =>
    have matched := matched_of_pairs keys pairs order
    refine .mapping (matched.keyed keyed) fun other there => ?_
    obtain ⟨member, here, _, pair⟩ := matched.left other there
    exact pair.valid (values member here)

/-- **Reordering respects the rules.** Of two documents that differ in the order of members only,
both are catalogues or neither is. -/
theorem isCatalogue_iff {document other : Document} (reorders : document.Reorders other) :
    document.IsCatalogue ↔ other.IsCatalogue :=
  ⟨reorders.isCatalogue, reorders.symm.isCatalogue⟩

end Reorders

/-- No mapping of a document, at any depth, repeats a key. -/
inductive Unrepeated : Document → Prop
  | text (value : String) : Unrepeated (.text value)
  | literal (kind : Literal) : Unrepeated (.literal kind)
  | sequence {items : List Document} (each : ∀ item ∈ items, Unrepeated item) :
      Unrepeated (.sequence items)
  | mapping {members : List (String × Document)} (distinct : (members.map Prod.fst).Nodup)
      (values : ∀ member ∈ members, Unrepeated member.2) : Unrepeated (.mapping members)
  | indexed {members : List (String × Document)} (distinct : (members.map Prod.fst).Nodup)
      (values : ∀ member ∈ members, Unrepeated member.2) : Unrepeated (.indexed members)

mutual

/-- A document with the members of all its mappings in increasing order of their keys; of the
members under one key the last is kept. -/
def sorted : Document → Document
  | .text value => .text value
  | .sequence items => .sequence (sortedItems items)
  | .mapping members => .mapping (Ordered.ofList Prod.fst (sortedMembers members))
  | .indexed members => .indexed (Ordered.ofList Prod.fst (sortedMembers members))
  | .literal kind => .literal kind

/-- The items of a sequence, each sorted. -/
def sortedItems : List Document → List Document
  | [] => []
  | item :: rest => item.sorted :: sortedItems rest

/-- The members of a mapping, the value of each sorted. -/
def sortedMembers : List (String × Document) → List (String × Document)
  | [] => []
  | (key, value) :: rest => (key, value.sorted) :: sortedMembers rest

end

theorem sortedItems_eq_map (items : List Document) : sortedItems items = items.map sorted := by
  induction items with
  | nil => rfl
  | cons item rest ih => rw [sortedItems, ih, List.map_cons]

theorem sortedMembers_eq_map (members : List (String × Document)) :
    sortedMembers members = members.map fun member => (member.1, member.2.sorted) := by
  induction members with
  | nil => rfl
  | cons member rest ih => rw [sortedMembers, ih, List.map_cons]

/-- The members of a mapping, with all their values sorted, are sorted in turn. -/
theorem sorted_pairs {members : List (String × Document)}
    (distinct : (members.map Prod.fst).Nodup)
    (values : ∀ member ∈ members, member.2.Reorders member.2.sorted) :
    members.map Prod.fst = (sortedMembers members).map Prod.fst ∧
      (∀ pair ∈ members.zip (sortedMembers members), pair.1.2.Reorders pair.2.2) ∧
      (sortedMembers members).Perm (Ordered.ofList Prod.fst (sortedMembers members)) := by
  have keys : members.map Prod.fst = (sortedMembers members).map Prod.fst := by
    rw [sortedMembers_eq_map, List.map_map]
    rfl
  refine ⟨keys, fun pair present => ?_, (Ordered.ofList_perm (keys ▸ distinct)).symm⟩
  rw [sortedMembers_eq_map, ← List.map_prod_left_eq_zip] at present
  obtain ⟨member, here, rfl⟩ := List.mem_map.mp present
  exact values member here

/-- **Sorting reorders** a document in which no key is repeated. -/
theorem Unrepeated.reorders_sorted {document : Document} (unrepeated : document.Unrepeated) :
    document.Reorders document.sorted := by
  induction unrepeated with
  | text value =>
    rw [sorted]
    exact .text value
  | literal kind =>
    rw [sorted]
    exact .literal kind
  | sequence each ih =>
    rw [sorted, sortedItems_eq_map]
    refine .sequence (List.length_map sorted).symm fun pair present => ?_
    rw [← List.map_prod_left_eq_zip] at present
    obtain ⟨item, here, rfl⟩ := List.mem_map.mp present
    exact ih item here
  | mapping distinct values ih =>
    obtain ⟨keys, pairs, order⟩ := sorted_pairs distinct ih
    rw [sorted]
    exact .mapping keys pairs order
  | indexed distinct values ih =>
    obtain ⟨keys, pairs, order⟩ := sorted_pairs distinct ih
    rw [sorted]
    exact .indexed keys pairs order

end Phrasebook.Document
