import Phrasebook.Json.Reading
import Phrasebook.Proofs.Catalogue.Correspondence
import Phrasebook.Proofs.Catalogue.Similar
import Phrasebook.Proofs.Document.Reordering

/-! # Catalogues of reordered documents

Checking goes through the members of a mapping from the first to the last and stops at the first
fault, yet what it accepts and what it makes does not depend on their order. An indexed map gets
the same entries, because the keys of its members are read apart
(`Phrasebook.Catalogue.reordered_of_entriesOf`); a namespace keeps its children in the order of
their names anyway (`Phrasebook.Catalogue.similar_of_childrenOf`). So reordered documents are
accepted or refused together, and their catalogues can take each other's place
(`Phrasebook.Catalogue.reordering_is_interchangeable`).
-/

namespace Phrasebook

open Document (Matched Reorders)
open Outcome (Agree)

namespace Document

theorem WritesSlot.of_reorders {member other : String × Document}
    {slot : IndexedMap.Key × Template} (writes : WritesSlot member slot)
    (key : other.1 = member.1) (value : member.2.Reorders other.2) : WritesSlot other slot where
  key := key ▸ writes.key
  value := (writes.value ▸ value).text_eq

theorem WritesSlot.unique {member : String × Document} {slot other : IndexedMap.Key × Template}
    (writes : WritesSlot member slot) (again : WritesSlot member other) : slot = other := by
  have texts : Document.text slot.2.text = .text other.2.text :=
    writes.value.symm.trans again.value
  refine Prod.ext (IndexedMap.Key.reading_injective (writes.key.trans again.key.symm)) ?_
  exact congrArg Template.mk (Document.text.inj texts)

end Document

namespace Catalogue

theorem mem_of_writesSlot {related : Document → Document → Prop}
    {members others : List (String × Document)} (matched : Matched related members others)
    (transfers : ∀ document other, related document other → document.Reorders other)
    {entries otherEntries : List (IndexedMap.Key × Template)}
    (slots : List.Forall₂ Document.WritesSlot members entries)
    (otherSlots : List.Forall₂ Document.WritesSlot others otherEntries) :
    ∀ slot ∈ entries, slot ∈ otherEntries := by
  intro slot listed
  obtain ⟨member, here, writes⟩ := Related.exists_left slots listed
  obtain ⟨other, there, key, pair⟩ := matched.right member here
  obtain ⟨otherSlot, otherListed, otherWrites⟩ := Related.exists_right otherSlots there
  rw [(writes.of_reorders key (transfers _ _ pair)).unique otherWrites]
  exact otherListed

/-- The members of reordered mappings become the same entries. -/
theorem reordered_of_entriesOf {members others : List (String × Document)}
    (matched : Matched Reorders members others) {place : String}
    {entries otherEntries : List (IndexedMap.Key × Template)}
    (built : entriesOf place [] members = .ok entries)
    (otherBuilt : entriesOf place [] others = .ok otherEntries) :
    IndexedMap.Reordered ⟨entries⟩ ⟨otherEntries⟩ := by
  have distinct := (wellFormed_of_entriesOf ⟨List.forall_mem_nil _, .nil⟩ built).distinct
  have otherDistinct := (wellFormed_of_entriesOf ⟨List.forall_mem_nil _, .nil⟩ otherBuilt).distinct
  obtain ⟨added, same, slots, _⟩ := adds_of_entriesOf built
  obtain ⟨otherAdded, otherSame, otherSlots, _⟩ := adds_of_entriesOf otherBuilt
  rw [List.nil_append] at same otherSame
  subst same otherSame
  refine ⟨distinct, (List.perm_ext_iff_of_nodup (.of_map _ distinct) (.of_map _ otherDistinct)).mpr
    fun slot => ⟨?_, ?_⟩⟩
  · exact mem_of_writesSlot matched (fun _ _ pair => pair) slots otherSlots slot
  · exact mem_of_writesSlot matched.symm (fun _ _ pair => pair.symm) otherSlots slots slot

theorem similar_of_indexedOf {members others : List (String × Document)}
    (matched : Matched Reorders members others) {place : String} {node otherNode : Node}
    (built : indexedOf place members = .ok node)
    (otherBuilt : indexedOf place others = .ok otherNode) : node.Similar otherNode := by
  obtain ⟨entries, listed, made⟩ := Outcome.bind_eq_ok_iff.mp built
  obtain ⟨otherEntries, otherListed, otherMade⟩ := Outcome.bind_eq_ok_iff.mp otherBuilt
  cases made
  cases otherMade
  exact .entry (.indexed (reordered_of_entriesOf matched listed otherListed))

theorem similar_of_childrenOf {members others : List (String × Document)}
    (matched : Matched (fun document other => ∀ place node otherNode,
      nodeOf place document = .ok node → nodeOf place other = .ok otherNode →
        node.Similar otherNode) members others)
    {place : String} {children otherChildren : Namespace}
    (built : childrenOf place [] members = .ok children)
    (otherBuilt : childrenOf place [] others = .ok otherChildren) :
    (Node.branch children).Similar (.branch otherChildren) := by
  have keyed := keyed_of_childrenOf Namespace.keyed_nil built
  have otherKeyed := keyed_of_childrenOf Namespace.keyed_nil otherBuilt
  have joins := joins_of_childrenOf built
  have otherJoins := joins_of_childrenOf otherBuilt
  have order := ((joins.perm_names keyed).trans matched.keys).trans
    (otherJoins.perm_names otherKeyed).symm
  have names := keyed.increasing.map_eq_of_perm otherKeyed.increasing order
  refine .branch names (Related.zip_of_keys names fun name node otherNode here there => ?_)
  obtain ⟨value, written, made⟩ := joins.exists_member (keyed.get?_eq_some_iff.mpr here)
  obtain ⟨otherValue, otherWritten, otherMade⟩ :=
    otherJoins.exists_member (otherKeyed.get?_eq_some_iff.mpr there)
  obtain ⟨⟨key, partner⟩, stands, same, related⟩ := matched.right _ written
  -- the other namespace has one member of the name, which is the partner of this one
  obtain rfl : key = name := same
  have sole : partner = otherValue := by
    have distinct := otherJoins.keyed.distinct
    have found := (Ordered.lookup_eq_some_iff_mem distinct).mpr stands
    have foundOther := (Ordered.lookup_eq_some_iff_mem distinct).mpr otherWritten
    exact Option.some.inj (found.symm.trans foundOther)
  exact related _ node otherNode made (sole ▸ otherMade)

theorem similar_of_nodeOf {document other : Document} (reorders : document.Reorders other)
    {place : String} {node otherNode : Node} (built : nodeOf place document = .ok node)
    (otherBuilt : nodeOf place other = .ok otherNode) : node.Similar otherNode := by
  induction reorders generalizing place node otherNode with
  | text value =>
    cases built.symm.trans otherBuilt
    exact .refl _
  | literal kind =>
    rw [nodeOf] at built
    cases built
  | @sequence items others length each ih =>
    have pairs : List.Forall₂ Reorders items others :=
      List.forall₂_iff_zip.mpr ⟨length, fun present => each _ present⟩
    rw [Reorders.texts_eq pairs (valid_of_nodeOf built).texts] at otherBuilt
    cases built.symm.trans otherBuilt
    exact .refl _
  | @mapping members between others keys values order ih =>
    have matched := Document.matched_of_pairs keys values order
    rcases Document.reads_mapping members with reads | reads
    · rw [nodeOf_of_readsIndexed reads] at built
      rw [nodeOf_of_readsIndexed (matched.readsIndexed reads)] at otherBuilt
      exact similar_of_indexedOf matched built otherBuilt
    · rw [nodeOf_of_readsNamespace reads] at built
      rw [nodeOf_of_readsNamespace (matched.readsNamespace reads)] at otherBuilt
      obtain ⟨children, listed, made⟩ := Outcome.bind_eq_ok_iff.mp built
      obtain ⟨otherChildren, otherListed, otherMade⟩ := Outcome.bind_eq_ok_iff.mp otherBuilt
      cases made
      cases otherMade
      have alike : Matched (fun document other => ∀ place node otherNode,
          nodeOf place document = .ok node → nodeOf place other = .ok otherNode →
            node.Similar otherNode) members others :=
        Document.matched_of_pairs keys (fun pair present _ _ _ => ih pair present) order
      exact similar_of_childrenOf alike listed otherListed
  | indexed keys values order ih =>
    rw [nodeOf] at built otherBuilt
    exact similar_of_indexedOf (Document.matched_of_pairs keys values order) built otherBuilt

theorem similar_of_ofDocument {document other : Document} (reorders : document.Reorders other)
    {first second : Catalogue} (accepted : ofDocument document = .ok first)
    (otherAccepted : ofDocument other = .ok second) : first.Similar second := by
  cases reorders with
  | @mapping members between others keys values order =>
    obtain ⟨root, listed, made⟩ := Outcome.bind_eq_ok_iff.mp accepted
    obtain ⟨otherRoot, otherListed, otherMade⟩ := Outcome.bind_eq_ok_iff.mp otherAccepted
    cases made
    cases otherMade
    have alike : Matched (fun document other => ∀ place node otherNode,
        nodeOf place document = .ok node → nodeOf place other = .ok otherNode →
          node.Similar otherNode) members others :=
      Document.matched_of_pairs keys
        (fun pair present _ _ _ => similar_of_nodeOf (values pair present)) order
    exact similar_of_childrenOf alike listed otherListed
  | text value => cases accepted
  | literal kind => cases accepted
  | sequence length each => cases accepted
  | indexed keys values order => cases accepted

theorem exists_ofDocument_iff {document : Document} :
    (∃ catalogue, ofDocument document = .ok catalogue) ↔ document.IsCatalogue := by
  constructor
  · exact fun ⟨_, accepted⟩ => isCatalogue_of_ofDocument accepted
  · intro valid
    cases outcome : ofDocument document with
    | ok catalogue => exact ⟨catalogue, rfl⟩
    | error fault =>
      obtain ⟨keys, flaw, flawed, _⟩ := rootFlawed_of_ofDocument outcome
      exact absurd valid flawed.not_isCatalogue

/-- Two catalogues can take each other's place: they list and count the same paths, a template
is found at the same addresses and indices, all other look-ups miss alike, and the indexed maps
stand under the same keys and hold the same entries, with the same templates at positions. Where
one of them is registered, look-ups with a fallback have the same outcome as with the other, but
for the order of an indexed map. -/
structure Interchangeable (first second : Catalogue) : Prop where
  entryPaths : first.entryPaths = second.entryPaths
  coveragePaths : first.coveragePaths = second.coveragePaths
  templates : ∀ address index template, first.find address index = .ok (.scalar template) ↔
    second.find address index = .ok (.scalar template)
  misses : ∀ address index miss,
    first.find address index = .error miss ↔ second.find address index = .error miss
  lists : ∀ names items, first.node? names = some (.entry (.list items)) ↔
    second.node? names = some (.entry (.list items))
  maps : ∀ names map, first.node? names = some (.entry (.indexed map)) →
    ∃ other, second.node? names = some (.entry (.indexed other)) ∧
      map.entries.Perm other.entries ∧ map.positional = other.positional
  findings : ∀ (registry : Registry) (locale wanted : Locale) address index,
    Agree Finding.Similar ((registry.register locale first).find wanted address index)
      ((registry.register locale second).find wanted address index)

namespace Similar

variable {first second : Catalogue} (similar : first.Similar second)
include similar

theorem find_template {address : Address} {index : Option Position} {template : Template}
    (found : first.find address index = .ok (.scalar template)) :
    second.find address index = .ok (.scalar template) := by
  obtain ⟨other, there, pair⟩ := (similar.find address index).exists_of_ok found
  rw [there, pair.eq_of_shape nofun]

theorem node?_list {names : List String} {items : List Template}
    (reached : first.node? names = some (.entry (.list items))) :
    second.node? names = some (.entry (.list items)) := by
  obtain ⟨other, there, pair⟩ := similar.exists_entry reached
  rw [there, pair.eq_of_shape nofun]

theorem interchangeable : first.Interchangeable second where
  entryPaths := similar.entryPaths_eq
  coveragePaths := similar.coveragePaths_eq
  templates _ _ _ := ⟨similar.find_template, similar.symm.find_template⟩
  misses _ _ _ := (similar.find _ _).eq_error_iff
  lists _ _ := ⟨similar.node?_list, similar.symm.node?_list⟩
  maps := by
    intro names map reached
    obtain ⟨_, there, pair⟩ := similar.exists_entry reached
    cases pair with
    | same _ => exact ⟨map, there, .refl _, rfl⟩
    | indexed reordered => exact ⟨_, there, reordered.order, reordered.positional_eq⟩
  findings registry locale wanted address index :=
    (Registry.similar_register registry locale similar).find wanted address index

end Similar

/-- **The order of keys does not matter.** Of two documents that differ only in the order of the
members of mappings, at any depth, both are accepted or both are refused, and when they are
accepted their catalogues can take each other's place. So it is with a JSON text that repeats no
key, and the same document with the members of all its mappings sorted. -/
theorem reordering_is_interchangeable :
    (∀ document other : Document, document.Reorders other →
      ((∃ first, ofDocument document = .ok first) ↔ ∃ second, ofDocument other = .ok second) ∧
        ∀ first second, ofDocument document = .ok first → ofDocument other = .ok second →
          first.Interchangeable second) ∧
      ∀ text document, Document.ofJson? text = some document → document.Unrepeated →
        ((∃ first, ofJson text = .ok first) ↔ ∃ second, ofDocument document.sorted = .ok second) ∧
          ∀ first second, ofJson text = .ok first → ofDocument document.sorted = .ok second →
            first.Interchangeable second := by
  have reordered (document other : Document) (reorders : document.Reorders other) :
      ((∃ first, ofDocument document = .ok first) ↔ ∃ second, ofDocument other = .ok second) ∧
        ∀ first second, ofDocument document = .ok first → ofDocument other = .ok second →
          first.Interchangeable second := by
    refine ⟨?_, fun first second accepted otherAccepted => ?_⟩
    · rw [exists_ofDocument_iff, exists_ofDocument_iff]
      exact reorders.isCatalogue_iff
    · exact (similar_of_ofDocument reorders accepted otherAccepted).interchangeable
  refine ⟨reordered, fun text document read unrepeated => ?_⟩
  have same : ofJson text = ofDocument document := by rw [ofJson, read]
  rw [same]
  exact reordered document document.sorted unrepeated.reorders_sorted

/-- Hints under a name and a position, in two orders below a namespace, and a text in which a
title stands before a greeting. -/
theorem reordering_is_interchangeable_hints :
    let hints : Document := .mapping [("last", .text "Retry."), ("2", .text "Wait.")]
    let moved : Document := .mapping [("2", .text "Wait."), ("last", .text "Retry.")]
    let document : Document := .mapping [("title", .text "Menu"), ("hints", hints)]
    let other : Document := .mapping [("hints", moved), ("title", .text "Menu")]
    let text := "\x7b\"title\":\"Menu\",\"hello\":\"Hello\"\x7d"
    document.Reorders other ∧
      (∃ first second, ofDocument document = .ok first ∧ ofDocument other = .ok second ∧
        first ≠ second ∧ first.Interchangeable second) ∧
      ∃ read catalogue, Document.ofJson? text = some read ∧ read.Unrepeated ∧
        ofJson text = .ok catalogue ∧ ofDocument read.sorted = .ok catalogue ∧
        catalogue.Interchangeable catalogue := by
  intro hints moved document other text
  have inner : hints.Reorders moved := by
    refine @Document.Reorders.mapping _ [("last", .text "Retry."), ("2", .text "Wait.")] _ rfl ?_
      (.swap _ _ _)
    exact List.forall_mem_cons.mpr ⟨.text _, List.forall_mem_singleton.mpr (.text _)⟩
  have reorders : document.Reorders other := by
    refine @Document.Reorders.mapping _ [("title", .text "Menu"), ("hints", moved)] _ rfl ?_
      (.swap _ _ _)
    exact List.forall_mem_cons.mpr ⟨.text _, List.forall_mem_singleton.mpr inner⟩
  let read : Document := .mapping [("title", .text "Menu"), ("hello", .text "Hello")]
  have parsed : Document.ofJson? text = some read := by
    have tokens : Json.tokens? text.toList = some [.openBrace, .text "title", .colon, .text "Menu",
        .comma, .text "hello", .colon, .text "Hello", .closeBrace] := by decide +kernel
    rw [Document.ofJson?, tokens]
    rfl
  have unrepeated : read.Unrepeated := by
    refine .mapping (by decide) ?_
    exact List.forall_mem_cons.mpr ⟨.text _, List.forall_mem_singleton.mpr (.text _)⟩
  have accepted : ofDocument document = .ok ⟨[("hints", .entry (.indexed
      ⟨[(.name "last", ⟨"Retry."⟩), (.position 2, ⟨"Wait."⟩)]⟩)),
      ("title", .entry (.scalar ⟨"Menu"⟩))]⟩ := rfl
  have otherAccepted : ofDocument other = .ok ⟨[("hints", .entry (.indexed
      ⟨[(.position 2, ⟨"Wait."⟩), (.name "last", ⟨"Retry."⟩)]⟩)),
      ("title", .entry (.scalar ⟨"Menu"⟩))]⟩ := rfl
  have made : ofJson text = .ok ⟨[("hello", .entry (.scalar ⟨"Hello"⟩)),
      ("title", .entry (.scalar ⟨"Menu"⟩))]⟩ := by
    rw [ofJson, parsed]
    rfl
  have sortedMade : ofDocument read.sorted = .ok ⟨[("hello", .entry (.scalar ⟨"Hello"⟩)),
      ("title", .entry (.scalar ⟨"Menu"⟩))]⟩ := rfl
  obtain ⟨ofDocuments, ofTexts⟩ := reordering_is_interchangeable
  refine ⟨reorders, ⟨_, _, accepted, otherAccepted, by decide,
    (ofDocuments document other reorders).2 _ _ accepted otherAccepted⟩, ?_⟩
  exact ⟨read, _, parsed, unrepeated, made, sortedMade,
    (ofTexts text read parsed unrepeated).2 _ _ made sortedMade⟩

end Catalogue

end Phrasebook
