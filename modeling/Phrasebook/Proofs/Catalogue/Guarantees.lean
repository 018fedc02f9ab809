import Phrasebook.Proofs.Address.Grammar
import Phrasebook.Proofs.Catalogue.Holding
import Phrasebook.Proofs.Catalogue.Similar
import Phrasebook.Proofs.File.Source

/-! # What every catalogue guarantees

A catalogue is the empty one, or it comes from a document, from a JSON text, from a draft or from
a file (`Phrasebook.Catalogue.Obtained`). All of these ways end in the check of a document, so a
catalogue that is obtained in any of them is well-formed
(`Phrasebook.Catalogue.Obtained.wellFormed`), and so is whatever it contains at any depth
(`Phrasebook.Node.Contains.wellFormed`). For those who look things up this means that no name of a
namespace can be mistaken, and that the look-ups, the listing and the view by position of an
indexed map tell the same story
(`Phrasebook.Catalogue.obtained_guarantees`).
-/

namespace Phrasebook

/-- A tree contains another one behind a chain of names. Every child of a namespace counts, found
by a look-up or not. -/
inductive Node.Contains : Node → List String → Node → Prop
  | here (node : Node) : Contains node [] node
  | inside {children : Namespace} {name : String} {child : Node}
      (present : (name, child) ∈ children) {names : List String} {node : Node}
      (inner : Contains child names node) : Contains (.branch children) (name :: names) node

/-- A catalogue contains a tree behind a chain of names from its root. -/
def Catalogue.Contains (catalogue : Catalogue) (names : List String) (node : Node) : Prop :=
  (Node.branch catalogue.root).Contains names node

/-- The ways in which catalogues are made. -/
inductive Catalogue.Obtained : Catalogue → Prop
  | empty : Obtained empty
  | document {document : Document} {catalogue : Catalogue}
      (accepted : ofDocument document = .ok catalogue) : Obtained catalogue
  | json {text : String} {catalogue : Catalogue} (accepted : ofJson text = .ok catalogue) :
      Obtained catalogue
  | decoded {text : String} {catalogue : Catalogue} (accepted : decodeJson text = .ok catalogue) :
      Obtained catalogue
  | draft {draft : Draft} {catalogue : Catalogue} (accepted : ofDraft draft = .ok catalogue) :
      Obtained catalogue
  | file {format : File.Format} {path text : String} {catalogue : Catalogue}
      (accepted : format.parse path text = .ok catalogue) : Obtained catalogue

/-- What an indexed map promises: its keys are different and look different, its names can be
named by an address and are no numerals, every look-up finds what is listed under its key and
nothing else, and the view by position has the items at positions, each once, in the order of the
positions. -/
structure IndexedMap.Sound (map : IndexedMap) : Prop where
  distinct : (map.entries.map Prod.fst).Nodup
  texts : (map.entries.map fun item => item.1.text).Nodup
  names : ∀ name template, (.name name, template) ∈ map.entries →
    Address.IsKey name ∧ ¬ Text.IsNumeral name.toList
  get?_iff : ∀ key template, map.get? key = some template ↔ (key, template) ∈ map.entries
  named?_eq : ∀ name, map.named? name = map.get? (.name name)
  atPosition?_eq : ∀ index, map.atPosition? index = map.get? (.position index)
  increasing : map.positional.Pairwise fun first second => first.1 < second.1
  positional_iff : ∀ index template,
    (index, template) ∈ map.positional ↔ (.position index, template) ∈ map.entries

namespace IndexedMap.WellFormed

variable {map : IndexedMap} (wellFormed : map.WellFormed)
include wellFormed

theorem increasing_positional :
    map.positional.Pairwise fun first second => first.1 < second.1 := by
  have keys : map.entries.Pairwise fun first second => first.1 ≠ second.1 :=
    List.pairwise_map.mp wellFormed.distinct
  have different : map.positional.Pairwise fun first second => first.1 ≠ second.1 := by
    rw [positional, (List.mergeSort_perm _ _).pairwise_iff Ne.symm, List.pairwise_filterMap]
    refine keys.imp ?_
    intro first second apart slot here other there same
    obtain ⟨key, template⟩ := first
    obtain ⟨otherKey, otherTemplate⟩ := second
    cases key with
    | name text => cases here
    | position index =>
      cases otherKey with
      | name text => cases there
      | position next =>
        cases here
        cases there
        exact apart (congrArg Key.position same)
  exact (map.pairwise_positional.and different).imp fun both =>
    UInt64.lt_of_le_of_ne both.1 both.2

theorem sound : map.Sound where
  distinct := wellFormed.distinct
  texts := wellFormed.nodup_texts
  names := by
    intro name template present
    obtain ⟨valid, plain⟩ := wellFormed.keys _ present
    exact ⟨valid, fun numeral => by simp [(Text.isNumeral_iff _).mpr numeral] at plain⟩
  get?_iff _ _ := wellFormed.get?_eq_some_iff
  named?_eq := map.named?_eq_get?
  atPosition?_eq _ := rfl
  increasing := wellFormed.increasing_positional
  positional_iff _ _ := IndexedMap.mem_positional_iff

end IndexedMap.WellFormed

theorem Node.Contains.wellFormed {tree node : Node} {names : List String}
    (contains : tree.Contains names node) (wellFormed : tree.WellFormed) : node.WellFormed := by
  induction contains with
  | here node => exact wellFormed
  | inside present _ ih =>
    cases wellFormed with
    | branch _ _ nodes => exact ih (nodes _ present)

namespace Catalogue

theorem ofDocument_of_ofJson {text : String} {catalogue : Catalogue}
    (accepted : ofJson text = .ok catalogue) :
    ∃ document, Document.ofJson? text = some document ∧ ofDocument document = .ok catalogue := by
  rw [ofJson] at accepted
  cases read : Document.ofJson? text with
  | none =>
    rw [read] at accepted
    cases accepted
  | some document =>
    rw [read] at accepted
    exact ⟨document, rfl, accepted⟩

theorem ofDocument_of_decodeJson {text : String} {catalogue : Catalogue}
    (accepted : decodeJson text = .ok catalogue) :
    ∃ document, Document.firstOfJson? text = some document ∧
      ofDocument document = .ok catalogue := by
  rw [decodeJson] at accepted
  cases read : Document.firstOfJson? text with
  | none =>
    rw [read] at accepted
    cases accepted
  | some document =>
    cases made : ofDocument document with
    | error fault =>
      simp only [read, made] at accepted
      cases accepted
    | ok decoded =>
      simp only [read, made] at accepted
      split at accepted
      · cases accepted
        exact ⟨document, rfl, made⟩
      · cases accepted

/-- However a catalogue was made, a document was checked for it. -/
theorem Obtained.exists_document {catalogue : Catalogue} (obtained : catalogue.Obtained) :
    ∃ document, ofDocument document = .ok catalogue := by
  cases obtained with
  | empty =>
    refine ⟨.mapping [], ?_⟩
    rw [ofDocument, childrenOf]
    rfl
  | document accepted => exact ⟨_, accepted⟩
  | json accepted =>
    obtain ⟨document, _, made⟩ := ofDocument_of_ofJson accepted
    exact ⟨document, made⟩
  | decoded accepted =>
    obtain ⟨document, _, made⟩ := ofDocument_of_decodeJson accepted
    exact ⟨document, made⟩
  | draft accepted => exact ⟨_, accepted⟩
  | file accepted =>
    obtain ⟨document, _, made⟩ := File.Format.parse_eq_ok_iff.mp accepted
    exact ⟨document, made⟩

theorem Obtained.wellFormed {catalogue : Catalogue} (obtained : catalogue.Obtained) :
    catalogue.WellFormed := by
  obtain ⟨document, made⟩ := obtained.exists_document
  exact wellFormed_of_ofDocument made

/-- Below the root, a catalogue contains well-formed trees only. -/
theorem WellFormed.of_contains {catalogue : Catalogue} (wellFormed : catalogue.WellFormed)
    {name : String} {names : List String} {node : Node}
    (contains : catalogue.Contains (name :: names) node) : node.WellFormed := by
  cases contains with
  | inside present inner => exact inner.wellFormed (wellFormed.nodes _ present)

/-- **What every catalogue guarantees.** However a catalogue was made, the names of each of its
namespaces are in increasing order and can be named by an address, and below the root none of them
consists of digits. Each of its indexed maps, at any depth, is sound. -/
theorem obtained_guarantees {catalogue : Catalogue} (obtained : catalogue.Obtained) :
    (∀ names children, catalogue.Contains names (.branch children) →
        Namespace.Keyed children ∧
          (names ≠ [] → ∀ child ∈ children, ¬ Text.IsNumeral child.1.toList)) ∧
      ∀ names map, catalogue.Contains names (.entry (.indexed map)) → map.Sound := by
  have wellFormed := obtained.wellFormed
  -- the root alone may have names of digits, so an empty chain of names is a case of its own
  refine ⟨fun names children contains => ?_, fun names map contains => ?_⟩
  · cases names with
    | nil =>
      cases contains
      exact ⟨wellFormed.keyed, fun below => absurd rfl below⟩
    | cons name names =>
      cases wellFormed.of_contains contains with
      | branch keyed plain _ =>
        refine ⟨keyed, fun _ child present numeral => ?_⟩
        rw [← Text.isNumeral_iff, plain child present] at numeral
        cases numeral
  · cases names with
    | nil => cases contains
    | cons name names =>
      cases wellFormed.of_contains contains with
      | entry sound => exact IndexedMap.WellFormed.sound sound

/-- Two positions, one of them written with a zero in front, and a name between them. -/
theorem obtained_guarantees_hints :
    let text :=
      "\x7b\"menu\":\x7b\"hints\":\x7b\"10\":\"Go\",\"all\":\"Ask\",\"02\":\"Wait\"\x7d\x7d\x7d"
    let hints : IndexedMap :=
      ⟨[(.position 10, ⟨"Go"⟩), (.name "all", ⟨"Ask"⟩), (.position 2, ⟨"Wait"⟩)]⟩
    let catalogue : Catalogue := ⟨[("menu", .branch [("hints", .entry (.indexed hints))])]⟩
    ofJson text = .ok catalogue ∧ hints.Sound ∧
      hints.positional = [(2, ⟨"Wait"⟩), (10, ⟨"Go"⟩)] := by
  intro text hints catalogue
  have accepted : ofJson text = .ok catalogue := by decide +kernel
  have contains : catalogue.Contains ["menu", "hints"] (.entry (.indexed hints)) :=
    .inside (List.mem_singleton_self _) (.inside (List.mem_singleton_self _) (.here _))
  have guarantees := obtained_guarantees (.json accepted)
  refine ⟨accepted, guarantees.2 _ _ contains, ?_⟩
  simp [hints, IndexedMap.positional, List.mergeSort]

end Catalogue

end Phrasebook
