import Phrasebook.Catalogue.Fault
import Phrasebook.Entry
import Phrasebook.Proofs.Address.Spelling

/-! # Valid documents

A mapping is read in one of two ways: as an indexed map when it was written as one or has a
key of digits (`Phrasebook.Document.ReadsIndexed`), and as a namespace otherwise
(`Phrasebook.Document.ReadsNamespace`). Which documents are catalogues
(`Phrasebook.Document.IsCatalogue`) is said along these readings, and so is what may be wrong
at a place of a document (`Phrasebook.Document.RootFlawed`). A document with a flaw is no
catalogue (`Phrasebook.Document.RootFlawed.not_isCatalogue`).
-/

namespace Phrasebook

namespace IndexedMap

/-- What a key of an indexed map is read as: a number when it consists of digits, and a name
otherwise. -/
def readingOf (key : String) : Nat ⊕ String :=
  if Text.isNumeral key.toList = true then .inl (Text.numeralValue key.toList) else .inr key

/-- What a key of a map stands for, as the keys of a document are read. -/
def Key.reading : Key → Nat ⊕ String
  | .position index => .inl index.toNat
  | .name text => .inr text

theorem Key.reading_injective : Function.Injective Key.reading := by
  intro first second same
  cases first with
  | position index =>
    cases second with
    | position other => exact congrArg Key.position (UInt64.toNat_inj.mp (Sum.inl.inj same))
    | name text => cases same
  | name text =>
    cases second with
    | position other => cases same
    | name other => exact congrArg Key.name (Sum.inr.inj same)

theorem readingOf_of_numeral {key : String} (numeral : Text.isNumeral key.toList = true) :
    readingOf key = .inl (Text.numeralValue key.toList) := if_pos numeral

theorem readingOf_of_not_numeral {key : String} (name : Text.isNumeral key.toList = false) :
    readingOf key = .inr key := if_neg (by simp [name])

end IndexedMap

/-- What is wrong at a place of a document: a reason why it is invalid, or a key that repeats
an earlier one. -/
inductive Catalogue.Flaw
  | invalid (reason : Reason)
  | repeated

/-- The fault that reports a flaw at a place. -/
def Catalogue.Flaw.at (flaw : Flaw) (place : String) : Fault :=
  match flaw with
  | .invalid reason => .invalid place reason
  | .repeated => .duplicateKey place

namespace Document

open Catalogue (Flaw Reason)

/-- Documents that are texts. -/
def IsText (document : Document) : Prop := ∃ value, document = .text value

/-- The mappings that are read as indexed maps, with their members. -/
inductive ReadsIndexed : Document → List (String × Document) → Prop
  | declared (members : List (String × Document)) : ReadsIndexed (.indexed members) members
  | numbered {members : List (String × Document)}
      (digits : ∃ member ∈ members, Text.isNumeral member.1.toList = true) :
      ReadsIndexed (.mapping members) members

/-- The mappings that are read as namespaces below the root, with their members. -/
inductive ReadsNamespace : Document → List (String × Document) → Prop
  | named {members : List (String × Document)}
      (names : ∀ member ∈ members, Text.isNumeral member.1.toList = false) :
      ReadsNamespace (.mapping members) members

/-- A document is a text, a sequence, a literal, or a mapping in one of its two readings, whose
members may be assumed to have the property that is shown of it. -/
@[elab_as_elim]
theorem inductionOnReading {motive : Document → Prop}
    (text : ∀ value, motive (.text value))
    (sequence : ∀ items, motive (.sequence items))
    (literal : ∀ kind, motive (.literal kind))
    (indexed : ∀ {document members}, document.ReadsIndexed members → motive document)
    (namespaced : ∀ {document members}, document.ReadsNamespace members →
      (∀ member ∈ members, motive member.2) → motive document) :
    ∀ document, motive document
  | .text value => text value
  | .sequence items => sequence items
  | .literal kind => literal kind
  | .indexed members => indexed (.declared members)
  | .mapping members => by
    by_cases digits : ∃ member ∈ members, Text.isNumeral member.1.toList = true
    · exact indexed (.numbered digits)
    · have names : ∀ member ∈ members, Text.isNumeral member.1.toList = false :=
        fun member present =>
          Bool.eq_false_iff.mpr fun numeral => digits ⟨member, present, numeral⟩
      refine namespaced (.named names) fun member present => ?_
      have smaller : sizeOf member.2 < sizeOf members := by
        have inside := List.sizeOf_lt_of_mem present
        have own : sizeOf member.2 < sizeOf member := by
          cases member
          simp +arith
        exact own.trans inside
      exact inductionOnReading text sequence literal indexed namespaced member.2
termination_by document => sizeOf document
decreasing_by
  simp only [Document.mapping.sizeOf_spec]
  omega

/-- Members under different keys, all of which an address can name. -/
structure Keyed (members : List (String × Document)) : Prop where
  keys : ∀ member ∈ members, Address.IsKey member.1
  distinct : (members.map Prod.fst).Nodup

/-- Texts under keys that an address can name, of which those of digits are less than
`2 ^ 64`, and no two are read alike. -/
structure Slotted (members : List (String × Document)) : Prop where
  keys : ∀ member ∈ members, Address.IsKey member.1
  texts : ∀ member ∈ members, member.2.IsText
  small : ∀ member ∈ members, Text.isNumeral member.1.toList = true →
    Text.numeralValue member.1.toList < UInt64.size
  distinct : (members.map fun member => IndexedMap.readingOf member.1).Nodup

/-- What may stand below the root of a catalogue: texts, sequences of texts, indexed maps, and
namespaces of all these. -/
inductive Valid : Document → Prop
  | text (value : String) : Valid (.text value)
  | sequence {items : List Document} (texts : ∀ item ∈ items, item.IsText) :
      Valid (.sequence items)
  | indexed {document : Document} {members : List (String × Document)}
      (reads : document.ReadsIndexed members) (slotted : Slotted members) : Valid document
  | namespaced {document : Document} {members : List (String × Document)}
      (reads : document.ReadsNamespace members) (keyed : Keyed members)
      (values : ∀ member ∈ members, Valid member.2) : Valid document

/-- The documents that are catalogues: mappings, which are namespaces whatever their keys
are, of valid documents. -/
inductive IsCatalogue : Document → Prop
  | mapping {members : List (String × Document)} (keyed : Keyed members)
      (values : ∀ member ∈ members, member.2.Valid) : IsCatalogue (.mapping members)

/-- Why no address can name a key. -/
inductive KeyFlawed : String → Reason → Prop
  | empty : KeyFlawed "" .emptyKey
  | reserved {key : String} (holds : '.' ∈ key.toList ∨ '[' ∈ key.toList ∨ ']' ∈ key.toList) :
      KeyFlawed key .reservedKey

/-- What is wrong with a key of a namespace. -/
inductive NameFlawed (members : List (String × Document)) : String → Flaw → Prop
  | form {member : String × Document} (present : member ∈ members) {reason : Reason}
      (flawed : KeyFlawed member.1 reason) : NameFlawed members member.1 (.invalid reason)
  | repeated {earlier later : List (String × Document)} {member : String × Document}
      (parts : members = earlier ++ member :: later) (again : member.1 ∈ earlier.map Prod.fst) :
      NameFlawed members member.1 .repeated

/-- What is wrong with a member of an indexed map. -/
inductive SlotFlawed (members : List (String × Document)) : String → Flaw → Prop
  | form {member : String × Document} (present : member ∈ members) {reason : Reason}
      (flawed : KeyFlawed member.1 reason) : SlotFlawed members member.1 (.invalid reason)
  | large {member : String × Document} (present : member ∈ members)
      (numeral : Text.isNumeral member.1.toList = true)
      (large : UInt64.size ≤ Text.numeralValue member.1.toList) :
      SlotFlawed members member.1 (.invalid .largeIndex)
  | noText {member : String × Document} (present : member ∈ members) (noText : ¬ member.2.IsText) :
      SlotFlawed members member.1 (.invalid (.noText member.2.kind))
  | repeated {earlier later : List (String × Document)} {member : String × Document}
      (parts : members = earlier ++ member :: later)
      (again : IndexedMap.readingOf member.1 ∈
        earlier.map fun member => IndexedMap.readingOf member.1) :
      SlotFlawed members member.1 .repeated

/-- What is wrong at the place of a document below the root that a chain of keys leads to; the
items of a sequence have their numbers for keys. -/
inductive Flawed : Document → List String → Flaw → Prop
  | literal (kind : Literal) : Flawed (.literal kind) [] (.invalid (.literal kind))
  | item {items : List Document} {index : Nat} {item : Document}
      (stands : items[index]? = some item) (noText : ¬ item.IsText) :
      Flawed (.sequence items) [String.ofList (Nat.toDigits 10 index)]
        (.invalid (.noText item.kind))
  | slot {document : Document} {members : List (String × Document)}
      (reads : document.ReadsIndexed members) {key : String} {flaw : Flaw}
      (flawed : SlotFlawed members key flaw) : Flawed document [key] flaw
  | name {document : Document} {members : List (String × Document)}
      (reads : document.ReadsNamespace members) {key : String} {flaw : Flaw}
      (flawed : NameFlawed members key flaw) : Flawed document [key] flaw
  | inside {document : Document} {members : List (String × Document)}
      (reads : document.ReadsNamespace members) {member : String × Document}
      (present : member ∈ members) {keys : List String} {flaw : Flaw}
      (flawed : Flawed member.2 keys flaw) : Flawed document (member.1 :: keys) flaw

/-- What is wrong at the place of a whole document that a chain of keys leads to. -/
inductive RootFlawed : Document → List String → Flaw → Prop
  | root {document : Document} (noMapping : ∀ members, document ≠ .mapping members) :
      RootFlawed document [] (.invalid (.rootKind document.kind))
  | name {members : List (String × Document)} {key : String} {flaw : Flaw}
      (flawed : NameFlawed members key flaw) : RootFlawed (.mapping members) [key] flaw
  | inside {members : List (String × Document)} {member : String × Document}
      (present : member ∈ members) {keys : List String} {flaw : Flaw}
      (flawed : member.2.Flawed keys flaw) :
      RootFlawed (.mapping members) (member.1 :: keys) flaw

theorem KeyFlawed.not_isKey {key : String} {reason : Reason} (flawed : KeyFlawed key reason) :
    ¬ Address.IsKey key := by
  intro valid
  cases flawed with
  | empty => exact valid.1 rfl
  | reserved holds =>
    rcases holds with dot | opening | closing
    · exact valid.2.1 dot
    · exact valid.2.2.1 opening
    · exact valid.2.2.2 closing

theorem ReadsIndexed.not_readsNamespace {document : Document}
    {members others : List (String × Document)} (reads : document.ReadsIndexed members) :
    ¬ document.ReadsNamespace others := by
  intro other
  cases other with
  | named names =>
    cases reads with
    | numbered digits =>
      obtain ⟨member, present, numeral⟩ := digits
      exact absurd numeral (Bool.eq_false_iff.mp (names member present))

theorem ReadsIndexed.members_eq {document : Document} {members others : List (String × Document)}
    (reads : document.ReadsIndexed members) (again : document.ReadsIndexed others) :
    members = others := by
  cases reads <;> cases again <;> rfl

theorem ReadsNamespace.members_eq {document : Document} {members others : List (String × Document)}
    (reads : document.ReadsNamespace members) (again : document.ReadsNamespace others) :
    members = others := by
  cases reads
  cases again
  rfl

theorem Valid.texts {items : List Document} (valid : (Document.sequence items).Valid) :
    ∀ item ∈ items, item.IsText := by
  cases valid with
  | sequence texts => exact texts
  | indexed reads slotted => cases reads
  | namespaced reads keyed values => cases reads

theorem Valid.slotted {document : Document} (valid : document.Valid)
    {members : List (String × Document)} (reads : document.ReadsIndexed members) :
    Slotted members := by
  cases valid with
  | text value => cases reads
  | sequence texts => cases reads
  | indexed other slotted => exact reads.members_eq other ▸ slotted
  | namespaced other keyed values => exact absurd other reads.not_readsNamespace

theorem Valid.keyed {document : Document} (valid : document.Valid)
    {members : List (String × Document)} (reads : document.ReadsNamespace members) :
    Keyed members ∧ ∀ member ∈ members, member.2.Valid := by
  cases valid with
  | text value => cases reads
  | sequence texts => cases reads
  | indexed other slotted => exact absurd reads other.not_readsNamespace
  | namespaced other keyed values => exact reads.members_eq other ▸ ⟨keyed, values⟩

theorem not_nodup_of_again {α : Type} (reading : String × Document → α)
    {earlier later : List (String × Document)} {member : String × Document}
    (again : reading member ∈ earlier.map reading) :
    ¬ ((earlier ++ member :: later).map reading).Nodup := by
  intro distinct
  rw [List.map_append, List.map_cons] at distinct
  have apart := (List.nodup_append.mp distinct).2.2
  exact apart _ again _ List.mem_cons_self rfl

theorem NameFlawed.not_keyed {members : List (String × Document)} {key : String} {flaw : Flaw}
    (flawed : NameFlawed members key flaw) : ¬ Keyed members := by
  intro keyed
  cases flawed with
  | form present flawed => exact flawed.not_isKey (keyed.keys _ present)
  | repeated parts again => exact not_nodup_of_again Prod.fst again (parts ▸ keyed.distinct)

theorem SlotFlawed.not_slotted {members : List (String × Document)} {key : String} {flaw : Flaw}
    (flawed : SlotFlawed members key flaw) : ¬ Slotted members := by
  intro slotted
  cases flawed with
  | form present flawed => exact flawed.not_isKey (slotted.keys _ present)
  | large present numeral large =>
    exact absurd (slotted.small _ present numeral) (Nat.not_lt_of_le large)
  | noText present noText => exact noText (slotted.texts _ present)
  | repeated parts again =>
    exact not_nodup_of_again (fun member => IndexedMap.readingOf member.1) again
      (parts ▸ slotted.distinct)

theorem Flawed.not_valid {document : Document} {keys : List String} {flaw : Flaw}
    (flawed : document.Flawed keys flaw) : ¬ document.Valid := by
  induction flawed with
  | literal kind =>
    intro valid
    cases valid with
    | indexed reads slotted => cases reads
    | namespaced reads keyed values => cases reads
  | item stands noText =>
    exact fun valid => noText (valid.texts _ (List.mem_of_getElem? stands))
  | slot reads flawed => exact fun valid => flawed.not_slotted (valid.slotted reads)
  | name reads flawed => exact fun valid => flawed.not_keyed (valid.keyed reads).1
  | inside reads present flawed ih => exact fun valid => ih ((valid.keyed reads).2 _ present)

/-- **A flaw is a fault.** A document with a flaw at some place is no catalogue. -/
theorem RootFlawed.not_isCatalogue {document : Document} {keys : List String} {flaw : Flaw}
    (flawed : document.RootFlawed keys flaw) : ¬ document.IsCatalogue := by
  intro valid
  obtain ⟨keyed, values⟩ := valid
  cases flawed with
  | root noMapping => exact noMapping _ rfl
  | name flawed => exact flawed.not_keyed keyed
  | inside present flawed => exact flawed.not_valid (values _ present)

end Document

end Phrasebook
