import Phrasebook.File.Format
import Phrasebook.Proofs.Catalogue.Correspondence
import Phrasebook.Proofs.Translator.Parts

/-! # What the author of a catalogue file wrote

A file holds values of its format (`Phrasebook.File.Source`), of which a catalogue should take
texts, arrays of texts and tables only (`Phrasebook.File.OnlyText`). The document that is checked
does not say of a date or a time that it was one: it comes as a mapping with a single text. So a
file that holds none is treated as it should be, and one that holds a date or a time is only when
it is refused (`Phrasebook.File.onlyText_iff`). When it is accepted, the printed forms of its
dates and times are the only templates that nobody wrote as texts
(`Phrasebook.File.textOrMoment_of_parse`).
-/

namespace Phrasebook.File

/-- A value as it was written in a file. Of a date or a time its printed form is kept. -/
inductive Source
  | text (value : String)
  | literal (kind : Document.Literal)
  | moment (printed : String)
  | array (items : List Source)
  | table (members : List (String × Source))

namespace Source

mutual

/-- What the author of a JSON text wrote, from its document. -/
def ofDocument : Document → Source
  | .text value => .text value
  | .literal kind => .literal kind
  | .sequence items => .array (ofDocuments items)
  | .mapping members => .table (ofKeyed members)
  | .indexed members => .table (ofKeyed members)

/-- What the author wrote for the items of a sequence. -/
def ofDocuments : List Document → List Source
  | [] => []
  | item :: rest => ofDocument item :: ofDocuments rest

/-- What the author wrote for the members of a mapping. -/
def ofKeyed : List (String × Document) → List (String × Source)
  | [] => []
  | (key, value) :: rest => (key, ofDocument value) :: ofKeyed rest

end

mutual

/-- What the author of a TOML text wrote. -/
def ofToml : Toml.Value → Source
  | .text value => .text value
  | .number => .literal .number
  | .boolean => .literal .boolean
  | .moment value => .moment (String.ofList value.text)
  | .array items => .array (ofTomlItems items)
  | .table members => .table (ofTomlMembers members)

/-- What the author wrote for the items of an array. -/
def ofTomlItems : List Toml.Value → List Source
  | [] => []
  | item :: rest => ofToml item :: ofTomlItems rest

/-- What the author wrote for the members of a table. -/
def ofTomlMembers : List (String × Toml.Value) → List (String × Source)
  | [] => []
  | (key, value) :: rest => (key, ofToml value) :: ofTomlMembers rest

end

/-- A value stands in another one at any depth, or is that value. -/
inductive Within (inner : Source) : Source → Prop
  | self : Within inner inner
  | item {items : List Source} {item : Source} (present : item ∈ items)
      (within : Within inner item) : Within inner (.array items)
  | member {members : List (String × Source)} {member : String × Source}
      (present : member ∈ members) (within : Within inner member.2) :
      Within inner (.table members)

/-- The values that a catalogue may be made of. -/
inductive IsTextual : Source → Prop
  | text (value : String) : IsTextual (.text value)
  | array {items : List Source} (texts : ∀ item ∈ items, ∃ value, item = .text value) :
      IsTextual (.array items)
  | table (members : List (String × Source)) : IsTextual (.table members)

/-- Numbers, booleans, nulls, dates and times. -/
inductive IsForeign : Source → Prop
  | literal (kind : Document.Literal) : IsForeign (.literal kind)
  | moment (printed : String) : IsForeign (.moment printed)

/-- Every value that stands in a source is a text, an array of texts or a table. -/
def Textual (source : Source) : Prop :=
  ∀ inner : Source, inner.Within source → inner.IsTextual

theorem IsForeign.not_isTextual {source : Source} (foreign : source.IsForeign) :
    ¬ source.IsTextual := by
  cases foreign <;> exact nofun

theorem ofDocuments_eq_map (items : List Document) : ofDocuments items = items.map ofDocument := by
  induction items with
  | nil => rfl
  | cons item rest ih => rw [ofDocuments, ih, List.map_cons]

theorem ofKeyed_eq_map (members : List (String × Document)) :
    ofKeyed members = members.map fun member => (member.1, ofDocument member.2) := by
  induction members with
  | nil => rfl
  | cons member rest ih => rw [ofKeyed, ih, List.map_cons]

theorem ofTomlItems_eq_map (items : List Toml.Value) : ofTomlItems items = items.map ofToml := by
  induction items with
  | nil => rfl
  | cons item rest ih => rw [ofTomlItems, ih, List.map_cons]

theorem ofTomlMembers_eq_map (members : List (String × Toml.Value)) :
    ofTomlMembers members = members.map fun member => (member.1, ofToml member.2) := by
  induction members with
  | nil => rfl
  | cons member rest ih => rw [ofTomlMembers, ih, List.map_cons]

theorem textual_text (value : String) : (Source.text value).Textual := by
  intro inner within
  cases within
  exact .text value

theorem textual_array {items : List Source} (texts : ∀ item ∈ items, ∃ value, item = .text value) :
    (Source.array items).Textual := by
  intro inner within
  cases within with
  | self => exact .array texts
  | item present within =>
    obtain ⟨value, rfl⟩ := texts _ present
    exact textual_text value inner within

theorem textual_table {members : List (String × Source)}
    (values : ∀ member ∈ members, member.2.Textual) : (Source.table members).Textual := by
  intro inner within
  cases within with
  | self => exact .table members
  | member present within => exact values _ present inner within

theorem textual_ofKeyed {members : List (String × Document)}
    (values : ∀ member ∈ members, (ofDocument member.2).Textual) :
    (Source.table (ofKeyed members)).Textual := by
  rw [ofKeyed_eq_map]
  refine textual_table fun source present => ?_
  obtain ⟨member, written, rfl⟩ := List.mem_map.mp present
  exact values member written

/-- Mappings are tables, however they are read. -/
theorem ofDocument_of_readsIndexed {document : Document} {members : List (String × Document)}
    (reads : document.ReadsIndexed members) : ofDocument document = .table (ofKeyed members) := by
  cases reads <;> rfl

theorem ofDocument_of_readsNamespace {document : Document} {members : List (String × Document)}
    (reads : document.ReadsNamespace members) :
    ofDocument document = .table (ofKeyed members) := by
  cases reads
  rfl

/-- **Valid documents are textual**, whichever way their mappings are read. -/
theorem textual_of_valid {document : Document} (valid : document.Valid) :
    (ofDocument document).Textual := by
  induction valid with
  | text value => exact textual_text value
  | sequence texts =>
    rw [ofDocument, ofDocuments_eq_map]
    refine textual_array fun source present => ?_
    obtain ⟨item, written, rfl⟩ := List.mem_map.mp present
    obtain ⟨value, rfl⟩ := texts item written
    exact ⟨value, rfl⟩
  | indexed reads slotted =>
    rw [ofDocument_of_readsIndexed reads]
    refine textual_ofKeyed fun member present => ?_
    obtain ⟨value, same⟩ := slotted.texts member present
    rw [same]
    exact textual_text value
  | namespaced reads keyed values ih =>
    rw [ofDocument_of_readsNamespace reads]
    exact textual_ofKeyed ih

theorem textual_of_isCatalogue {document : Document} (valid : document.IsCatalogue) :
    (ofDocument document).Textual := by
  cases valid with
  | mapping keyed values =>
    exact textual_ofKeyed fun member present => textual_of_valid (values member present)

theorem within_ofKeyed {members : List (String × Document)} {member : String × Document}
    (present : member ∈ members) {inner : Source} (within : inner.Within (ofDocument member.2)) :
    inner.Within (.table (ofKeyed members)) := by
  rw [ofKeyed_eq_map]
  exact .member (List.mem_map_of_mem present) within

/-- What a value at a place of a document was written as stands in the whole. -/
theorem within_of_holds {members : List (String × Document)} {place : List Nat}
    {keys : List String} {value : Document} (holds : Document.Holds members place keys value)
    {inner : Source} (within : inner.Within (ofDocument value)) :
    inner.Within (.table (ofKeyed members)) := by
  induction holds with
  | member stands => exact within_ofKeyed (List.mem_of_getElem? stands) within
  | inside stands reads holds ih =>
    refine within_ofKeyed (List.mem_of_getElem? stands) ?_
    rw [ofDocument_of_readsNamespace reads]
    exact ih within

/-- A template of an entry was written as a text in the value that wrote the entry. -/
theorem within_of_writes {value : Document} {found : Entry} (writes : value.Writes (.entry found))
    {template : Template} (listed : template ∈ found.templates) :
    (Source.text template.text).Within (ofDocument value) := by
  cases writes with
  | text value =>
    rw [List.mem_singleton.mp listed]
    exact .self
  | sequence texts =>
    obtain ⟨text, present, rfl⟩ := List.mem_map.mp listed
    have written : Source.text text ∈ ofDocuments (texts.map .text) := by
      rw [ofDocuments_eq_map, List.map_map]
      exact List.mem_map_of_mem present
    exact .item written .self
  | indexed reads slots =>
    obtain ⟨slot, present, rfl⟩ := List.mem_map.mp listed
    obtain ⟨member, standing, wrote⟩ := Related.exists_left slots present
    rw [ofDocument_of_readsIndexed reads]
    refine within_ofKeyed standing ?_
    rw [wrote.value]
    exact .self

/-- No document says of a value that it was a date or a time. -/
theorem not_within_ofDocument (document : Document) (printed : String) :
    ¬ (Source.moment printed).Within (ofDocument document) := by
  intro within
  generalize written : ofDocument document = source at within
  induction within generalizing document with
  | self => cases document <;> cases written
  | item present within ih =>
    cases document with
    | sequence items =>
      rw [ofDocument, ofDocuments_eq_map] at written
      cases written
      obtain ⟨item, _, rfl⟩ := List.mem_map.mp present
      exact ih item rfl
    | _ => cases written
  | @member members source present within ih =>
    obtain ⟨written, rfl⟩ : ∃ written, members = ofKeyed written := by
      cases document <;> cases written <;> exact ⟨_, rfl⟩
    rw [ofKeyed_eq_map] at present
    obtain ⟨member, _, rfl⟩ := List.mem_map.mp present
    exact ih member.2 rfl

/-- What the document of an array of TOML says is what the documents of its items say. -/
theorem ofDocument_document_array (items : List Toml.Value) :
    ofDocument (Toml.Value.array items).document =
      .array (items.map fun item => ofDocument item.document) := by
  rw [Toml.Value.document, ofDocument, ofDocuments_eq_map, Source.array.injEq]
  induction items with
  | nil => rfl
  | cons item rest ih => rw [Toml.Value.itemDocuments, List.map_cons, ih, List.map_cons]

theorem ofDocument_document_table (members : List (String × Toml.Value)) :
    ofDocument (Toml.Value.table members).document =
      .table (members.map fun member => (member.1, ofDocument member.2.document)) := by
  rw [Toml.Value.document, ofDocument, ofKeyed_eq_map, Source.table.injEq]
  induction members with
  | nil => rfl
  | cons member rest ih => rw [Toml.Value.memberDocuments, List.map_cons, ih, List.map_cons]

/-- A value inside a TOML value has its document inside the document of that value. -/
theorem exists_of_within_ofToml {value : Toml.Value} {inner : Source}
    (within : inner.Within (ofToml value)) :
    ∃ stood : Toml.Value, inner = ofToml stood ∧
      (ofDocument stood.document).Within (ofDocument value.document) := by
  -- by induction on the way down to the inner value, which its document goes along
  generalize written : ofToml value = source at within
  induction within generalizing value with
  | self => exact ⟨value, written.symm, .self⟩
  | item present within ih =>
    cases value with
    | array items =>
      rw [ofToml, ofTomlItems_eq_map] at written
      cases written
      obtain ⟨item, listed, rfl⟩ := List.mem_map.mp present
      obtain ⟨stood, same, inside⟩ := ih rfl
      rw [ofDocument_document_array]
      exact ⟨stood, same, .item (List.mem_map_of_mem listed) inside⟩
    | _ => cases written
  | member present within ih =>
    cases value with
    | table members =>
      rw [ofToml, ofTomlMembers_eq_map] at written
      cases written
      obtain ⟨member, listed, rfl⟩ := List.mem_map.mp present
      obtain ⟨stood, same, inside⟩ := ih rfl
      rw [ofDocument_document_table]
      exact ⟨stood, same, .member (List.mem_map_of_mem listed) inside⟩
    | _ => cases written

/-- A text in the document of a TOML value was written as a text, or is the printed form of a
date or a time. -/
theorem text_or_moment_of_within {value : Toml.Value} {text : String}
    (within : (Source.text text).Within (ofDocument value.document)) :
    (Source.text text).Within (ofToml value) ∨ (Source.moment text).Within (ofToml value) := by
  generalize handed : ofDocument value.document = source at within
  induction within generalizing value with
  | self =>
    cases value with
    | text value =>
      cases handed
      exact .inl .self
    | _ => cases handed
  | item present within ih =>
    cases value with
    | array items =>
      rw [ofDocument_document_array] at handed
      cases handed
      obtain ⟨item, listed, rfl⟩ := List.mem_map.mp present
      have inside : ofToml item ∈ items.map ofToml := List.mem_map_of_mem listed
      rw [ofToml, ofTomlItems_eq_map]
      exact (ih rfl).imp (.item inside) (.item inside)
    | _ => cases handed
  | member present within ih =>
    cases value with
    | table members =>
      rw [ofDocument_document_table] at handed
      cases handed
      obtain ⟨member, listed, rfl⟩ := List.mem_map.mp present
      have inside : (member.1, ofToml member.2) ∈
          members.map fun member => (member.1, ofToml member.2) :=
        List.mem_map_of_mem listed
      rw [ofToml, ofTomlMembers_eq_map]
      exact (ih rfl).imp (.member inside) (.member inside)
    | moment value =>
      -- here the document goes deeper than the value: its mapping has this one text
      cases handed
      cases List.mem_singleton.mp present
      cases within
      exact .inr .self
    | _ => cases handed

/-- Only dates and times hide behind documents that are textual. -/
theorem isTextual_or_moment {value : Toml.Value} (textual : (ofDocument value.document).IsTextual) :
    (ofToml value).IsTextual ∨ ∃ printed, ofToml value = .moment printed := by
  cases value with
  | text value => exact .inl (.text value)
  | number => cases textual
  | boolean => cases textual
  | moment value => exact .inr ⟨_, rfl⟩
  | table members => exact .inl (.table _)
  | array items =>
    rw [ofDocument_document_array] at textual
    cases textual with
    | array texts =>
      rw [ofToml, ofTomlItems_eq_map]
      refine .inl (.array fun source present => ?_)
      obtain ⟨item, listed, rfl⟩ := List.mem_map.mp present
      obtain ⟨value, same⟩ := texts _ (List.mem_map_of_mem listed)
      cases item <;> cases same
      exact ⟨value, rfl⟩

end Source

namespace Format

/-- What the author of a text in a format wrote, if it is one in that format. -/
def source? (format : Format) (text : String) : Option Source :=
  match format with
  | .json => (Document.ofJson? text).map Source.ofDocument
  | .toml => (Toml.read? .catalogue text).map fun members => Source.ofToml (.table members)

/-- A text in which no date and no time is written. -/
def MomentFree (format : Format) (text : String) : Prop :=
  ∀ source, format.source? text = some source →
    ∀ printed, ¬ (Source.moment printed).Within source

end Format

/-- A catalogue has a template at some place. -/
def HasTemplate (catalogue : Catalogue) (template : Template) : Prop :=
  ∃ names found, catalogue.node? names = some (.entry found) ∧ template ∈ found.templates

/-- **Only text becomes catalogue text.** A text is read as a catalogue only if every value in
it is a text, an array of texts or a table; a number, a boolean, a null, a date or a time
anywhere in it makes it fail with an error of the file; and every template of the catalogue was
written as a text. -/
structure OnlyText (format : Format) (path text : String) : Prop where
  textual : ∀ catalogue, format.parse path text = .ok catalogue →
    ∃ source, format.source? text = some source ∧ source.Textual
  refused : ∀ source inner : Source, format.source? text = some source → inner.Within source →
    inner.IsForeign → ∃ cause, format.parse path text = .error (.file path cause)
  authored : ∀ catalogue, format.parse path text = .ok catalogue →
    ∃ source, format.source? text = some source ∧
      ∀ template, HasTemplate catalogue template → (Source.text template.text).Within source

/-- A catalogue comes from a source whose values are textual, except for dates and times, and
its templates are texts or the printed forms of dates and times. -/
structure TextOrMoment (source : Source) (catalogue : Catalogue) : Prop where
  values : ∀ inner : Source, inner.Within source →
    inner.IsTextual ∨ ∃ printed, inner = .moment printed
  templates : ∀ template, HasTemplate catalogue template →
    (Source.text template.text).Within source ∨ (Source.moment template.text).Within source

theorem within_of_hasTemplate {document : Document} {catalogue : Catalogue}
    (accepted : Catalogue.ofDocument document = .ok catalogue) {template : Template}
    (has : HasTemplate catalogue template) :
    (Source.text template.text).Within (Source.ofDocument document) := by
  obtain ⟨names, found, reached, listed⟩ := has
  obtain ⟨members, root, rfl, rfl, checked⟩ := Catalogue.childrenOf_of_ofDocument accepted
  have nonempty : names ≠ [] := by
    rintro rfl
    cases reached
  rw [Catalogue.node?_eq_descend?] at reached
  obtain ⟨place, ⟨value, holds⟩, _⟩ :=
    Catalogue.existsUnique_place_of_descend nonempty checked reached
  obtain ⟨node, further, writes⟩ := Catalogue.exists_node_of_holds holds checked
  cases further.symm.trans reached
  exact Source.within_of_holds holds (Source.within_of_writes writes listed)

namespace Format

variable {format : Format} {path text : String} {catalogue : Catalogue}

theorem parse_eq_ok_iff :
    format.parse path text = .ok catalogue ↔
      ∃ document, format.document? text = some document ∧
        Catalogue.ofDocument document = .ok catalogue := by
  rw [parse]
  cases format.document? text with
  | none => simp
  | some document => simp [Outcome.mapError_eq_ok_iff]

/-- Every failure of reading a catalogue is an error of its file. -/
theorem exists_cause_of_parse {failure : Error} (failed : format.parse path text = .error failure) :
    ∃ cause, failure = .file path cause := by
  unfold parse at failed
  split at failed
  · cases failed
    exact ⟨_, rfl⟩
  · obtain ⟨fault, _, rfl⟩ := Outcome.mapError_eq_error_iff.mp failed
    exact ⟨_, rfl⟩

/-- **What an accepted file holds**: beside its texts, only dates and times can have become
templates. -/
theorem textOrMoment_of_parse (read : format.parse path text = .ok catalogue) :
    ∃ source, format.source? text = some source ∧ TextOrMoment source catalogue := by
  obtain ⟨document, read, accepted⟩ := parse_eq_ok_iff.mp read
  have textual := Source.textual_of_isCatalogue (Catalogue.isCatalogue_of_ofDocument accepted)
  cases format with
  | json =>
    have read : Document.ofJson? text = some document := read
    refine ⟨.ofDocument document, by rw [source?, read, Option.map_some], ?_, ?_⟩
    · exact fun inner within => .inl (textual inner within)
    · exact fun template has => .inl (within_of_hasTemplate accepted has)
  | toml =>
    obtain ⟨members, listed, rfl⟩ := Option.map_eq_some_iff.mp read
    refine ⟨.ofToml (.table members), by rw [source?, listed, Option.map_some], ?_, ?_⟩
    · intro inner within
      obtain ⟨stood, rfl, inside⟩ := Source.exists_of_within_ofToml within
      exact Source.isTextual_or_moment (textual _ inside)
    · exact fun template has =>
        Source.text_or_moment_of_within (within_of_hasTemplate accepted has)

/-- JSON has no notation for dates and times. -/
theorem momentFree_json (text : String) : MomentFree .json text := by
  intro source written printed within
  obtain ⟨document, _, rfl⟩ := Option.map_eq_some_iff.mp written
  exact Source.not_within_ofDocument document printed within

end Format

theorem onlyText_of_error {format : Format} {path text : String} {failure : Error}
    (failed : format.parse path text = .error failure) : OnlyText format path text := by
  obtain ⟨cause, rfl⟩ := Format.exists_cause_of_parse failed
  have never (catalogue : Catalogue) : format.parse path text ≠ .ok catalogue := by
    rw [failed]
    exact nofun
  exact ⟨fun catalogue read => absurd read (never catalogue), fun _ _ _ _ _ => ⟨cause, failed⟩,
    fun catalogue read => absurd read (never catalogue)⟩

/-- In a file without dates and times only text becomes catalogue text. -/
theorem onlyText_of_momentFree {format : Format} {text : String} (free : format.MomentFree text)
    (path : String) : OnlyText format path text := by
  cases outcome : format.parse path text with
  | error failure => exact onlyText_of_error outcome
  | ok catalogue =>
    obtain ⟨source, written, made⟩ := Format.textOrMoment_of_parse outcome
    have textual : source.Textual := by
      intro inner within
      rcases made.values inner within with textual | ⟨printed, rfl⟩
      · exact textual
      · exact absurd within (free source written printed)
    refine ⟨fun _ _ => ⟨source, written, textual⟩, ?_, ?_⟩
    · intro other inner same within foreign
      cases written.symm.trans same
      exact absurd (textual inner within) foreign.not_isTextual
    · intro other same
      cases outcome.symm.trans same
      refine ⟨source, written, fun template has => ?_⟩
      exact (made.templates template has).resolve_right (free source written _)

theorem onlyText_json (path text : String) : OnlyText .json path text :=
  onlyText_of_momentFree (Format.momentFree_json text) path

/-- **Dates and times are the only exception.** Only text becomes catalogue text in a file that
is refused and in a file in which no date and no time is written. In no other file: there a date
or a time has become a namespace with its printed form as a template. -/
theorem onlyText_iff (format : Format) (path text : String) :
    OnlyText format path text ↔
      (∃ cause, format.parse path text = .error (.file path cause)) ∨
        format.MomentFree text := by
  constructor
  · intro only
    refine or_iff_not_imp_right.mpr fun written => ?_
    obtain ⟨source, read, printed, within⟩ : ∃ source, format.source? text = some source ∧
        ∃ printed, (Source.moment printed).Within source := by
      simpa [Format.MomentFree] using written
    exact only.refused source _ read within (.moment printed)
  · rintro (⟨cause, failed⟩ | free)
    · exact onlyText_of_error failed
    · exact onlyText_of_momentFree free path

/-- A date becomes a namespace, in which its printed form is a template. -/
theorem not_onlyText_date : ¬ OnlyText .toml "c.toml" "d = 1979-05-27\n" := by
  have accepted : Format.parse .toml "c.toml" "d = 1979-05-27\n" = .ok ⟨[("d", .branch
      [("$__toml_private_datetime", .entry (.scalar ⟨"1979-05-27"⟩))])]⟩ := by
    decide +kernel
  have dated : (Toml.read? .catalogue "d = 1979-05-27\n").map
      (·.any fun member => member.2 matches .moment _) = some true := by
    decide +kernel
  obtain ⟨members, read, dated⟩ := Option.map_eq_some_iff.mp dated
  obtain ⟨⟨key, value⟩, present, isMoment⟩ := List.any_eq_true.mp dated
  cases value with
  | moment date =>
    have written : Format.source? .toml "d = 1979-05-27\n" =
        some (.ofToml (.table members)) := by
      rw [Format.source?, read, Option.map_some]
    have inside : (Source.moment (String.ofList date.text)).Within
        (.ofToml (.table members)) := by
      rw [Source.ofToml, Source.ofTomlMembers_eq_map]
      exact .member (List.mem_map_of_mem present) .self
    intro only
    obtain ⟨cause, failed⟩ := only.refused _ _ written inside (.moment _)
    rw [accepted] at failed
    cases failed
  | _ => cases isMoment

end Phrasebook.File
