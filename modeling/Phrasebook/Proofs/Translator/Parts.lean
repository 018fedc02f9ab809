import Phrasebook.Proofs.Registry.FurtherStep
import Phrasebook.Proofs.Translator.Failures

/-! # An entry and its parts

The templates of an entry can be asked for together or one by one: a template of a list or of
an indexed map has a path of its own, behind the path of the entry, and may have an index
(`Phrasebook.Entry.PartAt`). Asking for a part renders the template at its place
(`Phrasebook.Translator.scalar_of_partAt`), and rendering the entry renders all its templates
in their order (`Phrasebook.Translator.entry_eq`), so an entry agrees with its parts
(`Phrasebook.Translator.entry_agrees_with_parts`).
-/

namespace Phrasebook

namespace Entry

/-- The templates of an entry, in the order in which they were written. -/
def templates : Entry → List Template
  | .scalar template => [template]
  | .list items => items
  | .indexed map => map.entries.map Prod.snd

/-- The rendered form of an entry, from the texts of its templates. -/
def rendered : Entry → List String → Rendered
  | .scalar _, texts => .scalar (texts.headD "")
  | .list _, texts => .list texts
  | .indexed map, texts => .indexed ((map.entries.map Prod.fst).zip texts)

/-- The paths and indices that ask for a single template of the entry at a path. A template of
an indexed map is asked for by its key, and by an index when the key is a position. -/
inductive PartAt (path : String) : Entry → Nat → String → Option Position → Prop
  | scalar (template : Template) : PartAt path (.scalar template) 0 path none
  | item (items : List Template) (index : Position) :
      PartAt path (.list items) index.toNat path (some index)
  | dottedItem (items : List Template) (index : Position) :
      PartAt path (.list items) index.toNat (path ++ "." ++ index.numeral) none
  | position {map : IndexedMap} {number : Nat} {index : Position} {template : Template}
      (here : map.entries[number]? = some (.position index, template)) :
      PartAt path (.indexed map) number path (some index)
  | key {map : IndexedMap} {number : Nat} {key : IndexedMap.Key} {template : Template}
      (here : map.entries[number]? = some (key, template)) :
      PartAt path (.indexed map) number (path ++ "." ++ key.text) none

end Entry

theorem IndexedMap.template_eq {map : IndexedMap} {number : Nat} {key : Key}
    {template other : Template} (here : map.entries[number]? = some (key, template))
    (there : (Entry.indexed map).templates[number]? = some other) : template = other := by
  rw [Entry.templates, List.getElem?_map, here] at there
  exact Option.some.inj there

namespace Translator

variable {translator : Translator} {path : String} {arguments : Arguments} {address : Address}
  {finding : Finding}

theorem find_none_eq_ok_iff {index : Option Position} :
    translator.find none path index = .ok (address, finding) ↔
      Address.read path = .ok address ∧ ∃ wanted, translator.current = .ok wanted ∧
        translator.registry.find wanted address index = .ok finding := by
  rw [← Address.parse_eq_ok_iff]
  constructor
  · intro found
    obtain ⟨_, read, found⟩ := Outcome.bind_eq_ok_iff.mp found
    obtain ⟨wanted, current, found⟩ := Outcome.bind_eq_ok_iff.mp found
    obtain ⟨_, found, made⟩ := Outcome.bind_eq_ok_iff.mp found
    cases made
    exact ⟨read, wanted, current, found⟩
  · rintro ⟨read, wanted, current, found⟩
    refine Outcome.bind_eq_ok_iff.mpr ⟨address, read, ?_⟩
    exact Outcome.bind_eq_ok_iff.mpr ⟨wanted, current,
      Outcome.bind_eq_ok_iff.mpr ⟨finding, found, rfl⟩⟩

/-- A look-up that goes one step further than the one of an entry has the template there. -/
theorem scalar_of_goesOn (found : translator.find none path none = .ok (address, finding))
    {step : Address.Step} {template : Template} (item : finding.entry.item? step = some template)
    {part : String} {further : Address} {index : Option Position}
    (goesOn : address.GoesOn step further index) (read : Address.read part = .ok further) :
    translator.scalar none part index arguments =
      template.render arguments translator.escaping := by
  obtain ⟨_, wanted, current, found⟩ := find_none_eq_ok_iff.mp found
  have there := find_none_eq_ok_iff.mpr ⟨read, wanted, current, goesOn.registry_find item found⟩
  rw [scalar, there]
  rfl

/-- **Asking for a part** of an entry renders the template that stands at its place. -/
theorem scalar_of_partAt (found : translator.find none path none = .ok (address, finding))
    (wellFormed : finding.entry.WellFormed) {number : Nat} {part : String}
    {index : Option Position} (place : finding.entry.PartAt path number part index)
    {template : Template} (here : finding.entry.templates[number]? = some template) :
    translator.scalar none part index arguments =
      template.render arguments translator.escaping := by
  have read := (find_none_eq_ok_iff.mp found).1
  obtain ⟨entry, locale, fellBack⟩ := finding
  cases place with
  | scalar only =>
    cases here
    rw [scalar, found]
    rfl
  | item items index =>
    have held : (Entry.list items).item? (.position index) = some template := here
    exact scalar_of_goesOn found held (address.goesOn_index index) read
  | dottedItem items index =>
    have step : Address.stepOf index.numeral = .position index := by simp [Address.stepOf]
    have held : (Entry.list items).item? (.position index) = some template := here
    have further := Address.read_dot_key read (Address.isKey_numeral index)
    rw [step] at further
    exact scalar_of_goesOn found held (address.goesOn_step _ _) further
  | @position map number index other there =>
    obtain rfl := IndexedMap.template_eq there here
    have held : (Entry.indexed map).item? (.position index) = some other :=
      wellFormed.get?_eq_some_iff.mpr (List.mem_of_getElem? there)
    exact scalar_of_goesOn found held (address.goesOn_index index) read
  | @key map number key other there =>
    obtain rfl := IndexedMap.template_eq there here
    have present := List.mem_of_getElem? there
    have valid := wellFormed.keys _ present
    have held : (Entry.indexed map).item? (Address.stepOf key.text) = some other := by
      rw [Entry.item?, valid.key_stepOf]
      exact wellFormed.get?_eq_some_iff.mpr present
    exact scalar_of_goesOn found held (address.goesOn_step _ _)
      (Address.read_dot_key read valid.isKey_text)

/-- **Rendering an entry** renders its templates in their order. -/
theorem entry_eq (found : translator.find none path none = .ok (address, finding)) :
    translator.entry none path arguments =
      (Template.renderAll finding.entry.templates arguments translator.escaping).map
        finding.entry.rendered := by
  rw [entry, found]
  obtain ⟨entry, locale, fellBack⟩ := finding
  cases entry with
  | scalar template =>
    change (template.render arguments translator.escaping).map Rendered.scalar =
      ([template].mapM fun template : Template =>
        template.render arguments translator.escaping).map _
    rw [List.mapM_cons]
    cases template.render arguments translator.escaping <;> rfl
  | list items => rfl
  | indexed map =>
    let render (template : Template) := template.render arguments translator.escaping
    let rendered (entries : Except Error (List (IndexedMap.Key × String))) :=
      entries >>= fun entries => pure (Rendered.indexed entries)
    refine (congrArg rendered (Outcome.mapM_keyed render map.entries)).trans ?_
    change _ = ((map.entries.map Prod.snd).mapM render).map _
    cases (map.entries.map Prod.snd).mapM render <;> rfl

theorem texts_eq (found : translator.find none path none = .ok (address, finding))
    {items : List Template} (list : finding.entry = .list items) :
    translator.texts path arguments =
      Template.renderAll items arguments translator.escaping := by
  rw [texts, found]
  obtain ⟨_, locale, fellBack⟩ := finding
  cases list
  rfl

theorem wellFormed_of_find (reachable : translator.registry.Reachable)
    (found : translator.find none path none = .ok (address, finding)) :
    finding.entry.WellFormed := by
  obtain ⟨_, _, _, found⟩ := find_none_eq_ok_iff.mp found
  exact reachable.wellFormed_of_find found

/-- An entry is rendered from the texts of its templates, one for each. -/
theorem exists_texts_of_entry_eq_ok {rendered : Rendered}
    (done : translator.entry none path arguments = .ok rendered) :
    ∃ address finding texts, translator.find none path none = .ok (address, finding) ∧
      Template.renderAll finding.entry.templates arguments translator.escaping = .ok texts ∧
      rendered = finding.entry.rendered texts := by
  obtain ⟨⟨address, finding⟩, found, _⟩ := Outcome.bind_eq_ok_iff.mp done
  rw [entry_eq found] at done
  cases outcome : Template.renderAll finding.entry.templates arguments translator.escaping with
  | error cause =>
    rw [outcome] at done
    cases done
  | ok texts =>
    rw [outcome] at done
    cases done
    exact ⟨address, finding, texts, found, outcome, rfl⟩

/-- The text of a template of a rendered entry is what asking for that part gives. -/
theorem scalar_of_text (reachable : translator.registry.Reachable)
    (found : translator.find none path none = .ok (address, finding)) {texts : List String}
    (outcome : Template.renderAll finding.entry.templates arguments translator.escaping =
      .ok texts)
    {number : Nat} {part : String} {index : Option Position}
    (place : finding.entry.PartAt path number part index) {text : String}
    (here : texts[number]? = some text) :
    translator.scalar none part index arguments = .ok text := by
  obtain ⟨template, there, rendered⟩ :=
    Related.exists_getElem?_right (Outcome.forall₂_of_mapM_eq_ok outcome) here
  rw [scalar_of_partAt found (wellFormed_of_find reachable found) place there, rendered]

/-- An entry with a template that cannot be rendered fails as its first such template does. -/
theorem exists_first_unbound (found : translator.find none path none = .ok (address, finding))
    (unbound : ∃ template ∈ finding.entry.templates, template.Unbound arguments) :
    ∃ before template after name, finding.entry.templates = before ++ template :: after ∧
      (∀ earlier ∈ before, ¬ earlier.Unbound arguments) ∧ template.Unbound arguments ∧
      translator.entry none path arguments = .error (.missingParam name) ∧
      template.render arguments translator.escaping = .error (.missingParam name) := by
  have failed : ∃ cause, Template.renderAll finding.entry.templates arguments
      translator.escaping = .error cause := by
    cases outcome : Template.renderAll finding.entry.templates arguments translator.escaping with
    | error cause => exact ⟨cause, rfl⟩
    | ok texts =>
      obtain ⟨template, member, unbound⟩ := unbound
      obtain ⟨text, rendered⟩ := Outcome.forall_of_mapM_eq_ok outcome template member
      obtain ⟨name, failed⟩ := Template.unbound_iff_exists_render.mp unbound
      rw [rendered] at failed
      cases failed
  obtain ⟨cause, failed⟩ := failed
  obtain ⟨before, template, after, split, succeed, fails⟩ := Outcome.mapM_eq_error_iff.mp failed
  obtain ⟨name, member, absent, rfl⟩ := Template.exists_unbound_of_render fails
  refine ⟨before, template, after, name, split, ?_, ⟨name, member, absent⟩, ?_, fails⟩
  · intro earlier present unbound
    obtain ⟨text, rendered⟩ := succeed earlier present
    obtain ⟨other, failed⟩ := Template.unbound_iff_exists_render.mp unbound
    rw [rendered] at failed
    cases failed
  · rw [entry_eq found, failed]
    rfl

/-- **An entry agrees with its parts.** Where an entry as a whole is rendered, a scalar is the
text at its path; a list has the lines that it has when it is asked for as a list, and each of
them is the text at its index and at the path with the index behind a dot; each text of an
indexed map is the text at the path with its key behind a dot, and at its index when the key is
a position. Where a template of an entry has a placeholder without a value, the entry fails as
the first such template does when it is asked for on its own. -/
theorem entry_agrees_with_parts {translator : Translator}
    (reachable : translator.registry.Reachable) (path : String) (arguments : Arguments) :
    (∀ text, translator.entry none path arguments = .ok (.scalar text) →
        translator.text path arguments = .ok text) ∧
      (∀ lines, translator.entry none path arguments = .ok (.list lines) →
        translator.texts path arguments = .ok lines ∧
          ∀ (index : Position) (line : String), lines[index.toNat]? = some line →
            translator.textAt path index arguments = .ok line ∧
              translator.text (path ++ "." ++ index.numeral) arguments = .ok line) ∧
      (∀ entries, translator.entry none path arguments = .ok (.indexed entries) →
        ∀ key text, (key, text) ∈ entries →
          translator.text (path ++ "." ++ key.text) arguments = .ok text ∧
            ∀ index, key = .position index →
              translator.textAt path index arguments = .ok text) ∧
      ∀ address finding, translator.find none path none = .ok (address, finding) →
        (∃ template ∈ finding.entry.templates, template.Unbound arguments) →
        ∃ before template after name, finding.entry.templates = before ++ template :: after ∧
          (∀ earlier ∈ before, ¬ earlier.Unbound arguments) ∧ template.Unbound arguments ∧
          translator.entry none path arguments = .error (.missingParam name) ∧
          ∀ part index, finding.entry.PartAt path before.length part index →
            translator.scalar none part index arguments = .error (.missingParam name) := by
  refine ⟨?_, ?_, ?_, ?_⟩
  · intro text done
    obtain ⟨address, ⟨entry, locale, fellBack⟩, texts, found, outcome, same⟩ :=
      exists_texts_of_entry_eq_ok done
    cases entry <;> cases same
    have only : texts[0]? = some (texts.headD "") := by
      obtain ⟨other, _, _, last, rfl⟩ := List.forall₂_cons_left_iff.mp
        (Outcome.forall₂_of_mapM_eq_ok outcome)
      rfl
    exact scalar_of_text reachable found outcome (.scalar _) only
  · intro lines done
    obtain ⟨address, ⟨entry, locale, fellBack⟩, texts, found, outcome, same⟩ :=
      exists_texts_of_entry_eq_ok done
    cases entry <;> cases same
    refine ⟨(texts_eq found rfl).trans outcome, fun index line here => ⟨?_, ?_⟩⟩
    · exact scalar_of_text reachable found outcome (.item _ index) here
    · exact scalar_of_text reachable found outcome (.dottedItem _ index) here
  · intro entries done key text present
    obtain ⟨address, ⟨entry, locale, fellBack⟩, texts, found, outcome, same⟩ :=
      exists_texts_of_entry_eq_ok done
    cases entry <;> cases same
    obtain ⟨number, there⟩ := List.mem_iff_getElem?.mp present
    obtain ⟨keyThere, here⟩ := List.getElem?_zip_eq_some.mp there
    rw [List.getElem?_map] at keyThere
    obtain ⟨⟨_, template⟩, stands, same⟩ := Option.map_eq_some_iff.mp keyThere
    cases same
    refine ⟨scalar_of_text reachable found outcome (.key stands) here, ?_⟩
    rintro index rfl
    exact scalar_of_text reachable found outcome (.position stands) here
  · intro address finding found unbound
    obtain ⟨before, template, after, name, split, bound, unbound, failed, fails⟩ :=
      exists_first_unbound found unbound
    refine ⟨before, template, after, name, split, bound, unbound, failed, ?_⟩
    intro part index place
    have here : finding.entry.templates[before.length]? = some template := by
      simp [split]
    rw [scalar_of_partAt found (wellFormed_of_find reachable found) place here, fails]

/-- A hint under a position and a hint under a name, asked for together and one by one, with
and without the value that the first of them needs. -/
theorem entry_agrees_with_parts_hints :
    let map : IndexedMap := ⟨[(.position 2, ⟨"Use \x7btool\x7d"⟩), (.name "last", ⟨"Retry"⟩)]⟩
    let catalogue : Catalogue := ⟨[("hints", .entry (.indexed map))]⟩
    let translator : Translator := ⟨⟨[(.english, catalogue)], some .english⟩, none, .verbatim⟩
    let arguments : Arguments := [("tool", .text "a saw")]
    translator.registry.Reachable ∧
      translator.entry none "hints" arguments =
        .ok (.indexed [(.position 2, "Use a saw"), (.name "last", "Retry")]) ∧
      translator.text "hints.last" arguments = .ok "Retry" ∧
      translator.textAt "hints" 2 arguments = .ok "Use a saw" ∧
      ∃ name, translator.entry none "hints" [] = .error (.missingParam name) ∧
        translator.textAt "hints" 2 [] = .error (.missingParam name) := by
  intro map catalogue translator arguments
  have accepted : Catalogue.ofDocument (.mapping [("hints", .mapping
      [("2", .text "Use \x7btool\x7d"), ("last", .text "Retry")])]) = .ok catalogue := rfl
  have reachable : translator.registry.Reachable :=
    .setFallback (.register .empty .english accepted) .english
      (Registry.setFallback_eq_ok_iff.mpr ⟨rfl, rfl⟩)
  have done : translator.entry none "hints" arguments =
      .ok (.indexed [(.position 2, "Use a saw"), (.name "last", "Retry")]) := by
    with_unfolding_all rfl
  have parts := (entry_agrees_with_parts reachable "hints" arguments).2.2.1 _ done
  have found : translator.find none "hints" none =
      .ok (⟨"hints", [.name "hints"]⟩, ⟨.indexed map, .english, false⟩) := rfl
  have named : Template.placeholders ⟨"Use \x7btool\x7d"⟩ = ["tool"] := by
    with_unfolding_all rfl
  have unbound : Template.Unbound ⟨"Use \x7btool\x7d"⟩ [] :=
    ⟨"tool", named ▸ List.mem_singleton_self _, rfl⟩
  obtain ⟨before, template, after, name, split, bound, absent, failed, fails⟩ :=
    (entry_agrees_with_parts reachable "hints" []).2.2.2 _ _ found
      ⟨_, List.mem_cons_self, unbound⟩
  refine ⟨reachable, done, (parts (.name "last") "Retry" (by decide)).1,
    (parts (.position 2) "Use a saw" (by decide)).2 2 rfl, name, failed, ?_⟩
  cases before with
  | nil => exact fails _ _ (.position rfl)
  | cons earlier before =>
    obtain ⟨rfl, _⟩ := List.cons.inj split
    exact absurd unbound (bound _ List.mem_cons_self)

end Translator

end Phrasebook
