import Phrasebook.Proofs.Decimal.Characters
import Phrasebook.Proofs.Template.Decomposition

/-! # Escaped values

In a rendered template that holds markup, what is written for a value has no markup
character of its own: every ampersand in it begins an entity, and reading the entities gives
an untrusted text back (`Phrasebook.Escaping.unescape_flatMap_entity`). The brackets and
quotes of the rendered text are therefore those of the template's literal text, whatever the
values are (`Phrasebook.Template.marks_render`).
-/

namespace Phrasebook

namespace Escaping

/-- The brackets and quotes that structure markup. -/
def isMark (c : Char) : Bool :=
  c == '<' || c == '>' || c == '"' || c == '\''

/-- The brackets and quotes of a text, in their order. -/
def marks (text : List Char) : List Char :=
  text.filter isMark

/-- The entities that stand for markup characters. -/
def entities : List (List Char) :=
  ["&amp;".toList, "&lt;".toList, "&gt;".toList, "&quot;".toList, "&#39;".toList]

/-- A text with each entity read as the character that it stands for. -/
def unescape : List Char → List Char
  | '&' :: 'a' :: 'm' :: 'p' :: ';' :: rest => '&' :: unescape rest
  | '&' :: 'l' :: 't' :: ';' :: rest => '<' :: unescape rest
  | '&' :: 'g' :: 't' :: ';' :: rest => '>' :: unescape rest
  | '&' :: 'q' :: 'u' :: 'o' :: 't' :: ';' :: rest => '"' :: unescape rest
  | '&' :: '#' :: '3' :: '9' :: ';' :: rest => '\'' :: unescape rest
  | c :: rest => c :: unescape rest
  | [] => []

/-- Every ampersand of a text begins an entity. -/
def AmpersandsEscaped (text : List Char) : Prop :=
  ∀ before after, text = before ++ '&' :: after → ∃ entity ∈ entities, entity <+: '&' :: after

theorem ampersandsEscaped_of_notMem {text : List Char} (plain : '&' ∉ text) :
    AmpersandsEscaped text := by
  intro before after shape
  rw [shape] at plain
  simp at plain

theorem AmpersandsEscaped.cons {c : Char} {rest : List Char} (escaped : AmpersandsEscaped rest)
    (begins : c = '&' → ∃ entity ∈ entities, entity <+: c :: rest) :
    AmpersandsEscaped (c :: rest) := by
  intro before after shape
  cases before with
  | nil =>
    obtain ⟨rfl, rfl⟩ := List.cons.inj shape
    exact begins rfl
  | cons first before =>
    obtain ⟨_, tail⟩ := List.cons.inj shape
    exact escaped before after tail

theorem AmpersandsEscaped.append_of_notMem {front rest : List Char}
    (escaped : AmpersandsEscaped rest) (plain : '&' ∉ front) :
    AmpersandsEscaped (front ++ rest) := by
  induction front with
  | nil => exact escaped
  | cons c front ih =>
    obtain ⟨other, later⟩ := not_or.mp (mt List.mem_cons.mpr plain)
    exact (ih later).cons fun same => absurd same.symm other

theorem AmpersandsEscaped.entity_append {entity rest : List Char}
    (escaped : AmpersandsEscaped rest) (member : entity ∈ entities) :
    AmpersandsEscaped (entity ++ rest) := by
  -- only the first character of an entity is an ampersand
  have shape : ∃ others, entity = '&' :: others ∧ '&' ∉ others := by
    simp only [entities, List.mem_cons, List.not_mem_nil, or_false] at member
    rcases member with rfl | rfl | rfl | rfl | rfl <;> exact ⟨_, rfl, by decide⟩
  obtain ⟨others, rfl, single⟩ := shape
  refine (escaped.append_of_notMem single).cons fun _ => ⟨_, member, ?_⟩
  exact List.prefix_append _ rest

/-- The characters that are written as entities. -/
def special : List Char := ['&', '<', '>', '"', '\'']

theorem mem_special_of_isMark {c : Char} (mark : isMark c = true) : c ∈ special := by
  simp only [isMark, Bool.or_eq_true, beq_iff_eq] at mark
  rcases mark with ((rfl | rfl) | rfl) | rfl <;> decide

theorem entity_of_mem {c : Char} (member : c ∈ special) :
    entity c ∈ entities ∧ marks (entity c) = [] ∧
      ∀ rest, unescape (entity c ++ rest) = c :: unescape rest := by
  simp only [special, List.mem_cons, List.not_mem_nil, or_false] at member
  rcases member with rfl | rfl | rfl | rfl | rfl <;>
    exact ⟨by decide, by decide, fun _ => rfl⟩

theorem entity_of_notMem {c : Char} (plain : c ∉ special) : entity c = [c] := by
  unfold entity
  split <;> first | rfl | exact absurd (by decide) plain

theorem unescape_cons_of_ne {c : Char} (plain : c ≠ '&') (rest : List Char) :
    unescape (c :: rest) = c :: unescape rest := by
  rw [unescape] <;> exact fun _ same => absurd same plain

theorem ampersandsEscaped_flatMap_entity (text : List Char) :
    AmpersandsEscaped (text.flatMap entity) := by
  induction text with
  | nil => exact ampersandsEscaped_of_notMem (by simp)
  | cons c rest ih =>
    rw [List.flatMap_cons]
    by_cases member : c ∈ special
    · exact ih.entity_append (entity_of_mem member).1
    · have plain : c ≠ '&' := fun same => member (by simp [special, same])
      rw [entity_of_notMem member]
      exact ih.cons fun same => absurd same plain

theorem marks_flatMap_entity (text : List Char) : marks (text.flatMap entity) = [] := by
  induction text with
  | nil => rfl
  | cons c rest ih =>
    rw [List.flatMap_cons, marks, List.filter_append, ← marks, ← marks, ih, List.append_nil]
    by_cases member : c ∈ special
    · exact (entity_of_mem member).2.1
    · have plain : isMark c = false := Bool.eq_false_iff.mpr (mt mem_special_of_isMark member)
      rw [entity_of_notMem member, marks, List.filter_cons, plain]
      rfl

/-- **Escaping loses nothing.** Reading the entities of an escaped text gives the text
back. -/
theorem unescape_flatMap_entity (text : List Char) : unescape (text.flatMap entity) = text := by
  induction text with
  | nil => rfl
  | cons c rest ih =>
    rw [List.flatMap_cons]
    by_cases member : c ∈ special
    · rw [(entity_of_mem member).2.2, ih]
    · have plain : c ≠ '&' := fun same => member (by simp [special, same])
      rw [entity_of_notMem member, List.singleton_append, unescape_cons_of_ne plain, ih]

theorem notMem_special_of_isPlain {text : List Char} (plain : Decimal.IsPlain text) :
    ∀ c ∈ text, c ∉ special := by
  intro c present member
  have sign := plain c present
  simp only [special, List.mem_cons, List.not_mem_nil, or_false] at member
  rcases member with rfl | rfl | rfl | rfl | rfl <;> revert sign <;> decide

end Escaping

/-- No value of the arguments is trusted markup. -/
def Arguments.Untrusted (arguments : Arguments) : Prop :=
  ∀ name text, arguments.lookup name ≠ some (.markup text)

namespace Argument

theorem written_markup {value : Argument} (untrusted : ∀ text, value ≠ .markup text) :
    Escaping.marks (value.written .markup) = [] ∧
      Escaping.AmpersandsEscaped (value.written .markup) := by
  have number {text : List Char} (plain : Decimal.IsPlain text) :
      Escaping.marks text = [] ∧ Escaping.AmpersandsEscaped text := by
    have other := Escaping.notMem_special_of_isPlain plain
    constructor
    · refine List.filter_eq_nil_iff.mpr fun c present mark => other c present ?_
      exact Escaping.mem_special_of_isMark mark
    · exact Escaping.ampersandsEscaped_of_notMem fun present => other '&' present (by decide)
  cases value with
  | text value =>
    exact ⟨Escaping.marks_flatMap_entity _, Escaping.ampersandsEscaped_flatMap_entity _⟩
  | integer value => exact number (Decimal.isPlain_toString value)
  | float value => exact number value.isPlain_text
  | markup value => exact absurd rfl (untrusted value)

end Argument

namespace Template

/-- The brackets and quotes of a filled template are those of its literal text when nothing
else is written with any. -/
theorem Decomposition.marks_fill {parts : Decomposition} {write : String → List Char}
    (plain : ∀ name ∈ parts.names, Escaping.marks (write name) = []) :
    Escaping.marks (parts.fill write) = Escaping.marks parts.literals.flatten := by
  obtain ⟨front, rest⟩ := parts
  simp only [fill, literals, List.flatten_cons, Escaping.marks, List.filter_append]
  congr 1
  induction rest with
  | nil => rfl
  | cons item rest ih =>
    obtain ⟨first, later⟩ := List.forall_mem_cons.mp plain
    rw [List.flatMap_cons, List.map_cons, List.flatten_cons, List.filter_append,
      List.filter_append, List.filter_append, ih later, ← Escaping.marks, first,
      List.nil_append]

section Untrusted

variable {template : Template} {parts : Decomposition}
  (decomposes : parts.Decomposes template.text.toList) {arguments : Arguments} {output : String}
  (untrusted : arguments.Untrusted) (rendered : template.render arguments .markup = .ok output)
include decomposes untrusted rendered

/-- What is written for the placeholders of a template into its decomposition. -/
theorem exists_fill_of_render :
    ∃ value : String → Argument,
      (∀ name ∈ parts.names, arguments.lookup name = some (value name)) ∧
      (∀ name ∈ parts.names, ∀ text, value name ≠ .markup text) ∧
      output.toList = parts.fill fun name => (value name).written .markup := by
  let value (name : String) : Argument := (arguments.lookup name).getD (.integer 0)
  have bound : ∀ name ∈ parts.names, arguments.lookup name = some (value name) := by
    intro name member
    obtain ⟨found, same⟩ := decomposes.exists_lookup rendered name member
    rw [same]
    exact congrArg some (by rw [show value name = found by simp [value, same]])
  refine ⟨value, bound, ?_, ?_⟩
  · intro name member text same
    exact untrusted name text (same ▸ bound name member)
  · rw [decomposes.render_eq bound] at rendered
    rw [← Except.ok.inj rendered, String.toList_ofList]

theorem marks_of_render :
    Escaping.marks output.toList = Escaping.marks parts.literals.flatten := by
  obtain ⟨value, _, plain, filled⟩ := exists_fill_of_render decomposes untrusted rendered
  rw [filled]
  exact Decomposition.marks_fill fun name member =>
    (Argument.written_markup (plain name member)).1

end Untrusted

/-- **Untrusted values.** When a template is rendered as markup with values of which none is
trusted, the brackets and quotes of the result are those of the template's literal text, so
they do not depend on the values. Every ampersand that is written for a value begins an
entity, and reading the entities in what is written for a text gives the text back. -/
theorem marks_render {template : Template} {arguments : Arguments} {output : String}
    (untrusted : arguments.Untrusted) (rendered : template.render arguments .markup = .ok output) :
    ∃ (parts : Decomposition) (value : String → Argument),
      parts.Decomposes template.text.toList ∧
      (∀ name ∈ parts.names, arguments.lookup name = some (value name)) ∧
      output.toList = parts.fill (fun name => (value name).written .markup) ∧
      Escaping.marks output.toList = Escaping.marks parts.literals.flatten ∧
      (∀ (others : Arguments) (otherOutput : String), others.Untrusted →
        template.render others .markup = .ok otherOutput →
        Escaping.marks otherOutput.toList = Escaping.marks output.toList) ∧
      ∀ name ∈ parts.names,
        Escaping.AmpersandsEscaped ((value name).written .markup) ∧
        ∀ text, value name = .text text →
          Escaping.unescape ((value name).written .markup) = text.toList := by
  have decomposes := Decomposition.decomposes_ofTokens_scan template.text.toList
  obtain ⟨value, bound, plain, filled⟩ := exists_fill_of_render decomposes untrusted rendered
  have marks := marks_of_render decomposes untrusted rendered
  refine ⟨_, value, decomposes, bound, filled, marks, ?_, ?_⟩
  · intro others otherOutput othersUntrusted othersRendered
    rw [marks, marks_of_render decomposes othersUntrusted othersRendered]
  · intro name member
    refine ⟨(Argument.written_markup (plain name member)).2, ?_⟩
    intro text same
    rw [same]
    exact Escaping.unescape_flatMap_entity text.toList

/-- A link whose address has an ampersand and whose label would be a tag. -/
theorem marks_render_link :
    let template : Template := ⟨"<a href=\"\x7burl\x7d\">\x7blabel\x7d</a>"⟩
    let arguments : Arguments := [("url", .text "/?a=1&b='2'"), ("label", .text "<b>&lt;</b>")]
    let output := "<a href=\"/?a=1&amp;b=&#39;2&#39;\">&lt;b&gt;&amp;lt;&lt;/b&gt;</a>"
    arguments.Untrusted ∧ template.render arguments .markup = .ok output ∧
      ∃ (parts : Decomposition) (value : String → Argument),
        parts.Decomposes template.text.toList ∧
        output.toList = parts.fill (fun name => (value name).written .markup) ∧
        Escaping.marks output.toList = Escaping.marks parts.literals.flatten := by
  intro template arguments output
  have untrusted : arguments.Untrusted := by
    intro name text
    simp only [arguments, List.lookup_cons]
    split
    · exact nofun
    · split <;> exact nofun
  let link : Decomposition :=
    ⟨"<a href=\"".toList, [("url", "\">".toList), ("label", "</a>".toList)]⟩
  have decomposes : link.Decomposes template.text.toList := by
    refine ⟨by decide, ?_, ?_⟩
    · intro name member
      rw [← isIdentifier_iff]
      revert name
      decide
    · intro literal member
      refine not_holdsPlaceholder_of_notMem ?_
      revert literal
      decide
  have bound : ∀ name ∈ link.names,
      arguments.lookup name = some ((arguments.lookup name).getD (.integer 0)) := by
    decide
  have rendered : template.render arguments .markup = .ok output := by
    rw [decomposes.render_eq bound]
    rfl
  obtain ⟨parts, value, decomposes, _, filled, marks, _⟩ := marks_render untrusted rendered
  exact ⟨untrusted, rendered, parts, value, decomposes, filled, marks⟩

end Template

end Phrasebook
