import Mathlib.Data.List.Induction
import Phrasebook.Proofs.Template.Decomposition

/-! # Placeholders and rendering

The placeholders of a template are the names in its text, each of them once and in the order
in which they first appear (`Phrasebook.Template.Decomposition.Decomposes.listsFirst`). They are
exactly what rendering needs: it fails for the first of them that has no value and for nothing
else (`Phrasebook.Template.render_eq_error_iff`), and it depends on no other value
(`Phrasebook.Template.render_congr`).
-/

namespace Phrasebook

namespace Template

/-- Names in the order in which they first appear among others, each of them once. -/
structure ListsFirst (listed names : List String) : Prop where
  nodup : listed.Nodup
  mem_iff : ∀ name, name ∈ listed ↔ name ∈ names
  ordered : listed.Pairwise fun first second => names.idxOf first < names.idxOf second

/-- One more name behind others is dropped if it is one of them. -/
theorem eraseDups_concat (names : List String) (name : String) :
    (names ++ [name]).eraseDups =
      names.eraseDups ++ if name ∈ names then [] else [name] := by
  rw [List.eraseDups_append]
  by_cases member : name ∈ names <;> simp [List.removeAll, member, List.eraseDups_cons]

theorem listsFirst_eraseDups (names : List String) : ListsFirst names.eraseDups names := by
  have ordered : names.eraseDups.Pairwise
      fun first second => names.idxOf first < names.idxOf second := by
    induction names using List.reverseRecOn with
    | nil => exact .nil
    | append_singleton names name ih =>
      have kept : names.eraseDups.Pairwise fun first second =>
          (names ++ [name]).idxOf first < (names ++ [name]).idxOf second := by
        refine ih.imp_of_mem fun first second less => ?_
        rw [List.idxOf_append_of_mem (List.mem_eraseDups.mp first),
          List.idxOf_append_of_mem (List.mem_eraseDups.mp second)]
        exact less
      rw [eraseDups_concat]
      split
      · rwa [List.append_nil]
      · next new =>
        refine List.pairwise_append.mpr ⟨kept, List.pairwise_singleton _ _, ?_⟩
        intro first present last here
        have earlier := List.mem_eraseDups.mp present
        rw [List.mem_singleton.mp here, List.idxOf_append_of_mem earlier,
          List.idxOf_append_of_notMem new]
        exact Nat.lt_add_right _ (List.idxOf_lt_length_iff.mpr earlier)
  refine ⟨?_, fun name => List.mem_eraseDups, ordered⟩
  refine ordered.imp fun less same => ?_
  rw [same] at less
  exact Nat.lt_irrefl _ less

/-- Without the repetitions the same name is the first of its kind. -/
theorem find?_eraseDups (names : List String) (kind : String → Bool) :
    names.eraseDups.find? kind = names.find? kind := by
  induction names using List.reverseRecOn with
  | nil => rfl
  | append_singleton names name ih =>
    rw [eraseDups_concat, List.find?_append, List.find?_append, ih]
    split
    · next member =>
      cases found : names.find? kind with
      | some other => rfl
      | none => simp [List.find?_eq_none.mp found name member]
    · rfl

/-- The name of a placeholder. -/
def Token.name? : Token → Option String
  | .literal _ => none
  | .placeholder name => some name

/-- The names of the placeholders in a template, with repetitions. -/
def names (template : Template) : List String :=
  template.tokens.filterMap Token.name?

theorem placeholders_eq (template : Template) :
    template.placeholders = template.names.eraseDups := by
  refine congrArg List.eraseDups (List.filterMap_congr fun token _ => ?_)
  cases token <;> rfl

theorem Decomposition.filterMap_tokens (parts : Decomposition) :
    parts.tokens.filterMap Token.name? = parts.names := by
  have literals (literal : List Char) :
      (literal.map Token.literal).filterMap Token.name? = [] := by
    simp [Token.name?]
  obtain ⟨front, rest⟩ := parts
  rw [tokens, names, List.filterMap_append, literals, List.nil_append]
  induction rest with
  | nil => rfl
  | cons item rest ih =>
    have named : (Token.placeholder item.1).name? = some item.1 := rfl
    rw [List.flatMap_cons, List.cons_append, List.filterMap_cons_some named,
      List.filterMap_append, literals, List.nil_append, ih, List.map_cons]

/-- **The placeholders of a template** are the names in its text in the order in which they
first appear. -/
theorem Decomposition.Decomposes.listsFirst {parts : Decomposition} {template : Template}
    (decomposes : parts.Decomposes template.text.toList) :
    ListsFirst template.placeholders parts.names := by
  have same : template.names = parts.names := by
    rw [Template.names, Template.tokens, decomposes.scan_eq, parts.filterMap_tokens]
  rw [placeholders_eq, same]
  exact listsFirst_eraseDups parts.names

end Template

/-- A name has no value among the arguments. -/
def Arguments.lacks (arguments : Arguments) (name : String) : Bool :=
  (arguments.lookup name).isNone

theorem Arguments.lacks_eq_true_iff {arguments : Arguments} {name : String} :
    arguments.lacks name = true ↔ arguments.lookup name = none :=
  Option.isNone_iff_eq_none

theorem Arguments.lacks_eq_false_iff {arguments : Arguments} {name : String} :
    arguments.lacks name = false ↔ ∃ value, arguments.lookup name = some value := by
  rw [lacks, Option.isNone_eq_false_iff, Option.isSome_iff_exists]

namespace Template

section Rendering

variable {template : Template} {arguments : Arguments} {escaping : Escaping}

theorem exists_unbound_of_renderToken {token : Token} {cause : Error}
    (failed : renderToken arguments escaping token = .error cause) :
    ∃ name, token.name? = some name ∧ arguments.lacks name = true ∧
      cause = .missingParam name := by
  cases token with
  | literal c => cases failed
  | placeholder name =>
    rw [renderToken] at failed
    split at failed
    · cases failed
    · next unbound =>
      cases failed
      exact ⟨name, rfl, Arguments.lacks_eq_true_iff.mpr unbound, rfl⟩

theorem lacks_eq_false_of_renderToken {token : Token} {name : String} {piece : List Char}
    (named : token.name? = some name)
    (rendered : renderToken arguments escaping token = .ok piece) :
    arguments.lacks name = false := by
  cases token with
  | literal c => cases named
  | placeholder other =>
    cases named
    rw [renderToken] at rendered
    split at rendered
    · next value bound => exact Arguments.lacks_eq_false_iff.mpr ⟨value, bound⟩
    · cases rendered

theorem lacks_eq_false_of_render {output : String}
    (rendered : template.render arguments escaping = .ok output) :
    ∀ name ∈ template.placeholders, arguments.lacks name = false := by
  intro name member
  rw [placeholders_eq, List.mem_eraseDups] at member
  obtain ⟨token, present, named⟩ := List.mem_filterMap.mp member
  obtain ⟨pieces, written, _⟩ := Outcome.bind_eq_ok_iff.mp rendered
  obtain ⟨piece, found⟩ := Outcome.forall_of_mapM_eq_ok written token present
  exact lacks_eq_false_of_renderToken named found

theorem find?_placeholders_of_render {cause : Error}
    (failed : template.render arguments escaping = .error cause) :
    ∃ name, template.placeholders.find? arguments.lacks = some name ∧
      cause = .missingParam name := by
  rcases Outcome.bind_eq_error_iff.mp failed with failed | ⟨_, _, failed⟩
  · obtain ⟨before, token, after, split, written, failed⟩ := Outcome.mapM_eq_error_iff.mp failed
    obtain ⟨name, named, unbound, same⟩ := exists_unbound_of_renderToken failed
    have parts : template.names =
        before.filterMap Token.name? ++ name :: after.filterMap Token.name? := by
      rw [names, split, List.filterMap_append, List.filterMap_cons_some named]
    refine ⟨name, ?_, same⟩
    rw [placeholders_eq, find?_eraseDups, List.find?_eq_some_iff_append]
    refine ⟨unbound, _, _, parts, fun earlier member => ?_⟩
    obtain ⟨token, present, named⟩ := List.mem_filterMap.mp member
    obtain ⟨piece, rendered⟩ := written token present
    rw [lacks_eq_false_of_renderToken named rendered]
    rfl
  · cases failed

/-- **Failures of rendering.** Rendering fails for the first placeholder that has no value. -/
theorem render_eq_error_iff {cause : Error} :
    template.render arguments escaping = .error cause ↔
      ∃ name, template.placeholders.find? arguments.lacks = some name ∧
        cause = .missingParam name := by
  refine ⟨find?_placeholders_of_render, ?_⟩
  rintro ⟨name, first, rfl⟩
  cases outcome : template.render arguments escaping with
  | ok output =>
    have bound := lacks_eq_false_of_render outcome name (List.mem_of_find?_eq_some first)
    rw [List.find?_some first] at bound
    cases bound
  | error cause =>
    obtain ⟨other, found, rfl⟩ := find?_placeholders_of_render outcome
    rw [first] at found
    cases found
    rfl

/-- Rendering succeeds when each placeholder has a value, and only then. -/
theorem exists_render_iff :
    (∃ output, template.render arguments escaping = .ok output) ↔
      ∀ name ∈ template.placeholders, arguments.lacks name = false := by
  constructor
  · rintro ⟨output, rendered⟩
    exact lacks_eq_false_of_render rendered
  · intro bound
    cases outcome : template.render arguments escaping with
    | ok output => exact ⟨output, rfl⟩
    | error cause =>
      obtain ⟨name, first, _⟩ := find?_placeholders_of_render outcome
      have unbound := List.find?_some first
      rw [bound name (List.mem_of_find?_eq_some first)] at unbound
      cases unbound

/-- **What rendering reads.** Rendering depends on the values of the placeholders alone. -/
theorem render_congr {others : Arguments}
    (agree : ∀ name ∈ template.placeholders, others.lookup name = arguments.lookup name) :
    template.render others escaping = template.render arguments escaping := by
  have same : ∀ token ∈ template.tokens,
      renderToken others escaping token = renderToken arguments escaping token := by
    intro token present
    cases token with
    | literal c => rfl
    | placeholder name =>
      have member : name ∈ template.placeholders := by
        rw [placeholders_eq, List.mem_eraseDups]
        exact List.mem_filterMap.mpr ⟨_, present, rfl⟩
      rw [renderToken, renderToken, agree name member]
  rw [render, render, Outcome.mapM_congr same]

/-- A placeholder of a template has no value among the arguments. -/
def Unbound (template : Template) (arguments : Arguments) : Prop :=
  ∃ name ∈ template.placeholders, arguments.lookup name = none

theorem exists_unbound_of_render {cause : Error}
    (failed : template.render arguments escaping = .error cause) :
    ∃ name ∈ template.placeholders, arguments.lookup name = none ∧
      cause = .missingParam name := by
  obtain ⟨name, first, same⟩ := render_eq_error_iff.mp failed
  exact ⟨name, List.mem_of_find?_eq_some first,
    Arguments.lacks_eq_true_iff.mp (List.find?_some first), same⟩

/-- Rendering fails for want of the value of a placeholder, and only so. -/
theorem unbound_iff_exists_render : template.Unbound arguments ↔
    ∃ name, template.render arguments escaping = .error (.missingParam name) := by
  constructor
  · rintro ⟨name, member, unbound⟩
    cases outcome : template.render arguments escaping with
    | ok output =>
      have bound := lacks_eq_false_of_render outcome name member
      rw [Arguments.lacks_eq_true_iff.mpr unbound] at bound
      cases bound
    | error cause =>
      obtain ⟨other, _, _, rfl⟩ := exists_unbound_of_render outcome
      exact ⟨other, rfl⟩
  · rintro ⟨name, failed⟩
    obtain ⟨other, member, unbound, _⟩ := exists_unbound_of_render failed
    exact ⟨other, member, unbound⟩

end Rendering

/-- **Placeholders and rendering.** The placeholders of a template are the names in its text,
each of them once, in the order in which they first appear. Rendering succeeds when each of
them has a value and otherwise names the first one without; other values change nothing.
Several templates are rendered when each of them is, and otherwise fail as the first that
fails. -/
theorem placeholders_determine_render (template : Template) (arguments : Arguments)
    (escaping : Escaping) :
    (∃ parts : Decomposition, parts.Decomposes template.text.toList ∧
      ListsFirst template.placeholders parts.names) ∧
    ((∃ output, template.render arguments escaping = .ok output) ↔
      ∀ name ∈ template.placeholders, ∃ value, arguments.lookup name = some value) ∧
    (∀ cause, template.render arguments escaping = .error cause ↔
      ∃ before name after, template.placeholders = before ++ name :: after ∧
        (∀ earlier ∈ before, ∃ value, arguments.lookup earlier = some value) ∧
        arguments.lookup name = none ∧ cause = .missingParam name) ∧
    (∀ others : Arguments,
      (∀ name ∈ template.placeholders, others.lookup name = arguments.lookup name) →
        template.render others escaping = template.render arguments escaping) ∧
    ∀ templates : List Template,
      ((∃ outputs, renderAll templates arguments escaping = .ok outputs) ↔
        ∀ each ∈ templates, ∃ output, each.render arguments escaping = .ok output) ∧
      ∀ cause, renderAll templates arguments escaping = .error cause ↔
        ∃ before failing after, templates = before ++ failing :: after ∧
          (∀ earlier ∈ before, ∃ output, earlier.render arguments escaping = .ok output) ∧
          failing.render arguments escaping = .error cause := by
  refine ⟨?_, ?_, ?_, fun others agree => render_congr agree, fun templates => ⟨?_, ?_⟩⟩
  · have decomposes := Decomposition.decomposes_ofTokens_scan template.text.toList
    exact ⟨_, decomposes, decomposes.listsFirst⟩
  · simp only [exists_render_iff, Arguments.lacks_eq_false_iff]
  · intro cause
    rw [render_eq_error_iff]
    simp only [List.find?_eq_some_iff_append, Bool.not_eq_true', Arguments.lacks_eq_true_iff,
      Arguments.lacks_eq_false_iff]
    constructor
    · rintro ⟨name, ⟨unbound, before, after, split, bound⟩, same⟩
      exact ⟨before, name, after, split, bound, unbound, same⟩
    · rintro ⟨before, name, after, split, bound, unbound, same⟩
      exact ⟨name, ⟨unbound, before, after, split, bound⟩, same⟩
  · exact Outcome.exists_mapM_eq_ok_iff
  · exact fun cause => Outcome.mapM_eq_error_iff

/-- A placeholder that is written twice is listed once. -/
example : (Template.mk "\x7bb\x7d, \x7ba\x7d, \x7bb\x7d").placeholders = ["b", "a"] := by
  with_unfolding_all rfl

end Template

end Phrasebook
