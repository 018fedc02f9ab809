import Phrasebook.Proofs.Address.Grammar

/-! # Reading an address again

An address comes from reading a text and from going on to positions below a place
(`Phrasebook.Address.Obtained`). However it was made, its text reads as the same address, and
its steps written between dots read as the same steps. Steps can be written so when no name is
the numeral of a position (`Phrasebook.Address.Step.Plain`), and all steps that are read are of
this kind (`Phrasebook.Address.reread_text_and_steps`).
-/

namespace Phrasebook

namespace Address

/-- A step that its own text stands for: a position, or a name that can be a key and is not the
numeral of a position. -/
def Step.Plain : Step → Prop
  | .name key => IsKey key ∧
      ¬ (Text.IsNumeral key.toList ∧ Text.numeralValue key.toList < 2 ^ 64)
  | .position _ => True

/-- The addresses that a host can have: those of texts, and those of positions below them. -/
inductive Obtained : Address → Prop
  | read {raw : String} {address : Address} (written : parse raw = .ok address) :
      Obtained address
  | child {address : Address} (above : Obtained address) (index : Position) :
      Obtained (address.child index)

theorem plain_stepOf {key : String} (valid : IsKey key) : (stepOf key).Plain := by
  unfold stepOf
  split
  · trivial
  · next other =>
    refine ⟨valid, fun numeral => ?_⟩
    obtain ⟨index, read⟩ := Bracket.exists_ofNumeral?_iff.mpr numeral
    rw [other] at read
    cases read

namespace Step.Plain

variable {step : Step} (plain : step.Plain)
include plain

theorem isKey_text : IsKey step.text := by
  cases step with
  | name name => exact plain.1
  | position index => exact isKey_numeral index

theorem stepOf_text : stepOf step.text = step := by
  cases step with
  | position index => simp [Step.text, stepOf]
  | name name =>
    cases read : Position.ofNumeral? name.toList with
    | none => simp [Step.text, stepOf, read]
    | some index => exact absurd (Bracket.exists_ofNumeral?_iff.mp ⟨index, read⟩) plain.2

end Step.Plain

theorem Part.plain_of_mem_steps {part : Part} {step : Step} (member : step ∈ part.steps) :
    step.Plain := by
  rcases List.mem_cons.mp member with rfl | later
  · rw [part.headStep_eq]
    exact plain_stepOf part.isKey
  · obtain ⟨bracket, _, rfl⟩ := List.mem_map.mp later
    trivial

/-- Plain steps are read from their texts between dots. -/
theorem parse_join_text {steps : List Step} (nonempty : steps ≠ [])
    (plain : ∀ step ∈ steps, step.Plain) :
    parse (join (steps.map Step.text)) = .ok ⟨join (steps.map Step.text), steps⟩ := by
  have same : (steps.map Step.text).map stepOf = steps := by
    rw [List.map_map]
    exact (List.map_congr_left fun step member => (plain step member).stepOf_text).trans
      (List.map_id _)
  have valid : ∀ name ∈ steps.map Step.text, IsKey name := by
    intro name member
    obtain ⟨step, present, rfl⟩ := List.mem_map.mp member
    exact (plain step present).isKey_text
  rw [parse_join valid (by simpa using nonempty), same]

namespace Obtained

variable {address : Address} (obtained : Obtained address)
include obtained

theorem parse_text : parse address.text = .ok address := by
  induction obtained with
  | read written =>
    obtain ⟨_, _, _, rfl⟩ := read_eq_ok_iff.mp (parse_eq_ok_iff.mp written)
    exact written
  | @child address _ index ih =>
    have step : stepOf index.numeral = .position index := by simp [stepOf]
    have further := read_dot_key (parse_eq_ok_iff.mp ih) (isKey_numeral index)
    rw [step] at further
    exact parse_eq_ok_iff.mpr further

theorem steps_plain : address.steps ≠ [] ∧ ∀ step ∈ address.steps, step.Plain := by
  obtain ⟨parts, spells, same⟩ := exists_spells_of_read (parse_eq_ok_iff.mp obtained.parse_text)
  rw [← same]
  constructor
  · obtain ⟨part, rest, rfl⟩ := List.exists_cons_of_ne_nil spells.1
    exact List.cons_ne_nil _ _
  · intro step member
    obtain ⟨part, _, present⟩ := List.mem_flatMap.mp member
    exact Part.plain_of_mem_steps present

end Obtained

/-- **Text and steps of addresses.** An address that was read, or lies any number of positions
below one that was read, is read again from its text, and its steps are read again from their
texts between dots. All steps that their own texts stand for are read so, in any order and
number. -/
theorem reread_text_and_steps :
    (∀ address : Address, Obtained address →
      parse address.text = .ok address ∧
        parse (join (address.steps.map Step.text)) =
          .ok ⟨join (address.steps.map Step.text), address.steps⟩) ∧
      ∀ steps : List Step, steps ≠ [] → (∀ step ∈ steps, step.Plain) →
        parse (join (steps.map Step.text)) = .ok ⟨join (steps.map Step.text), steps⟩ := by
  refine ⟨fun address obtained => ⟨obtained.parse_text, ?_⟩, ?_⟩
  · obtain ⟨nonempty, plain⟩ := obtained.steps_plain
    exact parse_join_text nonempty plain
  · exact fun steps nonempty plain => parse_join_text nonempty plain

/-- Brackets and zeros in front of a numeral are not written again. -/
example : (parse "menu[02].03").map Address.steps = (parse "menu.2.3").map Address.steps := by
  decide +kernel

end Address

end Phrasebook
