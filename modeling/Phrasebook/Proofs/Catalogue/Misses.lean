import Phrasebook.Proofs.Catalogue.IndexedLookup
import Phrasebook.Proofs.Catalogue.Listing
import Phrasebook.Proofs.Locale.Canonical

/-! # Misses

A look-up that finds nothing says why: a position is out of range, or the key is missing. A
position is out of range in a catalogue exactly where the address passes a list or an indexed map
without the position that it asks for next (`Phrasebook.Catalogue.find_eq_outOfRange_iff`). Only
the first key on the way to an entry of a well-formed catalogue may be a numeral, so two
catalogues never lack different positions (`Phrasebook.Catalogue.LacksPosition.eq`). The error of
a look-up in two editions is therefore the same whichever of them is asked first
(`Phrasebook.Edition.find_misses`).
-/

namespace Phrasebook

namespace Node

/-- Steps from a node pass a list or an indexed map that has nothing at the position that they
ask for next. -/
def LacksPosition (node : Node) (steps : List Address.Step) (position : Position) : Prop :=
  ∃ front found rest, steps = front ++ .position position :: rest ∧
    node.descend? (front.map Address.Step.text) = some (.entry found) ∧
    found.shape.HasPositions ∧ found.item? (.position position) = none

theorem not_lacksPosition_nil (node : Node) (position : Position) :
    ¬ node.LacksPosition [] position := by
  rintro ⟨front, found, rest, parts, _⟩
  exact List.append_ne_nil_of_right_ne_nil front (List.cons_ne_nil _ rest) parts.symm

theorem lacksPosition_branch_cons {children : Namespace} {step : Address.Step}
    {rest : List Address.Step} {position : Position} :
    (Node.branch children).LacksPosition (step :: rest) position ↔
      ∃ child, children.get? step.text = some child ∧ child.LacksPosition rest position := by
  constructor
  · rintro ⟨front, found, more, parts, descended, lacks⟩
    cases front with
    | nil =>
      rw [List.map_nil, descend?_nil] at descended
      cases descended
    | cons first front =>
      obtain ⟨rfl, tail⟩ := List.cons.inj parts
      obtain ⟨child, present, below⟩ := Option.bind_eq_some_iff.mp descended
      exact ⟨child, present, front, found, more, tail, below, lacks⟩
  · rintro ⟨child, present, front, found, more, rfl, below, lacks⟩
    refine ⟨step :: front, found, more, rfl, ?_, lacks⟩
    rw [List.map_cons, descend?_branch_cons, present]
    exact below

theorem lacksPosition_entry_cons {found : Entry} {step : Address.Step}
    {rest : List Address.Step} {position : Position} :
    (Node.entry found).LacksPosition (step :: rest) position ↔
      step = .position position ∧ found.shape.HasPositions ∧
        found.item? (.position position) = none := by
  constructor
  · rintro ⟨front, entry, more, parts, descended, lacks⟩
    cases front with
    | nil =>
      rw [List.map_nil, descend?_nil] at descended
      cases descended
      exact ⟨(List.cons.inj parts).1, lacks⟩
    | cons first front => cases descended
  · rintro ⟨rfl, lacks⟩
    exact ⟨[], found, rest, rfl, descend?_nil _, lacks⟩

theorem not_lacksPosition_scalar (template : Template) (steps : List Address.Step)
    (position : Position) : ¬ (Node.entry (.scalar template)).LacksPosition steps position := by
  cases steps with
  | nil => exact not_lacksPosition_nil _ position
  | cons step rest =>
    rw [lacksPosition_entry_cons]
    exact fun lacks => lacks.2.1

theorem step_branch (children : Namespace) (step : Address.Step) :
    (Node.branch children).step step = child children step.text := by
  cases step <;> rfl

theorem child_eq_ok_iff {children : Namespace} {name : String} {node : Node} :
    child children name = .ok node ↔ children.get? name = some node := by
  unfold child
  cases children.get? name <;> simp

theorem child_ne_outOfRange (children : Namespace) (name : String) (position : Position) :
    child children name ≠ .error (.outOfRange position) := by
  unfold child
  cases children.get? name <;> simp

/-- Where an entry has nothing below it, a position that it could have is out of range and
every other step is absent. -/
theorem step_entry_of_item?_eq_none {found : Entry} {step : Address.Step}
    (absent : found.item? step = none) : (Node.entry found).step step = .error (match step with
      | .name _ => .absent
      | .position index => if found.shape.HasPositions then .outOfRange index else .absent) := by
  cases found with
  | scalar template => cases step <;> rfl
  | list items =>
    cases step with
    | name text => rfl
    | position index =>
      have lacking : items[index.toNat]? = none := absent
      simp only [Node.step, Entry.element?, lacking]
      rfl
  | indexed map =>
    cases step with
    | name text =>
      have lacking : map.named? text = none := (map.named?_eq_get? text).trans absent
      simp only [Node.step, lacking]
    | position index =>
      have lacking : map.atPosition? index = none := absent
      simp only [Node.step, Entry.element?, lacking]
      rfl

theorem step_entry_eq_outOfRange_iff {found : Entry} {step : Address.Step}
    {position : Position} : (Node.entry found).step step = .error (.outOfRange position) ↔
      step = .position position ∧ found.shape.HasPositions ∧
        found.item? (.position position) = none := by
  cases item : found.item? step with
  | some template =>
    have stepped : (Node.entry found).step step = .ok (.entry (.scalar template)) :=
      step_of_below?_eq_some (Option.map_eq_some_iff.mpr ⟨template, item, rfl⟩)
    rw [stepped]
    refine iff_of_false nofun ?_
    rintro ⟨rfl, _, lacking⟩
    rw [item] at lacking
    cases lacking
  | none =>
    rw [step_entry_of_item?_eq_none item]
    cases step with
    | name text => simp
    | position index =>
      by_cases positions : found.shape.HasPositions
      · simp only [positions, if_true, Except.error.injEq, Miss.outOfRange.injEq,
          Address.Step.position.injEq, true_and]
        exact ⟨fun same => ⟨same, same ▸ item⟩, And.left⟩
      · simp [positions]

theorem exists_template_of_step_entry {found : Entry} {step : Address.Step} {next : Node}
    (stepped : (Node.entry found).step step = .ok next) :
    ∃ template, next = .entry (.scalar template) := by
  cases below : (Node.entry found).below? step with
  | none =>
    obtain ⟨miss, failed, _⟩ := step_of_below?_eq_none below
    rw [failed] at stepped
    cases stepped
  | some reached =>
    rw [step_of_below?_eq_some below] at stepped
    cases stepped
    obtain ⟨template, _, rfl⟩ := Option.map_eq_some_iff.mp below
    exact ⟨template, rfl⟩

/-- Steps meet a position out of range exactly where they pass a node that lacks it. -/
theorem foldlM_step_eq_outOfRange_iff {node : Node} {steps : List Address.Step}
    {position : Position} : steps.foldlM Node.step node = .error (.outOfRange position) ↔
      node.LacksPosition steps position := by
  induction steps generalizing node with
  | nil =>
    refine iff_of_false ?_ (not_lacksPosition_nil node position)
    exact nofun
  | cons step rest ih =>
    rw [List.foldlM_cons, Outcome.bind_eq_error_iff]
    cases node with
    | branch children =>
      rw [lacksPosition_branch_cons, step_branch]
      simp only [child_ne_outOfRange, child_eq_ok_iff, ih, false_or]
    | entry found =>
      rw [lacksPosition_entry_cons, step_entry_eq_outOfRange_iff]
      refine or_iff_left ?_
      rintro ⟨next, stepped, failed⟩
      obtain ⟨template, rfl⟩ := exists_template_of_step_entry stepped
      exact not_lacksPosition_scalar template rest position (ih.mp failed)

theorem entryAt_none_ne_outOfRange (node : Node) (position : Position) :
    node.entryAt none ≠ .error (.outOfRange position) := by
  cases node <;> exact nofun

theorem hasPositions_of_step_eq_outOfRange {node : Node} {step : Address.Step}
    {position : Position} (outOfRange : node.step step = .error (.outOfRange position)) :
    node.shape.HasPositions := by
  cases node with
  | branch children =>
    rw [step_branch] at outOfRange
    exact absurd outOfRange (child_ne_outOfRange children step.text position)
  | entry found => exact (step_entry_eq_outOfRange_iff.mp outOfRange).2.1

/-- An index is out of range exactly where it would be as one more step. -/
theorem entryAt_eq_outOfRange_iff {node : Node} {index : Option Position} {position : Position} :
    node.entryAt index = .error (.outOfRange position) ↔
      (index.map Address.Step.position).toList.foldlM Node.step node =
        .error (.outOfRange position) := by
  cases index with
  | none => exact iff_of_false (entryAt_none_ne_outOfRange node position) nofun
  | some index =>
    have oneStep : (Option.map Address.Step.position (some index)).toList.foldlM step node =
        node.step (.position index) := by
      rw [Option.map_some, Option.toList_some, List.foldlM_cons]
      exact bind_pure _
    rw [oneStep]
    by_cases positions : node.shape.HasPositions
    · rw [entryAt_some_of_hasPositions positions, Outcome.bind_eq_error_iff]
      refine or_iff_left ?_
      rintro ⟨next, _, failed⟩
      exact entryAt_none_ne_outOfRange next position failed
    · rw [entryAt_some_of_not_hasPositions positions]
      refine iff_of_false nofun fun outOfRange => ?_
      exact positions (hasPositions_of_step_eq_outOfRange outOfRange)

end Node

namespace Catalogue

/-- An address and its index pass a list or an indexed map of a catalogue that has nothing at the
position that they ask for next. -/
def LacksPosition (catalogue : Catalogue) (address : Address) (index : Option Position)
    (position : Position) : Prop :=
  ∃ front found rest,
    address.steps ++ (index.map Address.Step.position).toList =
        front ++ .position position :: rest ∧
      catalogue.node? (front.map Address.Step.text) = some (.entry found) ∧
      found.shape.HasPositions ∧ found.item? (.position position) = none

/-- A look-up in a catalogue yields neither an entry nor a wrong shape. -/
structure Misses (catalogue : Catalogue) (address : Address) (index : Option Position) : Prop where
  noEntry : ∀ entry, catalogue.find address index ≠ .ok entry
  noMismatch : ∀ expected found,
    catalogue.find address index ≠ .error (.misshapen expected found)

section

variable {catalogue : Catalogue} {address : Address} {index : Option Position}

theorem lacksPosition_iff {position : Position} :
    catalogue.LacksPosition address index position ↔
      (Node.branch catalogue.root).LacksPosition
        (address.steps ++ (index.map Address.Step.position).toList) position := by
  simp only [LacksPosition, node?_eq_descend?]
  rfl

theorem find_eq_outOfRange_iff {position : Position} :
    catalogue.find address index = .error (.outOfRange position) ↔
      catalogue.LacksPosition address index position := by
  rw [lacksPosition_iff, ← Node.foldlM_step_eq_outOfRange_iff, List.foldlM_append, find,
    Outcome.bind_eq_error_iff, Outcome.bind_eq_error_iff]
  simp only [Node.entryAt_eq_outOfRange_iff]

theorem misses_iff : catalogue.Misses address index ↔
    ∃ miss, catalogue.find address index = .error miss ∧ miss.AllowsFallback := by
  constructor
  · intro misses
    cases missed : catalogue.find address index with
    | ok entry => exact absurd missed (misses.noEntry entry)
    | error miss =>
      refine ⟨miss, rfl, ?_⟩
      cases miss with
      | misshapen expected found => exact misses.noMismatch expected found missed
      | absent => trivial
      | outOfRange position => trivial
  · rintro ⟨miss, missed, allows⟩
    constructor
    · intro entry
      simp [missed]
    · intro expected found
      rw [missed]
      rintro ⟨rfl⟩
      exact allows

end

/-- No position is asked for between the first key and an entry of a well-formed catalogue. -/
theorem WellFormed.not_position_above {catalogue : Catalogue} (wellFormed : catalogue.WellFormed)
    {front more : List Address.Step} (nonempty : front ≠ []) {position : Position}
    {found : Entry} : catalogue.node? ((front ++ .position position :: more).map
      Address.Step.text) ≠ some (.entry found) := by
  intro reached
  obtain ⟨root, below, names, _, plain, _⟩ := wellFormed.node?_entry reached
  obtain ⟨first, rest, rfl⟩ := List.exists_cons_of_ne_nil nonempty
  rw [List.cons_append, List.map_cons] at names
  obtain ⟨_, rfl⟩ := List.cons.inj names
  have numeral : Text.isNumeral position.numeral.toList = false := by
    refine (plain _ (List.mem_map.mpr ⟨.position position, ?_, rfl⟩)).2
    exact List.mem_append_right rest List.mem_cons_self
  rw [Position.numeral, String.toList_ofList, Text.isNumeral_toDigits] at numeral
  cases numeral

/-- A catalogue that lacks a position behind some steps lacks no other one further behind. -/
theorem WellFormed.position_eq {catalogue : Catalogue} (wellFormed : catalogue.WellFormed)
    {front behind rest more : List Address.Step} {position other : Position} {found : Entry}
    (nonempty : front ≠ []) (parts : .position position :: rest = behind ++ .position other :: more)
    (reached : catalogue.node? ((front ++ behind).map Address.Step.text) = some (.entry found)) :
    position = other := by
  cases behind with
  | nil => exact Address.Step.position.inj (List.cons.inj parts).1
  | cons step behind =>
    obtain ⟨rfl, _⟩ := List.cons.inj parts
    exact absurd reached (wellFormed.not_position_above nonempty)

/-- Two catalogues that lack a position of the same address lack the same one. -/
theorem LacksPosition.eq {catalogue other : Catalogue} {address : Address}
    {index : Option Position} {position otherPosition : Position}
    (lacks : catalogue.LacksPosition address index position)
    (otherLacks : other.LacksPosition address index otherPosition)
    (wellFormed : catalogue.WellFormed) (otherWellFormed : other.WellFormed) :
    position = otherPosition := by
  obtain ⟨front, found, rest, parts, reached, _⟩ := lacks
  obtain ⟨otherFront, otherFound, more, otherParts, otherReached, _⟩ := otherLacks
  have nonempty : front ≠ [] := by
    rintro rfl
    exact (wellFormed.isKey_of_node?_entry reached).1 List.map_nil
  have otherNonempty : otherFront ≠ [] := by
    rintro rfl
    exact (otherWellFormed.isKey_of_node?_entry otherReached).1 List.map_nil
  rcases List.append_eq_append_iff.mp (parts.symm.trans otherParts) with
    ⟨behind, rfl, tail⟩ | ⟨behind, rfl, tail⟩
  · exact otherWellFormed.position_eq nonempty tail otherReached
  · exact (wellFormed.position_eq otherNonempty tail reached).symm

end Catalogue

namespace Miss

theorem error_injective (address : Address) : Function.Injective fun miss : Miss =>
    miss.error address := by
  intro first second same
  cases first <;> cases second <;> simp_all [Miss.error]

theorem allowsFallback_of_orElse {first second : Miss} (allows : first.AllowsFallback)
    (together : (first.orElse second).AllowsFallback) : second.AllowsFallback := by
  cases second with
  | misshapen expected found =>
    rw [(orElse_eq_misshapen_iff allows).mpr rfl] at together
    exact together
  | absent => trivial
  | outOfRange position => trivial

theorem AllowsFallback.eq_absent_iff {miss : Miss} (allows : miss.AllowsFallback) :
    miss = .absent ↔ ∀ position, miss ≠ .outOfRange position := by
  cases miss with
  | absent => simp
  | outOfRange position => simp
  | misshapen expected found => exact allows.elim

theorem orElse_eq_absent_iff {first second : Miss} :
    first.orElse second = .absent ↔ first = .absent ∧ second = .absent := by
  cases first <;> cases second <;> simp [orElse]

/-- Misses that do not tell of different positions come to a position that one of them
tells of. -/
theorem orElse_eq_outOfRange_iff {first second : Miss} (allows : first.AllowsFallback)
    (secondAllows : second.AllowsFallback) {position : Position}
    (agree : ∀ index, first = .outOfRange index → second = .outOfRange position →
      index = position) :
    first.orElse second = .outOfRange position ↔
      first = .outOfRange position ∨ second = .outOfRange position := by
  cases first with
  | misshapen expected found => exact allows.elim
  | absent =>
    cases second with
    | misshapen expected found => exact secondAllows.elim
    | absent => simp [orElse]
    | outOfRange other => simp [orElse]
  | outOfRange index =>
    have kept : (outOfRange index).orElse second = .outOfRange index := by
      cases second with
      | misshapen expected found => exact secondAllows.elim
      | absent => rfl
      | outOfRange other => rfl
    rw [kept]
    refine ⟨.inl, ?_⟩
    rintro (same | same)
    · exact same
    · rw [agree index rfl same]

end Miss

namespace Edition

section

variable {wanted fallback : Edition} {address : Address} {index : Option Position}

theorem find_eq_miss_iff (different : wanted.locale ≠ fallback.locale) {miss : Miss}
    (allows : miss.AllowsFallback) :
    wanted.find fallback address index = .error (miss.error address) ↔ ∃ first second,
      (wanted.catalogue.find address index = .error first ∧ first.AllowsFallback) ∧
        (fallback.catalogue.find address index = .error second ∧ second.AllowsFallback) ∧
        first.orElse second = miss := by
  rw [find_eq_error_iff]
  constructor
  · rintro ⟨other, same, way⟩
    obtain rfl := Miss.error_injective address same
    rcases way with ⟨_, final⟩ | ⟨first, second, own, firstAllows, _, other, rfl⟩
    · exact absurd (final allows) different
    · have secondAllows := Miss.allowsFallback_of_orElse firstAllows allows
      exact ⟨first, second, ⟨own, firstAllows⟩, ⟨other, secondAllows⟩, rfl⟩
  · rintro ⟨first, second, ⟨own, firstAllows⟩, ⟨other, _⟩, rfl⟩
    exact ⟨_, rfl, .inr ⟨first, second, own, firstAllows, different, other, rfl⟩⟩

/-- Both editions miss, and what their misses come to is decided by what each one misses. -/
theorem find_eq_miss_iff_misses (different : wanted.locale ≠ fallback.locale) (miss : Miss)
    (allows : miss.AllowsFallback) {decides : Prop}
    (decided : ∀ first second, wanted.catalogue.find address index = .error first →
      fallback.catalogue.find address index = .error second → first.AllowsFallback →
      second.AllowsFallback → (first.orElse second = miss ↔ decides)) :
    wanted.find fallback address index = .error (miss.error address) ↔
      wanted.catalogue.Misses address index ∧ fallback.catalogue.Misses address index ∧
        decides := by
  rw [find_eq_miss_iff different allows, Catalogue.misses_iff, Catalogue.misses_iff]
  constructor
  · rintro ⟨first, second, own, other, together⟩
    exact ⟨⟨first, own⟩, ⟨second, other⟩,
      (decided first second own.1 other.1 own.2 other.2).mp together⟩
  · rintro ⟨⟨first, own⟩, ⟨second, other⟩, decides⟩
    exact ⟨first, second, own, other,
      (decided first second own.1 other.1 own.2 other.2).mpr decides⟩

theorem find_eq_indexOutOfRange_iff (different : wanted.locale ≠ fallback.locale)
    (wellFormed : wanted.catalogue.WellFormed) (otherWellFormed : fallback.catalogue.WellFormed)
    {position : Position} :
    wanted.find fallback address index = .error (.indexOutOfRange address.text position) ↔
      wanted.catalogue.Misses address index ∧ fallback.catalogue.Misses address index ∧
        (wanted.catalogue.LacksPosition address index position ∨
          fallback.catalogue.LacksPosition address index position) := by
  refine find_eq_miss_iff_misses different (.outOfRange position) trivial ?_
  intro first second own other allows secondAllows
  rw [← Catalogue.find_eq_outOfRange_iff, ← Catalogue.find_eq_outOfRange_iff, own, other,
    Except.error.injEq, Except.error.injEq]
  refine Miss.orElse_eq_outOfRange_iff allows secondAllows ?_
  rintro position rfl rfl
  exact (Catalogue.find_eq_outOfRange_iff.mp own).eq (Catalogue.find_eq_outOfRange_iff.mp other)
    wellFormed otherWellFormed

theorem find_eq_missingKey_iff (different : wanted.locale ≠ fallback.locale) :
    wanted.find fallback address index = .error (.missingKey address.text) ↔
      wanted.catalogue.Misses address index ∧ fallback.catalogue.Misses address index ∧
        ∀ position, ¬ wanted.catalogue.LacksPosition address index position ∧
          ¬ fallback.catalogue.LacksPosition address index position := by
  refine find_eq_miss_iff_misses different .absent trivial ?_
  intro first second own other allows secondAllows
  simp only [← Catalogue.find_eq_outOfRange_iff, own, other, Except.error.injEq, forall_and,
    Miss.orElse_eq_absent_iff, allows.eq_absent_iff, secondAllows.eq_absent_iff]

/-- The error that a miss tells of speaks of the address that was asked for. -/
theorem text_eq_of_find_eq_error {error : Error}
    (failed : wanted.find fallback address index = .error error) :
    (∀ path, error = .missingKey path → path = address.text) ∧
      ∀ path position, error = .indexOutOfRange path position → path = address.text := by
  obtain ⟨miss, rfl, _⟩ := find_eq_error_iff.mp failed
  cases miss <;> simp [Miss.error, eq_comm]

end

/-- **Exact misses.** In two editions of different locales, whose catalogues are made from
documents, a look-up has a position out of range exactly when neither catalogue yields an entry or
a wrong shape and one of them has a list or an indexed map on the way of the address that lacks
the position which is asked for next. It has no key exactly when neither yields an entry or a
wrong shape and neither lacks a position so. Whichever edition is asked first, the error is the
same. -/
theorem find_misses (wanted fallback : Edition) {document otherDocument : Document}
    (accepted : Catalogue.ofDocument document = .ok wanted.catalogue)
    (otherAccepted : Catalogue.ofDocument otherDocument = .ok fallback.catalogue)
    (different : wanted.locale ≠ fallback.locale) (address : Address)
    (index : Option Position) :
    (∀ path position,
        wanted.find fallback address index = .error (.indexOutOfRange path position) ↔
          path = address.text ∧ wanted.catalogue.Misses address index ∧
            fallback.catalogue.Misses address index ∧
            (wanted.catalogue.LacksPosition address index position ∨
              fallback.catalogue.LacksPosition address index position)) ∧
      (∀ path, wanted.find fallback address index = .error (.missingKey path) ↔
        path = address.text ∧ wanted.catalogue.Misses address index ∧
          fallback.catalogue.Misses address index ∧
          ∀ position, ¬ wanted.catalogue.LacksPosition address index position ∧
            ¬ fallback.catalogue.LacksPosition address index position) ∧
      (∀ path position,
        wanted.find fallback address index = .error (.indexOutOfRange path position) →
          fallback.find wanted address index = .error (.indexOutOfRange path position)) ∧
      ∀ path, wanted.find fallback address index = .error (.missingKey path) →
        fallback.find wanted address index = .error (.missingKey path) := by
  have wellFormed := Catalogue.wellFormed_of_ofDocument accepted
  have otherWellFormed := Catalogue.wellFormed_of_ofDocument otherAccepted
  refine ⟨?_, ?_, ?_, ?_⟩
  · intro path position
    constructor
    · intro failed
      obtain rfl := (text_eq_of_find_eq_error failed).2 path position rfl
      exact ⟨rfl, (find_eq_indexOutOfRange_iff different wellFormed otherWellFormed).mp failed⟩
    · rintro ⟨rfl, misses⟩
      exact (find_eq_indexOutOfRange_iff different wellFormed otherWellFormed).mpr misses
  · intro path
    constructor
    · intro failed
      obtain rfl := (text_eq_of_find_eq_error failed).1 path rfl
      exact ⟨rfl, (find_eq_missingKey_iff different).mp failed⟩
    · rintro ⟨rfl, misses⟩
      exact (find_eq_missingKey_iff different).mpr misses
  · intro path position failed
    obtain rfl := (text_eq_of_find_eq_error failed).2 path position rfl
    obtain ⟨own, other, lacks⟩ :=
      (find_eq_indexOutOfRange_iff different wellFormed otherWellFormed).mp failed
    exact (find_eq_indexOutOfRange_iff different.symm otherWellFormed wellFormed).mpr
      ⟨other, own, lacks.symm⟩
  · intro path failed
    obtain rfl := (text_eq_of_find_eq_error failed).1 path rfl
    obtain ⟨own, other, lacks⟩ := (find_eq_missingKey_iff different).mp failed
    exact (find_eq_missingKey_iff different.symm).mpr
      ⟨other, own, fun position => (lacks position).symm⟩

/-- A list of one tip, and an indexed map of tips without a fourth one. -/
theorem find_misses_tips :
    ∃ own other : Catalogue,
      Catalogue.ofDocument (.mapping [("tips", .sequence [.text "Ruhe"])]) = .ok own ∧
        Catalogue.ofDocument (.mapping [("tips", .mapping
          [("0", .text "Rest"), ("7", .text "Drink")])]) = .ok other ∧
        Locale.german ≠ Locale.english ∧
        let wanted : Edition := ⟨.german, own⟩
        let fallback : Edition := ⟨.english, other⟩
        let address : Address := ⟨"tips", [.name "tips"]⟩
        own.Misses address (some 3) ∧ other.Misses address (some 3) ∧
          (own.LacksPosition address (some 3) 3 ∨ other.LacksPosition address (some 3) 3) ∧
          fallback.find wanted address (some 3) = .error (.indexOutOfRange "tips" 3) := by
  have accepted : Catalogue.ofDocument (.mapping [("tips", .sequence [.text "Ruhe"])]) =
      .ok ⟨[("tips", .entry (.list [⟨"Ruhe"⟩]))]⟩ := rfl
  have otherAccepted : Catalogue.ofDocument (.mapping [("tips", .mapping
      [("0", .text "Rest"), ("7", .text "Drink")])]) = .ok ⟨[("tips", .entry (.indexed
        ⟨[(.position 0, ⟨"Rest"⟩), (.position 7, ⟨"Drink"⟩)]⟩))]⟩ := rfl
  refine ⟨_, _, accepted, otherAccepted, Locale.german_ne_english, ?_⟩
  intro wanted fallback address
  have failed : wanted.find fallback address (some 3) = .error (.indexOutOfRange "tips" 3) := rfl
  obtain ⟨outOfRange, _, swap, _⟩ := find_misses wanted fallback accepted otherAccepted
    Locale.german_ne_english address (some 3)
  obtain ⟨_, own, other, lacks⟩ := (outOfRange "tips" 3).mp failed
  exact ⟨own, other, lacks, swap "tips" 3 failed⟩

end Edition

end Phrasebook
