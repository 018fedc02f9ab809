import Phrasebook.Proofs.Address.Spelling
import Phrasebook.Proofs.Text.Pieces

/-! # The grammar of addresses

An address is spelled as parts between dots, and a part as a key with numerals in brackets
behind it (`Phrasebook.Address.Part`). Exactly the texts that are spelled so are read; each of
them has its parts in one way only, and takes their steps in their order
(`Phrasebook.Address.parse_iff_spells`).

A position below an address may stand behind a dot or in brackets. Both spellings lead to the
same place when the numeral is that of a position; a numeral of a larger number is a name behind
a dot and is refused in brackets (`Phrasebook.Address.interchangeable_iff`).
-/

namespace Phrasebook

/-- Digits from `0` to `9`, and at least one of them. -/
def Text.IsNumeral (text : List Char) : Prop :=
  text ≠ [] ∧ ∀ c ∈ text, '0' ≤ c ∧ c ≤ '9'

theorem Text.isNumeral_iff (text : List Char) : isNumeral text = true ↔ IsNumeral text := by
  have digit (c : Char) : c.isDigit = true ↔ '0' ≤ c ∧ c ≤ '9' := by
    simp only [Char.isDigit, Bool.and_eq_true, decide_eq_true_eq, ge_iff_le]
    exact Iff.rfl
  simp [isNumeral, IsNumeral, digit]

instance (text : List Char) : Decidable (Text.IsNumeral text) :=
  decidable_of_iff _ (Text.isNumeral_iff text)

namespace Address

/-- The numeral of a position, as it stands in brackets. -/
@[ext]
structure Bracket where
  digits : List Char
  numeral : Text.IsNumeral digits
  fits : Text.numeralValue digits < 2 ^ 64

/-- What stands between two dots: a key, with numerals in brackets behind it. -/
@[ext]
structure Part where
  head : String
  isKey : IsKey head
  brackets : List Bracket

/-- The position whose numeral stands in brackets. -/
def Bracket.index (bracket : Bracket) : Position :=
  UInt64.ofNatLT (Text.numeralValue bracket.digits) bracket.fits

/-- A bracket as far as its closing mark. -/
def Bracket.opened (bracket : Bracket) : List Char :=
  '[' :: bracket.digits

def Bracket.spelling (bracket : Bracket) : List Char :=
  bracket.opened ++ [']']

def Part.spelling (part : Part) : List Char :=
  part.head.toList ++ part.brackets.flatMap Bracket.spelling

/-- The step of a head: to a position when the head is the numeral of one, else to a name. -/
def Part.headStep (part : Part) : Step :=
  if fits : Text.IsNumeral part.head.toList ∧ Text.numeralValue part.head.toList < 2 ^ 64 then
    .position (UInt64.ofNatLT (Text.numeralValue part.head.toList) fits.2)
  else .name part.head

/-- The steps of a part: that of its head, and one to the position in each bracket. -/
def Part.steps (part : Part) : List Step :=
  part.headStep :: part.brackets.map fun bracket => .position bracket.index

/-- A text is spelled as parts between dots. -/
def Spells (parts : List Part) (raw : String) : Prop :=
  parts ≠ [] ∧ raw.toList = ['.'].intercalate (parts.map Part.spelling)

namespace Bracket

theorem ofNumeral?_digits (bracket : Bracket) :
    Position.ofNumeral? bracket.digits = some bracket.index := by
  rw [Position.ofNumeral?_eq_some_iff, Text.isNumeral_iff, index, UInt64.toNat_ofNatLT]
  exact ⟨bracket.numeral, rfl⟩

theorem exists_of_ofNumeral? {digits : List Char} {index : Position}
    (read : Position.ofNumeral? digits = some index) :
    ∃ bracket : Bracket, bracket.digits = digits ∧ bracket.index = index := by
  obtain ⟨numeral, value⟩ := Position.ofNumeral?_eq_some_iff.mp read
  let bracket : Bracket :=
    ⟨digits, (Text.isNumeral_iff digits).mp numeral, value ▸ index.toNat_lt_size⟩
  refine ⟨bracket, rfl, ?_⟩
  rw [← Option.some_inj, ← bracket.ofNumeral?_digits, read]

theorem exists_ofNumeral?_iff {digits : List Char} :
    (∃ index, Position.ofNumeral? digits = some index) ↔
      Text.IsNumeral digits ∧ Text.numeralValue digits < 2 ^ 64 := by
  constructor
  · rintro ⟨index, read⟩
    obtain ⟨bracket, rfl, _⟩ := exists_of_ofNumeral? read
    exact ⟨bracket.numeral, bracket.fits⟩
  · rintro ⟨numeral, fits⟩
    exact ⟨_, ofNumeral?_digits ⟨digits, numeral, fits⟩⟩

theorem closing_notMem_opened {digits : List Char} (numeral : Text.IsNumeral digits) :
    ']' ∉ '[' :: digits := by
  rw [List.mem_cons, not_or]
  refine ⟨by decide, fun inside => ?_⟩
  exact absurd (numeral.2 ']' inside) (by decide)

theorem dot_notMem_bracketed {digits : List Char} (numeral : Text.IsNumeral digits) :
    '.' ∉ '[' :: digits ++ [']'] := by
  simp only [List.cons_append, List.mem_cons, List.mem_append, not_or]
  refine ⟨by decide, fun inside => ?_, by decide⟩
  exact absurd (numeral.2 '.' inside) (by decide)

theorem flatMap_spelling (brackets : List Bracket) : brackets.flatMap spelling =
    (brackets.map opened).flatMap fun piece => piece ++ [']'] := by
  rw [List.flatMap_map]
  rfl

theorem splitOn_flatMap_spelling (brackets : List Bracket) :
    (brackets.flatMap spelling).splitOn ']' = brackets.map opened ++ [[]] := by
  rw [flatMap_spelling]
  refine Text.splitOn_flatMap_append ?_
  intro piece member
  obtain ⟨bracket, _, rfl⟩ := List.mem_map.mp member
  exact closing_notMem_opened bracket.numeral

theorem opening_of_mem_head? {brackets : List Bracket} {tail : List Char}
    (opens : ∀ c ∈ tail.head?, c = '[') :
    ∀ c ∈ (brackets.flatMap spelling ++ tail).head?, c = '[' := by
  cases brackets with
  | nil => exact opens
  | cons bracket rest =>
    intro c first
    cases first
    rfl

end Bracket

theorem readBrackets_opened_cons (bracket : Bracket) {pieces : List (List Char)}
    (more : pieces ≠ []) : readBrackets (bracket.opened :: pieces) =
      (readBrackets pieces).map (.position bracket.index :: ·) := by
  rw [Bracket.opened, readBrackets.eq_def]
  cases pieces with
  | nil => exact absurd rfl more
  | cons piece rest => simp only [bracket.ofNumeral?_digits]

/-- Brackets in front of other pieces are read one by one. -/
theorem readBrackets_append (brackets : List Bracket) {pieces : List (List Char)}
    (more : pieces ≠ []) :
    readBrackets (brackets.map Bracket.opened ++ pieces) = (readBrackets pieces).map
      ((brackets.map fun bracket => .position bracket.index) ++ ·) := by
  induction brackets with
  | nil =>
    rw [List.map_nil, List.nil_append]
    cases readBrackets pieces <;> rfl
  | cons bracket rest ih =>
    rw [List.map_cons, List.cons_append, readBrackets_opened_cons bracket (by simp [more]), ih]
    cases readBrackets pieces <;> rfl

/-- Nothing but brackets is read behind a head. -/
theorem exists_brackets_of_readBrackets {pieces : List (List Char)} (nonempty : pieces ≠ [])
    {steps : List Step} (read : readBrackets pieces = .ok steps) :
    ∃ brackets : List Bracket, brackets.map Bracket.opened ++ [[]] = pieces ∧
      (brackets.map fun bracket => .position bracket.index) = steps := by
  induction pieces generalizing steps with
  | nil => exact absurd rfl nonempty
  | cons piece rest ih =>
    rw [readBrackets.eq_def] at read
    cases rest with
    | nil =>
      dsimp only at read
      split at read
      · cases read
        exact ⟨[], rfl, rfl⟩
      · cases read
      · cases read
    | cons next others =>
      dsimp only at read
      split at read
      · split at read
        · cases read
        · next index numeral =>
          obtain ⟨bracket, rfl, rfl⟩ := Bracket.exists_of_ofNumeral? numeral
          cases later : readBrackets (next :: others) with
          | error fault =>
            rw [later] at read
            cases read
          | ok more =>
            rw [later] at read
            cases read
            obtain ⟨brackets, shape, rfl⟩ := ih (List.cons_ne_nil _ _) later
            exact ⟨bracket :: brackets, by rw [← shape]; rfl, rfl⟩
      · cases read

namespace Part

theorem headStep_eq (part : Part) : part.headStep = stepOf part.head := by
  unfold headStep stepOf
  split
  · next fits =>
    let bracket : Bracket := ⟨part.head.toList, fits.1, fits.2⟩
    rw [show Position.ofNumeral? part.head.toList = some bracket.index from
      bracket.ofNumeral?_digits]
    rfl
  · next other =>
    cases read : Position.ofNumeral? part.head.toList with
    | none => rfl
    | some index => exact absurd (Bracket.exists_ofNumeral?_iff.mp ⟨index, read⟩) other

/-- What stands behind a part is read after its steps. -/
theorem readPart_spelling_append (part : Part) {tail : List Char}
    (opens : ∀ c ∈ tail.head?, c = '[') {pieces : List (List Char)} (more : pieces ≠ [])
    (split : (part.brackets.flatMap Bracket.spelling ++ tail).splitOn ']' =
      part.brackets.map Bracket.opened ++ pieces) :
    readPart (part.spelling ++ tail) = (readBrackets pieces).map (part.steps ++ ·) := by
  rw [spelling, List.append_assoc, readPart_append part.isKey (Bracket.opening_of_mem_head? opens),
    split, readBrackets_append part.brackets more, steps, headStep_eq]
  cases readBrackets pieces <;> rfl

theorem readPart_spelling (part : Part) : readPart part.spelling = .ok part.steps := by
  have ends : ∀ c ∈ ([] : List Char).head?, c = '[' := nofun
  have read := part.readPart_spelling_append ends (List.cons_ne_nil [] [])
    (by rw [List.append_nil, Bracket.splitOn_flatMap_spelling])
  rw [List.append_nil] at read
  rw [read]
  change Except.ok (part.steps ++ []) = _
  rw [List.append_nil]

/-- Nothing but parts is read between dots. -/
theorem exists_of_readPart {text : List Char} (noDot : '.' ∉ text) {steps : List Step}
    (read : readPart text = .ok steps) :
    ∃ part : Part, part.spelling = text ∧ part.steps = steps := by
  obtain ⟨first, head, read⟩ := Outcome.bind_eq_ok_iff.mp read
  obtain ⟨more, tail, made⟩ := Outcome.bind_eq_ok_iff.mp read
  cases made
  obtain ⟨nonempty, noClosing, rfl⟩ := readHead_eq_ok_iff.mp head
  obtain ⟨brackets, pieces, rfl⟩ :=
    exists_brackets_of_readBrackets (List.splitOn_ne_nil _ _) tail
  have valid : IsKey (String.ofList (text.takeWhile (· != '['))) := by
    refine ⟨fun empty => nonempty (by simpa using empty), ?_, ?_, ?_⟩
    · rw [String.toList_ofList]
      exact fun member => noDot ((List.takeWhile_prefix _).subset member)
    · rw [String.toList_ofList]
      exact fun member => absurd (List.mem_takeWhile_imp member) (by decide)
    · rwa [String.toList_ofList]
  refine ⟨⟨_, valid, brackets⟩, ?_, ?_⟩
  · have behind : brackets.flatMap Bracket.spelling = text.dropWhile (· != '[') := by
      have joined := congrArg (List.intercalate [']']) pieces
      rwa [← Bracket.splitOn_flatMap_spelling, List.intercalate_splitOn,
        List.intercalate_splitOn] at joined
    rw [spelling, String.toList_ofList, behind]
    exact List.takeWhile_append_dropWhile
  · rw [Part.steps, headStep_eq]

theorem spelling_injective : Function.Injective spelling := by
  have opens (brackets : List Bracket) :
      ∀ c ∈ (brackets.flatMap Bracket.spelling).head?, c = '[' := by
    have ends : ∀ c ∈ ([] : List Char).head?, c = '[' := nofun
    rw [← List.append_nil (brackets.flatMap Bracket.spelling)]
    exact Bracket.opening_of_mem_head? ends
  intro part other same
  have front := congrArg (List.takeWhile (· != '[')) same
  have back := congrArg (List.dropWhile (· != '[')) same
  simp only [spelling, part.isKey.takeWhile_append (opens _),
    other.isKey.takeWhile_append (opens _)] at front
  simp only [spelling, part.isKey.dropWhile_append (opens _),
    other.isKey.dropWhile_append (opens _)] at back
  have pieces := congrArg (List.splitOn ']') back
  rw [Bracket.splitOn_flatMap_spelling, Bracket.splitOn_flatMap_spelling] at pieces
  apply Part.ext
  · exact String.toList_inj.mp front
  · refine List.map_injective_iff.mpr ?_ (List.append_cancel_right pieces)
    exact fun first second alike => Bracket.ext (List.cons.inj alike).2

theorem dot_notMem_spelling (part : Part) : '.' ∉ part.spelling := by
  rw [spelling, List.mem_append, List.mem_flatMap]
  rintro (inside | ⟨bracket, _, inside⟩)
  · exact part.isKey.2.1 inside
  · exact Bracket.dot_notMem_bracketed bracket.numeral inside

end Part

/-- Nothing but parts is read. -/
theorem exists_parts_of_readParts {pieces : List (List Char)} {steps : List (List Step)}
    (read : List.Forall₂ (fun piece steps => readPart piece = .ok steps) pieces steps)
    (noDot : ∀ piece ∈ pieces, '.' ∉ piece) :
    ∃ parts : List Part, parts.map Part.spelling = pieces ∧ parts.map Part.steps = steps := by
  induction read with
  | nil => exact ⟨[], rfl, rfl⟩
  | cons first _ ih =>
    obtain ⟨notHere, notLater⟩ := List.forall_mem_cons.mp noDot
    obtain ⟨part, rfl, rfl⟩ := Part.exists_of_readPart notHere first
    obtain ⟨rest, rfl, rfl⟩ := ih notLater
    exact ⟨part :: rest, rfl, rfl⟩

theorem exists_spells_of_read {raw : String} {address : Address}
    (written : read raw = .ok address) :
    ∃ parts, Spells parts raw ∧ ⟨raw, parts.flatMap Part.steps⟩ = address := by
  obtain ⟨_, steps, done, rfl⟩ := read_eq_ok_iff.mp written
  obtain ⟨parts, spelled, rfl⟩ := exists_parts_of_readParts (Outcome.forall₂_of_mapM_eq_ok done)
    fun piece => Text.notMem_of_mem_splitOn
  refine ⟨parts, ⟨?_, ?_⟩, ?_⟩
  · rintro rfl
    exact List.splitOn_ne_nil _ _ spelled.symm
  · rw [spelled, List.intercalate_splitOn]
  · rw [List.flatMap_def]

namespace Spells

variable {parts others : List Part} {raw : String} (spells : Spells parts raw)
include spells

theorem splitOn_eq : raw.toList.splitOn '.' = parts.map Part.spelling := by
  rw [spells.2]
  refine List.splitOn_intercalate '.' ?_ (by simpa using spells.1)
  intro piece member
  obtain ⟨part, _, rfl⟩ := List.mem_map.mp member
  exact part.dot_notMem_spelling

theorem ne_empty : raw ≠ "" := by
  rintro rfl
  obtain ⟨part, rest, rfl⟩ := List.exists_cons_of_ne_nil spells.1
  have empty : part.spelling = [] := (List.cons.inj spells.splitOn_eq).1.symm
  exact part.isKey.1 (by simpa using (List.append_eq_nil_iff.mp empty).1)

theorem unique (alike : Spells others raw) : parts = others := by
  refine List.map_injective_iff.mpr Part.spelling_injective ?_
  rw [← spells.splitOn_eq, alike.splitOn_eq]

theorem read_eq : read raw = .ok ⟨raw, parts.flatMap Part.steps⟩ := by
  refine read_eq_ok_iff.mpr ⟨spells.ne_empty, parts.map Part.steps, ?_, ?_⟩
  · rw [spells.splitOn_eq, List.mapM_map]
    exact Outcome.mapM_eq_ok fun part _ => part.readPart_spelling
  · rw [List.flatMap_def]

end Spells

/-- **The grammar of addresses.** The texts that are read are those that are spelled as parts
between dots, each of them in one way only: a part is a key with numerals of positions in
brackets behind it. An address keeps its text and takes the steps of the parts in their order:
the head of each part as a position when it is the numeral of one and as a name otherwise, then
the position in each of its brackets. -/
theorem parse_iff_spells (raw : String) :
    ((∃ address, parse raw = .ok address) ↔ ∃! parts : List Part, Spells parts raw) ∧
      ∀ parts : List Part, Spells parts raw →
        parse raw = .ok ⟨raw, parts.flatMap Part.steps⟩ := by
  refine ⟨⟨?_, ?_⟩, ?_⟩
  · rintro ⟨address, written⟩
    obtain ⟨parts, spells, _⟩ := exists_spells_of_read (parse_eq_ok_iff.mp written)
    exact ⟨parts, spells, fun others alike => Spells.unique alike spells⟩
  · rintro ⟨parts, spells, _⟩
    exact ⟨_, parse_eq_ok_iff.mpr spells.read_eq⟩
  · exact fun parts spells => parse_eq_ok_iff.mpr spells.read_eq

/-- A numeral that fits no position is a name behind a dot. -/
example : parse "a[1][02].18446744073709551616" = .ok ⟨"a[1][02].18446744073709551616",
    [.name "a", .position 1, .position 2, .name "18446744073709551616"]⟩ := by
  with_unfolding_all rfl

theorem isKey_of_isNumeral {digits : String} (numeral : Text.IsNumeral digits.toList) :
    IsKey digits := by
  have other {c : Char} (notDigit : ¬ ('0' ≤ c ∧ c ≤ '9')) : c ∉ digits.toList :=
    fun member => notDigit (numeral.2 c member)
  refine ⟨?_, other (by decide), other (by decide), other (by decide)⟩
  rintro rfl
  exact numeral.1 rfl

/-- A numeral in brackets behind a part takes one more step if it is that of a position. -/
theorem Part.readPart_bracketed (part : Part) {digits : String}
    (numeral : Text.IsNumeral digits.toList) :
    readPart (part.spelling ++ ('[' :: digits.toList ++ [']'])) =
      match Position.ofNumeral? digits.toList with
      | some index => .ok (part.steps ++ [.position index])
      | none => .error .noNumeral := by
  have split : (part.brackets.flatMap Bracket.spelling ++ ('[' :: digits.toList ++ [']'])).splitOn
      ']' = part.brackets.map Bracket.opened ++ ['[' :: digits.toList, []] := by
    have plain : ∀ piece ∈ part.brackets.map Bracket.opened ++ ['[' :: digits.toList],
        ']' ∉ piece := by
      intro piece member
      rcases List.mem_append.mp member with present | last
      · obtain ⟨bracket, _, rfl⟩ := List.mem_map.mp present
        exact Bracket.closing_notMem_opened bracket.numeral
      · rw [List.mem_singleton.mp last]
        exact Bracket.closing_notMem_opened numeral
    have pieces := Text.splitOn_flatMap_append plain
    rw [List.flatMap_append, List.flatMap_singleton, ← Bracket.flatMap_spelling,
      List.append_assoc] at pieces
    exact pieces
  rw [part.readPart_spelling_append (by simp) (List.cons_ne_nil _ _) split]
  cases read : Position.ofNumeral? digits.toList with
  | none => simp only [readBrackets, read, Except.map]
  | some index => simp only [readBrackets, read, Except.map]

section Position

variable {path digits : String} {address : Address} (written : read path = .ok address)
  (numeral : Text.IsNumeral digits.toList)
include written numeral

/-- The parts of an address in whose last part a numeral stands in brackets. -/
theorem exists_parts_of_bracketed : ∃ front last,
    (front ++ [last]).flatMap Part.steps = address.steps ∧
      (path ++ "[" ++ digits ++ "]").toList.splitOn '.' =
        front.map Part.spelling ++ [last.spelling ++ ('[' :: digits.toList ++ [']'])] := by
  obtain ⟨parts, spells, rfl⟩ := exists_spells_of_read written
  obtain ⟨front, last, rfl⟩ := (List.eq_nil_or_concat' parts).resolve_left spells.1
  refine ⟨front, last, rfl, ?_⟩
  have text : (path ++ "[" ++ digits ++ "]").toList = ['.'].intercalate
      (front.map Part.spelling ++ [last.spelling ++ ('[' :: digits.toList ++ [']'])]) := by
    have whole := spells.2
    rw [List.map_append, List.map_singleton] at whole
    rw [← Text.intercalate_concat_append, ← whole]
    simp
  rw [text]
  refine List.splitOn_intercalate '.' ?_ (by simp)
  intro piece member
  rcases List.mem_append.mp member with present | final
  · obtain ⟨part, _, rfl⟩ := List.mem_map.mp present
    exact part.dot_notMem_spelling
  · rw [List.mem_singleton.mp final, List.mem_append, not_or]
    exact ⟨last.dot_notMem_spelling, Bracket.dot_notMem_bracketed numeral⟩

/-- A numeral in brackets behind a path takes one more step if it is that of a position. -/
theorem read_bracketed : read (path ++ "[" ++ digits ++ "]") =
    match Position.ofNumeral? digits.toList with
    | some index => .ok ⟨path ++ "[" ++ digits ++ "]", address.steps ++ [.position index]⟩
    | none => .error .noNumeral := by
  obtain ⟨front, last, taken, split⟩ := exists_parts_of_bracketed written numeral
  have nonempty : path ++ "[" ++ digits ++ "]" ≠ "" := by
    intro empty
    have text := congrArg String.toList empty
    simp at text
  have parts : (front.map Part.spelling).mapM readPart = .ok (front.map Part.steps) := by
    rw [List.mapM_map]
    exact Outcome.mapM_eq_ok fun part _ => part.readPart_spelling
  rw [read_eq nonempty, split, List.mapM_append, parts, List.mapM_cons,
    last.readPart_bracketed numeral, ← taken]
  cases Position.ofNumeral? digits.toList with
  | none => rfl
  | some index =>
    change Except.ok (Address.mk _ _) = Except.ok (Address.mk _ _)
    simp [List.flatMap_def]

theorem read_dot_numeral : read (path ++ "." ++ digits) =
    .ok ⟨path ++ "." ++ digits, address.steps ++
      [match Position.ofNumeral? digits.toList with
        | some index => .position index
        | none => .name digits]⟩ :=
  read_dot_key written (isKey_of_isNumeral numeral)

/-- Behind a dot and in brackets the numeral of a position leads to the position. -/
theorem parse_of_position {index : Position}
    (value : Text.numeralValue digits.toList = index.toNat) :
    parse (path ++ "." ++ digits) =
        .ok ⟨path ++ "." ++ digits, address.steps ++ [.position index]⟩ ∧
      parse (path ++ "[" ++ digits ++ "]") =
        .ok ⟨path ++ "[" ++ digits ++ "]", address.steps ++ [.position index]⟩ := by
  have known := Position.ofNumeral?_eq_some_iff.mpr ⟨(Text.isNumeral_iff _).mpr numeral, value⟩
  have dotted := read_dot_numeral written numeral
  have bracketed := read_bracketed written numeral
  rw [known] at dotted bracketed
  exact ⟨parse_eq_ok_iff.mpr dotted, parse_eq_ok_iff.mpr bracketed⟩

/-- Digits of a larger number are a name behind a dot, and refused in brackets. -/
theorem parse_of_large (large : 2 ^ 64 ≤ Text.numeralValue digits.toList) :
    parse (path ++ "." ++ digits) =
        .ok ⟨path ++ "." ++ digits, address.steps ++ [.name digits]⟩ ∧
      parse (path ++ "[" ++ digits ++ "]") =
        .error (.invalidPath (path ++ "[" ++ digits ++ "]") .noNumeral) := by
  have unknown : Position.ofNumeral? digits.toList = none := by
    refine Option.eq_none_iff_forall_ne_some.mpr fun index known => ?_
    exact Nat.not_lt.mpr large (Bracket.exists_ofNumeral?_iff.mp ⟨index, known⟩).2
  have dotted := read_dot_numeral written numeral
  have bracketed := read_bracketed written numeral
  rw [unknown] at dotted bracketed
  refine ⟨parse_eq_ok_iff.mpr dotted, ?_⟩
  rw [parse, bracketed]
  rfl

end Position

/-- Behind a dot and in brackets, digits below a path are read as one more step to one
position, or they are refused in both places. -/
def Interchangeable (path digits : String) (steps : List Step) : Prop :=
  (∃ index : Position,
    parse (path ++ "." ++ digits) =
      .ok ⟨path ++ "." ++ digits, steps ++ [.position index]⟩ ∧
    parse (path ++ "[" ++ digits ++ "]") =
      .ok ⟨path ++ "[" ++ digits ++ "]", steps ++ [.position index]⟩) ∨
  ∃ cause other, parse (path ++ "." ++ digits) = .error cause ∧
    parse (path ++ "[" ++ digits ++ "]") = .error other

/-- **Dotted and bracketed positions.** Below a path, a numeral behind a dot and the same
numeral in brackets are interchangeable exactly when the number is that of a position, and then
both lead there. A larger number is a name behind a dot, but it is refused in brackets. -/
theorem interchangeable_iff {path digits : String} {address : Address}
    (written : parse path = .ok address) (numeral : Text.IsNumeral digits.toList) :
    (Interchangeable path digits address.steps ↔ Text.numeralValue digits.toList < 2 ^ 64) ∧
      (∀ index : Position, Text.numeralValue digits.toList = index.toNat →
        parse (path ++ "." ++ digits) =
            .ok ⟨path ++ "." ++ digits, address.steps ++ [.position index]⟩ ∧
          parse (path ++ "[" ++ digits ++ "]") =
            .ok ⟨path ++ "[" ++ digits ++ "]", address.steps ++ [.position index]⟩) ∧
      (2 ^ 64 ≤ Text.numeralValue digits.toList →
        parse (path ++ "." ++ digits) =
            .ok ⟨path ++ "." ++ digits, address.steps ++ [.name digits]⟩ ∧
          parse (path ++ "[" ++ digits ++ "]") =
            .error (.invalidPath (path ++ "[" ++ digits ++ "]") .noNumeral)) := by
  rw [parse_eq_ok_iff] at written
  refine ⟨⟨fun interchangeable => ?_, fun fits => ?_⟩,
    fun index => parse_of_position written numeral, parse_of_large written numeral⟩
  · by_contra tooLarge
    obtain ⟨dotted, refused⟩ := parse_of_large written numeral (Nat.not_lt.mp tooLarge)
    rcases interchangeable with ⟨index, _, accepted⟩ | ⟨cause, other, failed, _⟩
    · rw [refused] at accepted
      cases accepted
    · rw [dotted] at failed
      cases failed
  · have value : (UInt64.ofNatLT _ fits).toNat = Text.numeralValue digits.toList :=
      UInt64.toNat_ofNatLT
    exact .inl ⟨_, parse_of_position written numeral value.symm⟩

/-- The last position, with zeros in front of its numeral, below a path that ends in a
bracket. -/
theorem interchangeable_iff_last :
    parse "menu[2]" = .ok ⟨"menu[2]", [.name "menu", .position 2]⟩ ∧
      Text.IsNumeral "0018446744073709551615".toList ∧
      Interchangeable "menu[2]" "0018446744073709551615" [.name "menu", .position 2] := by
  have written : parse "menu[2]" = .ok ⟨"menu[2]", [.name "menu", .position 2]⟩ := by
    decide +kernel
  have numeral : Text.IsNumeral "0018446744073709551615".toList := by decide +kernel
  exact ⟨written, numeral, (interchangeable_iff written numeral).1.mpr (by decide +kernel)⟩

/-- The first number that is too large for a position is a name behind a dot and refused in
brackets. -/
theorem not_interchangeable_large :
    parse "a" = .ok ⟨"a", [.name "a"]⟩ ∧
      Text.IsNumeral "18446744073709551616".toList ∧
      parse ("a" ++ "." ++ "18446744073709551616") = .ok ⟨"a.18446744073709551616",
        [.name "a", .name "18446744073709551616"]⟩ ∧
      parse ("a" ++ "[" ++ "18446744073709551616" ++ "]") =
        .error (.invalidPath "a[18446744073709551616]" .noNumeral) ∧
      ¬ Interchangeable "a" "18446744073709551616" [.name "a"] := by
  have dotted : parse ("a" ++ "." ++ "18446744073709551616") = .ok ⟨"a.18446744073709551616",
      [.name "a", .name "18446744073709551616"]⟩ := by
    decide +kernel
  have bracketed : parse ("a" ++ "[" ++ "18446744073709551616" ++ "]") =
      .error (.invalidPath "a[18446744073709551616]" .noNumeral) := by
    decide +kernel
  refine ⟨by decide +kernel, by decide +kernel, dotted, bracketed, ?_⟩
  rintro (⟨index, _, accepted⟩ | ⟨cause, other, failed, _⟩)
  · rw [bracketed] at accepted
    cases accepted
  · rw [dotted] at failed
    cases failed

end Address

end Phrasebook
