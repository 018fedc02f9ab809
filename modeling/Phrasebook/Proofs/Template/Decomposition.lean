import Mathlib.Logic.ExistsUnique
import Phrasebook.Proofs.Outcome
import Phrasebook.Template.Rendering

/-! # Decomposing templates

A template is literal text with placeholders in it. There is one way to see it so in which
no piece of literal text holds a placeholder of its own, and rendering copies the literal
text of this decomposition and writes a value in the place of each placeholder
(`Phrasebook.Template.existsUnique_decomposition_render`). The tokens of a text are those of
its decomposition (`Phrasebook.Template.Decomposition.Decomposes.scan_eq`).
-/

namespace Phrasebook.Template

/-- The letters from `A` to `Z` in both cases, and the underscore. -/
def OpensIdentifier (c : Char) : Prop :=
  ('A' ≤ c ∧ c ≤ 'Z') ∨ ('a' ≤ c ∧ c ≤ 'z') ∨ c = '_'

/-- A letter or an underscore, followed by letters, underscores and the digits from `0` to
`9`. -/
def IsIdentifier (text : List Char) : Prop :=
  ∃ first rest, text = first :: rest ∧ OpensIdentifier first ∧
    ∀ c ∈ rest, OpensIdentifier c ∨ ('0' ≤ c ∧ c ≤ '9')

/-- An identifier stands between two braces somewhere in a text. -/
def HoldsPlaceholder (text : List Char) : Prop :=
  ∃ before name after, IsIdentifier name ∧ text = before ++ '\x7b' :: name ++ '\x7d' :: after

/-- Literal text with placeholders in it: the text in front of the first placeholder, and
each placeholder with the text behind it. -/
structure Decomposition where
  front : List Char
  rest : List (String × List Char)

namespace Decomposition

/-- The names of the placeholders, in their order. -/
def names (parts : Decomposition) : List String :=
  parts.rest.map Prod.fst

/-- The pieces of literal text, in their order. -/
def literals (parts : Decomposition) : List (List Char) :=
  parts.front :: parts.rest.map Prod.snd

/-- The literal text with something written in the place of each placeholder. -/
def fill (parts : Decomposition) (write : String → List Char) : List Char :=
  parts.front ++ parts.rest.flatMap fun (name, literal) => write name ++ literal

/-- A placeholder as a template spells it. -/
def spell (name : String) : List Char :=
  '\x7b' :: name.toList ++ ['\x7d']

/-- The parts make up a text: its placeholders are identifiers, and no literal text holds
another one. -/
structure Decomposes (parts : Decomposition) (text : List Char) : Prop where
  whole : parts.fill spell = text
  names : ∀ name ∈ parts.names, IsIdentifier name.toList
  literals : ∀ literal ∈ parts.literals, ¬ HoldsPlaceholder literal

end Decomposition

theorem isIdentifierStart_iff (c : Char) : isIdentifierStart c = true ↔ OpensIdentifier c := by
  have alpha : c.isAlpha = true ↔ ('A' ≤ c ∧ c ≤ 'Z') ∨ ('a' ≤ c ∧ c ≤ 'z') := by
    change (decide ('A' ≤ c ∧ c ≤ 'Z') || (decide ('a' ≤ c) && decide (c ≤ 'z'))) = true ↔ _
    simp only [Bool.or_eq_true, Bool.and_eq_true, decide_eq_true_eq]
  rw [isIdentifierStart, Bool.or_eq_true, alpha, beq_iff_eq, or_assoc, OpensIdentifier]

theorem isIdentifierChar_iff (c : Char) :
    isIdentifierChar c = true ↔ OpensIdentifier c ∨ ('0' ≤ c ∧ c ≤ '9') := by
  have digit : c.isDigit = true ↔ '0' ≤ c ∧ c ≤ '9' := by
    simp only [Char.isDigit, Bool.and_eq_true, decide_eq_true_eq, ge_iff_le]
    exact Iff.rfl
  rw [← isIdentifierStart_iff, ← digit]
  simp only [isIdentifierChar, isIdentifierStart, Char.isAlphanum, Bool.or_eq_true]
  exact or_right_comm

theorem isIdentifier_iff (text : List Char) : isIdentifier text = true ↔ IsIdentifier text := by
  cases text with
  | nil => simp [isIdentifier, IsIdentifier]
  | cons first rest =>
    rw [isIdentifier, Bool.and_eq_true, List.all_eq_true, isIdentifierStart_iff]
    simp only [isIdentifierChar_iff]
    constructor
    · rintro ⟨opens, continues⟩
      exact ⟨first, rest, rfl, opens, continues⟩
    · rintro ⟨_, _, shape, opens, continues⟩
      obtain ⟨rfl, rfl⟩ := List.cons.inj shape
      exact ⟨opens, continues⟩

theorem IsIdentifier.isIdentifierChar {name : List Char} (identifier : IsIdentifier name) :
    ∀ c ∈ name, isIdentifierChar c = true := by
  obtain ⟨first, rest, rfl, opens, continues⟩ := identifier
  intro c member
  rw [isIdentifierChar_iff]
  rcases List.mem_cons.mp member with rfl | later
  · exact .inl opens
  · exact continues c later

theorem IsIdentifier.opening_notMem {name : List Char} (identifier : IsIdentifier name) :
    '\x7b' ∉ name :=
  fun member => absurd (identifier.isIdentifierChar _ member) (by decide)

/-- What is read as a placeholder behind an opening brace. -/
theorem placeholder?_eq_some_iff {text name after : List Char} :
    placeholder? text = some (name, after) ↔
      IsIdentifier name ∧ text = name ++ '\x7d' :: after := by
  constructor
  · intro found
    obtain ⟨shape, identifier⟩ := eq_of_placeholder? found
    exact ⟨(isIdentifier_iff name).mp identifier, shape⟩
  · rintro ⟨identifier, rfl⟩
    have chars := identifier.isIdentifierChar
    have stop : isIdentifierChar '\x7d' = false := by decide
    have taken : (name ++ '\x7d' :: after).takeWhile isIdentifierChar = name := by
      rw [List.takeWhile_append_of_pos chars, List.takeWhile_cons, stop]
      simp
    have left : (name ++ '\x7d' :: after).dropWhile isIdentifierChar = '\x7d' :: after := by
      rw [List.dropWhile_append_of_pos chars, List.dropWhile_cons, stop]
      simp
    rw [placeholder?, taken, left]
    simp [(isIdentifier_iff name).mpr identifier]

theorem not_holdsPlaceholder_of_notMem {text : List Char} (plain : '\x7b' ∉ text) :
    ¬ HoldsPlaceholder text := by
  rintro ⟨before, name, after, _, rfl⟩
  exact plain (by simp)

theorem not_holdsPlaceholder_nil : ¬ HoldsPlaceholder [] :=
  not_holdsPlaceholder_of_notMem List.not_mem_nil

theorem holdsPlaceholder_cons_iff {c : Char} {text : List Char} :
    HoldsPlaceholder (c :: text) ↔
      (c = '\x7b' ∧ ∃ name after, placeholder? text = some (name, after)) ∨
        HoldsPlaceholder text := by
  simp only [placeholder?_eq_some_iff]
  constructor
  · rintro ⟨before, name, after, identifier, shape⟩
    cases before with
    | nil =>
      obtain ⟨brace, tail⟩ := List.cons.inj shape
      exact .inl ⟨brace, name, after, identifier, tail⟩
    | cons first before =>
      obtain ⟨_, tail⟩ := List.cons.inj shape
      exact .inr ⟨before, name, after, identifier, tail⟩
  · rintro (⟨rfl, name, after, identifier, rfl⟩ | ⟨before, name, after, identifier, rfl⟩)
    · exact ⟨[], name, after, identifier, rfl⟩
    · exact ⟨c :: before, name, after, identifier, rfl⟩

/-- A placeholder that begins in a text which ends, or goes on with an opening brace, lies
within that text. -/
theorem placeholder?_append_eq_none {text tail : List Char}
    (brace : ∀ c ∈ tail.head?, c = '\x7b') (nothing : placeholder? text = none) :
    placeholder? (text ++ tail) = none := by
  refine Option.eq_none_iff_forall_ne_some.mpr ?_
  rintro ⟨name, after⟩ found
  obtain ⟨identifier, shape⟩ := placeholder?_eq_some_iff.mp found
  rcases List.append_eq_append_iff.mp shape with ⟨more, whole, rest⟩ | ⟨more, whole, rest⟩
  · -- the identifier, or the brace that closes it, would begin with the opening brace
    rw [rest] at brace
    cases more with
    | nil => exact absurd (brace '\x7d' rfl) (by decide)
    | cons first more =>
      refine absurd ?_ identifier.opening_notMem
      rw [whole, ← brace first rfl]
      simp
  · cases more with
    | nil =>
      rw [← show '\x7d' :: after = tail from rest] at brace
      exact absurd (brace '\x7d' rfl) (by decide)
    | cons first more =>
      obtain ⟨rfl, _⟩ := List.cons.inj rest
      rw [placeholder?_eq_some_iff.mpr ⟨identifier, whole⟩] at nothing
      cases nothing

theorem scan_spell_append {name : String} (identifier : IsIdentifier name.toList)
    (tail : List Char) :
    scan (Decomposition.spell name ++ tail) = .placeholder name :: scan tail := by
  have found : placeholder? (name.toList ++ '\x7d' :: tail) = some (name.toList, tail) :=
    placeholder?_eq_some_iff.mpr ⟨identifier, rfl⟩
  have shape : Decomposition.spell name ++ tail =
      '\x7b' :: (name.toList ++ '\x7d' :: tail) := by
    simp [Decomposition.spell]
  rw [shape, scan, if_pos rfl]
  split
  · next other after same =>
    rw [found] at same
    cases same
    rw [String.ofList_toList]
  · next nothing =>
    rw [found] at nothing
    cases nothing

theorem scan_literal_append {literal : List Char} (plain : ¬ HoldsPlaceholder literal)
    {tail : List Char} (brace : ∀ c ∈ tail.head?, c = '\x7b') :
    scan (literal ++ tail) = literal.map .literal ++ scan tail := by
  induction literal with
  | nil => rfl
  | cons c rest ih =>
    rw [holdsPlaceholder_cons_iff, not_or] at plain
    obtain ⟨notHere, notLater⟩ := plain
    rw [List.cons_append, scan, ih notLater]
    split
    · next opens =>
      have nothing : placeholder? rest = none := by
        refine Option.eq_none_iff_forall_ne_some.mpr ?_
        rintro ⟨name, after⟩ found
        exact notHere ⟨opens, name, after, found⟩
      split
      · next found =>
        rw [placeholder?_append_eq_none brace nothing] at found
        cases found
      · rfl
    · rfl

/-- Behind literal text stands the brace of the next placeholder, or nothing. -/
theorem opening_of_mem_head? {items : List (String × List Char)} {c : Char}
    (first : c ∈ (items.flatMap fun (name, literal) =>
      Decomposition.spell name ++ literal).head?) : c = '\x7b' := by
  cases items with
  | nil => cases first
  | cons item rest =>
    cases first
    rfl

theorem scan_flatMap_spell {items : List (String × List Char)}
    (names : ∀ item ∈ items, IsIdentifier item.1.toList)
    (literals : ∀ item ∈ items, ¬ HoldsPlaceholder item.2) :
    scan (items.flatMap fun (name, literal) => Decomposition.spell name ++ literal) =
      items.flatMap fun (name, literal) => .placeholder name :: literal.map .literal := by
  induction items with
  | nil => rw [List.flatMap_nil, List.flatMap_nil, scan]
  | cons item rest ih =>
    obtain ⟨identifier, names⟩ := List.forall_mem_cons.mp names
    obtain ⟨plain, literals⟩ := List.forall_mem_cons.mp literals
    rw [List.flatMap_cons, List.flatMap_cons, List.append_assoc, scan_spell_append identifier,
      scan_literal_append plain fun _ first => opening_of_mem_head? first, ih names literals,
      List.cons_append]

namespace Decomposition

/-- The tokens that the parts stand for. -/
def tokens (parts : Decomposition) : List Token :=
  parts.front.map .literal ++
    parts.rest.flatMap fun (name, literal) => .placeholder name :: literal.map .literal

/-- The parts that a list of tokens falls into. -/
def ofTokens : List Token → Decomposition
  | [] => ⟨[], []⟩
  | .literal c :: rest => ⟨c :: (ofTokens rest).front, (ofTokens rest).rest⟩
  | .placeholder name :: rest => ⟨[], (name, (ofTokens rest).front) :: (ofTokens rest).rest⟩

theorem ofTokens_literal_append (literal : List Char) (tokens : List Token) :
    ofTokens (literal.map .literal ++ tokens) =
      ⟨literal ++ (ofTokens tokens).front, (ofTokens tokens).rest⟩ := by
  induction literal with
  | nil => rfl
  | cons c rest ih => rw [List.map_cons, List.cons_append, ofTokens, ih, List.cons_append]

theorem ofTokens_tokens (parts : Decomposition) : ofTokens parts.tokens = parts := by
  obtain ⟨front, rest⟩ := parts
  have placeholders : ofTokens (rest.flatMap fun (name, literal) =>
      .placeholder name :: literal.map .literal) = ⟨[], rest⟩ := by
    induction rest with
    | nil => rfl
    | cons item rest ih =>
      rw [List.flatMap_cons, List.cons_append, ofTokens, ofTokens_literal_append, ih,
        List.append_nil]
  rw [tokens, ofTokens_literal_append, placeholders, List.append_nil]

theorem placeholder_mem_tokens_iff {parts : Decomposition} {name : String} :
    Token.placeholder name ∈ parts.tokens ↔ name ∈ parts.names := by
  simp [tokens, names, eq_comm]

/-- What stands for a token when each placeholder is written in a given way. -/
def writeToken (write : String → List Char) : Token → List Char
  | .literal c => [c]
  | .placeholder name => write name

theorem flatMap_tokens (parts : Decomposition) (write : String → List Char) :
    parts.tokens.flatMap (writeToken write) = parts.fill write := by
  have literals (literal : List Char) :
      (literal.map Token.literal).flatMap (writeToken write) = literal := by
    rw [List.flatMap_map]
    exact List.flatMap_singleton' literal
  rw [tokens, fill, List.flatMap_append, literals, List.flatMap_assoc]
  simp only [List.flatMap_cons, literals, writeToken]

namespace Decomposes

variable {parts : Decomposition} {text : List Char}

/-- **The tokens of a text** are those of each decomposition of it. -/
theorem scan_eq (decomposes : parts.Decomposes text) : scan text = parts.tokens := by
  obtain ⟨frontPlain, literals⟩ := List.forall_mem_cons.mp decomposes.literals
  rw [← decomposes.whole, fill,
    scan_literal_append frontPlain fun _ first => opening_of_mem_head? first, tokens,
    scan_flatMap_spell]
  · exact fun item member => decomposes.names _ (List.mem_map_of_mem member)
  · exact fun item member => literals _ (List.mem_map_of_mem member)

theorem eq_ofTokens (decomposes : parts.Decomposes text) : parts = ofTokens (scan text) := by
  rw [decomposes.scan_eq, ofTokens_tokens]

theorem nil : Decomposes ⟨[], []⟩ [] where
  whole := rfl
  names := nofun
  literals := List.forall_mem_singleton.mpr not_holdsPlaceholder_nil

/-- A character that does not begin a placeholder belongs to the literal text behind
it. -/
theorem cons_literal (decomposes : parts.Decomposes text) {c : Char}
    (plain : ¬ (c = '\x7b' ∧ ∃ name after, placeholder? text = some (name, after))) :
    Decomposes ⟨c :: parts.front, parts.rest⟩ (c :: text) where
  whole := congrArg (c :: ·) decomposes.whole
  names := decomposes.names
  literals := by
    obtain ⟨frontPlain, literals⟩ := List.forall_mem_cons.mp decomposes.literals
    refine List.forall_mem_cons.mpr ⟨?_, literals⟩
    rw [holdsPlaceholder_cons_iff]
    rintro (⟨opens, name, after, found⟩ | later)
    · obtain ⟨identifier, shape⟩ := placeholder?_eq_some_iff.mp found
      have further : text = name ++ '\x7d' :: (after ++ parts.rest.flatMap
          fun (name, literal) => spell name ++ literal) := by
        rw [← decomposes.whole, fill, shape, List.append_assoc, List.cons_append]
      exact plain ⟨opens, name, _, placeholder?_eq_some_iff.mpr ⟨identifier, further⟩⟩
    · exact frontPlain later

theorem cons_placeholder (decomposes : parts.Decomposes text) {name : String}
    (identifier : IsIdentifier name.toList) :
    Decomposes ⟨[], (name, parts.front) :: parts.rest⟩ (spell name ++ text) where
  whole := by
    rw [← decomposes.whole, fill, fill, List.flatMap_cons, List.nil_append, List.append_assoc]
  names := List.forall_mem_cons.mpr ⟨identifier, decomposes.names⟩
  literals := List.forall_mem_cons.mpr ⟨not_holdsPlaceholder_nil, decomposes.literals⟩

end Decomposes

/-- The tokens of a text fall into parts that make it up. -/
theorem decomposes_ofTokens_scan (text : List Char) :
    (ofTokens (scan text)).Decomposes text := by
  induction text using scan.induct with
  | case1 =>
    rw [scan]
    exact .nil
  | case2 rest name after found ih =>
    obtain ⟨identifier, rfl⟩ := placeholder?_eq_some_iff.mp found
    have same : (String.ofList name).toList = name := String.toList_ofList
    rw [← same] at identifier
    have spelled : '\x7b' :: (name ++ '\x7d' :: after) = spell (String.ofList name) ++ after := by
      simp [spell]
    rw [spelled, scan_spell_append identifier]
    exact ih.cons_placeholder identifier
  | case3 rest nothing ih =>
    have alone : scan ('\x7b' :: rest) = .literal '\x7b' :: scan rest := by
      rw [scan, if_pos rfl]
      split
      · next found =>
        rw [nothing] at found
        cases found
      · rfl
    rw [alone]
    refine ih.cons_literal ?_
    rintro ⟨_, name, after, found⟩
    rw [nothing] at found
    cases found
  | case4 c rest plain ih =>
    rw [scan, if_neg plain]
    exact ih.cons_literal fun opens => plain opens.1

end Decomposition

/-- **Rendering a decomposition** writes the values in the places of the placeholders. -/
theorem Decomposition.Decomposes.render_eq {parts : Decomposition} {template : Template}
    (decomposes : parts.Decomposes template.text.toList) {arguments : Arguments}
    {escaping : Escaping} {value : String → Argument}
    (bound : ∀ name ∈ parts.names, arguments.lookup name = some (value name)) :
    template.render arguments escaping =
      .ok (String.ofList (parts.fill fun name => (value name).written escaping)) := by
  let write (name : String) : List Char := (value name).written escaping
  have written : ∀ token ∈ parts.tokens,
      renderToken arguments escaping token = .ok (writeToken write token) := by
    intro token member
    cases token with
    | literal c => rfl
    | placeholder name =>
      rw [renderToken, bound name (placeholder_mem_tokens_iff.mp member)]
      rfl
  rw [render, Template.tokens, decomposes.scan_eq, Outcome.mapM_eq_ok written]
  change Except.ok (String.ofList (parts.tokens.map (writeToken write)).flatten) = _
  rw [← List.flatMap_def, parts.flatMap_tokens write]

/-- Rendering succeeds only with a value for each placeholder. -/
theorem Decomposition.Decomposes.exists_lookup {parts : Decomposition} {template : Template}
    (decomposes : parts.Decomposes template.text.toList) {arguments : Arguments}
    {escaping : Escaping} {output : String}
    (rendered : template.render arguments escaping = .ok output) :
    ∀ name ∈ parts.names, ∃ value, arguments.lookup name = some value := by
  intro name member
  obtain ⟨pieces, written, _⟩ := Outcome.bind_eq_ok_iff.mp rendered
  have present : Token.placeholder name ∈ template.tokens := by
    rw [Template.tokens, decomposes.scan_eq]
    exact placeholder_mem_tokens_iff.mpr member
  obtain ⟨piece, found⟩ := Outcome.forall_of_mapM_eq_ok written _ present
  rw [renderToken] at found
  split at found
  · next value bound => exact ⟨value, bound⟩
  · cases found

/-- **Templates and their rendering.** Every template is in exactly one way literal text with
placeholders in it, when no literal text may hold a placeholder of its own. Where the
arguments have a value for each placeholder, rendering copies the literal text and writes
the values in the places of the placeholders, so neither other braces nor what the values
hold is looked at again. A template without placeholders is rendered as it stands. -/
theorem existsUnique_decomposition_render (template : Template) :
    (∃! parts : Decomposition, parts.Decomposes template.text.toList) ∧
      (∀ parts : Decomposition, parts.Decomposes template.text.toList →
        ∀ (arguments : Arguments) (escaping : Escaping) (value : String → Argument),
          (∀ name ∈ parts.names, arguments.lookup name = some (value name)) →
          template.render arguments escaping =
            .ok (String.ofList (parts.fill fun name => (value name).written escaping))) ∧
      (¬ HoldsPlaceholder template.text.toList →
        ∀ (arguments : Arguments) (escaping : Escaping),
          template.render arguments escaping = .ok template.text) := by
  refine ⟨?_, ?_, ?_⟩
  · refine ⟨_, Decomposition.decomposes_ofTokens_scan _, ?_⟩
    exact fun parts decomposes => decomposes.eq_ofTokens
  · intro parts decomposes arguments escaping value bound
    exact decomposes.render_eq bound
  · intro plain arguments escaping
    have whole : Decomposition.Decomposes ⟨template.text.toList, []⟩ template.text.toList :=
      ⟨List.append_nil _, nofun, List.forall_mem_singleton.mpr plain⟩
    have unbound : ∀ name ∈ ([] : List String), arguments.lookup name = some (.text name) := nofun
    rw [whole.render_eq unbound, Decomposition.fill, List.flatMap_nil, List.append_nil,
      String.ofList_toList]

/-- Of nested braces the inner ones make a placeholder, and its value is not read again. -/
example : (Template.mk "\x7b\x7bname\x7d\x7d \x7b").render [("name", .text "\x7bx\x7d")] .markup =
    .ok "\x7b\x7bx\x7d\x7d \x7b" := by
  with_unfolding_all rfl

end Phrasebook.Template
