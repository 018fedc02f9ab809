import Mathlib.Tactic.FinCases
import Phrasebook.Json.Token
import Phrasebook.Json.Writing

/-! # How texts spell tokens

A text between quotes writes each character as it is or behind a backslash
(`Phrasebook.Json.Quotes`); white space may stand around every token
(`Phrasebook.Json.Spells`). The tokens of a text are those that it spells, however it spells
them (`Phrasebook.Json.tokens?_of_spells`), and tokens can always be spelled, unless a number
or a word is among them (`Phrasebook.Json.spells_written`).
-/

namespace Phrasebook.Json

/-- The characters that may stand between tokens. -/
def spaces : List Char := [' ', '\t', '\n', '\r']

/-- The tokens of one character. -/
def marks : List (Char × Token) :=
  [('\x7b', .openBrace), ('\x7d', .closeBrace), ('[', .openBracket), (']', .closeBracket),
    (',', .comma), (':', .colon)]

/-- The characters that have an escape of one character. -/
def escapes : List (Char × Char) :=
  [('"', '"'), ('\\', '\\'), ('/', '/'), ('b', '\x08'), ('f', '\x0c'), ('n', '\n'), ('r', '\r'),
    ('t', '\t')]

/-- Four hexadecimal digits write a code unit. -/
inductive WritesUnit : List Char → Nat → Prop
  | four {a b c d : Char} {first second third fourth : Nat}
      (isFirst : Text.hexValue? a = some first) (isSecond : Text.hexValue? b = some second)
      (isThird : Text.hexValue? c = some third) (isFourth : Text.hexValue? d = some fourth) :
      WritesUnit [a, b, c, d] (((first * 16 + second) * 16 + third) * 16 + fourth)

/-- What may stand for a character between quotes: the character itself, or an escape. A character
beyond the first `2 ^ 16` is escaped as a pair of surrogates. -/
inductive WritesChar : List Char → Char → Prop
  | plain {c : Char} (printable : 0x20 ≤ c.toNat) (noQuote : c ≠ '"') (noBackslash : c ≠ '\\') :
      WritesChar [c] c
  | escape {mark c : Char} (listed : (mark, c) ∈ escapes) : WritesChar ['\\', mark] c
  | unit {digits : List Char} {unit : Nat} (writes : WritesUnit digits unit)
      (alone : unit < 0xD800 ∨ 0xE000 ≤ unit) :
      WritesChar ('\\' :: 'u' :: digits) (Char.ofNat unit)
  | pair {digits others : List Char} {lead trail : Nat} (writesLead : WritesUnit digits lead)
      (isLead : 0xD800 ≤ lead ∧ lead < 0xDC00) (writesTrail : WritesUnit others trail)
      (isTrail : 0xDC00 ≤ trail ∧ trail < 0xE000) :
      WritesChar ('\\' :: 'u' :: (digits ++ '\\' :: 'u' :: others))
        (Char.ofNat (0x10000 + (lead - 0xD800) * 0x400 + (trail - 0xDC00)))

/-- How the characters of a value are spelled between quotes. -/
inductive Quotes : List Char → List Char → Prop
  | nil : Quotes [] []
  | cons {front : List Char} {c : Char} (writes : WritesChar front c)
      {spelling value : List Char} (rest : Quotes spelling value) :
      Quotes (front ++ spelling) (c :: value)

/-- A text spells tokens, none of them a number or a word. -/
inductive Spells : List Char → List Token → Prop
  | nil : Spells [] []
  | space {c : Char} (listed : c ∈ spaces) {text : List Char} {tokens : List Token}
      (rest : Spells text tokens) : Spells (c :: text) tokens
  | mark {c : Char} {token : Token} (listed : (c, token) ∈ marks) {text : List Char}
      {tokens : List Token} (rest : Spells text tokens) : Spells (c :: text) (token :: tokens)
  | text {spelling value : List Char} (quotes : Quotes spelling value) {text : List Char}
      {tokens : List Token} (rest : Spells text tokens) :
      Spells ('"' :: (spelling ++ '"' :: text)) (.text (String.ofList value) :: tokens)

/-- A run goes on from where its first step leads. -/
theorem foldlM_cons_of_step {σ τ : Type} {step : σ → τ → Option σ} {state next : σ} {item : τ}
    (leads : step state item = some next) (rest : List τ) :
    (item :: rest).foldlM step state = rest.foldlM step next := by
  rw [List.foldlM_cons, leads]
  rfl

namespace Lexer

theorem stepBetween_of_mem_spaces {c : Char} (listed : c ∈ spaces) (tokens : List Token) :
    stepBetween tokens c = some ⟨.between, tokens⟩ := by
  fin_cases listed <;> rfl

theorem stepBetween_of_mem_marks {c : Char} {token : Token} (listed : (c, token) ∈ marks)
    (tokens : List Token) : stepBetween tokens c = some ⟨.between, token :: tokens⟩ := by
  fin_cases listed <;> rfl

theorem escape?_of_mem_escapes {mark c : Char} (listed : (mark, c) ∈ escapes) :
    mark ≠ 'u' ∧ escape? mark = some c := by
  fin_cases listed <;> decide

/-- The four digits of a code unit. -/
theorem foldlM_step_unit {digits : List Char} {unit : Nat} (writes : WritesUnit digits unit)
    (text : List Char) (lead : Option Nat) (tokens : List Token) (rest : List Char) :
    (digits ++ rest).foldlM step ⟨.coded text lead [], tokens⟩ =
      (afterUnit? text lead unit).bind fun place => rest.foldlM step ⟨place, tokens⟩ := by
  cases writes with
  | four isFirst isSecond isThird isFourth =>
    simp [step, isFirst, isSecond, isThird, isFourth, Option.bind_map]

/-- However a character is written, it is read. -/
theorem foldlM_step_char {front : List Char} {c : Char} (writes : WritesChar front c)
    (text : List Char) (tokens : List Token) (rest : List Char) :
    (front ++ rest).foldlM step ⟨.quoted text, tokens⟩ =
      rest.foldlM step ⟨.quoted (c :: text), tokens⟩ := by
  have escaped (others : List Char) : ('\\' :: others).foldlM step ⟨.quoted text, tokens⟩ =
      others.foldlM step ⟨.escaped text, tokens⟩ := rfl
  have coded (others : List Char) : ('u' :: others).foldlM step ⟨.escaped text, tokens⟩ =
      others.foldlM step ⟨.coded text none [], tokens⟩ := rfl
  cases writes with
  | plain printable noQuote noBackslash =>
    have control : ¬ c.toNat < 0x20 := Nat.not_lt.mpr printable
    have here : step ⟨.quoted text, tokens⟩ c = some ⟨.quoted (c :: text), tokens⟩ := by
      simp only [step, if_neg noQuote, if_neg noBackslash, if_neg control]
    rw [List.singleton_append, foldlM_cons_of_step here]
  | @escape mark _ listed =>
    obtain ⟨noUnit, stands⟩ := escape?_of_mem_escapes listed
    have here : step ⟨.escaped text, tokens⟩ mark = some ⟨.quoted (c :: text), tokens⟩ := by
      simp only [step, if_neg noUnit, stands, Option.map_some]
    rw [List.cons_append, escaped, List.singleton_append, foldlM_cons_of_step here]
  | @unit digits unit writes alone =>
    have noLead : ¬ (0xD800 ≤ unit ∧ unit < 0xDC00) := by omega
    have noTrail : ¬ (0xDC00 ≤ unit ∧ unit < 0xE000) := by omega
    rw [List.cons_append, escaped, List.cons_append, coded, foldlM_step_unit writes, afterUnit?,
      if_neg noLead, if_neg noTrail]
    rfl
  | @pair digits others lead trail writesLead isLead writesTrail isTrail =>
    have paired (others : List Char) :
        ('\\' :: 'u' :: others).foldlM step ⟨.paired text lead, tokens⟩ =
          others.foldlM step ⟨.coded text (some lead) [], tokens⟩ := rfl
    rw [List.cons_append, escaped, List.cons_append, coded, List.append_assoc,
      foldlM_step_unit writesLead, afterUnit?, if_pos isLead, Option.bind_some, List.cons_append,
      List.cons_append, paired, foldlM_step_unit writesTrail, afterUnit?, if_pos isTrail]
    rfl

/-- **Reading between quotes.** However its characters are spelled, the value is read. -/
theorem foldlM_step_quotes {spelling value : List Char} (quotes : Quotes spelling value)
    (text : List Char) (tokens : List Token) (rest : List Char) :
    (spelling ++ rest).foldlM step ⟨.quoted text, tokens⟩ =
      rest.foldlM step ⟨.quoted (value.reverse ++ text), tokens⟩ := by
  induction quotes generalizing text with
  | nil => rfl
  | cons writes _ ih =>
    rw [List.append_assoc, foldlM_step_char writes, ih, List.reverse_cons, List.append_assoc,
      List.singleton_append]

/-- The reader between tokens reads those that a text spells. -/
theorem foldlM_step_spells {text : List Char} {tokens : List Token} (spells : Spells text tokens)
    (earlier : List Token) :
    text.foldlM step ⟨.between, earlier⟩ = some ⟨.between, tokens.reverse ++ earlier⟩ := by
  induction spells generalizing earlier with
  | nil => rfl
  | @space c listed _ _ _ ih =>
    have here : step ⟨.between, earlier⟩ c = some ⟨.between, earlier⟩ :=
      stepBetween_of_mem_spaces listed earlier
    rw [foldlM_cons_of_step here, ih]
  | @mark c token listed _ _ _ ih =>
    have here : step ⟨.between, earlier⟩ c = some ⟨.between, token :: earlier⟩ :=
      stepBetween_of_mem_marks listed earlier
    rw [foldlM_cons_of_step here, ih, List.reverse_cons, List.append_assoc,
      List.singleton_append]
  | @text spelling value quotes others _ _ ih =>
    have opened : ('"' :: (spelling ++ '"' :: others)).foldlM step ⟨.between, earlier⟩ =
        (spelling ++ '"' :: others).foldlM step ⟨.quoted [], earlier⟩ := rfl
    have closed : ('"' :: others).foldlM step ⟨.quoted value.reverse, earlier⟩ =
        others.foldlM step ⟨.between, .text (String.ofList value.reverse.reverse) :: earlier⟩ := rfl
    rw [opened, foldlM_step_quotes quotes, List.append_nil, closed, ih, List.reverse_reverse,
      List.reverse_cons, List.append_assoc, List.singleton_append]

end Lexer

/-- **Reading tokens.** However a text spells tokens, it has these tokens. -/
theorem tokens?_of_spells {text : List Char} {tokens : List Token} (spells : Spells text tokens) :
    tokens? text = some tokens := by
  rw [tokens?, Lexer.foldlM_step_spells spells, Option.bind_some, Lexer.finish?, List.append_nil,
    List.reverse_reverse]

theorem hexValue?_digitChar {digit : Nat} (small : digit < 16) :
    Text.hexValue? (Nat.digitChar digit) = some digit := by
  have each : ∀ digit : Fin 16, Text.hexValue? (Nat.digitChar digit) = some digit.val := by decide
  exact each ⟨digit, small⟩

theorem writesChar_escapedChar (c : Char) : WritesChar (escapedChar c) c := by
  unfold escapedChar
  split
  · exact .escape (by decide)
  · exact .escape (by decide)
  · exact .escape (by decide)
  · exact .escape (by decide)
  · exact .escape (by decide)
  · exact .escape (by decide)
  · exact .escape (by decide)
  · next noQuote noBackslash _ _ _ _ _ =>
    split
    · next control =>
      have zero : Text.hexValue? '0' = some 0 := by decide
      have high : c.toNat / 16 < 16 := by omega
      have low : c.toNat % 16 < 16 := Nat.mod_lt _ (by decide)
      have writes := WritesUnit.four zero zero (hexValue?_digitChar high) (hexValue?_digitChar low)
      have value : ((0 * 16 + 0) * 16 + c.toNat / 16) * 16 + c.toNat % 16 = c.toNat := by omega
      rw [value] at writes
      have written := WritesChar.unit writes (.inl (by omega))
      rw [Char.ofNat_toNat] at written
      exact written
    · next printable => exact .plain (Nat.le_of_not_lt printable) noQuote noBackslash

/-- Every value has a spelling. -/
theorem quotes_escaped (value : List Char) : Quotes (value.flatMap escapedChar) value := by
  induction value with
  | nil => exact .nil
  | cons c rest ih => exact .cons (writesChar_escapedChar c) ih

/-- The shortest spelling of a token. A number or a word, of which only the kind is kept, has
none. -/
def Token.written : Token → List Char
  | .openBrace => ['\x7b']
  | .closeBrace => ['\x7d']
  | .openBracket => ['[']
  | .closeBracket => [']']
  | .comma => [',']
  | .colon => [':']
  | .text value => (quotedText value).toList
  | .literal _ => []

/-- Tokens are spelled without white space, unless a number or a word is among them. -/
theorem spells_written {tokens : List Token} (noLiteral : ∀ kind, Token.literal kind ∉ tokens) :
    Spells (tokens.flatMap Token.written) tokens := by
  induction tokens with
  | nil => exact .nil
  | cons token rest ih =>
    have spells := ih fun kind later => noLiteral kind (List.mem_cons_of_mem token later)
    rw [List.flatMap_cons]
    cases token with
    | literal kind => exact absurd List.mem_cons_self (noLiteral kind)
    | text value =>
      have spelled := Spells.text (quotes_escaped value.toList) spells
      rw [String.ofList_toList] at spelled
      rw [Token.written, quotedText, String.toList_ofList, List.append_assoc,
        List.singleton_append]
      exact spelled
    | openBrace => exact .mark (by decide) spells
    | closeBrace => exact .mark (by decide) spells
    | openBracket => exact .mark (by decide) spells
    | closeBracket => exact .mark (by decide) spells
    | comma => exact .mark (by decide) spells
    | colon => exact .mark (by decide) spells

end Phrasebook.Json
