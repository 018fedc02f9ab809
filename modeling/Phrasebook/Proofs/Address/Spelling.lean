import Mathlib.Data.List.TakeWhile
import Phrasebook.Error
import Phrasebook.Proofs.Outcome

/-! # Spelling of keys and paths

The listed path of an entry joins its keys with dots (`Phrasebook.Address.join`), and
splitting the path at its dots gives the keys back (`Phrasebook.Address.keys_join`).
A text is read part by part (`Phrasebook.Address.read_eq`). Reading the path takes one
step for each key (`Phrasebook.Address.read_join`), and one more key behind a path takes
one more step (`Phrasebook.Address.read_dot_key`). A step
writes its key anew, which drops the leading zeros of a numeral
(`Phrasebook.Address.respell`); all keys that are not padded with zeros are written as
they stand (`Phrasebook.Address.respell_of_not_isPadded`).
-/

namespace Phrasebook

namespace Text

theorem digitChar_of_isDigit {c : Char} (digit : c.isDigit = true) :
    Nat.digitChar (c.toNat - 48) = c := by
  have bounds : 48 ≤ c.toNat ∧ c.toNat ≤ 57 := Char.isDigit_iff_toNat.mp digit
  apply Char.toNat_inj.mp
  rw [Nat.toNat_digitChar_of_lt_ten (by omega)]
  omega

/-- Digits behind the numeral of a positive number write a number whose numeral they
continue. -/
theorem toDigits_ofDigitChars {digits : List Char} (areDigits : digits.all Char.isDigit = true)
    {number : Nat} (positive : 0 < number) :
    Nat.toDigits 10 (Nat.ofDigitChars 10 digits number) = Nat.toDigits 10 number ++ digits := by
  induction digits generalizing number with
  | nil => simp
  | cons c rest ih =>
    obtain ⟨digit, restDigits⟩ := Bool.and_eq_true_iff.mp (List.all_cons ▸ areDigits)
    have bounds : 48 ≤ c.toNat ∧ c.toNat ≤ 57 := Char.isDigit_iff_toNat.mp digit
    have small : c.toNat - 48 < 10 := by omega
    have grown : 0 < 10 * number + (c.toNat - 48) := by omega
    calc Nat.toDigits 10 (Nat.ofDigitChars 10 (c :: rest) number)
        = Nat.toDigits 10 (10 * number + (c.toNat - 48)) ++ rest := by
          rw [Nat.ofDigitChars_cons]
          exact ih restDigits grown
      _ = Nat.toDigits 10 number ++ [c] ++ rest := by
          rw [← Nat.toDigits_append_toDigits (by decide) positive small,
            Nat.toDigits_of_lt_base small, digitChar_of_isDigit digit]
      _ = Nat.toDigits 10 number ++ c :: rest := by simp

/-- A numeral that does not begin with a zero, or is a single digit, is the numeral
of its value. -/
theorem toDigits_numeralValue {text : List Char} (numeral : isNumeral text = true)
    (unpadded : text.head? = some '0' → text.length ≤ 1) :
    Nat.toDigits 10 (numeralValue text) = text := by
  obtain ⟨nonempty, areDigits⟩ := Bool.and_eq_true_iff.mp numeral
  cases text with
  | nil => cases nonempty
  | cons c rest =>
    obtain ⟨digit, restDigits⟩ := Bool.and_eq_true_iff.mp (List.all_cons ▸ areDigits)
    have bounds : 48 ≤ c.toNat ∧ c.toNat ≤ 57 := Char.isDigit_iff_toNat.mp digit
    have single : Nat.toDigits 10 (c.toNat - 48) = [c] := by
      rw [Nat.toDigits_of_lt_base (by omega), digitChar_of_isDigit digit]
    have value : numeralValue (c :: rest) = Nat.ofDigitChars 10 rest (c.toNat - 48) := by
      rw [numeralValue, Nat.ofDigitChars_cons, Nat.mul_zero, Nat.zero_add]
      rfl
    rw [value]
    by_cases zero : c = '0'
    · have alone : rest = [] := by
        have short := unpadded (by rw [zero]; rfl)
        exact List.eq_nil_of_length_eq_zero (Nat.le_zero.mp (Nat.le_of_succ_le_succ short))
      rw [alone, Nat.ofDigitChars_nil, single]
    · have positive : 0 < c.toNat - 48 := by
        have other : c.toNat ≠ 48 := fun same => zero (Char.toNat_inj.mp same)
        omega
      rw [toDigits_ofDigitChars restDigits positive, single]
      rfl

theorem isNumeral_toDigits (number : Nat) : isNumeral (Nat.toDigits 10 number) = true := by
  apply Bool.and_eq_true_iff.mpr
  constructor
  · simp
  · exact List.all_eq_true.mpr fun c member =>
      Nat.isDigit_of_mem_toDigits (by decide) (by decide) member

end Text

namespace Position

theorem ofNumeral?_eq_some_iff {text : List Char} {index : Position} :
    ofNumeral? text = some index ↔
      Text.isNumeral text = true ∧ Text.numeralValue text = index.toNat := by
  unfold ofNumeral?
  constructor
  · intro read
    split at read
    · next fits =>
      obtain ⟨numeral, small⟩ := Bool.and_eq_true_iff.mp fits
      refine ⟨numeral, ?_⟩
      rw [← Option.some.inj read, UInt64.toNat_ofNat_of_lt' (of_decide_eq_true small)]
    · cases read
  · rintro ⟨numeral, value⟩
    rw [value, numeral, decide_eq_true index.toNat_lt_size]
    simp

@[simp] theorem ofNumeral?_numeral (index : Position) :
    ofNumeral? index.numeral.toList = some index := by
  rw [numeral, String.toList_ofList]
  exact ofNumeral?_eq_some_iff.mpr ⟨Text.isNumeral_toDigits _, Nat.ofDigitChars_ten_toDigits⟩

end Position

namespace Address

/-- A key that an address can name: it is not empty and has no dot and no bracket. -/
def IsKey (key : String) : Prop :=
  key ≠ "" ∧ '.' ∉ key.toList ∧ '[' ∉ key.toList ∧ ']' ∉ key.toList

/-- Whether a key is the numeral of a position with a needless zero in front. -/
def IsPadded (key : String) : Prop :=
  (Position.ofNumeral? key.toList).isSome ∧ key.toList.head? = some '0' ∧ 1 < key.length

instance (key : String) : Decidable (IsPadded key) :=
  inferInstanceAs (Decidable (_ ∧ _ ∧ _))

/-- The step that a key stands for. -/
def stepOf (key : String) : Step :=
  match Position.ofNumeral? key.toList with
  | some index => .position index
  | none => .name key

/-- A key as its step writes it. -/
def respell (key : String) : String := (stepOf key).text

theorem stepOf_of_not_numeral {key : String} (name : Text.isNumeral key.toList = false) :
    stepOf key = .name key := by
  simp [stepOf, Position.ofNumeral?, name]

theorem respell_of_not_numeral {key : String} (name : Text.isNumeral key.toList = false) :
    respell key = key := by
  rw [respell, stepOf_of_not_numeral name]
  rfl

@[simp] theorem stepOf_respell (key : String) : stepOf (respell key) = stepOf key := by
  unfold respell
  cases read : Position.ofNumeral? key.toList with
  | some index => simp [stepOf, read, Step.text]
  | none => simp [stepOf, read, Step.text]

/-- Only zeros in front of a numeral are lost when a key is written anew. -/
theorem respell_of_not_isPadded {key : String} (unpadded : ¬ IsPadded key) :
    respell key = key := by
  unfold respell stepOf
  cases read : Position.ofNumeral? key.toList with
  | none => rfl
  | some index =>
    obtain ⟨numeral, value⟩ := Position.ofNumeral?_eq_some_iff.mp read
    have short : key.toList.head? = some '0' → key.toList.length ≤ 1 := by
      intro zero
      by_contra long
      exact unpadded ⟨by rw [read]; rfl, zero, by
        rw [← String.length_toList]
        exact Nat.lt_of_not_le long⟩
    apply String.toList_inj.mp
    rw [Step.text, Position.numeral, String.toList_ofList, ← value]
    exact Text.toDigits_numeralValue numeral short

theorem isKey_numeral (index : Position) : IsKey index.numeral := by
  obtain ⟨nonempty, digits⟩ := Bool.and_eq_true_iff.mp (Text.isNumeral_toDigits index.toNat)
  have other {c : Char} (notDigit : c.isDigit = false) : c ∉ index.numeral.toList := by
    rw [Position.numeral, String.toList_ofList]
    intro member
    rw [List.all_eq_true.mp digits c member] at notDigit
    cases notDigit
  refine ⟨?_, other (by decide), other (by decide), other (by decide)⟩
  intro empty
  have none := congrArg String.toList empty
  rw [Position.numeral, String.toList_ofList] at none
  rw [none] at nonempty
  cases nonempty

theorem IsKey.respell {key : String} (valid : IsKey key) : IsKey (Address.respell key) := by
  unfold Address.respell stepOf
  cases Position.ofNumeral? key.toList with
  | none => exact valid
  | some index => exact isKey_numeral index

/-- The path of a chain of keys. -/
def join (keys : List String) : String := ".".intercalate keys

/-- The keys between the dots of a path. -/
def keys (path : String) : List String := (path.toList.splitOn '.').map String.ofList

theorem toList_join (names : List String) :
    (join names).toList = ['.'].intercalate (names.map String.toList) :=
  String.toList_intercalate

theorem splitOn_join {names : List String} (valid : ∀ name ∈ names, IsKey name)
    (nonempty : names ≠ []) : (join names).toList.splitOn '.' = names.map String.toList := by
  rw [toList_join]
  apply List.splitOn_intercalate
  · intro text member
    obtain ⟨name, present, rfl⟩ := List.mem_map.mp member
    exact (valid name present).2.1
  · simpa using nonempty

theorem keys_join {names : List String} (valid : ∀ name ∈ names, IsKey name)
    (nonempty : names ≠ []) : keys (join names) = names := by
  rw [keys, splitOn_join valid nonempty, List.map_map]
  exact List.map_id'' (fun name => String.ofList_toList) names

theorem join_injective {names others : List String}
    (valid : ∀ name ∈ names, IsKey name) (nonempty : names ≠ [])
    (othersValid : ∀ name ∈ others, IsKey name) (othersNonempty : others ≠ [])
    (same : join names = join others) : names = others := by
  rw [← keys_join valid nonempty, same, keys_join othersValid othersNonempty]

theorem join_ne_empty {names : List String} (valid : ∀ name ∈ names, IsKey name)
    (nonempty : names ≠ []) : join names ≠ "" := by
  intro empty
  have split := keys_join valid nonempty
  rw [empty, show keys "" = [""] by decide] at split
  exact (valid "" (by rw [← split]; exact List.mem_singleton_self "")).1 rfl

theorem under_join {names : List String} (valid : ∀ name ∈ names, IsKey name) (name : String) :
    under (join names) name = join (names ++ [name]) := by
  cases names with
  | nil => simp [under, join]
  | cons first rest =>
    have nonempty := join_ne_empty valid (List.cons_ne_nil first rest)
    rw [under, if_neg (by simpa using nonempty), join, join,
      String.intercalate_append_of_ne_nil (List.cons_ne_nil first rest) (List.cons_ne_nil name []),
      String.intercalate_singleton]

theorem IsKey.ne_opening {key : String} (valid : IsKey key) {c : Char} (member : c ∈ key.toList) :
    c ≠ '[' :=
  fun same => valid.2.2.1 (same ▸ member)

/-- A head is read when it is not empty and has no closing bracket. -/
theorem readHead_eq_ok_iff {head : List Char} {step : Step} :
    readHead head = .ok step ↔ head ≠ [] ∧ ']' ∉ head ∧ stepOf (String.ofList head) = step := by
  unfold readHead
  split
  · next empty => simp [List.isEmpty_iff.mp empty]
  · next nonempty =>
    have nonempty : head ≠ [] := fun empty => nonempty (List.isEmpty_iff.mpr empty)
    split
    · next stray => simp [List.contains_iff_mem.mp stray]
    · next plain =>
      have plain : ']' ∉ head := fun stray => plain (List.contains_iff_mem.mpr stray)
      rw [stepOf, String.toList_ofList]
      cases Position.ofNumeral? head <;> simp [nonempty, plain]

section Head

variable {head : String} (valid : IsKey head) {tail : List Char}
  (opens : ∀ c ∈ tail.head?, c = '[')
include valid opens

theorem IsKey.takeWhile_append : (head.toList ++ tail).takeWhile (· != '[') = head.toList := by
  rw [List.takeWhile_append_of_pos fun c member => bne_iff_ne.mpr (valid.ne_opening member)]
  cases tail with
  | nil => rw [List.takeWhile_nil, List.append_nil]
  | cons c rest => simp [opens c rfl]

theorem IsKey.dropWhile_append : (head.toList ++ tail).dropWhile (· != '[') = tail := by
  rw [List.dropWhile_append_of_pos fun c member => bne_iff_ne.mpr (valid.ne_opening member)]
  cases tail with
  | nil => rfl
  | cons c rest => simp [opens c rfl]

/-- A key at the front of a part is its head, and what stands behind it is read as
brackets. -/
theorem readPart_append : readPart (head.toList ++ tail) =
    (readBrackets (tail.splitOn ']')).map (stepOf head :: ·) := by
  have read : readHead head.toList = .ok (stepOf head) := by
    refine readHead_eq_ok_iff.mpr ⟨by simpa using valid.1, valid.2.2.2, ?_⟩
    rw [String.ofList_toList]
  rw [readPart, valid.takeWhile_append opens, valid.dropWhile_append opens, read]
  cases readBrackets (tail.splitOn ']') <;> rfl

end Head

theorem readPart_of_isKey {key : String} (valid : IsKey key) :
    readPart key.toList = .ok [stepOf key] := by
  have ends : ∀ c ∈ ([] : List Char).head?, c = '[' := nofun
  have alone := readPart_append valid ends
  rwa [List.append_nil] at alone

/-- A text is read part by part. -/
theorem read_eq {raw : String} (nonempty : raw ≠ "") :
    read raw = ((raw.toList.splitOn '.').mapM readPart).map fun parts => ⟨raw, parts.flatten⟩ := by
  unfold read
  split
  · next empty => exact absurd (String.toList_eq_nil_iff.mp empty) nonempty
  · cases (raw.toList.splitOn '.').mapM readPart <;> rfl

theorem read_eq_ok_iff {raw : String} {address : Address} :
    read raw = .ok address ↔ raw ≠ "" ∧ ∃ parts,
      (raw.toList.splitOn '.').mapM readPart = .ok parts ∧ ⟨raw, parts.flatten⟩ = address := by
  by_cases empty : raw = ""
  · rw [empty]
    exact ⟨nofun, fun given => absurd rfl given.1⟩
  · rw [read_eq empty]
    cases (raw.toList.splitOn '.').mapM readPart <;> simp [Except.map, empty]

theorem parse_eq_ok_iff {raw : String} {address : Address} :
    parse raw = .ok address ↔ read raw = .ok address := by
  unfold parse
  cases read raw <;> simp [Except.mapError]

/-- **Reading a listed path.** The path of a chain of keys is read as one step for
each key. -/
theorem read_join {names : List String} (valid : ∀ name ∈ names, IsKey name)
    (nonempty : names ≠ []) : read (join names) = .ok ⟨join names, names.map stepOf⟩ := by
  refine read_eq_ok_iff.mpr ⟨join_ne_empty valid nonempty, names.map fun name => [stepOf name],
    ?_, ?_⟩
  · rw [splitOn_join valid nonempty, List.mapM_map]
    exact Outcome.mapM_eq_ok fun name member => readPart_of_isKey (valid name member)
  · rw [← List.flatMap_def, List.map_eq_flatMap]

theorem parse_join {names : List String} (valid : ∀ name ∈ names, IsKey name)
    (nonempty : names ≠ []) : parse (join names) = .ok ⟨join names, names.map stepOf⟩ :=
  parse_eq_ok_iff.mpr (read_join valid nonempty)

/-- A path with one more key behind a dot takes one more step. -/
theorem read_dot_key {path : String} {address : Address} (written : read path = .ok address)
    {key : String} (valid : IsKey key) : read (path ++ "." ++ key) =
      .ok ⟨path ++ "." ++ key, address.steps ++ [stepOf key]⟩ := by
  have text : (path ++ "." ++ key).toList = path.toList ++ '.' :: key.toList := by simp
  have alone : key.toList.splitOn '.' = [key.toList] := List.splitOn_eq_singleton valid.2.1
  obtain ⟨_, parts, done, rfl⟩ := read_eq_ok_iff.mp written
  refine read_eq_ok_iff.mpr ⟨?_, parts ++ [[stepOf key]], ?_, ?_⟩
  · intro empty
    rw [empty] at text
    simp at text
  · rw [text, List.splitOn_append_cons_self, alone, List.mapM_append, done, List.mapM_cons,
      readPart_of_isKey valid]
    rfl
  · rw [List.flatten_append]
    rfl

end Address

end Phrasebook
