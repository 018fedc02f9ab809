import Phrasebook.Decimal.Double

/-! # Characters of numbers

The text of a number has letters, digits, the minus and the point alone
(`Phrasebook.Decimal.isPlain_toString`, `Phrasebook.Decimal.Double.isPlain_text`).
-/

namespace Phrasebook.Decimal

/-- The characters of a number: letters, digits, a minus and a point. -/
def IsPlain (text : List Char) : Prop :=
  ∀ c ∈ text, c.isAlphanum = true ∨ c = '-' ∨ c = '.'

theorem IsPlain.append {first second : List Char} (front : IsPlain first)
    (back : IsPlain second) : IsPlain (first ++ second) := by
  intro c member
  rcases List.mem_append.mp member with here | later
  · exact front c here
  · exact back c later

theorem isPlain_toDigits (number : Nat) : IsPlain (Nat.toDigits 10 number) := by
  intro c member
  have digit : c.isDigit = true := Nat.isDigit_of_mem_toDigits (by decide) (by decide) member
  exact .inl (by rw [Char.isAlphanum, digit, Bool.or_true])

theorem isPlain_zeros (count : Nat) : IsPlain (List.replicate count '0') := by
  intro c member
  rw [List.eq_of_mem_replicate member]
  exact .inl (by decide)

theorem isPlain_toString (value : Int) : IsPlain (toString value).toList := by
  cases value with
  | ofNat value =>
    change IsPlain (Nat.repr value).toList
    rw [Nat.repr, String.toList_ofList]
    exact isPlain_toDigits value
  | negSucc value =>
    change IsPlain ("-" ++ Nat.repr (value + 1)).toList
    rw [String.toList_append, Nat.repr, String.toList_ofList]
    rw [String.toList_ofList]
    exact IsPlain.append (by simp [IsPlain]) (isPlain_toDigits _)

theorem Scaled.isPlain_positional (decimal : Scaled) : IsPlain decimal.positional := by
  unfold positional
  split
  · exact (isPlain_toDigits _).append (isPlain_zeros _)
  · have padded := (isPlain_zeros ((-decimal.exponent).toNat + 1 -
      (Nat.toDigits 10 decimal.coefficient).length)).append (isPlain_toDigits decimal.coefficient)
    refine IsPlain.append (fun c member => padded c (List.mem_of_mem_take member)) ?_
    exact List.forall_mem_cons.mpr
      ⟨.inr (.inr rfl), fun c member => padded c (List.mem_of_mem_drop member)⟩

theorem Double.isPlain_text (number : Double) : IsPlain number.text.toList := by
  have magnitude : IsPlain number.magnitude := by
    unfold Double.magnitude
    split
    · simp [IsPlain]
    · split
      · simp [IsPlain]
      · exact Scaled.isPlain_positional _
  unfold Double.text
  split
  · simp [IsPlain]
  · rw [String.toList_ofList]
    refine IsPlain.append ?_ magnitude
    split <;> simp [IsPlain]

end Phrasebook.Decimal
