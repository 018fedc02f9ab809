import Mathlib.Algebra.Order.BigOperators.Group.List
import Mathlib.Algebra.Order.Ring.Nat
import Mathlib.Data.List.TakeWhile
import Phrasebook.Text.Blank
import Phrasebook.Proofs.Text.Case

/-! # Trimmed text and joined pieces

Trimming leaves a part of a text (`Phrasebook.Text.trim_isInfix`), the whole of it when there is
no white space at either end (`Phrasebook.Text.trim_eq_self`); white space that is added there
does not count (`Phrasebook.Text.trim_append`). Pieces that are joined by a mark
make a text of known length that holds their characters and the mark
(`Phrasebook.Text.intercalate_cons`); splitting a text at a mark leaves pieces without it
(`Phrasebook.Text.notMem_of_mem_splitOn`).
-/

namespace Phrasebook.Text

theorem trim_eq_self {text : List Char} (first : ∀ c ∈ text.head?, isBlank c = false)
    (last : ∀ c ∈ text.getLast?, isBlank c = false) : trim text = text := by
  have kept {other : List Char} (visible : ∀ c ∈ other.head?, isBlank c = false) :
      other.dropWhile isBlank = other := by
    cases other with
    | nil => rfl
    | cons c rest => exact List.dropWhile_cons_of_neg (by simp [visible c rfl])
  have reversed : text.reverse.dropWhile isBlank = text.reverse := by
    apply kept
    rw [List.head?_reverse]
    exact last
  rw [trim, kept first, reversed, List.reverse_reverse]

theorem isBlank_of_isAlpha {c : Char} (letter : c.isAlpha = true) : isBlank c = false := by
  have range := (isAlpha_iff c).mp letter
  simp only [isBlank, blankRanges, List.any_cons, List.any_nil, Bool.or_false, Bool.or_eq_false_iff,
    Bool.and_eq_false_iff, decide_eq_false_iff_not]
  omega

theorem trim_isInfix (text : List Char) : trim text <:+: text := by
  have front := List.dropWhile_suffix isBlank (l := text)
  have back := List.dropWhile_suffix isBlank (l := (text.dropWhile isBlank).reverse)
  have cut : trim text <+: text.dropWhile isBlank := by
    rw [trim, ← List.reverse_suffix, List.reverse_reverse]
    exact back
  exact cut.isInfix.trans front.isInfix

theorem length_trim_lt {text : List Char} {c : Char} (last : text.getLast? = some c)
    (blank : isBlank c = true) : (trim text).length < text.length := by
  refine lt_of_le_of_ne (trim_isInfix text).length_le fun same => ?_
  have uncut : trim text = text := (trim_isInfix text).eq_of_length same
  have visible := List.head?_dropWhile_not isBlank (text.dropWhile isBlank).reverse
  rw [← uncut, trim, List.getLast?_reverse] at last
  have shown : isBlank c = false := by
    rw [last] at visible
    exact visible
  exact Bool.false_ne_true (shown.symm.trans blank)

theorem isBlank_toLower (c : Char) : isBlank c.toLower = isBlank c := by
  simp only [isBlank, blankRanges, List.any_cons, List.any_nil, toNat_toLower]
  grind

/-- White space at either end does not count. -/
theorem trim_append {front back : List Char} (blankFront : ∀ c ∈ front, isBlank c = true)
    (blankBack : ∀ c ∈ back, isBlank c = true) (text : List Char) :
    trim (front ++ text ++ back) = trim text := by
  rw [trim, trim, List.append_assoc, List.dropWhile_append_of_pos blankFront,
    List.dropWhile_append]
  split
  · next none =>
    have nothing : back.dropWhile isBlank = [] := List.dropWhile_eq_nil_iff.mpr blankBack
    rw [nothing, List.isEmpty_iff.mp none]
  · have reversed : ∀ c ∈ back.reverse, isBlank c = true :=
      fun c member => blankBack c (List.mem_reverse.mp member)
    rw [List.reverse_append, List.dropWhile_append_of_pos reversed]

/-- What trimming takes away is white space at either end. -/
theorem exists_trim (text : List Char) : ∃ front back,
    text = front ++ trim text ++ back ∧ (∀ c ∈ front, isBlank c = true) ∧
      ∀ c ∈ back, isBlank c = true := by
  refine ⟨text.takeWhile isBlank, ((text.dropWhile isBlank).reverse.takeWhile isBlank).reverse,
    ?_, fun c member => List.mem_takeWhile_imp member, fun c member => ?_⟩
  · rw [trim, List.append_assoc, ← List.reverse_append, List.takeWhile_append_dropWhile,
      List.reverse_reverse, List.takeWhile_append_dropWhile]
  · exact List.mem_takeWhile_imp (List.mem_reverse.mp member)

/-- A text that is cut at a visible mark may be trimmed before or after. -/
theorem trim_takeWhile_trim {keeps : Char → Bool}
    (visible : ∀ c, isBlank c = true → keeps c = true) (text : List Char) :
    trim ((trim text).takeWhile keeps) = trim (text.takeWhile keeps) := by
  obtain ⟨front, back, shape, blankFront, blankBack⟩ := exists_trim text
  have keptFront : ∀ c ∈ front, keeps c = true := fun c member => visible c (blankFront c member)
  have behind : ∃ rest, (∀ c ∈ rest, isBlank c = true) ∧
      (trim text ++ back).takeWhile keeps = (trim text).takeWhile keeps ++ rest := by
    rw [List.takeWhile_append]
    split
    · next whole =>
      refine ⟨back.takeWhile keeps, ?_, ?_⟩
      · exact fun c member => blankBack c ((List.takeWhile_prefix keeps).subset member)
      · rw [(List.takeWhile_prefix keeps).eq_of_length whole]
    · exact ⟨[], List.forall_mem_nil _, (List.append_nil _).symm⟩
  obtain ⟨rest, blankRest, cut⟩ := behind
  have cutWhole : text.takeWhile keeps = front ++ (trim text).takeWhile keeps ++ rest := by
    conv_lhs => rw [shape]
    rw [List.append_assoc, List.takeWhile_append_of_pos keptFront, cut, List.append_assoc]
  rw [cutWhole, trim_append blankFront blankRest]

/-- Trimming goes with a change of characters that keeps white space. -/
theorem trim_map {change : Char → Char} (same : ∀ c, isBlank (change c) = isBlank c)
    (text : List Char) : trim (text.map change) = (trim text).map change := by
  have blank : isBlank ∘ change = isBlank := funext same
  simp only [trim, List.dropWhile_map, ← List.map_reverse, blank]

theorem takeWhile_append_cons {keeps : Char → Bool} {mark : Char} (stops : keeps mark = false)
    (text more : List Char) : (text ++ mark :: more).takeWhile keeps = text.takeWhile keeps := by
  rw [List.takeWhile_append]
  split
  · next whole =>
    rw [List.takeWhile_cons_of_neg (by simp [stops]), List.append_nil,
      (List.takeWhile_prefix keeps).eq_of_length whole]
  · rfl

/-- Joined pieces are the first piece, and each later one behind a mark. -/
theorem intercalate_cons {α : Type} (mark : α) (piece : List α) (rest : List (List α)) :
    [mark].intercalate (piece :: rest) = piece ++ rest.flatMap fun other => mark :: other := by
  induction rest generalizing piece with
  | nil => rw [List.intercalate_singleton, List.flatMap_nil, List.append_nil]
  | cons next others ih =>
    rw [List.intercalate_cons_of_ne_nil (List.cons_ne_nil next others), ih, List.flatMap_cons,
      List.append_assoc, List.singleton_append, List.cons_append]

/-- Each joined piece stands behind the earlier ones with their marks. -/
theorem intercalate_append_cons (mark : Char) (front : List (List Char)) (piece : List Char)
    (rest : List (List Char)) : [mark].intercalate (front ++ piece :: rest) =
      (front.flatMap fun other => other ++ [mark]) ++
        (piece ++ rest.flatMap fun other => mark :: other) := by
  induction front with
  | nil => exact intercalate_cons mark piece rest
  | cons first front ih =>
    rw [List.cons_append, List.intercalate_cons_of_ne_nil (by simp), ih, List.flatMap_cons]
    simp only [List.append_assoc]

theorem length_intercalate_add_one {pieces : List (List Char)} (nonempty : pieces ≠ [])
    (mark : Char) :
    ([mark].intercalate pieces).length + 1 = (pieces.map fun piece => piece.length + 1).sum := by
  obtain ⟨piece, rest, rfl⟩ := List.exists_cons_of_ne_nil nonempty
  rw [intercalate_cons, List.length_append, List.length_flatMap, List.map_cons, List.sum_cons]
  simp only [List.length_cons]
  omega

theorem mem_intercalate {α : Type} {mark c : α} {pieces : List (List α)}
    (member : c ∈ [mark].intercalate pieces) : c = mark ∨ ∃ piece ∈ pieces, c ∈ piece := by
  cases pieces with
  | nil => cases member
  | cons piece rest =>
    rw [intercalate_cons] at member
    rcases List.mem_append.mp member with inside | later
    · exact .inr ⟨piece, List.mem_cons_self, inside⟩
    · obtain ⟨other, present, found⟩ := List.mem_flatMap.mp later
      rcases List.mem_cons.mp found with between | inside
      · exact .inl between
      · exact .inr ⟨other, List.mem_cons_of_mem piece present, inside⟩

theorem mem_intercalate_of_mem {mark c : Char} {pieces : List (List Char)} {piece : List Char}
    (present : piece ∈ pieces) (inside : c ∈ piece) : c ∈ [mark].intercalate pieces := by
  obtain ⟨first, rest, rfl⟩ := List.exists_cons_of_ne_nil (List.ne_nil_of_mem present)
  rw [intercalate_cons]
  rcases List.mem_cons.mp present with rfl | later
  · exact List.mem_append_left _ inside
  · exact List.mem_append_right _ (List.mem_flatMap.mpr ⟨piece, later, .tail mark inside⟩)

/-- More text behind joined pieces goes on with the last piece. -/
theorem intercalate_concat_append (mark : Char) (front : List (List Char))
    (piece more : List Char) : [mark].intercalate (front ++ [piece]) ++ more =
      [mark].intercalate (front ++ [piece ++ more]) := by
  rw [intercalate_append_cons, intercalate_append_cons, List.flatMap_nil, List.append_nil,
    List.append_nil, List.append_assoc]

/-- Pieces with a mark behind each of them are split into the pieces and an empty rest. -/
theorem splitOn_flatMap_append {mark : Char} {pieces : List (List Char)}
    (plain : ∀ piece ∈ pieces, mark ∉ piece) :
    (pieces.flatMap fun piece => piece ++ [mark]).splitOn mark = pieces ++ [[]] := by
  have joined : [mark].intercalate (pieces ++ [[]]) =
      pieces.flatMap fun piece => piece ++ [mark] := by
    rw [intercalate_append_cons, List.flatMap_nil, List.append_nil, List.append_nil]
  rw [← joined]
  refine List.splitOn_intercalate mark ?_ (by simp)
  intro piece member
  rcases List.mem_append.mp member with present | last
  · exact plain piece present
  · rw [List.mem_singleton.mp last]
    exact List.not_mem_nil

/-- No piece between two marks holds the mark. -/
theorem notMem_of_mem_splitOn {mark : Char} {text piece : List Char}
    (member : piece ∈ text.splitOn mark) : mark ∉ piece := by
  induction text generalizing piece with
  | nil =>
    rw [List.splitOn_nil, List.mem_singleton] at member
    rw [member]
    exact List.not_mem_nil
  | cons c rest ih =>
    rw [List.splitOn_cons_eq_if_modifyHead] at member
    split at member
    · rcases List.mem_cons.mp member with rfl | later
      · exact List.not_mem_nil
      · exact ih later
    · next other =>
      obtain ⟨first, others, shape⟩ := List.exists_cons_of_ne_nil (List.splitOn_ne_nil mark rest)
      rw [shape, List.modifyHead_cons] at member
      rcases List.mem_cons.mp member with rfl | later
      · rw [List.mem_cons, not_or]
        refine ⟨fun same => other (by rw [same]; exact beq_self_eq_true c), ih ?_⟩
        rw [shape]
        exact List.mem_cons_self
      · refine ih ?_
        rw [shape]
        exact List.mem_cons_of_mem first later

/-- Splitting at a mark goes with a change of characters that neither makes the mark nor
takes it away. -/
theorem splitOn_map {change : Char → Char} {mark : Char} (same : ∀ c, change c = mark ↔ c = mark)
    (text : List Char) :
    (text.map change).splitOn mark = (text.splitOn mark).map (List.map change) := by
  induction text with
  | nil => rfl
  | cons c rest ih =>
    rw [List.map_cons, List.splitOn_cons_eq_if_modifyHead, List.splitOn_cons_eq_if_modifyHead, ih]
    by_cases cut : c = mark
    · rw [if_pos (beq_iff_eq.mpr cut), if_pos (beq_iff_eq.mpr ((same c).mpr cut)), List.map_cons,
        List.map_nil]
    · have kept : change c ≠ mark := mt (same c).mp cut
      rw [if_neg (mt beq_iff_eq.mp cut), if_neg (mt beq_iff_eq.mp kept)]
      obtain ⟨first, others, shape⟩ := List.exists_cons_of_ne_nil (List.splitOn_ne_nil mark rest)
      rw [shape, List.map_cons, List.modifyHead_cons, List.modifyHead_cons, List.map_cons,
        List.map_cons]

end Phrasebook.Text
