import Phrasebook.File.Format
import Phrasebook.Proofs.Text.Pieces

/-! # Paths of files in a folder

The path of a name in a folder has the parts of the folder and those of the name
(`Phrasebook.File.parts_join`), so it ends in the name (`Phrasebook.File.lastName?_join`). A
file name is that of a catalogue when the text behind its last dot names a format in some
case (`Phrasebook.File.Splits`), and then the text before that dot is read as a locale
(`Phrasebook.File.classify?_eq_some_iff`).
-/

namespace Phrasebook.File

theorem parts_of_slash {path : String} {front back : List Char}
    (shape : path.toList = front ++ '/' :: back) :
    parts path = parts (String.ofList front) ++ parts (String.ofList back) := by
  rw [parts, parts, parts, shape, String.toList_ofList, String.toList_ofList,
    List.splitOn_append_cons_of_beq front back (beq_self_eq_true '/'), List.filter_append,
    List.map_append]

/-- A path in a folder leads through the folder. -/
theorem parts_join (folder name : String) :
    parts (join folder name) = parts folder ++ parts name := by
  unfold join
  split
  · next ends =>
    rcases Bool.or_eq_true_iff.mp ends with empty | slash
    · rw [String.isEmpty_iff.mp empty, String.empty_append]
      rfl
    · obtain ⟨front, shape⟩ := List.getLast?_eq_some_iff.mp (beq_iff_eq.mp slash)
      have whole : (folder ++ name).toList = front ++ '/' :: name.toList := by
        rw [String.toList_append, shape, List.append_assoc, List.singleton_append]
      rw [parts_of_slash whole, parts_of_slash shape, String.ofList_toList, List.append_assoc]
      rfl
  · have whole : (folder ++ "/" ++ name).toList = folder.toList ++ '/' :: name.toList := by
      rw [String.toList_append, String.toList_append, List.append_assoc]
      rfl
    rw [parts_of_slash whole, String.ofList_toList, String.ofList_toList]

/-- A name that a folder may have for something in it. -/
structure IsName (name : String) : Prop where
  nonempty : name ≠ ""
  noSlash : '/' ∉ name.toList
  notHere : name ≠ "."
  notAbove : name ≠ ".."

theorem IsName.parts {name : String} (isName : IsName name) : parts name = [name] := by
  have nonempty : name.toList ≠ [] := mt String.toList_eq_nil_iff.mp isName.nonempty
  have notHere : name.toList ≠ ['.'] := fun dot =>
    isName.notHere (String.toList_inj.mp dot)
  rw [File.parts, List.splitOn_eq_singleton isName.noSlash,
    List.filter_cons_of_pos (by simp [nonempty, notHere]), List.filter_nil, List.map_cons,
    List.map_nil, String.ofList_toList]

theorem IsName.lastName?_join {name : String} (isName : IsName name) (folder : String) :
    lastName? (join folder name) = some name := by
  rw [lastName?, parts_join, isName.parts, List.getLast?_concat]
  split
  · next above => exact absurd (Option.some.inj above) isName.notAbove
  · rfl

theorem isAbsolute_join {folder : String} (nonempty : folder ≠ "") (name : String) :
    isAbsolute (join folder name) = isAbsolute folder := by
  have letters : folder.toList ≠ [] := mt String.toList_eq_nil_iff.mp nonempty
  obtain ⟨c, rest, shape⟩ := List.exists_cons_of_ne_nil letters
  unfold join
  split <;> simp [isAbsolute, String.toList_append, shape]

theorem parts_absolute_join {folder name : String} (nonempty : folder ≠ "") (isName : IsName name)
    (working : String) :
    parts (absolute working (join folder name)) = parts (absolute working folder) ++ [name] := by
  unfold absolute
  rw [isAbsolute_join nonempty]
  split
  · rw [parts_join, isName.parts]
  · rw [parts_join, parts_join, parts_join, isName.parts, List.append_assoc]

theorem splitName_of_dot {front extension : String} (nonempty : front ≠ "")
    (last : '.' ∉ extension.toList) (notAbove : front ++ "." ++ extension ≠ "..") :
    splitName (front ++ "." ++ extension) = (front, some extension) := by
  have letters : (front ++ "." ++ extension).toList.reverse =
      extension.toList.reverse ++ '.' :: front.toList.reverse := by
    simp [String.toList_append]
  have plain : ∀ c ∈ extension.toList.reverse, (c != '.') = true := by
    intro c member
    exact bne_iff_ne.mpr fun dot => last (dot ▸ List.mem_reverse.mp member)
  have after : (extension.toList.reverse ++ '.' :: front.toList.reverse).takeWhile (· != '.') =
      extension.toList.reverse := by
    rw [Text.takeWhile_append_cons (by decide), List.takeWhile_eq_self_iff.mpr plain]
  have before : (extension.toList.reverse ++ '.' :: front.toList.reverse).dropWhile (· != '.') =
      '.' :: front.toList.reverse := by
    rw [List.dropWhile_append_of_pos plain, List.dropWhile_cons_of_neg (by decide)]
  have inFront : front.toList.reverse ≠ [] :=
    mt List.reverse_eq_nil_iff.mp (mt String.toList_eq_nil_iff.mp nonempty)
  obtain ⟨c, rest, shape⟩ := List.exists_cons_of_ne_nil inFront
  unfold splitName
  dsimp only
  rw [letters, after, before, shape]
  dsimp only
  rw [if_neg notAbove, ← shape, List.reverse_reverse, List.reverse_reverse, String.ofList_toList,
    String.ofList_toList]

theorem exists_dot_of_splitName {name front extension : String}
    (found : splitName name = (front, some extension)) :
    front ≠ "" ∧ name = front ++ "." ++ extension ∧ '.' ∉ extension.toList ∧ name ≠ ".." := by
  unfold splitName at found
  dsimp only at found
  split at found
  · next c before rest shape =>
    split at found
    · cases found
    · next notAbove =>
      cases found
      have dot : c = '.' := by
        have stopped := List.head?_dropWhile_not (· != '.') name.toList.reverse
        rw [shape] at stopped
        simpa using stopped
      have plain : '.' ∉ name.toList.reverse.takeWhile (· != '.') :=
        fun member => absurd (List.mem_takeWhile_imp member) (by decide)
      have whole := List.takeWhile_append_dropWhile (p := (· != '.')) (l := name.toList.reverse)
      rw [shape, dot] at whole
      generalize name.toList.reverse.takeWhile (· != '.') = after at plain whole ⊢
      have letters : name.toList = (before :: rest).reverse ++ '.' :: after.reverse := by
        rw [← List.reverse_reverse name.toList, ← whole]
        simp
      refine ⟨?_, ?_, ?_, notAbove⟩
      · intro empty
        have nothing := String.toList_eq_nil_iff.mpr empty
        rw [String.toList_ofList, List.reverse_eq_nil_iff] at nothing
        cases nothing
      · apply String.toList_inj.mp
        rw [letters]
        simp [String.toList_append]
      · rw [String.toList_ofList, List.mem_reverse]
        exact plain
  · cases found

/-- The text in front of the last dot of a name, and the format that the text behind it
names in some case. -/
def Splits (name front : String) (format : Format) : Prop :=
  ∃ extension : String, front ≠ "" ∧ name = front ++ "." ++ extension ∧ '.' ∉ extension.toList ∧
    extension.toList.map Char.toLower = format.extension.toList

namespace Format

theorem ofExtension?_eq_some_iff {extension : String} {format : Format} :
    ofExtension? extension = some format ↔
      extension.toList.map Char.toLower = format.extension.toList := by
  have folded (format : Format) :
      String.ofList (extension.toList.map Char.toLower) = format.extension ↔
        extension.toList.map Char.toLower = format.extension.toList := by
    rw [← String.toList_inj, String.toList_ofList]
  unfold ofExtension?
  simp only [folded]
  generalize extension.toList.map Char.toLower = letters
  cases format with
  | json => by_cases json : letters = Format.json.extension.toList <;> simp [json]
  | toml =>
    by_cases json : letters = Format.json.extension.toList
    · rw [if_pos json, json]
      decide
    · rw [if_neg json]
      by_cases toml : letters = Format.toml.extension.toList <;> simp [toml]

theorem extension_ne_nil (format : Format) : format.extension.toList ≠ [] := by
  cases format <;> decide

end Format

theorem Splits.not_dots {name front : String} {format : Format}
    (splits : Splits name front format) : name ≠ "" ∧ name ≠ "." ∧ name ≠ ".." := by
  obtain ⟨extension, nonempty, shape, last, known⟩ := splits
  -- the text behind the dot is none of these names, and there is text in front of it
  have long : 3 ≤ name.toList.length := by
    have some : 0 < front.toList.length :=
      List.length_pos_iff.mpr (mt String.toList_eq_nil_iff.mp nonempty)
    have behind : 0 < extension.toList.length := by
      rw [← List.length_map Char.toLower, known]
      exact List.length_pos_iff.mpr format.extension_ne_nil
    rw [shape, String.toList_append, String.toList_append, List.length_append, List.length_append]
    change 3 ≤ front.toList.length + 1 + extension.toList.length
    omega
  refine ⟨?_, ?_, ?_⟩ <;>
  · intro same
    rw [same] at long
    exact absurd long (by decide)

theorem Splits.isName {name front : String} {format : Format} (splits : Splits name front format)
    (noSlash : '/' ∉ name.toList) : IsName name where
  nonempty := splits.not_dots.1
  noSlash := noSlash
  notHere := splits.not_dots.2.1
  notAbove := splits.not_dots.2.2

/-- What the name of a catalogue file says is what the text in front of its last dot is
read as. -/
theorem classify?_eq_some_iff {name : String} {kind : Except Error (Locale × Format)} :
    classify? name = some kind ↔ ∃ front format, Splits name front format ∧
      kind = (Locale.parse front).map (·, format) := by
  unfold classify?
  rw [Option.map_eq_some_iff]
  refine ⟨?_, ?_⟩
  · intro ⟨format, named, same⟩
    obtain ⟨extension, found, known⟩ := Option.bind_eq_some_iff.mp named
    have parts : splitName name = (stem name, some extension) := Prod.ext rfl found
    obtain ⟨nonempty, shape, last, _⟩ := exists_dot_of_splitName parts
    exact ⟨stem name, format,
      ⟨extension, nonempty, shape, last, Format.ofExtension?_eq_some_iff.mp known⟩, same.symm⟩
  · intro ⟨front, format, splits, same⟩
    have notAbove := splits.not_dots.2.2
    obtain ⟨extension, nonempty, shape, last, known⟩ := splits
    have parts := splitName_of_dot nonempty last (shape ▸ notAbove)
    rw [← shape] at parts
    refine ⟨format, ?_, ?_⟩
    · rw [extension?, parts]
      exact Format.ofExtension?_eq_some_iff.mpr known
    · rw [stem, parts, same]

end Phrasebook.File
