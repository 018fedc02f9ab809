import Phrasebook.Proofs.File.Loading
import Phrasebook.Proofs.Locale.Rereading

/-! # Catalogue files that are found again

The path of the catalogue file of a locale is built from the canonical tag of the locale, and
the locale of a file is read from its name. The file that a path is built for is found again
(`Phrasebook.File.FoundAgain`) when the canonical tag reads back as the locale and holds no
slash, and only then (`Phrasebook.File.foundAgain_iff`): a variant of four characters may hold a
slash, and then the path leads into a folder that is named after the front of the tag.
-/

namespace Phrasebook.File

/-- The path of a folder, written with a dot when it is empty and so means the working
folder. -/
def orHere (folder : String) : String :=
  if folder = "" then "." else folder

/-- The path of the catalogue file of a locale leads to a name in the folder itself, the name
says which locale and which format it is, and what is loaded by the path is the locale with the
catalogue that the text under the name writes. -/
structure FoundAgain (folder : String) (locale : Locale) (format : Format) (name : String) :
    Prop where
  direct : parts (cataloguePath folder locale format) = parts folder ++ [name]
  classified : classify? name = some (.ok (locale, format))
  loaded : ∀ (disk : Disk) (pair : Locale × Catalogue),
    load disk (cataloguePath folder locale format) = .ok pair ↔ pair.1 = locale ∧
      ∃ around text, disk.open? (orHere folder) = some around ∧ around.text? name = some text ∧
        format.parse (cataloguePath folder locale format) text = .ok pair.2

theorem parts_ne_nil {path : String} {c : Char} (member : c ∈ path.toList) (notSlash : c ≠ '/')
    (notDot : c ≠ '.') : parts path ≠ [] := by
  have whole : ['/'].intercalate (path.toList.splitOn '/') = path.toList :=
    List.intercalate_splitOn '/'
  rw [← whole] at member
  rcases Text.mem_intercalate member with slash | ⟨piece, listed, inside⟩
  · exact absurd slash notSlash
  · have named : piece ≠ [] ∧ piece ≠ ['.'] := by
      refine ⟨List.ne_nil_of_mem inside, ?_⟩
      rintro rfl
      exact notDot (List.mem_singleton.mp inside)
    have kept : String.ofList piece ∈ parts path :=
      List.mem_map_of_mem (List.mem_filter.mpr ⟨listed, by simpa using named⟩)
    exact List.ne_nil_of_mem kept

/-- The folder around a path in a folder is that folder. -/
theorem parent?_join {name : String} (isName : IsName name) (relative : isAbsolute name = false)
    (disk : Disk) (folder : String) :
    disk.parent? (join folder name) = disk.open? (orHere folder) := by
  unfold orHere
  split
  · next empty =>
    have alone : join "" name = name := String.empty_append
    have inside : parts (absolute disk.working name) = parts disk.working ++ [name] := by
      rw [absolute, relative, if_neg Bool.false_ne_true, parts_join, isName.parts]
    have here : parts (absolute disk.working ".") = parts disk.working := by
      rw [absolute, if_neg (by decide), parts_join]
      exact List.append_nil _
    rw [empty, alone, Disk.parent?, Disk.partsOf, inside, List.dropLast_concat, Disk.open?,
      if_neg (by decide), Disk.partsOf, here]
  · next nonempty =>
    rw [Disk.parent?, Disk.partsOf, parts_absolute_join nonempty isName, List.dropLast_concat,
      Disk.open?, if_neg (mt String.isEmpty_iff.mp nonempty), Disk.partsOf]

/-- What is loaded by the path of a name in a folder. -/
theorem load_join_eq_ok_iff {folder name : String} (isName : IsName name)
    (relative : isAbsolute name = false) {kind : Except Error (Locale × Format)}
    (said : classify? name = some kind) {disk : Disk} {pair : Locale × Catalogue} :
    load disk (join folder name) = .ok pair ↔
      ∃ around format text, disk.open? (orHere folder) = some around ∧
        kind = .ok (pair.1, format) ∧ around.text? name = some text ∧
          format.parse (join folder name) text = .ok pair.2 := by
  have parent := parent?_join isName relative disk folder
  cases opened : disk.open? (orHere folder) with
  | none =>
    rw [opened] at parent
    rw [load, isName.lastName?_join, parent]
    constructor
    · intro failed
      cases failed
    · rintro ⟨_, _, _, missing, _⟩
      cases missing
  | some around =>
    rw [load_of_parent isName (parent.trans opened) said, Candidate.load_eq_ok_iff]
    constructor
    · rintro ⟨format, text, known, readable, parsed⟩
      exact ⟨around, format, text, rfl, known, readable, parsed⟩
    · rintro ⟨_, format, text, same, known, readable, parsed⟩
      cases same
      exact ⟨format, text, known, readable, parsed⟩

section CatalogueName

variable {locale : Locale} {format : Format}

/-- The name of the catalogue file of a locale. -/
def catalogueName (locale : Locale) (format : Format) : String :=
  locale.canonical ++ "." ++ format.extension

theorem toList_catalogueName : (catalogueName locale format).toList =
    locale.canonical.toList ++ '.' :: format.extension.toList := by
  rw [catalogueName, String.toList_append, String.toList_append, List.append_assoc]
  rfl

theorem plain_extension {c : Char} (member : c ∈ format.extension.toList) :
    c ≠ '/' ∧ c ≠ '.' := by
  have letters : format.extension.toList.all Char.isAlpha = true := by cases format <;> rfl
  have letter : c.isAlpha = true := List.all_eq_true.mp letters c member
  constructor <;>
  · rintro rfl
    exact absurd letter (by decide)

theorem splits_catalogueName :
    Splits (catalogueName locale format) locale.canonical format := by
  obtain ⟨c, rest, shape, _⟩ := locale.canonical_eq_cons
  refine ⟨format.extension, ?_, rfl, fun dot => (plain_extension dot).2 rfl, ?_⟩
  · intro empty
    rw [empty] at shape
    cases shape
  · cases format <;> decide

theorem slash_mem_catalogueName_iff :
    '/' ∈ (catalogueName locale format).toList ↔ '/' ∈ locale.canonical.toList := by
  rw [toList_catalogueName, List.mem_append, List.mem_cons]
  refine or_iff_left ?_
  rintro (dot | later)
  · exact absurd dot (by decide)
  · exact (plain_extension later).1 rfl

theorem isAbsolute_catalogueName : isAbsolute (catalogueName locale format) = false := by
  obtain ⟨c, rest, shape, letter⟩ := locale.canonical_eq_cons
  have notSlash : c ≠ '/' := by
    rintro rfl
    exact absurd letter (by decide)
  rw [isAbsolute, toList_catalogueName, shape, List.cons_append, List.head?_cons]
  simpa using notSlash

theorem isName_catalogueName (noSlash : '/' ∉ locale.canonical.toList) :
    IsName (catalogueName locale format) :=
  splits_catalogueName.isName (mt slash_mem_catalogueName_iff.mp noSlash)

theorem classify?_catalogueName : classify? (catalogueName locale format) =
    some ((Locale.parse locale.canonical).map (·, format)) :=
  classify?_eq_some_iff.mpr ⟨_, _, splits_catalogueName, rfl⟩

/-- The name says again which locale it was made for, unless a variant gets lost in the tag. -/
theorem classify?_catalogueName_iff {raw : String} (accepted : Locale.read raw = .ok locale) :
    classify? (catalogueName locale format) = some (.ok (locale, format)) ↔
      ¬ locale.MimicsScript ∧ ¬ locale.EndsBlank := by
  have reads : classify? (catalogueName locale format) = some (.ok (locale, format)) ↔
      Locale.read locale.canonical = .ok locale := by
    rw [← Locale.parse_eq_ok_iff, classify?_catalogueName]
    cases outcome : Locale.parse locale.canonical <;> simp [Except.map]
  by_cases ends : locale.EndsBlank
  · have lost := Locale.read_canonical_of_endsBlank accepted ends
    exact iff_of_false (mt reads.mp lost) fun kept => kept.2 ends
  · rw [reads, Locale.read_canonical accepted ends]
    by_cases mimics : locale.MimicsScript
    · exact iff_of_false (Locale.ofSubtags_of_mimicsScript mimics) fun kept => kept.1 mimics
    · exact iff_of_true (Locale.ofSubtags_of_not_mimicsScript mimics) ⟨mimics, ends⟩

/-- A name with a slash has a part in front of the slash and one behind it, because a tag begins
with a letter and an extension ends in one. -/
theorem slash_notMem_of_direct {name : String}
    (direct : parts (catalogueName locale format) = [name]) : '/' ∉ locale.canonical.toList := by
  intro slash
  obtain ⟨front, back, cut⟩ := List.append_of_mem slash
  have whole : (catalogueName locale format).toList =
      front ++ '/' :: (back ++ '.' :: format.extension.toList) := by
    rw [toList_catalogueName, cut, List.append_assoc, List.cons_append]
  have before : parts (String.ofList front) ≠ [] := by
    obtain ⟨c, rest, shape, letter⟩ := locale.canonical_eq_cons
    have plain : c ≠ '/' ∧ c ≠ '.' := by
      constructor <;>
      · rintro rfl
        exact absurd letter (by decide)
    have first : c ∈ front := by
      cases front with
      | nil =>
        rw [shape] at cut
        exact absurd (List.cons.inj cut).1 plain.1
      | cons d others =>
        rw [shape] at cut
        exact (List.cons.inj cut).1 ▸ List.mem_cons_self
    exact parts_ne_nil (String.toList_ofList ▸ first) plain.1 plain.2
  have after : parts (String.ofList (back ++ '.' :: format.extension.toList)) ≠ [] := by
    obtain ⟨c, member⟩ := List.exists_mem_of_ne_nil _ format.extension_ne_nil
    have last : c ∈ back ++ '.' :: format.extension.toList :=
      List.mem_append_right _ (.tail _ member)
    exact parts_ne_nil (String.toList_ofList ▸ last) (plain_extension member).1
      (plain_extension member).2
  rw [parts_of_slash whole] at direct
  have long := congrArg List.length direct
  rw [List.length_append, List.length_singleton] at long
  have some := List.length_pos_iff.mpr before
  have more := List.length_pos_iff.mpr after
  omega

theorem FoundAgain.parts_eq {folder name : String} (found : FoundAgain folder locale format name) :
    parts (catalogueName locale format) = [name] := by
  have direct := found.direct
  rw [cataloguePath, parts_join, List.append_cancel_left_eq] at direct
  exact direct

theorem FoundAgain.name_eq {folder name : String} (found : FoundAgain folder locale format name) :
    name = catalogueName locale format := by
  have isName : IsName (catalogueName locale format) :=
    isName_catalogueName (slash_notMem_of_direct found.parts_eq)
  exact (List.cons.inj (found.parts_eq.symm.trans isName.parts)).1

end CatalogueName

/-- **A catalogue file is found again** by the path that is built for it, unless the canonical
tag does not read back or holds a slash. -/
theorem foundAgain_iff {raw : String} {locale : Locale} (accepted : Locale.parse raw = .ok locale)
    (folder : String) (format : Format) :
    (∃ name, FoundAgain folder locale format name) ↔
      ¬ locale.MimicsScript ∧ ¬ locale.EndsBlank ∧ '/' ∉ locale.canonical.toList := by
  have accepted := Locale.parse_eq_ok_iff.mp accepted
  constructor
  · intro ⟨name, found⟩
    have known := found.classified
    rw [found.name_eq, classify?_catalogueName_iff accepted] at known
    exact ⟨known.1, known.2, slash_notMem_of_direct found.parts_eq⟩
  · intro ⟨distinct, visible, noSlash⟩
    have known : classify? (catalogueName locale format) = some (.ok (locale, format)) :=
      (classify?_catalogueName_iff accepted).mpr ⟨distinct, visible⟩
    have isName : IsName (catalogueName locale format) := isName_catalogueName noSlash
    refine ⟨catalogueName locale format, ?_, known, ?_⟩
    · rw [cataloguePath, parts_join]
      exact congrArg _ isName.parts
    · intro disk pair
      change load disk (join folder (catalogueName locale format)) = .ok pair ↔ _
      rw [load_join_eq_ok_iff isName isAbsolute_catalogueName known]
      constructor
      · rintro ⟨around, _, text, opened, same, readable, parsed⟩
        cases same
        exact ⟨rfl, around, text, opened, readable, parsed⟩
      · rintro ⟨rfl, around, text, opened, readable, parsed⟩
        exact ⟨around, format, text, opened, rfl, readable, parsed⟩

theorem foundAgain_chinese : ∃ locale, Locale.parse "zh_CN.UTF-8" = .ok locale ∧
    cataloguePath "locales" locale .json = "locales/zh-CN.json" ∧
      ∃ name, FoundAgain "locales" locale .json name := by
  let chinese : Locale := { Locale.english with
    language := ⟨"zh", by decide, by decide⟩
    region := some ⟨"CN", by decide, by decide⟩ }
  have accepted : Locale.parse "zh_CN.UTF-8" = .ok chinese := by decide +kernel
  have letters : chinese.canonical.toList = ['z', 'h', '-', 'C', 'N'] := by decide +kernel
  refine ⟨chinese, accepted, by decide +kernel,
    (foundAgain_iff accepted "locales" .json).mpr ⟨?_, ?_, ?_⟩⟩
  · intro ⟨_, noRegion, _⟩
    cases noRegion
  · intro ⟨c, last, blank⟩
    rw [letters] at last
    cases last
    exact absurd blank (by decide)
  · rw [letters]
    decide

/-- The file of a locale whose variant holds a slash has its path in another folder and is read
as another locale, and so is the file of a locale whose variant comes back as a script. -/
theorem cataloguePath_not_foundAgain :
    (∃ locale other, (¬ ∃ name, FoundAgain "locales" locale .json name) ∧
      Locale.parse "en-1/ab" = .ok locale ∧
      cataloguePath "locales" locale .json = "locales/en-1/ab.json" ∧
      parts "locales/en-1/ab.json" = ["locales", "en-1", "ab.json"] ∧
      classify? "ab.json" = some (.ok (other, .json)) ∧ other ≠ locale) ∧
    ∃ locale other, (¬ ∃ name, FoundAgain "locales" locale .json name) ∧
      Locale.parse "en-rozaj-latn" = .ok locale ∧
      cataloguePath "locales" locale .json = "locales/en-latn-rozaj.json" ∧
      classify? "en-latn-rozaj.json" = some (.ok (other, .json)) ∧ other ≠ locale := by
  let slashed : Locale := { Locale.english with
    variants := [⟨"1/ab", by decide, by decide⟩]
    increasing := List.pairwise_singleton _ _ }
  let abkhazian : Locale := { Locale.english with language := ⟨"ab", by decide, by decide⟩ }
  let rozaj : Subtag .variant := ⟨"rozaj", by decide, by decide⟩
  let latn : Locale := { Locale.english with
    variants := [⟨"latn", by decide, by decide⟩, rozaj]
    increasing := List.pairwise_pair.mpr (by decide) }
  let latin : Locale := { Locale.english with
    script := some ⟨"Latn", by decide, by decide⟩
    variants := [rozaj]
    increasing := List.pairwise_singleton _ _ }
  have elsewhere : ¬ ∃ name, FoundAgain "locales" slashed .json name :=
    fun ⟨_, found⟩ => slash_notMem_of_direct found.parts_eq (by decide +kernel)
  have moved : ¬ ∃ name, FoundAgain "locales" latn .json name := by
    intro ⟨name, found⟩
    have known := found.classified
    rw [found.name_eq] at known
    exact absurd known (by decide +kernel)
  exact ⟨⟨slashed, abkhazian, elsewhere, by decide +kernel⟩, latn, latin, moved, by decide +kernel⟩

end Phrasebook.File
