import Mathlib.Algebra.Order.BigOperators.Group.List
import Mathlib.Algebra.Order.Ring.Nat
import Phrasebook.Error
import Phrasebook.Proofs.Locale.Folding
import Phrasebook.Proofs.Ordered
import Phrasebook.Proofs.Related
import Phrasebook.Proofs.Text.Pieces

/-! # Reading a canonical tag again

Reading folds every piece of a tag in its place and drops repeated variants, so a
canonical tag holds no mark that reading looks for and is no longer than the tag it
comes from (`Phrasebook.Locale.length_canonical_le`). It reads back as the locale whose
tag it is (`Phrasebook.Locale.parse_canonical_iff`), but for two kinds of locale. Where
neither a script nor a region keeps the first variant away from the language, a variant
of four letters is read as a script; and white space at the end of the last variant is
taken for white space around the tag.
-/

namespace Phrasebook

namespace Subtag

theorem Kind.mem_fold {kind : Kind} {piece : List Char} {c : Char} (member : c ∈ kind.fold piece) :
    ∃ d ∈ piece, c = d.toLower ∨ c = d.toUpper := by
  cases kind with
  | language | variant =>
    obtain ⟨d, present, rfl⟩ := List.mem_map.mp member
    exact ⟨d, present, .inl rfl⟩
  | region =>
    obtain ⟨d, present, rfl⟩ := List.mem_map.mp member
    exact ⟨d, present, .inr rfl⟩
  | script =>
    rcases List.mem_append.mp member with first | later
    · obtain ⟨d, present, rfl⟩ := List.mem_map.mp first
      exact ⟨d, List.mem_of_mem_take present, .inr rfl⟩
    · obtain ⟨d, present, rfl⟩ := List.mem_map.mp later
      exact ⟨d, List.mem_of_mem_drop present, .inl rfl⟩

/-- The marks that reading looks for in a tag, apart from hyphens. -/
def marks : List Char := ['.', '@', '_']

/-- Folding makes no mark out of another character. -/
theorem Kind.mem_of_mem_fold {kind : Kind} {piece : List Char} {c : Char} (mark : c ∈ marks)
    (member : c ∈ kind.fold piece) : c ∈ piece := by
  obtain ⟨d, present, folded⟩ := mem_fold member
  have code : c.toNat = 46 ∨ c.toNat = 64 ∨ c.toNat = 95 := by
    simp only [marks, List.mem_cons, List.not_mem_nil, or_false] at mark
    rcases mark with rfl | rfl | rfl
    · exact .inl rfl
    · exact .inr (.inl rfl)
    · exact .inr (.inr rfl)
  have same : c.toNat = d.toNat := by
    rcases folded with lower | upper
    · have moved := Text.toNat_toLower d
      rw [← lower] at moved
      split at moved <;> omega
    · have moved := Text.toNat_toUpper d
      rw [← upper] at moved
      split at moved <;> omega
  rw [Char.toNat_inj.mp same]
  exact present

/-- A text is a piece of a tag in the case of some kind of subtag. -/
def Folds (piece text : List Char) : Prop :=
  ∃ kind : Kind, text = kind.fold piece

theorem Folds.length_add_one {piece text : List Char} (folded : Folds piece text) :
    piece.length + 1 = text.length + 1 := by
  obtain ⟨kind, rfl⟩ := folded
  rw [Kind.length_fold]

theorem folds_of_read? {kind : Kind} {piece : List Char} {subtag : Subtag kind}
    (found : read? kind piece = some subtag) : Folds piece subtag.spelling :=
  ⟨kind, (read?_eq_some_iff.mp found).2⟩

theorem folds_of_takeFirst {kind : Kind} {pieces rest : List (List Char)}
    {taken : Option (Subtag kind)} (first : takeFirst kind pieces = (taken, rest)) :
    ∃ parts, pieces = parts ++ rest ∧
      List.Forall₂ Folds parts ((taken.map Subtag.spelling).toList) := by
  cases pieces with
  | nil =>
    cases first
    exact ⟨[], rfl, .nil⟩
  | cons piece others =>
    rw [takeFirst] at first
    split at first
    · next subtag found =>
      cases first
      exact ⟨[piece], rfl, .cons (folds_of_read? found) .nil⟩
    · cases first
      exact ⟨[], rfl, .nil⟩

theorem folds_of_readAll? {kind : Kind} {pieces : List (List Char)} {subtags : List (Subtag kind)}
    (found : readAll? kind pieces = some subtags) :
    List.Forall₂ Folds pieces (subtags.map Subtag.spelling) := by
  induction pieces generalizing subtags with
  | nil =>
    cases found
    exact .nil
  | cons piece rest ih =>
    rw [readAll?, List.mapM_cons] at found
    obtain ⟨subtag, first, found⟩ := Option.bind_eq_some_iff.mp found
    obtain ⟨others, later, found⟩ := Option.bind_eq_some_iff.mp found
    cases found
    exact .cons (folds_of_read? first) (ih later)

theorem readAll?_spellings {kind : Kind} (subtags : List (Subtag kind)) :
    readAll? kind (subtags.map Subtag.spelling) = some subtags := by
  induction subtags with
  | nil => rfl
  | cons subtag rest ih =>
    rw [readAll?] at ih ⊢
    rw [List.map_cons, List.mapM_cons, read?_spelling, ih]
    rfl

/-- A list that may begin with the text of a subtag gives that subtag back, when no other
text that it begins with has the form of the kind. -/
theorem takeFirst_spellings {kind : Kind} (first : Option (Subtag kind)) {rest : List (List Char)}
    (other : first = none → ∀ text ∈ rest.head?, kind.admits text = false) :
    takeFirst kind ((first.map Subtag.spelling).toList ++ rest) = (first, rest) := by
  cases first with
  | some subtag =>
    change takeFirst kind (subtag.spelling :: rest) = _
    rw [takeFirst, read?_spelling]
  | none =>
    change takeFirst kind rest = _
    cases rest with
    | nil => rfl
    | cons text later => rw [takeFirst, read?_eq_none_iff.mpr (other rfl text rfl)]

end Subtag

namespace Locale

open Subtag (Kind)

theorem sortedVariants_eq_ofList (variants : List (Subtag .variant)) :
    (sortedVariants variants).1 = Ordered.ofList Subtag.text variants :=
  (List.foldl_hom Subtype.val fun _ _ => rfl).symm

theorem subtags_spellings (locale : Locale) :
    locale.subtags.map String.toList = locale.language.spelling ::
      ((locale.script.map Subtag.spelling).toList ++
        ((locale.region.map Subtag.spelling).toList ++
          locale.variants.map Subtag.spelling)) := by
  have optional {kind : Kind} (subtag : Option (Subtag kind)) :
      (subtag.map Subtag.text).toList.map String.toList =
        (subtag.map Subtag.spelling).toList := by
    cases subtag <;> rfl
  have listed : (locale.variants.map Subtag.text).map String.toList =
      locale.variants.map Subtag.spelling := List.map_map
  rw [subtags, List.map_append, List.map_append, List.map_cons, optional, optional, listed,
    List.append_assoc, List.cons_append]
  rfl

/-- What the parts of a list of pieces say about the locale that it writes. -/
theorem parts_of_ofSubtags {pieces : List (List Char)} {locale : Locale}
    (accepted : ofSubtags pieces = .ok locale) :
    ∃ afterLanguage afterScript afterRegion variants,
      Subtag.takeFirst .language pieces = (some locale.language, afterLanguage) ∧
      Subtag.takeFirst .script afterLanguage = (locale.script, afterScript) ∧
      Subtag.takeFirst .region afterScript = (locale.region, afterRegion) ∧
      Subtag.readAll? .variant afterRegion = some variants ∧
      locale.variants = Ordered.ofList Subtag.text variants := by
  unfold ofSubtags at accepted
  split at accepted
  · cases accepted
  · next language afterLanguage first =>
    dsimp only at accepted
    split at accepted
    · cases accepted
    · next variants found =>
      cases accepted
      exact ⟨_, _, _, variants, first, rfl, rfl, found, sortedVariants_eq_ofList variants⟩

/-- The subtags of a locale are pieces of the tag in the case of their kinds, some of
them perhaps left out. -/
theorem folds_of_ofSubtags {pieces : List (List Char)} {locale : Locale}
    (accepted : ofSubtags pieces = .ok locale) :
    ∃ texts, List.Forall₂ Subtag.Folds pieces texts ∧
      (locale.subtags.map String.toList).Subperm texts := by
  obtain ⟨_, _, _, variants, language, script, region, found, kept⟩ := parts_of_ofSubtags accepted
  obtain ⟨languages, rfl, languages_fold⟩ := Subtag.folds_of_takeFirst language
  obtain ⟨scripts, rfl, scripts_fold⟩ := Subtag.folds_of_takeFirst script
  obtain ⟨regions, rfl, regions_fold⟩ := Subtag.folds_of_takeFirst region
  have variants_fold := Subtag.folds_of_readAll? found
  refine ⟨_, List.rel_append languages_fold (List.rel_append scripts_fold
    (List.rel_append regions_fold variants_fold)), ?_⟩
  have fewer : (locale.variants.map Subtag.spelling).Subperm
      (variants.map Subtag.spelling) := by
    obtain ⟨part, same, within⟩ : locale.variants.Subperm variants := by
      rw [kept]
      exact Ordered.ofList_subperm variants
    exact ⟨part.map _, same.map _, within.map _⟩
  have whole := (List.subperm_append_left (locale.language.spelling ::
    ((locale.script.map Subtag.spelling).toList ++
      (locale.region.map Subtag.spelling).toList))).mpr fewer
  rw [subtags_spellings]
  simpa using whole

theorem length_canonical_add_one (locale : Locale) :
    locale.canonical.toList.length + 1 =
      ((locale.subtags.map String.toList).map fun text => text.length + 1).sum := by
  rw [canonical, String.toList_intercalate]
  exact Text.length_intercalate_add_one (by simp [subtags]) '-'

theorem ofSubtags_of_read {raw : String} {locale : Locale} (accepted : read raw = .ok locale) :
    ofSubtags ((tagPart raw.toList).splitOn '-') = .ok locale := by
  unfold read at accepted
  split at accepted
  · cases accepted
  · exact accepted

/-- A canonical tag is no longer than a tag that it comes from. -/
theorem length_canonical_le {raw : String} {locale : Locale} (accepted : read raw = .ok locale) :
    locale.canonical.toList.length ≤ (tagPart raw.toList).length := by
  obtain ⟨texts, folds, fewer⟩ := folds_of_ofSubtags (ofSubtags_of_read accepted)
  have length_fold : (((tagPart raw.toList).splitOn '-').map fun piece => piece.length + 1) =
      texts.map fun text => text.length + 1 :=
    Related.map_eq folds fun piece text folded => folded.length_add_one
  have pieces := Text.length_intercalate_add_one (List.splitOn_ne_nil '-' (tagPart raw.toList)) '-'
  rw [List.intercalate_splitOn, length_fold] at pieces
  have kept := locale.length_canonical_add_one
  have shorter : ((locale.subtags.map String.toList).map fun text => text.length + 1).sum ≤
      (texts.map fun text => text.length + 1).sum := by
    obtain ⟨part, same, within⟩ := fewer
    rw [← (same.map _).sum_eq]
    exact (within.map _).sum_le_sum fun _ _ => Nat.zero_le _
  omega

theorem mark_notMem_tagPart {text : List Char} {c : Char} (mark : c ∈ Subtag.marks) :
    c ∉ tagPart text := by
  intro member
  obtain ⟨d, present, folded⟩ := List.mem_map.mp member
  have kept := List.mem_takeWhile_imp ((Text.trim_isInfix _).subset present)
  simp only [Bool.and_eq_true, bne_iff_ne] at kept
  simp only [Subtag.marks, List.mem_cons, List.not_mem_nil, or_false] at mark
  split at folded
  · subst folded
    revert mark
    decide
  · next other =>
    subst folded
    rcases mark with dot | sign | underscore
    · exact kept.1 dot
    · exact kept.2 sign
    · exact other underscore

/-- A canonical tag holds none of the marks that reading looks for. -/
theorem mark_notMem_canonical {raw : String} {locale : Locale} {c : Char}
    (accepted : read raw = .ok locale) (mark : c ∈ Subtag.marks) :
    c ∉ locale.canonical.toList := by
  intro member
  rw [canonical, String.toList_intercalate] at member
  rcases Text.mem_intercalate member with rfl | ⟨text, listed, inside⟩
  · revert mark
    decide
  · obtain ⟨texts, folds, fewer⟩ := folds_of_ofSubtags (ofSubtags_of_read accepted)
    obtain ⟨piece, present, kind, rfl⟩ := Related.exists_left folds (fewer.subset listed)
    have kept : c ∈ ['-'].intercalate ((tagPart raw.toList).splitOn '-') :=
      Text.mem_intercalate_of_mem present (Subtag.Kind.mem_of_mem_fold mark inside)
    rw [List.intercalate_splitOn] at kept
    exact mark_notMem_tagPart mark kept

theorem tagPart_of_mark_notMem {text : List Char} (unmarked : ∀ c ∈ Subtag.marks, c ∉ text) :
    tagPart text = Text.trim (Text.trim text) := by
  have within := (Text.trim_isInfix text).subset
  have whole : ((Text.trim text).takeWhile fun c => c != '.' && c != '@') = Text.trim text := by
    apply List.takeWhile_eq_self_iff.mpr
    intro c member
    have dot : c ≠ '.' := fun same => unmarked '.' (by decide) (same ▸ within member)
    have sign : c ≠ '@' := fun same => unmarked '@' (by decide) (same ▸ within member)
    simp [dot, sign]
  rw [tagPart, whole]
  calc
    (Text.trim (Text.trim text)).map (fun c => if c = '_' then '-' else c)
      = (Text.trim (Text.trim text)).map id := by
        refine List.map_congr_left fun c member => if_neg fun same => ?_
        exact unmarked '_' (by decide) (same ▸ within ((Text.trim_isInfix _).subset member))
    _ = Text.trim (Text.trim text) := List.map_id _

theorem canonical_eq_cons (locale : Locale) :
    ∃ c rest, locale.canonical.toList = c :: rest ∧ c.isAlpha = true := by
  have admitted := locale.language.admits_spelling
  simp only [Kind.admits, Bool.and_eq_true, List.all_eq_true] at admitted
  rw [canonical, String.toList_intercalate, subtags_spellings]
  cases letters : locale.language.spelling with
  | nil =>
    rw [letters] at admitted
    exact absurd admitted.2 (by decide)
  | cons c others =>
    have letter := admitted.1 c (letters ▸ List.mem_cons_self)
    exact ⟨c, _, Text.intercalate_cons '-' (c :: others) _, letter⟩

/-- White space stands at the end of the canonical tag. -/
def EndsBlank (locale : Locale) : Prop :=
  ∃ c ∈ locale.canonical.toList.getLast?, Text.isBlank c = true

/-- The first variant stands right behind the language and has the form of a script. -/
def MimicsScript (locale : Locale) : Prop :=
  locale.script = none ∧ locale.region = none ∧
    ∃ variant ∈ locale.variants.head?, Kind.script.admits variant.spelling = true

theorem takeFirst_region (locale : Locale) :
    Subtag.takeFirst .region ((locale.region.map Subtag.spelling).toList ++
        locale.variants.map Subtag.spelling) =
      (locale.region, locale.variants.map Subtag.spelling) := by
  apply Subtag.takeFirst_spellings
  intro _ text first
  rw [List.head?_map] at first
  obtain ⟨variant, _, rfl⟩ := Option.map_eq_some_iff.mp first
  by_contra region
  have short := Kind.length_of_admits_region (Bool.eq_true_of_not_eq_false region)
  have long := Kind.length_of_admits_variant variant.admits_spelling
  omega

theorem takeFirst_script {locale : Locale} (distinct : ¬ locale.MimicsScript) :
    Subtag.takeFirst .script ((locale.script.map Subtag.spelling).toList ++
        ((locale.region.map Subtag.spelling).toList ++
          locale.variants.map Subtag.spelling)) =
      (locale.script, (locale.region.map Subtag.spelling).toList ++
        locale.variants.map Subtag.spelling) := by
  apply Subtag.takeFirst_spellings
  intro noScript text first
  by_contra other
  have letters : Kind.script.admits text = true := Bool.eq_true_of_not_eq_false other
  cases region : locale.region with
  | some subtag =>
    rw [region] at first
    cases first
    have long := Kind.length_of_admits_script letters
    have short := Kind.length_of_admits_region subtag.admits_spelling
    omega
  | none =>
    rw [region, Option.map_none, Option.toList_none, List.nil_append,
      List.head?_map] at first
    obtain ⟨variant, foremost, rfl⟩ := Option.map_eq_some_iff.mp first
    exact distinct ⟨noScript, region, variant, foremost, letters⟩

theorem ofSubtags_of_not_mimicsScript {locale : Locale} (distinct : ¬ locale.MimicsScript) :
    ofSubtags (locale.subtags.map String.toList) = .ok locale := by
  have kept : (sortedVariants locale.variants).1 = locale.variants :=
    (sortedVariants_eq_ofList _).trans (Ordered.ofList_of_increasing locale.increasing)
  rw [subtags_spellings, ofSubtags, Subtag.takeFirst, Subtag.read?_spelling]
  dsimp only
  rw [takeFirst_script distinct]
  dsimp only
  rw [takeFirst_region]
  dsimp only
  rw [Subtag.readAll?_spellings]
  simp only [kept]

theorem ofSubtags_of_mimicsScript {locale : Locale} (mimics : locale.MimicsScript) :
    ofSubtags (locale.subtags.map String.toList) ≠ .ok locale := by
  intro accepted
  obtain ⟨noScript, noRegion, variant, first, letters⟩ := mimics
  obtain ⟨afterLanguage, _, _, _, language, script, _⟩ := parts_of_ofSubtags accepted
  have tail : afterLanguage = locale.variants.map Subtag.spelling := by
    rw [subtags_spellings, Subtag.takeFirst, Subtag.read?_spelling, noScript, noRegion] at language
    exact (Prod.mk.inj language).2.symm
  obtain ⟨others, shape⟩ := List.head?_eq_some_iff.mp first
  cases found : Subtag.read? .script variant.spelling with
  | none =>
    rw [Subtag.read?_eq_none_iff, letters] at found
    cases found
  | some subtag =>
    rw [tail, shape, noScript, List.map_cons, Subtag.takeFirst, found] at script
    cases script

theorem parse_eq_ok_iff {raw : String} {locale : Locale} :
    parse raw = .ok locale ↔ read raw = .ok locale := by
  cases outcome : read raw <;> simp [parse, outcome, Except.mapError]

/-- A canonical tag with white space at its end does not come back, because the tag that
reading sees is shorter. -/
theorem read_canonical_of_endsBlank {raw : String} {locale : Locale}
    (accepted : read raw = .ok locale) (ends : locale.EndsBlank) :
    read locale.canonical ≠ .ok locale := by
  intro again
  obtain ⟨c, last, blank⟩ := ends
  have shorter := Text.length_trim_lt last blank
  have trimmed := (Text.trim_isInfix (Text.trim locale.canonical.toList)).length_le
  have enough := length_canonical_le again
  rw [tagPart_of_mark_notMem fun _ mark => mark_notMem_canonical accepted mark] at enough
  omega

/-- A canonical tag without white space at its end is split into the subtags that it was
joined from. -/
theorem read_canonical {raw : String} {locale : Locale} (accepted : read raw = .ok locale)
    (ends : ¬ locale.EndsBlank) :
    read locale.canonical = ofSubtags (locale.subtags.map String.toList) := by
  obtain ⟨first, rest, shape, letter⟩ := locale.canonical_eq_cons
  have trimmed : Text.trim locale.canonical.toList = locale.canonical.toList := by
    apply Text.trim_eq_self
    · intro c first
      rw [shape] at first
      cases first
      exact Text.isBlank_of_isAlpha letter
    · intro c last
      exact Bool.eq_false_of_not_eq_true fun blank => ends ⟨c, last, blank⟩
  have whole : tagPart locale.canonical.toList = locale.canonical.toList := by
    rw [tagPart_of_mark_notMem fun _ mark => mark_notMem_canonical accepted mark, trimmed, trimmed]
  rw [read, whole, ← splitOn_canonical, shape]

/-- **A canonical tag reads back**, unless a variant gets lost in it. -/
theorem parse_canonical_iff {raw : String} {locale : Locale} (accepted : parse raw = .ok locale) :
    parse locale.canonical = .ok locale ↔ ¬ locale.MimicsScript ∧ ¬ locale.EndsBlank := by
  rw [parse_eq_ok_iff] at accepted ⊢
  constructor
  · intro again
    have ends : ¬ locale.EndsBlank := fun ends => read_canonical_of_endsBlank accepted ends again
    rw [read_canonical accepted ends] at again
    exact ⟨fun mimics => ofSubtags_of_mimicsScript mimics again, ends⟩
  · intro ⟨distinct, ends⟩
    rw [read_canonical accepted ends]
    exact ofSubtags_of_not_mimicsScript distinct

theorem parse_canonical_slovene :
    ∃ locale, parse " SL_rozaj_Nedis.UTF-8" = .ok locale ∧
      locale.canonical = "sl-nedis-rozaj" ∧ parse locale.canonical = .ok locale := by
  let slovene : Locale := { english with
    language := ⟨"sl", by decide, by decide⟩
    variants := [⟨"nedis", by decide, by decide⟩, ⟨"rozaj", by decide, by decide⟩]
    increasing := List.pairwise_pair.mpr (by decide) }
  have accepted : parse " SL_rozaj_Nedis.UTF-8" = .ok slovene := by decide +kernel
  have last : slovene.canonical.toList.getLast? = some 'j' := by decide +kernel
  refine ⟨slovene, accepted, by decide +kernel, (parse_canonical_iff accepted).mpr ⟨?_, ?_⟩⟩
  · intro ⟨_, _, variant, first, letters⟩
    cases first
    exact absurd letters (by decide)
  · intro ⟨c, ends, blank⟩
    rw [last] at ends
    cases ends
    exact absurd blank (by decide)

/-- A variant of four letters comes back as a script when it moves right behind the
language, and white space at the end of the last variant is cut off. -/
theorem canonical_not_reread :
    (∃ locale other, parse "en-rozaj-latn" = .ok locale ∧ locale.canonical = "en-latn-rozaj" ∧
      parse "en-latn-rozaj" = .ok other ∧ other.canonical = "en-Latn-rozaj" ∧ other ≠ locale) ∧
    ∃ locale, parse "en-9ab -0abc" = .ok locale ∧ locale.canonical = "en-0abc-9ab " ∧
      parse "en-0abc-9ab " = .error (.invalidLocale "en-0abc-9ab " .subtag) := by
  let rozaj : Subtag .variant := ⟨"rozaj", by decide, by decide⟩
  let latn : Locale := { english with
    variants := [⟨"latn", by decide, by decide⟩, rozaj]
    increasing := List.pairwise_pair.mpr (by decide) }
  let latin : Locale := { english with
    script := some ⟨"Latn", by decide, by decide⟩
    variants := [rozaj]
    increasing := List.pairwise_singleton _ _ }
  let blank : Locale := { english with
    variants := [⟨"0abc", by decide, by decide⟩, ⟨"9ab ", by decide, by decide⟩]
    increasing := List.pairwise_pair.mpr (by decide) }
  have moved : parse "en-rozaj-latn" = .ok latn ∧ latn.canonical = "en-latn-rozaj" ∧
      parse "en-latn-rozaj" = .ok latin ∧ latin.canonical = "en-Latn-rozaj" ∧ latin ≠ latn := by
    decide +kernel
  have cut : parse "en-9ab -0abc" = .ok blank ∧ blank.canonical = "en-0abc-9ab " ∧
      parse "en-0abc-9ab " = .error (.invalidLocale "en-0abc-9ab " .subtag) := by
    decide +kernel
  exact ⟨⟨latn, latin, moved⟩, blank, cut⟩

end Locale

end Phrasebook
