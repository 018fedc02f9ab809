import Mathlib.Data.List.Nodup
import Phrasebook.File.Folder
import Phrasebook.Proofs.File.Path
import Phrasebook.Proofs.Locale.Canonical
import Phrasebook.Proofs.Ordered
import Phrasebook.Proofs.Outcome

/-! # Loading a folder file by file

A folder is loaded as its catalogue files are, one by one in the order of their names
(`Phrasebook.File.loadFolder_file_by_file`): with what they hold when each of them can be
loaded by its path and no locale comes twice, and else with the failure of the first file that
cannot be loaded or brings a locale again. In what order the folder lists its files does not
matter (`Phrasebook.File.candidates_eq_of_perm`).
-/

namespace Phrasebook.File

/-- The locale that the name of a catalogue file stands for. -/
def Names (name : String) (locale : Locale) : Prop :=
  ∃ front format, Splits name front format ∧ Locale.parse front = .ok locale

/-- Why a catalogue file of a folder cannot be loaded by itself: the front of its name is no
locale, its bytes are no text, or its text is no catalogue. -/
inductive Unusable (folder : Folder) (path name : String) : Error → Prop
  | stem {front : String} {format : Format} {cause : Error} (splits : Splits name front format)
      (invalid : Locale.parse front = .error cause) : Unusable folder path name cause
  | unreadable {locale : Locale} (names : Names name locale)
      (listed : (name, Tree.file none) ∈ folder) :
      Unusable folder path name (.file (join path name) .unreadable)
  | content {front text : String} {format : Format} {locale : Locale} {cause : Error}
      (splits : Splits name front format) (valid : Locale.parse front = .ok locale)
      (listed : (name, Tree.file (some text)) ∈ folder)
      (refused : format.parse (join path name) text = .error cause) :
      Unusable folder path name cause

/-- Files that are loaded by their paths, with the locales and the catalogues that they give;
no two of the locales have one canonical tag. -/
structure Loads (disk : Disk) (path : String) (files : List String)
    (loaded : List (Locale × Catalogue)) : Prop where
  each : List.Forall₂ (fun name pair => load disk (join path name) = .ok pair) files loaded
  distinct : (loaded.map fun pair => pair.1.canonical).Nodup

namespace Candidate

/-- What a candidate gives by itself. -/
def load (path : String) (candidate : Candidate) : Except Error (Locale × Catalogue) := do
  let here := join path candidate.name
  let (locale, format) ← candidate.kind
  let some text := candidate.text | throw (.file here .unreadable)
  let catalogue ← format.parse here text
  pure (locale, catalogue)

/-- A candidate brings a locale that has been loaded already. -/
def Repeats (candidate : Candidate) (loaded : List (Locale × Catalogue)) (locale : Locale) : Prop :=
  (∃ format, candidate.kind = .ok (locale, format)) ∧ locale ∈ loaded.map Prod.fst

/-- Why a candidate is not loaded behind others. -/
def Refuses (path : String) (loaded : List (Locale × Catalogue)) (candidate : Candidate)
    (cause : Error) : Prop :=
  (∃ locale, candidate.Repeats loaded locale ∧
      cause = .file (join path candidate.name) (.repeatedLocale locale)) ∨
    (∀ locale, ¬ candidate.Repeats loaded locale) ∧ candidate.load path = .error cause

end Candidate

namespace Candidate

variable {path : String} {loaded : List (Locale × Catalogue)} {candidate : Candidate}

theorem load_eq_ok_iff {pair : Locale × Catalogue} : candidate.load path = .ok pair ↔
    ∃ format text, candidate.kind = .ok (pair.1, format) ∧ candidate.text = some text ∧
      format.parse (join path candidate.name) text = .ok pair.2 := by
  unfold load
  refine Outcome.bind_eq_ok_iff.trans ⟨?_, ?_⟩
  · intro ⟨(locale, format), said, done⟩
    cases readable : candidate.text with
    | none =>
      rw [readable] at done
      cases done
    | some text =>
      rw [readable] at done
      obtain ⟨catalogue, parsed, made⟩ := Outcome.bind_eq_ok_iff.mp done
      cases made
      exact ⟨format, text, said, rfl, parsed⟩
  · intro ⟨format, text, said, readable, parsed⟩
    refine ⟨_, said, ?_⟩
    rw [readable]
    exact Outcome.bind_eq_ok_iff.mpr ⟨pair.2, parsed, rfl⟩

theorem load_eq_error_iff {cause : Error} : candidate.load path = .error cause ↔
    candidate.kind = .error cause ∨
      ∃ locale format, candidate.kind = .ok (locale, format) ∧
        (candidate.text = none ∧ cause = .file (join path candidate.name) .unreadable ∨
          ∃ text, candidate.text = some text ∧
            format.parse (join path candidate.name) text = .error cause) := by
  unfold load
  refine Outcome.bind_eq_error_iff.trans (or_congr_right ⟨?_, ?_⟩)
  · intro ⟨(locale, format), said, failed⟩
    refine ⟨locale, format, said, ?_⟩
    cases readable : candidate.text with
    | none =>
      rw [readable] at failed
      cases failed
      exact .inl ⟨rfl, rfl⟩
    | some text =>
      rw [readable] at failed
      rcases Outcome.bind_eq_error_iff.mp failed with refused | ⟨_, _, made⟩
      · exact .inr ⟨text, rfl, refused⟩
      · cases made
  · intro ⟨locale, format, said, why⟩
    refine ⟨_, said, ?_⟩
    rcases why with ⟨unreadable, rfl⟩ | ⟨text, readable, refused⟩
    · rw [unreadable]
      rfl
    · rw [readable]
      exact Outcome.bind_eq_error_iff.mpr (.inl refused)

/-- A candidate that can be loaded brings the locale that it is loaded with. -/
theorem repeats_iff_of_load {pair : Locale × Catalogue} (done : candidate.load path = .ok pair)
    {locale : Locale} :
    candidate.Repeats loaded locale ↔ locale = pair.1 ∧ pair.1 ∈ loaded.map Prod.fst := by
  obtain ⟨format, _, said, _⟩ := load_eq_ok_iff.mp done
  unfold Repeats
  rw [said]
  refine ⟨?_, ?_⟩
  · intro ⟨⟨_, same⟩, earlier⟩
    cases same
    exact ⟨rfl, earlier⟩
  · intro ⟨same, earlier⟩
    exact ⟨⟨format, by rw [same]⟩, same ▸ earlier⟩

theorem Repeats.unique {locale other : Locale} (repeats : candidate.Repeats loaded locale)
    (again : candidate.Repeats loaded other) : locale = other := by
  obtain ⟨⟨_, said⟩, _⟩ := repeats
  obtain ⟨⟨_, saidAgain⟩, _⟩ := again
  cases said.symm.trans saidAgain
  rfl

end Candidate

section Steps

variable {path : String} {loaded : List (Locale × Catalogue)} {candidate : Candidate}
  {rest : List Candidate}

theorem loadAll_cons_of_repeats {locale : Locale} (repeats : candidate.Repeats loaded locale) :
    loadAll path loaded (candidate :: rest) =
      .error (.file (join path candidate.name) (.repeatedLocale locale)) := by
  obtain ⟨⟨format, kind⟩, earlier⟩ := repeats
  have again : (loaded.any fun other => other.1 == locale) = true := by
    obtain ⟨pair, member, same⟩ := List.mem_map.mp earlier
    exact List.any_eq_true.mpr ⟨pair, member, beq_iff_eq.mpr same⟩
  rw [loadAll, kind]
  dsimp only [bind, Except.bind]
  rw [if_pos again]
  rfl

theorem loadAll_cons_of_fresh (fresh : ∀ locale, ¬ candidate.Repeats loaded locale) :
    loadAll path loaded (candidate :: rest) =
      candidate.load path >>= fun pair => loadAll path (loaded ++ [pair]) rest := by
  obtain ⟨name, kind, text⟩ := candidate
  rw [loadAll, Candidate.load]
  cases kind with
  | error cause => rfl
  | ok said =>
    obtain ⟨locale, format⟩ := said
    have first : ¬ (loaded.any fun other => other.1 == locale) = true := by
      intro again
      obtain ⟨pair, member, same⟩ := List.any_eq_true.mp again
      exact fresh locale ⟨⟨format, rfl⟩, List.mem_map.mpr ⟨pair, member, beq_iff_eq.mp same⟩⟩
    dsimp only [bind, Except.bind]
    rw [if_neg first]
    cases text with
    | none => rfl
    | some text =>
      dsimp only
      cases format.parse (join path name) text <;> rfl

theorem loadAll_cons_eq_ok_iff {result : List (Locale × Catalogue)} :
    loadAll path loaded (candidate :: rest) = .ok result ↔
      ∃ pair, candidate.load path = .ok pair ∧ pair.1 ∉ loaded.map Prod.fst ∧
        loadAll path (loaded ++ [pair]) rest = .ok result := by
  by_cases repeats : ∃ locale, candidate.Repeats loaded locale
  · obtain ⟨locale, repeats⟩ := repeats
    rw [loadAll_cons_of_repeats repeats]
    refine ⟨fun done => (by cases done), ?_⟩
    intro ⟨pair, done, fresh, _⟩
    exact absurd ((Candidate.repeats_iff_of_load done).mp repeats).2 fresh
  · have fresh := not_exists.mp repeats
    rw [loadAll_cons_of_fresh fresh, Outcome.bind_eq_ok_iff]
    refine exists_congr fun pair => and_congr_right fun done => ?_
    have new : pair.1 ∉ loaded.map Prod.fst := fun again =>
      fresh pair.1 ((Candidate.repeats_iff_of_load done).mpr ⟨rfl, again⟩)
    exact ⟨fun goesOn => ⟨new, goesOn⟩, And.right⟩

theorem loadAll_cons_eq_error_iff {cause : Error} :
    loadAll path loaded (candidate :: rest) = .error cause ↔
      candidate.Refuses path loaded cause ∨
        ∃ pair, candidate.load path = .ok pair ∧ pair.1 ∉ loaded.map Prod.fst ∧
          loadAll path (loaded ++ [pair]) rest = .error cause := by
  by_cases repeats : ∃ locale, candidate.Repeats loaded locale
  · obtain ⟨locale, repeats⟩ := repeats
    rw [loadAll_cons_of_repeats repeats]
    refine ⟨?_, ?_⟩
    · intro failed
      cases failed
      exact .inl (.inl ⟨locale, repeats, rfl⟩)
    · rintro ((⟨other, again, rfl⟩ | ⟨fresh, _⟩) | ⟨pair, done, fresh, _⟩)
      · rw [Candidate.Repeats.unique repeats again]
      · exact absurd repeats (fresh locale)
      · exact absurd ((Candidate.repeats_iff_of_load done).mp repeats).2 fresh
  · have fresh := not_exists.mp repeats
    rw [loadAll_cons_of_fresh fresh, Outcome.bind_eq_error_iff]
    refine or_congr ⟨?_, ?_⟩ (exists_congr fun pair => and_congr_right fun done => ?_)
    · exact fun failed => .inr ⟨fresh, failed⟩
    · rintro (⟨locale, again, _⟩ | ⟨_, failed⟩)
      · exact absurd again (fresh locale)
      · exact failed
    · have new : pair.1 ∉ loaded.map Prod.fst := fun again =>
        fresh pair.1 ((Candidate.repeats_iff_of_load done).mpr ⟨rfl, again⟩)
      exact ⟨fun goesOn => ⟨new, goesOn⟩, And.right⟩

end Steps

/-- A locale may come last exactly when it has not come before. -/
theorem nodup_concat_iff {loaded : List (Locale × Catalogue)}
    (distinct : (loaded.map Prod.fst).Nodup) {pair : Locale × Catalogue} :
    ((loaded ++ [pair]).map Prod.fst).Nodup ↔ pair.1 ∉ loaded.map Prod.fst := by
  rw [List.map_append, List.map_singleton, List.nodup_append_comm, List.singleton_append,
    List.nodup_cons]
  exact and_iff_left distinct

/-- Catalogue files are loaded behind others when each of them can be loaded and no locale
comes twice. -/
theorem loadAll_eq_ok_iff {path : String} {files : List Candidate}
    {loaded result : List (Locale × Catalogue)} (distinct : (loaded.map Prod.fst).Nodup) :
    loadAll path loaded files = .ok result ↔ ∃ added, result = loaded ++ added ∧
      List.Forall₂ (fun candidate pair => candidate.load path = .ok pair) files added ∧
      (result.map Prod.fst).Nodup := by
  induction files generalizing loaded with
  | nil =>
    rw [loadAll]
    refine ⟨?_, ?_⟩
    · intro done
      cases done
      exact ⟨[], (List.append_nil _).symm, .nil, distinct⟩
    · rintro ⟨added, rfl, each, _⟩
      cases each
      rw [List.append_nil]
  | cons candidate rest ih =>
    rw [loadAll_cons_eq_ok_iff]
    refine ⟨?_, ?_⟩
    · intro ⟨pair, first, fresh, goesOn⟩
      obtain ⟨added, same, each, unrepeated⟩ :=
        (ih ((nodup_concat_iff distinct).mpr fresh)).mp goesOn
      refine ⟨pair :: added, ?_, .cons first each, unrepeated⟩
      rw [same, List.append_assoc, List.singleton_append]
    · rintro ⟨added, rfl, each, unrepeated⟩
      cases each with
      | @cons _ pair _ more first later =>
        rw [List.append_cons] at unrepeated
        have upTo : ((loaded ++ [pair]).map Prod.fst).Nodup :=
          unrepeated.sublist ((List.sublist_append_left _ more).map _)
        refine ⟨pair, first, (nodup_concat_iff distinct).mp upTo, ?_⟩
        exact (ih upTo).mpr ⟨more, List.append_cons .., later, List.append_cons .. ▸ unrepeated⟩

/-- Loading catalogue files fails at the first file that is refused behind those before it. -/
theorem loadAll_eq_error_iff {path : String} {files : List Candidate}
    {loaded : List (Locale × Catalogue)} {cause : Error} (distinct : (loaded.map Prod.fst).Nodup) :
    loadAll path loaded files = .error cause ↔ ∃ before candidate after added,
      files = before ++ candidate :: after ∧
      List.Forall₂ (fun candidate pair => candidate.load path = .ok pair) before added ∧
      ((loaded ++ added).map Prod.fst).Nodup ∧ candidate.Refuses path (loaded ++ added) cause := by
  induction files generalizing loaded with
  | nil =>
    rw [loadAll]
    refine ⟨fun failed => (by cases failed), ?_⟩
    intro ⟨before, _, _, _, parts, _⟩
    exact absurd parts.symm (List.append_ne_nil_of_right_ne_nil before (List.cons_ne_nil _ _))
  | cons candidate rest ih =>
    rw [loadAll_cons_eq_error_iff]
    refine ⟨?_, ?_⟩
    · rintro (refused | ⟨pair, first, fresh, failed⟩)
      · refine ⟨[], candidate, rest, [], rfl, .nil, ?_, ?_⟩
        · rw [List.append_nil]
          exact distinct
        · rw [List.append_nil]
          exact refused
      · obtain ⟨before, other, after, added, rfl, each, unrepeated, refused⟩ :=
          (ih ((nodup_concat_iff distinct).mpr fresh)).mp failed
        rw [← List.append_cons] at unrepeated refused
        exact ⟨candidate :: before, other, after, pair :: added, rfl, .cons first each, unrepeated,
          refused⟩
    · intro ⟨before, other, after, added, parts, each, unrepeated, refused⟩
      cases each with
      | nil =>
        cases parts
        rw [List.append_nil] at refused
        exact .inl refused
      | @cons _ pair before more first later =>
        cases parts
        rw [List.append_cons] at unrepeated refused
        have upTo : ((loaded ++ [pair]).map Prod.fst).Nodup :=
          unrepeated.sublist ((List.sublist_append_left _ more).map _)
        refine .inr ⟨pair, first, (nodup_concat_iff distinct).mp upTo, ?_⟩
        exact (ih upTo).mpr ⟨before, other, after, more, rfl, later, unrepeated, refused⟩

theorem candidate?_eq_some_iff {entry : String × Tree} {candidate : Candidate} :
    candidate? entry = some candidate ↔
      entry = (candidate.name, .file candidate.text) ∧
        classify? candidate.name = some candidate.kind := by
  obtain ⟨name, tree⟩ := entry
  obtain ⟨own, kind, text⟩ := candidate
  cases tree with
  | file content =>
    simp only [candidate?, Option.map_eq_some_iff]
    grind
  | folder entries => simp [candidate?]

theorem name_candidates_sublist (folder : Folder) :
    ((folder.filterMap candidate?).map Candidate.name).Sublist (folder.map Prod.fst) := by
  induction folder with
  | nil => exact .slnil
  | cons entry rest ih =>
    rw [List.filterMap_cons]
    cases found : candidate? entry with
    | none => exact ih.cons entry.1
    | some candidate =>
      rw [(candidate?_eq_some_iff.mp found).1]
      exact ih.cons_cons candidate.name

/-- A catalogue file is loaded by its path as the candidate that it is in the folder around
it. -/
theorem load_of_parent {disk : Disk} {path name : String} {folder : Folder} (isName : IsName name)
    (around : disk.parent? (join path name) = some folder)
    {kind : Except Error (Locale × Format)} (said : classify? name = some kind) :
    load disk (join path name) = Candidate.load path ⟨name, kind, folder.text? name⟩ := by
  rw [load, isName.lastName?_join]
  dsimp only
  rw [around]
  dsimp only
  rw [said]
  rfl

section Candidates

variable {folder : Folder} (distinct : (folder.map Prod.fst).Nodup)
include distinct

theorem candidates_perm : (candidates folder).Perm (folder.filterMap candidate?) :=
  Ordered.ofList_perm (distinct.sublist (name_candidates_sublist folder))

theorem mem_candidates_iff {candidate : Candidate} : candidate ∈ candidates folder ↔
    (candidate.name, .file candidate.text) ∈ folder ∧
      classify? candidate.name = some candidate.kind := by
  rw [(candidates_perm distinct).mem_iff, List.mem_filterMap]
  refine ⟨?_, ?_⟩
  · intro ⟨entry, listed, made⟩
    obtain ⟨rfl, said⟩ := candidate?_eq_some_iff.mp made
    exact ⟨listed, said⟩
  · intro ⟨listed, said⟩
    exact ⟨_, listed, candidate?_eq_some_iff.mpr ⟨rfl, said⟩⟩

/-- The order in which a folder lists its names is forgotten. -/
theorem candidates_eq_of_perm {listing : Folder} (listed : listing.Perm folder) :
    candidates listing = candidates folder := by
  have distinctListing := (listed.map Prod.fst).nodup_iff.mpr distinct
  have increasing (folder : Folder) : Ordered.Increasing Candidate.name (candidates folder) :=
    Ordered.increasing_ofList _
  refine (increasing listing).eq_of_perm (increasing folder) ?_
  exact ((candidates_perm distinctListing).trans (listed.filterMap candidate?)).trans
    (candidates_perm distinct).symm

/-- A catalogue file of a folder is loaded by its path as it is loaded with the folder. -/
theorem load_join {disk : Disk} {path : String} (opened : disk.open? path = some folder)
    {candidate : Candidate} (member : candidate ∈ candidates folder)
    (noSlash : '/' ∉ candidate.name.toList) :
    load disk (join path candidate.name) = candidate.load path := by
  obtain ⟨listed, said⟩ := (mem_candidates_iff distinct).mp member
  obtain ⟨_, _, splits, _⟩ := classify?_eq_some_iff.mp said
  have isName := splits.isName noSlash
  have nonempty : path ≠ "" := by
    intro empty
    rw [empty] at opened
    cases opened
  have around : disk.parent? (join path candidate.name) = some folder := by
    rw [Disk.parent?, Disk.partsOf, parts_absolute_join nonempty isName, List.dropLast_concat]
    rw [Disk.open?, if_neg (mt String.isEmpty_iff.mp nonempty)] at opened
    exact opened
  have content : folder.text? candidate.name = candidate.text := by
    rw [Folder.text?, Folder.content?, (Ordered.lookup_eq_some_iff_mem distinct).mpr listed]
    rfl
  rw [load_of_parent isName around said, content]

/-- A catalogue file that cannot be loaded is unusable for one of three reasons. -/
theorem load_eq_error_iff_unusable {path : String} {candidate : Candidate}
    (member : candidate ∈ candidates folder) {cause : Error} :
    candidate.load path = .error cause ↔ Unusable folder path candidate.name cause := by
  obtain ⟨listed, said⟩ := (mem_candidates_iff distinct).mp member
  have kind_eq {front : String} {format : Format} (splits : Splits candidate.name front format) :
      candidate.kind = (Locale.parse front).map (·, format) :=
    Option.some.inj (said.symm.trans (classify?_eq_some_iff.mpr ⟨front, format, splits, rfl⟩))
  have text_eq {text : Option String} (also : (candidate.name, .file text) ∈ folder) :
      candidate.text = text := by
    have first := (Ordered.lookup_eq_some_iff_mem distinct).mpr listed
    have again := (Ordered.lookup_eq_some_iff_mem distinct).mpr also
    exact Tree.file.inj (Option.some.inj (first.symm.trans again))
  rw [Candidate.load_eq_error_iff]
  refine ⟨?_, ?_⟩
  · obtain ⟨front, format, splits, kind⟩ := classify?_eq_some_iff.mp said
    rw [kind]
    cases parsed : Locale.parse front with
    | error fault =>
      rintro (invalid | ⟨_, _, valid, _⟩)
      · cases invalid
        exact .stem splits parsed
      · cases valid
    | ok locale =>
      rintro (invalid | ⟨_, _, valid, unreadable | refused⟩)
      · cases invalid
      · obtain ⟨none, rfl⟩ := unreadable
        exact .unreadable ⟨front, format, splits, parsed⟩ (none ▸ listed)
      · obtain ⟨text, readable, refused⟩ := refused
        cases valid
        exact .content splits parsed (readable ▸ listed) refused
  · intro unusable
    cases unusable with
    | stem splits invalid =>
      rw [kind_eq splits, invalid]
      exact .inl rfl
    | unreadable names none =>
      obtain ⟨front, format, splits, valid⟩ := names
      rw [kind_eq splits, valid]
      exact .inr ⟨_, _, rfl, .inl ⟨text_eq none, rfl⟩⟩
    | content splits valid readable refused =>
      rw [kind_eq splits, valid]
      exact .inr ⟨_, _, rfl, .inr ⟨_, text_eq readable, refused⟩⟩

end Candidates

theorem exists_kind_iff_names {candidate : Candidate}
    (said : classify? candidate.name = some candidate.kind) {locale : Locale} :
    (∃ format, candidate.kind = .ok (locale, format)) ↔ Names candidate.name locale := by
  refine ⟨?_, ?_⟩
  · intro ⟨format, kind⟩
    obtain ⟨front, format, splits, same⟩ := classify?_eq_some_iff.mp said
    rw [kind] at same
    cases parsed : Locale.parse front with
    | error fault =>
      rw [parsed] at same
      cases same
    | ok other =>
      rw [parsed] at same
      cases same
      exact ⟨front, _, splits, parsed⟩
  · intro ⟨front, format, splits, valid⟩
    have same := said.symm.trans (classify?_eq_some_iff.mpr ⟨front, format, splits, rfl⟩)
    rw [valid] at same
    exact ⟨format, Option.some.inj same⟩

/-- Why a candidate is refused can be said of its name. -/
theorem refuses_iff_names {path : String} {loaded : List (Locale × Catalogue)}
    {candidate : Candidate} (said : classify? candidate.name = some candidate.kind)
    {cause : Error} : candidate.Refuses path loaded cause ↔
      (∃ locale ∈ loaded.map Prod.fst, Names candidate.name locale ∧
          cause = .file (join path candidate.name) (.repeatedLocale locale)) ∨
        (∀ locale ∈ loaded.map Prod.fst, ¬ Names candidate.name locale) ∧
          candidate.load path = .error cause := by
  simp only [Candidate.Refuses, Candidate.Repeats, exists_kind_iff_names said]
  refine or_congr (exists_congr fun locale => ?_)
    (and_congr_left fun _ => forall_congr' fun _ => ?_)
  · rw [and_left_comm, and_assoc]
  · rw [not_and']

/-- Loading files by their paths is loading them as candidates. -/
theorem loads_names_iff {disk : Disk} {path : String} {files : List Candidate}
    (alone : ∀ candidate ∈ files, load disk (join path candidate.name) = candidate.load path)
    {loaded : List (Locale × Catalogue)} :
    Loads disk path (files.map Candidate.name) loaded ↔
      List.Forall₂ (fun candidate pair => candidate.load path = .ok pair) files loaded ∧
        (loaded.map Prod.fst).Nodup := by
  have tags : (loaded.map fun pair => pair.1.canonical).Nodup ↔ (loaded.map Prod.fst).Nodup := by
    rw [← List.nodup_map_iff Locale.canonical_injective, List.map_map]
    rfl
  have each : List.Forall₂ (fun name pair => load disk (join path name) = .ok pair)
      (files.map Candidate.name) loaded ↔
      List.Forall₂ (fun candidate pair => candidate.load path = .ok pair) files loaded := by
    rw [List.forall₂_map_left_iff]
    exact Related.congr_left fun candidate member pair => by rw [alone candidate member]
  rw [← tags, ← each]
  exact ⟨fun loads => ⟨loads.each, loads.distinct⟩, fun ⟨each, distinct⟩ => ⟨each, distinct⟩⟩

/-- An outcome is that of loading the catalogue files of a folder one after another. The
files that count are those whose names end in a format in some case, in the order of their
names. The outcome is what they give when they are loaded by their paths, if they all can be
and no two have one canonical tag. Else it is the failure of the first file that names a locale
of an earlier one, or that cannot be loaded itself, and then fails for the same reason. -/
structure FileByFile (disk : Disk) (path : String) (folder : Folder) (files : List String)
    (outcome : Except Error (List (Locale × Catalogue))) : Prop where
  increasing : Ordered.Increasing id files
  counted : ∀ name, name ∈ files ↔
    (∃ text, (name, Tree.file text) ∈ folder) ∧ ∃ front format, Splits name front format
  succeeds : ∀ loaded, outcome = .ok loaded ↔ Loads disk path files loaded
  fails : ∀ cause, outcome = .error cause ↔
    ∃ before name after loaded, files = before ++ name :: after ∧ Loads disk path before loaded ∧
      ((∃ locale ∈ loaded.map Prod.fst, Names name locale ∧
          cause = .file (join path name) (.repeatedLocale locale)) ∨
        (∀ locale ∈ loaded.map Prod.fst, ¬ Names name locale) ∧
          load disk (join path name) = .error cause)
  reasons : ∀ name ∈ files, ∀ cause,
    load disk (join path name) = .error cause ↔ Unusable folder path name cause

/-- **A folder is loaded file by file,** whatever order it lists its names in. -/
theorem loadFolder_file_by_file {disk : Disk} {path : String} {folder listing : Folder}
    (opened : disk.open? path = some folder) (distinct : (folder.map Prod.fst).Nodup)
    (noSlash : ∀ entry ∈ folder, '/' ∉ entry.1.toList) (listed : listing.Perm folder) :
    ∃ files, FileByFile disk path folder files (loadFolder path (some listing)) := by
  have said {candidate : Candidate} (member : candidate ∈ candidates folder) :=
    (mem_candidates_iff distinct).mp member
  have alone {candidate : Candidate} (member : candidate ∈ candidates folder) :=
    load_join distinct opened member (noSlash _ (said member).1)
  have unloaded : (([] : List (Locale × Catalogue)).map Prod.fst).Nodup := List.nodup_nil
  rw [loadFolder, candidates_eq_of_perm distinct listed]
  refine ⟨(candidates folder).map Candidate.name, ?_, ?_, ?_, ?_, ?_⟩
  · exact List.pairwise_map.mpr (Ordered.increasing_ofList _)
  · intro name
    rw [List.mem_map]
    refine ⟨?_, ?_⟩
    · rintro ⟨candidate, member, rfl⟩
      obtain ⟨listed, said⟩ := said member
      obtain ⟨front, format, splits, _⟩ := classify?_eq_some_iff.mp said
      exact ⟨⟨_, listed⟩, front, format, splits⟩
    · intro ⟨⟨text, listed⟩, front, format, splits⟩
      have said := classify?_eq_some_iff.mpr ⟨front, format, splits, rfl⟩
      exact ⟨⟨name, _, text⟩, (mem_candidates_iff distinct).mpr ⟨listed, said⟩, rfl⟩
  · intro loaded
    rw [loads_names_iff fun _ => alone, loadAll_eq_ok_iff unloaded]
    simp only [List.nil_append, exists_eq_left']
  · intro cause
    rw [loadAll_eq_error_iff unloaded]
    simp only [List.nil_append]
    refine ⟨?_, ?_⟩
    · intro ⟨before, candidate, after, added, parts, each, unrepeated, refused⟩
      have within : ∀ file ∈ before ++ candidate :: after, file ∈ candidates folder :=
        fun _ member => parts ▸ member
      obtain ⟨early, here⟩ := List.forall_mem_append.mp within
      have member := here candidate List.mem_cons_self
      refine ⟨before.map Candidate.name, candidate.name, after.map Candidate.name, added,
        ?_, ?_, ?_⟩
      · rw [parts, List.map_append, List.map_cons]
      · exact (loads_names_iff fun _ member => alone (early _ member)).mpr ⟨each, unrepeated⟩
      · rw [alone member]
        exact (refuses_iff_names (said member).2).mp refused
    · intro ⟨before, name, after, added, parts, loads, refused⟩
      obtain ⟨front, back, shape, rfl, rest⟩ := List.map_eq_append_iff.mp parts
      obtain ⟨candidate, later, rfl, rfl, rfl⟩ := List.map_eq_cons_iff.mp rest
      have within : ∀ file ∈ front ++ candidate :: later, file ∈ candidates folder :=
        fun _ member => shape ▸ member
      obtain ⟨early, here⟩ := List.forall_mem_append.mp within
      have member := here candidate List.mem_cons_self
      obtain ⟨each, unrepeated⟩ :=
        (loads_names_iff fun _ member => alone (early _ member)).mp loads
      rw [alone member] at refused
      exact ⟨front, candidate, later, added, shape, each, unrepeated,
        (refuses_iff_names (said member).2).mpr refused⟩
  · intro name present cause
    obtain ⟨candidate, member, rfl⟩ := List.mem_map.mp present
    rw [alone member]
    exact load_eq_error_iff_unusable distinct member

/-- A folder with two files for one locale, a file of another kind and a folder, listed from
the last name to the first. -/
theorem loadFolder_file_by_file_words :
    let folder : Folder := [("de_at.JSON", .file (some "\x7b\x7d")), ("de-AT.toml", .file none),
      ("fr.json", .folder []), ("notes.txt", .file none)]
    let disk : Disk := ⟨[("words", .folder folder)], "/"⟩
    disk.open? "words" = some folder ∧ (folder.map Prod.fst).Nodup ∧
      (∀ entry ∈ folder, '/' ∉ entry.1.toList) ∧ folder.reverse.Perm folder ∧
      ∃ files, FileByFile disk "words" folder files (loadFolder "words" (some folder.reverse)) := by
  intro folder disk
  have parts : disk.partsOf "words" = ["words"] := by decide +kernel
  have opened : disk.open? "words" = some folder := by
    rw [Disk.open?, parts, if_neg (by decide)]
    rfl
  have distinct : (folder.map Prod.fst).Nodup := by decide
  have noSlash : ∀ entry ∈ folder, '/' ∉ entry.1.toList := by decide
  have listed : folder.reverse.Perm folder := List.reverse_perm folder
  exact ⟨opened, distinct, noSlash, listed, loadFolder_file_by_file opened distinct noSlash listed⟩

end Phrasebook.File
