import Phrasebook.Inspection.Run
import Phrasebook.Proofs.Outcome

/-! # Options in place of settings

Three of the settings have an option on the command line that is used in their place
(`Phrasebook.Inspection.given`). Surroundings may differ in the values that they give to such a
setting (`Phrasebook.Inspection.DifferOnlyIn`). As settings are read before any option is looked
at, a value that its field does not take is refused even when an option stands for it; among
the values that are taken, and among those that are not, the option hides the difference
(`Phrasebook.Inspection.settings_agree_iff`).
-/

namespace Phrasebook

namespace Settings

/-- The settings, one by one. -/
inductive Field
  | fallback
  | active
  | folder
  | escaping
deriving DecidableEq

namespace Field

/-- The name of a setting in files and in the environment. -/
def name : Field → String
  | .fallback => "default_locale"
  | .active => "active_locale"
  | .folder => "catalog_dir"
  | .escaping => "escaping"

/-- Whether a setting takes a value. -/
def takes : Field → Option Document → Bool
  | .fallback, value => (withDefault? .english locale? value).isSome
  | .active, value => (optional? locale? value).isSome
  | .folder, value => (optional? text? value).isSome
  | .escaping, value => (withDefault? .markup escaping? value).isSome

/-- Two starts of a translator agree in one setting. -/
def Same : Field → Settings → Settings → Prop
  | .fallback, first, second => first.fallback = second.fallback
  | .active, first, second => first.active = second.active
  | .folder, first, second => first.folder = second.folder
  | .escaping, first, second => first.escaping = second.escaping

theorem name_injective : Function.Injective name := by
  intro first second same
  cases first <;> cases second <;> simp [name] at same ⊢

end Field

variable {value : String → Option Document} {settings : Settings}

theorem ofFields?_eq_some_iff :
    ofFields? value = some settings ↔
      withDefault? .english locale? (value Field.fallback.name) = some settings.fallback ∧
        optional? locale? (value Field.active.name) = some settings.active ∧
        optional? text? (value Field.folder.name) = some settings.folder ∧
        withDefault? .markup escaping? (value Field.escaping.name) = some settings.escaping := by
  constructor
  · intro read
    obtain ⟨fallback, first, read⟩ := Option.bind_eq_some_iff.mp read
    obtain ⟨active, second, read⟩ := Option.bind_eq_some_iff.mp read
    obtain ⟨folder, third, read⟩ := Option.bind_eq_some_iff.mp read
    obtain ⟨escaping, fourth, made⟩ := Option.bind_eq_some_iff.mp read
    cases made
    exact ⟨first, second, third, fourth⟩
  · rintro ⟨first, second, third, fourth⟩
    simp only [Field.name] at first second third fourth
    rw [ofFields?, first, second, third, fourth]
    rfl

/-- Settings are read when each of them takes its value. -/
theorem isSome_ofFields?_iff :
    (ofFields? value).isSome = true ↔ ∀ field : Field, field.takes (value field.name) = true := by
  constructor
  · intro read field
    obtain ⟨settings, read⟩ := Option.isSome_iff_exists.mp read
    obtain ⟨fallback, active, folder, escaping⟩ := ofFields?_eq_some_iff.mp read
    cases field with
    | fallback => exact Option.isSome_of_eq_some fallback
    | active => exact Option.isSome_of_eq_some active
    | folder => exact Option.isSome_of_eq_some folder
    | escaping => exact Option.isSome_of_eq_some escaping
  · intro taken
    obtain ⟨fallback, first⟩ := Option.isSome_iff_exists.mp (taken .fallback)
    obtain ⟨active, second⟩ := Option.isSome_iff_exists.mp (taken .active)
    obtain ⟨folder, third⟩ := Option.isSome_iff_exists.mp (taken .folder)
    obtain ⟨escaping, fourth⟩ := Option.isSome_iff_exists.mp (taken .escaping)
    have read : ofFields? value = some ⟨fallback, active, folder, escaping⟩ :=
      ofFields?_eq_some_iff.mpr ⟨first, second, third, fourth⟩
    exact Option.isSome_of_eq_some read

/-- A field with the same value has the same setting. -/
theorem same_of_ofFields? {others : String → Option Document} {other : Settings} {field : Field}
    (agree : value field.name = others field.name) (read : ofFields? value = some settings)
    (further : ofFields? others = some other) : field.Same settings other := by
  obtain ⟨fallback, active, folder, escaping⟩ := ofFields?_eq_some_iff.mp read
  obtain ⟨fallback', active', folder', escaping'⟩ := ofFields?_eq_some_iff.mp further
  cases field with
  | fallback => exact Option.some.inj (fallback.symm.trans (agree ▸ fallback'))
  | active => exact Option.some.inj (active.symm.trans (agree ▸ active'))
  | folder => exact Option.some.inj (folder.symm.trans (agree ▸ folder'))
  | escaping => exact Option.some.inj (escaping.symm.trans (agree ▸ escaping'))

/-- Two lists of fields give the same value to every field but one. -/
def AgreeBut (name : String) (first second : List (String × Document)) : Prop :=
  ∀ other, other ≠ name → first.lookup other = second.lookup other

end Settings

namespace Inspection

open Settings (Field AgreeBut environmentFields fileFields?)

/-- What the command line names in place of a setting. -/
def given : Field → CommandLine → Option String
  | .fallback, line => line.fallback
  | .active, line => line.command.locale
  | .folder, line => line.folder
  | .escaping, _ => none

namespace Surroundings

/-- The fields of the settings file that a command line names. -/
def file? (around : Surroundings) (line : CommandLine) : Option (List (String × Document)) :=
  fileFields? (line.config.bind around.content?)

/-- The value of a field, from the environment or else from the settings file. -/
def value? (around : Surroundings) (line : CommandLine) (name : String) : Option Document :=
  (around.file? line).bind fun fields =>
    (environmentFields around.environment ++ fields).lookup name

/-- The settings that are loaded before any option is looked at. -/
def loaded? (around : Surroundings) (line : CommandLine) : Option Settings :=
  (around.file? line).bind fun _ => Settings.ofFields? (around.value? line)

end Surroundings

/-- Two surroundings have the same folders, and their settings files and environments differ at
most in the values that they give to one field. -/
structure DifferOnlyIn (name : String) (line : CommandLine) (first second : Surroundings) :
    Prop where
  folders : first.openFolder? = second.openFolder?
  files : Option.Rel (AgreeBut name) (first.file? line) (second.file? line)
  environments : AgreeBut name (environmentFields first.environment)
    (environmentFields second.environment)

/-- The settings file is one, and all fields but one take their values. -/
structure OthersTaken (field : Field) (line : CommandLine) (around : Surroundings) : Prop where
  file : (around.file? line).isSome = true
  values : ∀ other, other ≠ field → other.takes (around.value? line other.name) = true

variable {field : Field} {line : CommandLine} {around first second : Surroundings}

theorem load_eq (line : CommandLine) (around : Surroundings) :
    Settings.load (line.config.bind around.content?) around.environment =
      match around.loaded? line with
      | some loaded => .ok loaded
      | none => .error .settings := by
  unfold Settings.load Surroundings.loaded? Surroundings.value? Surroundings.file?
  cases fileFields? (line.config.bind around.content?) <;> rfl

/-- Settings that cannot be loaded are refused, whatever the options are. -/
theorem settings_eq_of_none (refused : around.loaded? line = none) :
    settings line around = .error (.error .settings) := by
  rw [settings, load_eq, refused]
  rfl

theorem mapError_parse_ne (raw : String) :
    (Locale.parse raw).mapError Failure.error ≠ .error (.error .settings) := by
  intro failed
  obtain ⟨cause, failed, same⟩ := Outcome.mapError_eq_error_iff.mp failed
  cases same
  obtain ⟨fault, _, same⟩ := Outcome.mapError_eq_error_iff.mp failed
  cases same

/-- What is wrong with the options is not what is wrong with the settings. -/
theorem settings_ne_of_some {loaded : Settings} (read : around.loaded? line = some loaded) :
    settings line around ≠ .error (.error .settings) := by
  rw [settings, load_eq, read]
  intro failed
  obtain ⟨_, same, failed⟩ := (Outcome.bind_eq_error_iff.mp failed).resolve_left nofun
  cases same
  dsimp only at failed
  split at failed
  case' h_1 =>
    obtain ⟨fallback, _, failed⟩ :=
      (Outcome.bind_eq_error_iff.mp failed).resolve_left (mapError_parse_ne _)
  case' h_2 =>
    obtain ⟨fallback, _, failed⟩ := (Outcome.bind_eq_error_iff.mp failed).resolve_left nofun
  -- with a fallback locale at hand, the folder and the active locale remain to be chosen
  all_goals
    rcases Outcome.guard_eq_error_iff.mp failed with ⟨_, same⟩ | ⟨_, failed⟩
    · cases same
    · split at failed
      · obtain ⟨_, _, failed⟩ :=
          (Outcome.bind_eq_error_iff.mp failed).resolve_left (mapError_parse_ne _)
        cases failed
      · cases failed

/-- The options do not depend on a setting in whose place one of them stands. -/
theorem settings_congr (isGiven : (given field line).isSome = true) {loaded other : Settings}
    (same : ∀ remaining, remaining ≠ field → Field.Same remaining loaded other)
    (read : first.loaded? line = some loaded) (further : second.loaded? line = some other) :
    settings line first = settings line second := by
  obtain ⟨raw, isGiven⟩ := Option.isSome_iff_exists.mp isGiven
  rw [settings, settings, load_eq, load_eq, read, further]
  -- for each option, the three settings that are still read agree
  cases field with
  | escaping => cases isGiven
  | fallback =>
    have active : loaded.active = other.active := same .active nofun
    have folder : loaded.folder = other.folder := same .folder nofun
    have escaping : loaded.escaping = other.escaping := same .escaping nofun
    have isGiven : line.fallback = some raw := isGiven
    simp only [Except.mapError, isGiven, active, folder, escaping, bind, Except.bind]
  | active =>
    have fallback : loaded.fallback = other.fallback := same .fallback nofun
    have folder : loaded.folder = other.folder := same .folder nofun
    have escaping : loaded.escaping = other.escaping := same .escaping nofun
    have isGiven : line.command.locale = some raw := isGiven
    simp only [Except.mapError, isGiven, fallback, folder, escaping, bind, Except.bind]
  | folder =>
    have fallback : loaded.fallback = other.fallback := same .fallback nofun
    have active : loaded.active = other.active := same .active nofun
    have escaping : loaded.escaping = other.escaping := same .escaping nofun
    have isGiven : line.folder = some raw := isGiven
    simp [Except.mapError, isGiven, fallback, active, escaping, bind, Except.bind]

theorem isSome_loaded?_iff (field : Field) :
    (around.loaded? line).isSome = true ↔
      field.takes (around.value? line field.name) = true ∧ OthersTaken field line around := by
  constructor
  · intro read
    obtain ⟨loaded, read⟩ := Option.isSome_iff_exists.mp read
    obtain ⟨fields, isFile, read⟩ := Option.bind_eq_some_iff.mp read
    have taken := Settings.isSome_ofFields?_iff.mp (Option.isSome_of_eq_some read)
    exact ⟨taken field, Option.isSome_of_eq_some isFile, fun other _ => taken other⟩
  · rintro ⟨own, isFile, others⟩
    obtain ⟨fields, isFile⟩ := Option.isSome_iff_exists.mp isFile
    rw [Surroundings.loaded?, isFile, Option.bind_some, Settings.isSome_ofFields?_iff]
    intro other
    by_cases same : other = field
    · exact same ▸ own
    · exact others other same

namespace DifferOnlyIn

theorem file?_cases {name : String} (differ : DifferOnlyIn name line first second) :
    first.file? line = none ∧ second.file? line = none ∨
      ∃ own others, first.file? line = some own ∧ second.file? line = some others ∧
        AgreeBut name own others := by
  have files := differ.files
  revert files
  generalize first.file? line = own
  generalize second.file? line = others
  intro files
  cases files with
  | none => exact .inl ⟨rfl, rfl⟩
  | some agree => exact .inr ⟨_, _, rfl, rfl, agree⟩

theorem isSome_file?_eq {name : String} (differ : DifferOnlyIn name line first second) :
    (first.file? line).isSome = (second.file? line).isSome := by
  rcases differ.file?_cases with ⟨own, further⟩ | ⟨_, _, own, further, _⟩ <;> rw [own, further]
  rfl

/-- The other fields have the same values. -/
theorem value?_eq {name other : String} (differ : DifferOnlyIn name line first second)
    (different : other ≠ name) : first.value? line other = second.value? line other := by
  unfold Surroundings.value?
  rcases differ.file?_cases with ⟨own, further⟩ | ⟨_, _, own, further, agree⟩
  · rw [own, further]
    rfl
  · rw [own, further, Option.bind_some, Option.bind_some, List.lookup_append, List.lookup_append,
      differ.environments other different, agree other different]

theorem othersTaken_iff (differ : DifferOnlyIn field.name line first second) :
    OthersTaken field line first ↔ OthersTaken field line second := by
  have value (other : Field) (different : other ≠ field) :
      first.value? line other.name = second.value? line other.name :=
    differ.value?_eq (Field.name_injective.ne different)
  constructor
  · intro ⟨file, values⟩
    exact ⟨differ.isSome_file?_eq ▸ file, fun other different =>
      value other different ▸ values other different⟩
  · intro ⟨file, values⟩
    exact ⟨differ.isSome_file?_eq ▸ file, fun other different =>
      value other different ▸ values other different⟩

end DifferOnlyIn

/-- A difference shows where the settings are loaded in one of the surroundings only. -/
theorem settings_eq_iff (isGiven : (given field line).isSome = true)
    (differ : DifferOnlyIn field.name line first second) :
    settings line first = settings line second ↔
      (first.loaded? line).isSome = (second.loaded? line).isSome := by
  cases read : first.loaded? line with
  | none =>
    cases further : second.loaded? line with
    | none => simp [settings_eq_of_none read, settings_eq_of_none further]
    | some other =>
      rw [settings_eq_of_none read]
      simpa using (settings_ne_of_some further).symm
  | some loaded =>
    cases further : second.loaded? line with
    | none =>
      rw [settings_eq_of_none further]
      simpa using settings_ne_of_some read
    | some other =>
      have agree : ∀ remaining, remaining ≠ field → remaining.Same loaded other := by
        intro remaining different
        obtain ⟨_, _, wrote⟩ := Option.bind_eq_some_iff.mp read
        obtain ⟨_, _, wroteOther⟩ := Option.bind_eq_some_iff.mp further
        have value := differ.value?_eq (Field.name_injective.ne different)
        exact Settings.same_of_ofFields? value wrote wroteOther
      simpa using settings_congr isGiven agree read further

/-- **Options hide the settings in whose place they stand**, once the settings can be loaded.
Let the command line name something in place of a setting, and let two settings files and
environments differ only in the values that they give to it. The settings are the same, and so
is the failure, exactly when the field takes both of its values or neither of them, or when
something else is refused anyway; the program then does the same. A value that the field does
not take is refused whatever the command line names in its place. -/
theorem settings_agree_iff (isGiven : (given field line).isSome = true)
    (differ : DifferOnlyIn field.name line first second) :
    (settings line first = settings line second ↔
      field.takes (first.value? line field.name) = field.takes (second.value? line field.name) ∨
        ¬ OthersTaken field line first) ∧
    (settings line first = settings line second → run line first = run line second) ∧
    (field.takes (first.value? line field.name) = false →
      settings line first = .error (.error .settings)) := by
  refine ⟨?_, fun same => ?_, fun refused => ?_⟩
  · calc settings line first = settings line second
        ↔ (first.loaded? line).isSome = (second.loaded? line).isSome :=
          settings_eq_iff isGiven differ
      _ ↔ (OthersTaken field line first → (field.takes (first.value? line field.name) = true ↔
            field.takes (second.value? line field.name) = true)) := by
          rw [Bool.eq_iff_iff, isSome_loaded?_iff field, isSome_loaded?_iff field,
            ← differ.othersTaken_iff, and_congr_left_iff]
      _ ↔ _ := by rw [← Bool.eq_iff_iff, imp_iff_or_not]
  · rw [run, run, same, differ.folders]
  · have missing : ¬ (first.loaded? line).isSome = true := by
      rw [isSome_loaded?_iff field, refused]
      exact fun taken => Bool.false_ne_true taken.1
    exact settings_eq_of_none (Option.not_isSome_iff_eq_none.mp missing)

/-- A command line that names a folder and a fallback locale. -/
def germanLine : CommandLine where
  folder := some "locales"
  fallback := some "de"
  config := none
  verbose := false
  command := .keys none

/-- Surroundings in which the environment names a fallback locale, and the folder holds a German
catalogue. -/
def withFallback (tag : String) : Surroundings where
  environment := [("LOCALE_CATALOG_DEFAULT_LOCALE", tag)]
  content? _ := none
  openFolder? _ := some [("de.json", .file (some "\x7b\"menu\": \"Karte\"\x7d"))]

theorem differOnlyIn_fallback {first second : String} {value other : Document}
    (own : environmentFields (withFallback first).environment = [(Field.fallback.name, value)])
    (further : environmentFields (withFallback second).environment =
      [(Field.fallback.name, other)]) :
    DifferOnlyIn Field.fallback.name germanLine (withFallback first) (withFallback second) := by
  refine ⟨rfl, .some fun _ _ => rfl, fun name different => ?_⟩
  rw [own, further, List.lookup_cons, List.lookup_cons, beq_false_of_ne different]

theorem settings_agree_chinese :
    DifferOnlyIn Field.fallback.name germanLine (withFallback "zh_CN.UTF-8") (withFallback "fr") ∧
      settings germanLine (withFallback "zh_CN.UTF-8") = settings germanLine (withFallback "fr") ∧
      run germanLine (withFallback "zh_CN.UTF-8") = run germanLine (withFallback "fr") ∧
      (run germanLine (withFallback "fr")).toOption.map Output.text = some "menu\n" := by
  have differ : DifferOnlyIn Field.fallback.name germanLine (withFallback "zh_CN.UTF-8")
      (withFallback "fr") := differOnlyIn_fallback rfl rfl
  have isGiven : (given .fallback germanLine).isSome = true := rfl
  obtain ⟨agree, further, _⟩ := settings_agree_iff isGiven differ
  have same := agree.mpr (.inl (by decide +kernel))
  exact ⟨differ, same, further same, by decide +kernel⟩

/-- A value that is no tag is refused although the command line names another locale in its
place. -/
theorem settings_ne_malformed :
    (given .fallback germanLine).isSome = true ∧
      DifferOnlyIn Field.fallback.name germanLine (withFallback "not a tag!")
        (withFallback "fr") ∧
      settings germanLine (withFallback "not a tag!") ≠
        settings germanLine (withFallback "fr") := by
  have refused : (settings germanLine (withFallback "not a tag!")).toOption = none := by
    decide +kernel
  have accepted : (settings germanLine (withFallback "fr")).toOption.isSome = true := by
    decide +kernel
  refine ⟨rfl, differOnlyIn_fallback rfl rfl, fun same => ?_⟩
  rw [← same, refused] at accepted
  cases accepted

end Inspection

end Phrasebook
