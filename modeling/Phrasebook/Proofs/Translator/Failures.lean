import Phrasebook.Proofs.Outcome
import Phrasebook.Proofs.Registry.Growth
import Phrasebook.Proofs.Template.Placeholders
import Phrasebook.Translator

/-! # Failures of translators

Rendering fails for want of the value of a placeholder, and only so
(`Phrasebook.Template.unbound_iff_exists_render`). Reading a path, finding an entry in two
editions, taking it in a shape and rendering it fail only in ways that a host recovers from
(`Phrasebook.Template.isRecoverable_of_render_error`,
`Phrasebook.Edition.isRecoverable_of_find_error`). A translator whose registry and
active locale are sound has one more failure: the locale that was named in the call is
not registered (`Phrasebook.Translator.Forgivable`).
-/

namespace Phrasebook

namespace Template

theorem isRecoverable_of_render_error {template : Template} {arguments : Arguments}
    {escaping : Escaping} {cause : Error}
    (failed : template.render arguments escaping = .error cause) : cause.isRecoverable = true := by
  obtain ⟨name, _, _, rfl⟩ := exists_unbound_of_render failed
  rfl

theorem isRecoverable_of_renderAll_error {templates : List Template} {arguments : Arguments}
    {escaping : Escaping} {cause : Error}
    (failed : renderAll templates arguments escaping = .error cause) :
    cause.isRecoverable = true := by
  obtain ⟨template, _, failed⟩ := Outcome.exists_of_mapM_eq_error failed
  exact isRecoverable_of_render_error failed

end Template

theorem Address.isRecoverable_of_parse_error {raw : String} {cause : Error}
    (failed : parse raw = .error cause) : cause.isRecoverable = true := by
  unfold parse at failed
  cases outcome : read raw with
  | ok address =>
    rw [outcome] at failed
    cases failed
  | error fault =>
    rw [outcome] at failed
    cases failed
    rfl

theorem Miss.isRecoverable_error (miss : Miss) (address : Address) :
    (miss.error address).isRecoverable = true := by
  cases miss <;> rfl

/-- A look-up in two editions fails with a miss. -/
theorem Edition.isRecoverable_of_find_error {wanted fallback : Edition} {address : Address}
    {index : Option Position} {cause : Error}
    (failed : wanted.find fallback address index = .error cause) : cause.isRecoverable = true := by
  unfold find at failed
  split at failed
  · cases failed
  · cases failed
    rfl
  · split at failed
    · cases failed
      exact Miss.isRecoverable_error _ address
    · split at failed
      · cases failed
      · cases failed
        exact Miss.isRecoverable_error _ address

namespace Finding

theorem isRecoverable_of_scalar_error {finding : Finding} {address : Address} {cause : Error}
    (failed : finding.scalar address = .error cause) : cause.isRecoverable = true := by
  unfold scalar at failed
  split at failed
  · cases failed
  · cases failed
    rfl

theorem isRecoverable_of_list_error {finding : Finding} {address : Address} {cause : Error}
    (failed : finding.list address = .error cause) : cause.isRecoverable = true := by
  unfold list at failed
  split at failed
  · cases failed
  · cases failed
    rfl

end Finding

/-- A look-up in a registry with a registered fallback fails as one in two editions, or
because its locale is not registered. -/
theorem Registry.find_eq_error {registry : Registry} (sound : registry.Sound)
    (declared : registry.fallback.isSome = true) {wanted : Locale} {address : Address}
    {index : Option Position} {cause : Error}
    (failed : registry.find wanted address index = .error cause) :
    cause.isRecoverable = true ∨
      cause = .unknownLocale wanted ∧ registry.contains wanted = false := by
  obtain ⟨fallback, declared⟩ := Option.isSome_iff_exists.mp declared
  obtain ⟨other, registered⟩ := contains_iff.mp (sound.declared fallback declared)
  cases own : registry.get? wanted with
  | none =>
    simp only [find, editions, declared, get, registered, own] at failed
    cases failed
    exact .inr ⟨rfl, by rw [contains, own]; rfl⟩
  | some catalogue =>
    rw [find_eq_edition_find declared own registered] at failed
    exact .inl (Edition.isRecoverable_of_find_error failed)

namespace Translator

/-- The registry of a translator is sound, with a declared fallback, and an active locale
is registered. -/
structure Ready (translator : Translator) : Prop where
  sound : translator.registry.Sound
  declared : translator.registry.fallback.isSome = true
  active : ∀ locale, translator.active = some locale → translator.registry.contains locale = true

/-- A failure that a call which may name a locale has after initialization: a host
recovers from it, or the path can be read but the named locale is not registered. -/
def Forgivable (translator : Translator) (locale : Option Locale) (path : String)
    (cause : Error) : Prop :=
  cause.isRecoverable = true ∨ ∃ named, locale = some named ∧ cause = .unknownLocale named ∧
    (∃ address, Address.parse path = .ok address) ∧ translator.registry.contains named = false

theorem find_none (translator : Translator) {current : Locale}
    (current_eq : translator.current = .ok current) (path : String) (index : Option Position) :
    translator.find none path index = translator.find (some current) path index := by
  simp only [find, current_eq]
  rfl

theorem find_some_eq_error {translator : Translator} {named : Locale} {path : String}
    {index : Option Position} {cause : Error}
    (failed : translator.find (some named) path index = .error cause) :
    Address.parse path = .error cause ∨ ∃ address, Address.parse path = .ok address ∧
      translator.registry.find named address index = .error cause := by
  rcases Outcome.bind_eq_error_iff.mp failed with unread | ⟨address, read, failed⟩
  · exact .inl unread
  · rcases Outcome.bind_eq_error_iff.mp failed with unnamed | ⟨wanted, same, failed⟩
    · cases unnamed
    · cases same
      rcases Outcome.bind_eq_error_iff.mp failed with failed | ⟨finding, _, failed⟩
      · exact .inr ⟨address, read, failed⟩
      · cases failed

variable {translator : Translator} (ready : translator.Ready) {locale : Option Locale}
  {path : String} {cause : Error}
include ready

theorem Ready.exists_current :
    ∃ locale, translator.current = .ok locale ∧ translator.registry.contains locale = true := by
  obtain ⟨fallback, declared⟩ := Option.isSome_iff_exists.mp ready.declared
  cases active : translator.active with
  | some locale => exact ⟨locale, by rw [current, active], ready.active locale active⟩
  | none => exact ⟨fallback, by rw [current, active, declared], ready.sound.declared _ declared⟩

theorem Ready.find_some_error {named : Locale} {index : Option Position}
    (failed : translator.find (some named) path index = .error cause) :
    translator.Forgivable (some named) path cause := by
  rcases find_some_eq_error failed with unread | ⟨address, read, failed⟩
  · exact .inl (Address.isRecoverable_of_parse_error unread)
  · rcases Registry.find_eq_error ready.sound ready.declared failed with
      recoverable | ⟨same, unknown⟩
    · exact .inl recoverable
    · exact .inr ⟨named, rfl, same, ⟨address, read⟩, unknown⟩

theorem Ready.find_error {index : Option Position}
    (failed : translator.find locale path index = .error cause) :
    translator.Forgivable locale path cause := by
  cases locale with
  | some named => exact ready.find_some_error failed
  | none =>
    obtain ⟨current, current_eq, known⟩ := ready.exists_current
    rw [translator.find_none current_eq] at failed
    rcases ready.find_some_error failed with recoverable | ⟨_, same, _, _, unknown⟩
    · exact .inl recoverable
    · cases same
      rw [known] at unknown
      cases unknown

theorem Ready.scalar_error {index : Option Position} {arguments : Arguments}
    (failed : translator.scalar locale path index arguments = .error cause) :
    translator.Forgivable locale path cause := by
  rcases Outcome.bind_eq_error_iff.mp failed with missed | ⟨⟨address, finding⟩, _, failed⟩
  · exact ready.find_error missed
  · rcases Outcome.bind_eq_error_iff.mp failed with misshapen | ⟨template, _, failed⟩
    · exact .inl (Finding.isRecoverable_of_scalar_error misshapen)
    · exact .inl (Template.isRecoverable_of_render_error failed)

theorem Ready.texts_error {arguments : Arguments}
    (failed : translator.texts path arguments = .error cause) :
    translator.Forgivable none path cause := by
  rcases Outcome.bind_eq_error_iff.mp failed with missed | ⟨⟨address, finding⟩, _, failed⟩
  · exact ready.find_error missed
  · rcases Outcome.bind_eq_error_iff.mp failed with misshapen | ⟨templates, _, failed⟩
    · exact .inl (Finding.isRecoverable_of_list_error misshapen)
    · exact .inl (Template.isRecoverable_of_renderAll_error failed)

theorem Ready.entry_error {arguments : Arguments}
    (failed : translator.entry locale path arguments = .error cause) :
    translator.Forgivable locale path cause := by
  rcases Outcome.bind_eq_error_iff.mp failed with missed | ⟨⟨address, finding⟩, _, failed⟩
  · exact ready.find_error missed
  · refine .inl ?_
    obtain ⟨entry, _, _⟩ := finding
    cases entry with
    | scalar template =>
      rcases Outcome.bind_eq_error_iff.mp failed with failed | ⟨text, _, failed⟩
      · exact Template.isRecoverable_of_render_error failed
      · cases failed
    | list templates =>
      rcases Outcome.bind_eq_error_iff.mp failed with failed | ⟨texts, _, failed⟩
      · exact Template.isRecoverable_of_renderAll_error failed
      · cases failed
    | indexed map =>
      rcases Outcome.bind_eq_error_iff.mp failed with failed | ⟨entries, _, failed⟩
      · obtain ⟨⟨key, template⟩, _, failed⟩ := Outcome.exists_of_mapM_eq_error failed
        rcases Outcome.bind_eq_error_iff.mp failed with failed | ⟨text, _, failed⟩
        · exact Template.isRecoverable_of_render_error failed
        · cases failed
      · cases failed

end Translator

end Phrasebook
