import Phrasebook.Proofs.Catalogue.WellFormed
import Phrasebook.Proofs.Registry.Growth

/-! # Registries that a host can make

A host starts with the empty registry, registers catalogues that documents write, and
declares fallbacks (`Phrasebook.Registry.Reachable`). All registered catalogues are
well-formed (`Phrasebook.Registry.Reachable.wellFormed`).
-/

namespace Phrasebook.Registry

/-- The registries that a host makes: from the empty one, by registering catalogues
that documents write and declaring fallbacks, in any order. -/
inductive Reachable : Registry → Prop
  | empty : Reachable .empty
  | register {registry : Registry} (earlier : Reachable registry) (locale : Locale)
      {document : Document} {catalogue : Catalogue}
      (accepted : Catalogue.ofDocument document = .ok catalogue) :
      Reachable (registry.register locale catalogue)
  | setFallback {registry next : Registry} (earlier : Reachable registry) (locale : Locale)
      (declared : registry.setFallback locale = .ok next) : Reachable next

theorem Reachable.sound {registry : Registry} (reachable : registry.Reachable) :
    registry.Sound := by
  induction reachable with
  | empty => exact sound_empty
  | register _ locale _ sound => exact sound.register locale _
  | setFallback _ locale declared sound => exact sound.setFallback declared

theorem Reachable.wellFormed {registry : Registry} (reachable : registry.Reachable)
    {locale : Locale} {catalogue : Catalogue}
    (registered : registry.get? locale = some catalogue) : catalogue.WellFormed := by
  induction reachable with
  | empty => cases registered
  | @register earlier _ added _ made accepted ih =>
    by_cases same : locale = added
    · rw [same, get?_register_self] at registered
      cases registered
      exact Catalogue.wellFormed_of_ofDocument accepted
    · rw [get?_register_of_ne _ same] at registered
      exact ih registered
  | setFallback _ locale declared ih =>
    obtain ⟨_, rfl⟩ := setFallback_eq_ok_iff.mp declared
    exact ih registered

/-- A German catalogue beside an English one that is the fallback. -/
theorem Reachable.germanAndEnglish (first second : Document) {english german : Catalogue}
    (acceptedEnglish : Catalogue.ofDocument first = .ok english)
    (acceptedGerman : Catalogue.ofDocument second = .ok german) :
    Reachable ⟨[(.german, german), (.english, english)], some .english⟩ := by
  have made : (Registry.empty.register .english english).register .german german =
      ⟨[(.german, german), (.english, english)], none⟩ :=
    congrArg (Registry.mk · none) (if_pos Locale.german_lt_english)
  refine .setFallback (.register (.register .empty .english acceptedEnglish) .german
    acceptedGerman) .english (setFallback_eq_ok_iff.mpr ?_)
  rw [made]
  exact ⟨rfl, rfl⟩

end Phrasebook.Registry
