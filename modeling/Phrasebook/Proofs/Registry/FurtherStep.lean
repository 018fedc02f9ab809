import Phrasebook.Proofs.Catalogue.CompleteListing
import Phrasebook.Proofs.Registry.Reachable

/-! # One step further

A look-up may go one step further than another one: to the template one step below the entry
that the other one finds, and nowhere where that one leads nowhere
(`Phrasebook.Address.GoesOn`). An address with one more step does so
(`Phrasebook.Address.goesOn_step`), and so does an index
(`Phrasebook.Address.goesOn_index`). Because the two look-ups miss in the same catalogues, the
template is found in the edition that the entry is found in
(`Phrasebook.Address.GoesOn.registry_find`).
-/

namespace Phrasebook

/-- In every catalogue a look-up leads one step further than another one: to the template one
step below the entry that the other one finds, and nowhere where that one leads nowhere. -/
structure Address.GoesOn (address : Address) (step : Address.Step) (further : Address)
    (index : Option Position) : Prop where
  item : ∀ (catalogue : Catalogue) (entry : Entry) (template : Template),
    catalogue.find address none = .ok entry → entry.item? step = some template →
      catalogue.find further index = .ok (.scalar template)
  nowhere : ∀ catalogue : Catalogue,
    (∃ miss, catalogue.find address none = .error miss ∧ miss.AllowsFallback) →
      ∃ miss, catalogue.find further index = .error miss ∧ miss.AllowsFallback

namespace Catalogue

/-- A look-up without an index lets the next one fall back exactly where its steps lead
nowhere. -/
theorem find_none_allowsFallback_iff {catalogue : Catalogue} {address : Address} :
    (∃ miss, catalogue.find address none = .error miss ∧ miss.AllowsFallback) ↔
      (Node.branch catalogue.root).follow? address.steps = none := by
  constructor
  · rintro ⟨miss, missed, allows⟩
    cases reached : (Node.branch catalogue.root).follow? address.steps with
    | none => rfl
    | some node =>
      rw [find_of_follow?_eq_some reached] at missed
      cases node with
      | entry found => cases missed
      | branch children =>
        cases missed
        exact allows.elim
  · exact fun absent => find_of_follow?_eq_none absent none

theorem find_none_eq_ok_iff {catalogue : Catalogue} {address : Address} {entry : Entry} :
    catalogue.find address none = .ok entry ↔
      (Node.branch catalogue.root).follow? address.steps = some (.entry entry) := by
  constructor
  · intro found
    obtain ⟨reached, followed, atNode⟩ := exists_follow?_of_find_eq_ok found
    cases atNode
    exact followed
  · exact fun followed => find_of_follow?_eq_some followed none

/-- What a look-up finds in a well-formed catalogue is an entry of it or a template. -/
theorem WellFormed.of_find {catalogue : Catalogue} (wellFormed : catalogue.WellFormed)
    {address : Address} {entry : Entry} (found : catalogue.find address none = .ok entry) :
    entry.WellFormed := by
  rcases Node.descend?_of_follow?_eq_some (find_none_eq_ok_iff.mp found) with
    reached | ⟨_, _, _, template, _, _, _, same⟩
  · rw [← node?_eq_descend?] at reached
    obtain ⟨_, _, _, _, _, sound⟩ := wellFormed.node?_entry reached
    exact sound
  · cases same
    trivial

end Catalogue

namespace Address

theorem goesOn_step (address : Address) (step : Step) (text : String) :
    address.GoesOn step ⟨text, address.steps ++ [step]⟩ none where
  item := by
    intro catalogue entry template found item
    rw [Catalogue.find_none_eq_ok_iff] at found ⊢
    rw [Node.follow?_append, found, Option.bind_some, Node.follow?_cons, Node.below?, item]
    rfl
  nowhere := by
    intro catalogue missed
    rw [Catalogue.find_none_allowsFallback_iff] at missed ⊢
    rw [Node.follow?_append, missed, Option.bind_none]

theorem goesOn_index (address : Address) (index : Position) :
    address.GoesOn (.position index) address (some index) where
  item := by
    intro catalogue entry template found item
    have followed := Catalogue.find_none_eq_ok_iff.mp found
    have notScalar : entry.shape ≠ .scalar := by
      intro scalar
      cases entry <;> cases scalar
      cases item
    rw [Catalogue.find_of_follow?_eq_some followed,
      Node.entryAt_some_of_item? entry index notScalar, item]
  nowhere := by
    intro catalogue missed
    exact Catalogue.find_of_follow?_eq_none (Catalogue.find_none_allowsFallback_iff.mp missed) _

namespace GoesOn

variable {address further : Address} {step : Step} {index : Option Position}
  (goesOn : address.GoesOn step further index) {finding : Finding} {template : Template}
  (item : finding.entry.item? step = some template)
include goesOn item

/-- The template is found in the edition that the entry is found in. -/
theorem edition_find {wanted fallback : Edition}
    (found : wanted.find fallback address none = .ok finding) :
    wanted.find fallback further index = .ok { finding with entry := .scalar template } := by
  rw [Edition.find_eq_ok_iff] at found ⊢
  rcases found with ⟨own, locale, fellBack⟩ | ⟨missed, different, other, locale, fellBack⟩
  · exact .inl ⟨goesOn.item _ _ _ own item, locale, fellBack⟩
  · exact .inr ⟨goesOn.nowhere _ missed, different, goesOn.item _ _ _ other item, locale, fellBack⟩

theorem registry_find {registry : Registry} {wanted : Locale}
    (found : registry.find wanted address none = .ok finding) :
    registry.find wanted further index = .ok { finding with entry := .scalar template } := by
  obtain ⟨editions, taken, found⟩ := Outcome.bind_eq_ok_iff.mp found
  exact Outcome.bind_eq_ok_iff.mpr ⟨editions, taken, goesOn.edition_find item found⟩

end GoesOn

end Address

namespace Registry

theorem get_eq_ok_iff {registry : Registry} {locale : Locale} {catalogue : Catalogue} :
    registry.get locale = .ok catalogue ↔ registry.get? locale = some catalogue := by
  unfold get
  cases registry.get? locale <;> simp

/-- Both editions of a look-up are registered. -/
theorem get?_of_editions {registry : Registry} {wanted : Locale} {own fallback : Edition}
    (taken : registry.editions wanted = .ok (own, fallback)) :
    registry.get? own.locale = some own.catalogue ∧
      registry.get? fallback.locale = some fallback.catalogue := by
  unfold editions at taken
  split at taken
  · obtain ⟨other, fallbackTaken, taken⟩ := Outcome.bind_eq_ok_iff.mp taken
    obtain ⟨catalogue, ownTaken, made⟩ := Outcome.bind_eq_ok_iff.mp taken
    cases made
    exact ⟨get_eq_ok_iff.mp ownTaken, get_eq_ok_iff.mp fallbackTaken⟩
  · cases taken

theorem Reachable.wellFormed_of_find {registry : Registry} (reachable : registry.Reachable)
    {wanted : Locale} {address : Address} {finding : Finding}
    (found : registry.find wanted address none = .ok finding) : finding.entry.WellFormed := by
  obtain ⟨⟨own, fallback⟩, taken, found⟩ := Outcome.bind_eq_ok_iff.mp found
  obtain ⟨ownRegistered, fallbackRegistered⟩ := get?_of_editions taken
  rcases Edition.find_eq_ok_iff.mp found with ⟨here, _, _⟩ | ⟨_, _, there, _, _⟩
  · exact (reachable.wellFormed ownRegistered).of_find here
  · exact (reachable.wellFormed fallbackRegistered).of_find there

end Registry

end Phrasebook
