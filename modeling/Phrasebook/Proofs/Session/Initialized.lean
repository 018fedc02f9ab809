import Phrasebook.Proofs.Session.Reaching
import Phrasebook.Proofs.Translator.Failures

/-! # Sessions after initialization

In every session that starts empty, each translator has a sound registry and an active
locale that is registered there, if any (`Phrasebook.Session.Consistent`). Registries
only grow, and a translator keeps the number of its registry
(`Phrasebook.Session.Extends`). So once a fallback is declared, look-ups fail only in
ways that a host recovers from, or because they name a locale that never was registered
(`Phrasebook.Session.failures_after_run`).
-/

namespace Phrasebook

/-- An activation needs a registered locale that is not active, outside of a round. -/
theorem Selector.select_eq_ok_some_iff {ω : Type} {selector next : Selector ω}
    {registry : Registry} {locale : Locale} {change : Change} :
    selector.select registry locale = .ok (some (change, next)) ↔
      selector.isNotifying = false ∧ registry.contains locale = true ∧
        selector.active ≠ some locale ∧ change = ⟨selector.active, locale⟩ ∧
        next = { selector with active := some locale, isNotifying := true } := by
  unfold select
  cases notifying : selector.isNotifying with
  | true => simp
  | false =>
    cases known : registry.contains locale with
    | false => simp
    | true =>
      by_cases active : selector.active = some locale
      · simp [active]
      · simp [active, eq_comm]

namespace Session

variable {n : Nat}

/-- A translator has a registry of the session, in which its active locale, if any, is
registered. -/
structure Fits (session : Session n) (member : Member n) : Prop where
  placed : member.registry < session.registries.length
  active : ∀ locale, member.selector.active = some locale →
    (session.registryOf member).contains locale = true

/-- The registries of a session are sound, and its translators fit them. -/
structure Consistent (session : Session n) : Prop where
  sound : ∀ registry ∈ session.registries, registry.Sound
  fits : ∀ member ∈ session.members, session.Fits member

/-- A later session has the registries of an earlier one, grown, and its translators, with
the same registries. -/
structure Extends (later earlier : Session n) : Prop where
  registries : ∀ (number : Nat) (registry : Registry),
    earlier.registries[number]? = some registry →
      ∃ grown, later.registries[number]? = some grown ∧ registry.Grows grown
  members : ∀ (number : Nat) (member : Member n), earlier.members[number]? = some member →
    ∃ same : Member n, later.members[number]? = some same ∧ same.registry = member.registry

theorem Extends.refl (session : Session n) : session.Extends session where
  registries := fun _ registry present => ⟨registry, present, .refl⟩
  members := fun _ member present => ⟨member, present, rfl⟩

theorem Extends.trans {first second third : Session n} (later : third.Extends second)
    (earlier : second.Extends first) : third.Extends first where
  registries := by
    intro number registry present
    obtain ⟨middle, present, grows⟩ := earlier.registries number registry present
    obtain ⟨last, present, growsOn⟩ := later.registries number middle present
    exact ⟨last, present, Relation.ReflTransGen.trans grows growsOn⟩
  members := by
    intro number member present
    obtain ⟨middle, present, same⟩ := earlier.members number member present
    obtain ⟨last, present, sameOn⟩ := later.members number middle present
    exact ⟨last, present, sameOn.trans same⟩

theorem registryOf_eq {session : Session n} {member : Member n} {registry : Registry}
    (present : session.registries[member.registry]? = some registry) :
    session.registryOf member = registry := by
  rw [registryOf, present, Option.getD_some]

theorem getElem?_registry {session : Session n} {member : Member n}
    (placed : member.registry < session.registries.length) :
    session.registries[member.registry]? = some (session.registryOf member) := by
  rw [registryOf, List.getElem?_eq_getElem placed, Option.getD_some]

theorem extends_setRegistry {session : Session n} {member : Member n} {registry : Registry}
    (grown : (session.registryOf member).Grows registry) :
    (session.setRegistry member registry).Extends session where
  registries := by
    intro number before present
    by_cases same : member.registry = number
    · subst same
      rw [registryOf_eq present] at grown
      refine ⟨registry, ?_, grown⟩
      obtain ⟨inside, _⟩ := List.getElem?_eq_some_iff.mp present
      exact List.getElem?_set_self inside
    · exact ⟨before, (List.getElem?_set_ne same).trans present, .refl⟩
  members := fun _ member present => ⟨member, present, rfl⟩

theorem extends_modify (session : Session n) (target : Nat) {change : Member n → Member n}
    (keeps : ∀ member, (change member).registry = member.registry) :
    Extends { session with members := session.members.modify target change } session where
  registries := fun _ registry present => ⟨registry, present, .refl⟩
  members := by
    intro number member present
    rw [List.getElem?_modify, present]
    refine ⟨_, rfl, ?_⟩
    split
    · exact keeps member
    · rfl

theorem Alters.extends {before after : Session n} (alters : before.Alters after) :
    after.Extends before := by
  cases alters with
  | found grown number active =>
    constructor
    · intro number registry present
      obtain ⟨inside, _⟩ := List.getElem?_eq_some_iff.mp present
      exact ⟨registry, (List.getElem?_append_left inside).trans present, .refl⟩
    · intro number member present
      obtain ⟨inside, _⟩ := List.getElem?_eq_some_iff.mp present
      exact ⟨member, (List.getElem?_append_left inside).trans present, rfl⟩
  | grow present grown => exact extends_setRegistry grown
  | join present grown number active =>
    refine ⟨(extends_setRegistry grown).registries, ?_⟩
    intro number member present
    obtain ⟨inside, _⟩ := List.getElem?_eq_some_iff.mp present
    exact ⟨member, (List.getElem?_append_left inside).trans present, rfl⟩
  | select present selected => exact extends_modify before _ fun _ => rfl
  | @subscribe member target present observer =>
    have further : (before.setSelector target (member.selector.subscribe observer).2).Extends
        before := extends_modify before _ fun _ => rfl
    exact ⟨further.registries, further.members⟩
  | unsubscribe present handle => exact extends_modify before _ fun _ => rfl
  | settle target => exact extends_modify before _ fun _ => rfl

theorem Reaches.extends {before after : Session n} (reaches : before.Reaches after) :
    after.Extends before := by
  induction reaches with
  | refl => exact .refl before
  | tail _ alters ih => exact alters.extends.trans ih

theorem Extends.grows_registryOf {later earlier : Session n} (further : later.Extends earlier)
    {member same : Member n} (placed : member.registry < earlier.registries.length)
    (number : same.registry = member.registry) :
    (earlier.registryOf member).Grows (later.registryOf same) := by
  obtain ⟨grown, present, grows⟩ := further.registries _ _ (getElem?_registry placed)
  rw [← number] at present
  rw [registryOf_eq present]
  exact grows

/-- A translator that fits a session still fits a later one, when its active locale is
the same. -/
theorem Fits.extends {later earlier : Session n} {member same : Member n}
    (fits : earlier.Fits member) (further : later.Extends earlier)
    (number : same.registry = member.registry)
    (active : same.selector.active = member.selector.active) : later.Fits same where
  placed := by
    obtain ⟨grown, present, _⟩ := further.registries _ _ (getElem?_registry fits.placed)
    obtain ⟨inside, _⟩ := List.getElem?_eq_some_iff.mp present
    exact number ▸ inside
  active := by
    intro locale activated
    have grows := further.grows_registryOf fits.placed number
    exact grows.contains (fits.active locale (active ▸ activated))

theorem Consistent.sound_of_alters {before after : Session n} (consistent : before.Consistent)
    (alters : before.Alters after) : ∀ registry ∈ after.registries, registry.Sound := by
  have replaced {member : Member n} {target : Nat} {grown : Registry}
      (present : before.members[target]? = some member)
      (grows : (before.registryOf member).Grows grown) :
      ∀ registry ∈ before.registries.set member.registry grown, registry.Sound := by
    intro registry member
    rcases List.mem_or_eq_of_mem_set member with earlier | rfl
    · exact consistent.sound registry earlier
    · have fits := consistent.fits _ (List.mem_of_getElem? present)
      exact grows.sound (consistent.sound _ (List.mem_of_getElem? (getElem?_registry fits.placed)))
  cases alters with
  | found grown number active =>
    intro registry member
    rcases List.mem_append.mp member with earlier | last
    · exact consistent.sound registry earlier
    · rw [List.mem_singleton.mp last]
      exact grown.sound Registry.sound_empty
  | grow present grown => exact replaced present grown
  | join present grown number active => exact replaced present grown
  | select present selected => exact consistent.sound
  | subscribe present observer => exact consistent.sound
  | unsubscribe present handle => exact consistent.sound
  | settle target => exact consistent.sound

/-- A translator of a session still fits it after a change of another one, or of its own
selector to a registered locale. -/
theorem Consistent.fits_modify {session : Session n} (consistent : session.Consistent)
    {target : Nat} {change : Member n → Member n}
    (keeps : ∀ member, (change member).registry = member.registry)
    (active : ∀ member, session.members[target]? = some member →
      ∀ locale, (change member).selector.active = some locale →
        (session.registryOf member).contains locale = true) :
    ∀ member ∈ session.members.modify target change,
      Fits { session with members := session.members.modify target change } member := by
  intro member present
  obtain ⟨number, found⟩ := List.mem_iff_getElem?.mp present
  rw [List.getElem?_modify] at found
  obtain ⟨before, earlier, rfl⟩ := Option.map_eq_some_iff.mp found
  have fits := consistent.fits before (List.mem_of_getElem? earlier)
  by_cases same : target = number
  · rw [if_pos same]
    subst same
    refine ⟨keeps before ▸ fits.placed, ?_⟩
    intro locale activated
    rw [registryOf, keeps, ← registryOf]
    exact active before earlier locale activated
  · rw [if_neg same]
    exact ⟨fits.placed, fits.active⟩

theorem Consistent.fits_setSelector {session : Session n} (consistent : session.Consistent)
    {target : Nat} {member : Member n} (present : session.members[target]? = some member)
    {selector : Selector (Observer n)}
    (active : ∀ locale, selector.active = some locale →
      (session.registryOf member).contains locale = true) :
    ∀ other ∈ (session.setSelector target selector).members,
      (session.setSelector target selector).Fits other := by
  refine consistent.fits_modify (fun _ => rfl) fun same samePresent => ?_
  cases present.symm.trans samePresent
  exact active

theorem Consistent.fits_of_alters {before after : Session n} (consistent : before.Consistent)
    (alters : before.Alters after) : ∀ member ∈ after.members, after.Fits member := by
  have further := alters.extends
  -- whoever keeps an active locale still fits; only added and changed translators are new
  have kept {member : Member n} (present : member ∈ before.members) : after.Fits member :=
    (consistent.fits member present).extends further rfl rfl
  cases alters with
  | @found registry grown added number active =>
    intro member present
    rcases List.mem_append.mp present with earlier | last
    · exact kept earlier
    · rw [List.mem_singleton.mp last]
      have own : (before.registries ++ [registry])[added.registry]? = some registry := by
        rw [number, List.getElem?_concat_length]
      refine ⟨(List.getElem?_eq_some_iff.mp own).1, ?_⟩
      rw [registryOf_eq own]
      exact active
  | grow present grown => exact fun member present => kept present
  | @join member target present registry grown added number active =>
    intro other otherPresent
    rcases List.mem_append.mp otherPresent with earlier | last
    · exact kept earlier
    · rw [List.mem_singleton.mp last]
      have fits := consistent.fits member (List.mem_of_getElem? present)
      have own : (before.registries.set member.registry registry)[added.registry]? =
          some registry := by
        rw [number, List.getElem?_set_self fits.placed]
      refine ⟨(List.getElem?_eq_some_iff.mp own).1, ?_⟩
      rw [registryOf_eq own]
      exact active
  | select present selected =>
    obtain ⟨_, known, _, _, rfl⟩ := Selector.select_eq_ok_some_iff.mp selected
    refine consistent.fits_setSelector present ?_
    intro locale activated
    cases activated
    exact known
  | @subscribe member target present observer =>
    let subscribed := before.setSelector target (member.selector.subscribe observer).2
    have fits : ∀ other ∈ subscribed.members, subscribed.Fits other :=
      consistent.fits_setSelector present
        (consistent.fits member (List.mem_of_getElem? present)).active
    exact fun other present => ⟨(fits other present).placed, (fits other present).active⟩
  | @unsubscribe member target present handle =>
    exact consistent.fits_setSelector present
      (consistent.fits member (List.mem_of_getElem? present)).active
  | settle target =>
    exact consistent.fits_modify (fun _ => rfl) fun same present =>
      (consistent.fits same (List.mem_of_getElem? present)).active

theorem consistent_empty : Consistent ({} : Session n) where
  sound := by simp
  fits := by simp

/-- **Sessions stay consistent.** -/
theorem Consistent.reaches {before after : Session n} (consistent : before.Consistent)
    (reaches : before.Reaches after) : after.Consistent := by
  induction reaches with
  | refl => exact consistent
  | tail _ alters ih => exact ⟨ih.sound_of_alters alters, ih.fits_of_alters alters⟩

theorem preserved_consistent : Preserved fun _ (session : Session n) => session.Consistent :=
  .of_reaches fun reaches consistent => consistent.reaches reaches

theorem Consistent.ready {session : Session n} (consistent : session.Consistent)
    {member : Member n} (present : member ∈ session.members)
    (declared : (session.registryOf member).fallback.isSome = true) :
    (session.translatorOf member).Ready where
  sound := consistent.sound _
    (List.mem_of_getElem? (getElem?_registry (consistent.fits member present).placed))
  declared := declared
  active := (consistent.fits member present).active

/-- A locale that is unknown to a translator was so in every earlier session. -/
theorem Reaches.contains_eq_false {before after : Session n} (reaches : before.Reaches after)
    {member : Member n} {locale : Locale}
    (unknown : (after.registryOf member).contains locale = false) {registry : Registry}
    (present : before.registries[member.registry]? = some registry) :
    registry.contains locale = false := by
  obtain ⟨grown, later, grows⟩ := reaches.extends.registries _ _ present
  rw [registryOf_eq later] at unknown
  cases known : registry.contains locale with
  | false => rfl
  | true =>
    rw [grows.contains known] at unknown
    cases unknown

/-- **Failures after initialization.** Consider any session that steps lead to from the
empty one, or that they pass through in the middle of a round. There the declared
fallback and the active locale of a translator are registered. Once its fallback is
declared, it stays declared; the look-ups that name no locale fail only in ways that a
host recovers from, and those that name one fail otherwise only because that locale was
never registered, if the path can be read. -/
theorem failures_after_run (steps : List (Step n)) {session : Session n}
    (reaches : ((Session.run {} steps).1).Reaches session) {number : Nat} {member : Member n}
    (present : session.members[number]? = some member) :
    let translator := session.translatorOf member
    (∀ locale, translator.registry.fallback = some locale →
        translator.registry.contains locale = true) ∧
      (∀ locale, translator.active = some locale →
        translator.registry.contains locale = true) ∧
      (translator.registry.fallback.isSome = true →
        (∀ later : Session n, session.Reaches later → ∃ same : Member n,
          later.members[number]? = some same ∧
            (later.translatorOf same).registry.fallback.isSome = true) ∧
        (∀ path arguments cause,
          translator.text path arguments = .error cause ∨
              (∃ index, translator.textAt path index arguments = .error cause) ∨
              translator.texts path arguments = .error cause ∨
              translator.entry none path arguments = .error cause →
            cause.isRecoverable = true) ∧
        ∀ locale path arguments cause,
          translator.textIn locale path arguments = .error cause ∨
              translator.entry (some locale) path arguments = .error cause →
            cause.isRecoverable = true ∨
              cause = .unknownLocale locale ∧
                (∃ address, Address.parse path = .ok address) ∧
                ∀ (earlier : Session n) (registry : Registry), earlier.Reaches session →
                  earlier.registries[member.registry]? = some registry →
                  registry.contains locale = false) := by
  intro translator
  have consistent : session.Consistent :=
    consistent_empty.reaches ((reaches_run {} steps).trans reaches)
  have member_mem := List.mem_of_getElem? present
  have fits := consistent.fits member member_mem
  refine ⟨(consistent.sound _ (List.mem_of_getElem? (getElem?_registry fits.placed))).declared,
    fits.active, fun declared => ⟨?_, ?_, ?_⟩⟩
  · intro later further
    obtain ⟨same, found, number⟩ := further.extends.members number member present
    have grows := further.extends.grows_registryOf fits.placed number
    exact ⟨same, found, grows.isSome_fallback declared⟩
  · intro path arguments cause failed
    have ready := consistent.ready member_mem declared
    have forgivable : translator.Forgivable none path cause := by
      rcases failed with failed | ⟨index, failed⟩ | failed | failed
      · exact ready.scalar_error failed
      · exact ready.scalar_error failed
      · exact ready.texts_error failed
      · exact ready.entry_error failed
    rcases forgivable with recoverable | ⟨_, named, _⟩
    · exact recoverable
    · cases named
  · intro locale path arguments cause failed
    have ready := consistent.ready member_mem declared
    have forgivable : translator.Forgivable (some locale) path cause := by
      rcases failed with failed | failed
      · exact ready.scalar_error failed
      · exact ready.entry_error failed
    rcases forgivable with recoverable | ⟨_, named, same, read, unknown⟩
    · exact .inl recoverable
    · cases named
      exact .inr ⟨same, read, fun earlier registry before found =>
        before.contains_eq_false unknown found⟩

/-- A translator over one English catalogue, which is the fallback, stays ready. -/
theorem failures_after_first_build :
    let catalogue : Catalogue := ⟨[("title", .entry (.scalar ⟨"Menu"⟩))]⟩
    let plan : Plan := { catalogues := [(.english, catalogue)], fallback := some .english }
    let session : Session 1 := (Session.run {} [.build none false (.ok plan)]).1
    ∃ member, session.members[0]? = some member ∧
      (session.translatorOf member).registry.fallback.isSome = true ∧
      ∀ path arguments cause, (session.translatorOf member).text path arguments = .error cause →
        cause.isRecoverable = true := by
  intro catalogue plan session
  obtain ⟨member, present⟩ : ∃ member, session.members[0]? = some member := ⟨_, rfl⟩
  have declared : (session.translatorOf member).registry.fallback.isSome = true := by
    cases present
    rfl
  obtain ⟨_, _, ready⟩ := failures_after_run [.build none false (.ok plan)] .refl present
  exact ⟨member, present, declared, fun path arguments cause failed =>
    (ready declared).2.1 path arguments cause (.inl failed)⟩

end Session

end Phrasebook
