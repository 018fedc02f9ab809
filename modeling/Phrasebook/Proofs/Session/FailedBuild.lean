import Phrasebook.Proofs.Session.Moments

/-! # Builds that fail

A translator that is built over the registry of another one registers its catalogues, declares
its fallback and activates its locale, in this order, and each step sees what the earlier ones
have done. A build that fails takes nothing back (`Phrasebook.Session.Plan.Leaves`): the
registry, which other translators share, has the catalogues of the plan, and its fallback when
that one is known. So it is as before only when the plan had nothing to add
(`Phrasebook.Session.failed_build_leaves`).
-/

namespace Phrasebook

theorem Registry.get?_registerAll (registry : Registry) (catalogues : List (Locale × Catalogue))
    (locale : Locale) :
    (catalogues.foldl (fun registry item => registry.register item.1 item.2) registry).get? locale =
      (catalogues.reverse.lookup locale).or (registry.get? locale) := by
  induction catalogues generalizing registry with
  | nil => rfl
  | cons item rest ih =>
    obtain ⟨own, catalogue⟩ := item
    rw [List.foldl_cons, ih, List.reverse_cons, List.lookup_append, Option.or_assoc]
    congr 1
    by_cases same : locale = own
    · rw [same, Registry.get?_register_self, List.lookup_cons_self, Option.some_or]
    · rw [Registry.get?_register_of_ne registry same, List.lookup_cons, beq_false_of_ne same]
      rfl

namespace Session

variable {n : Nat}

namespace Plan

/-- The catalogue that a plan gives for a locale; of several the last counts. -/
def given? (plan : Plan) (locale : Locale) : Option Catalogue :=
  plan.catalogues.reverse.lookup locale

/-- What the plan of a translator makes of a registry, whether or not the translator comes to
be: the catalogues of the plan replace those of their locales, and its fallback is declared when
it is registered then. All else stays. -/
structure Leaves (plan : Plan) (before after : Registry) : Prop where
  registered : ∀ locale, after.get? locale = (plan.given? locale).or (before.get? locale)
  declared : ∀ locale, plan.fallback = some locale → after.contains locale = true →
    after.fallback = some locale
  kept : (∀ locale, plan.fallback = some locale → after.contains locale = false) →
    after.fallback = before.fallback

/-- The locale for which a plan fails over a registry that has the catalogues of the plan: its
fallback, if that is unknown, and otherwise the locale that it activates. -/
def FailsFor (plan : Plan) (registry : Registry) (locale : Locale) : Prop :=
  registry.contains locale = false ∧
    (plan.fallback = some locale ∨ plan.active = some locale ∧
      ∀ fallback, plan.fallback = some fallback → registry.contains fallback = true)

/-- A plan whose catalogues are registered already and whose fallback, if it is known, is
declared already. -/
structure AddsNothing (plan : Plan) (registry : Registry) : Prop where
  registered : ∀ locale catalogue, plan.given? locale = some catalogue →
    registry.get? locale = some catalogue
  declared : ∀ locale, plan.fallback = some locale → registry.contains locale = true →
    registry.fallback = some locale

theorem checkActive_eq_error_iff {plan : Plan} {registry : Registry} {cause : Error} :
    plan.checkActive registry = .error cause ↔
      ∃ locale, registry.contains locale = false ∧ plan.active = some locale ∧
        cause = .unknownLocale locale := by
  unfold checkActive
  cases plan.active with
  | none => simp
  | some locale =>
    cases known : registry.contains locale with
    | true => simp [known]
    | false => simpa [known] using eq_comm

theorem fallback_registerAll (registry : Registry) (catalogues : List (Locale × Catalogue)) :
    (catalogues.foldl (fun registry item => registry.register item.1 item.2) registry).fallback =
      registry.fallback := by
  induction catalogues generalizing registry with
  | nil => rfl
  | cons item rest ih => exact ih (registry.register item.1 item.2)

/-- What applying a plan makes of the registry that has the catalogues of the plan. -/
theorem apply_of_fallback {plan : Plan} (registry : Registry) {fallback : Locale}
    (chosen : plan.fallback = some fallback) :
    let filled := plan.catalogues.foldl
      (fun registry item => registry.register item.1 item.2) registry
    plan.apply registry =
      if filled.contains fallback then
        ({ filled with fallback := some fallback },
          plan.checkActive { filled with fallback := some fallback })
      else (filled, .error (.unknownLocale fallback)) := by
  intro filled
  unfold apply Registry.setFallback
  rw [chosen]
  dsimp only
  by_cases known : filled.contains fallback = true
  · rw [if_pos known, if_pos known]
  · rw [if_neg known, if_neg known]

/-- The catalogues of a plan are registered and its fallback is declared, if it is known. -/
theorem leaves_apply (plan : Plan) (registry : Registry) :
    plan.Leaves registry (plan.apply registry).1 := by
  have registered := registry.get?_registerAll plan.catalogues
  have kept := fallback_registerAll registry plan.catalogues
  cases chosen : plan.fallback with
  | none =>
    refine ⟨?_, ?_, fun _ => ?_⟩
    · unfold apply
      rw [chosen]
      exact registered
    · intro locale same
      cases chosen.symm.trans same
    · unfold apply
      rw [chosen]
      exact kept
  | some fallback =>
    rw [apply_of_fallback registry chosen]
    split
    · next known =>
      refine ⟨registered, ?_, fun unknown => ?_⟩
      · intro locale same _
        exact chosen.symm.trans same
      · exact absurd known (Bool.eq_false_iff.mp (unknown fallback chosen))
    · next unknown =>
      refine ⟨registered, ?_, fun _ => kept⟩
      intro locale same known
      cases chosen.symm.trans same
      exact absurd known unknown

/-- A plan fails for its fallback or else for the locale that it activates. -/
theorem apply_eq_error_iff (plan : Plan) (registry : Registry) (cause : Error) :
    (plan.apply registry).2 = .error cause ↔
      ∃ locale, plan.FailsFor (plan.apply registry).1 locale ∧ cause = .unknownLocale locale := by
  cases chosen : plan.fallback with
  | none =>
    unfold apply
    rw [chosen]
    dsimp only
    rw [checkActive_eq_error_iff]
    simp [FailsFor, chosen, and_assoc]
  | some fallback =>
    rw [apply_of_fallback registry chosen]
    split
    · next known =>
      have declared : Registry.contains { plan.catalogues.foldl
          (fun registry item => registry.register item.1 item.2) registry with
            fallback := some fallback } fallback = true := known
      rw [checkActive_eq_error_iff]
      constructor
      · rintro ⟨locale, unknown, active, rfl⟩
        refine ⟨locale, ⟨unknown, .inr ⟨active, ?_⟩⟩, rfl⟩
        intro other same
        cases chosen.symm.trans same
        exact declared
      · rintro ⟨locale, ⟨unknown, same | ⟨active, _⟩⟩, rfl⟩
        · cases chosen.symm.trans same
          exact absurd declared (Bool.eq_false_iff.mp unknown)
        · exact ⟨locale, unknown, active, rfl⟩
    · next unknown =>
      constructor
      · rintro ⟨⟩
        exact ⟨fallback, ⟨Bool.eq_false_iff.mpr unknown, .inl chosen⟩, rfl⟩
      · rintro ⟨locale, ⟨_, same | ⟨_, known⟩⟩, rfl⟩
        · cases chosen.symm.trans same
          rfl
        · exact absurd (known fallback chosen) unknown

/-- A registry that a plan has been applied to is as before when the plan adds nothing. -/
theorem Leaves.eq_iff {plan : Plan} {before after : Registry} (leaves : plan.Leaves before after)
    (sound : before.Sound) (afterSound : after.Sound) :
    after = before ↔ plan.AddsNothing before := by
  constructor
  · rintro rfl
    refine ⟨fun locale catalogue given => ?_, leaves.declared⟩
    rw [leaves.registered, given, Option.some_or]
  · intro adds
    have registered (locale : Locale) : after.get? locale = before.get? locale := by
      rw [leaves.registered]
      cases given : plan.given? locale with
      | none => rfl
      | some catalogue => exact (adds.registered locale catalogue given).symm
    have known (locale : Locale) : after.contains locale = before.contains locale := by
      rw [Registry.contains, registered, Registry.contains]
    refine afterSound.eq_of_get?_eq sound registered ?_
    by_cases declares : ∃ locale, plan.fallback = some locale ∧ before.contains locale = true
    · obtain ⟨locale, chosen, contained⟩ := declares
      rw [leaves.declared locale chosen ((known locale).trans contained),
        adds.declared locale chosen contained]
    · refine leaves.kept fun locale chosen => ?_
      rw [known]
      exact Bool.eq_false_iff.mpr fun contained => declares ⟨locale, chosen, contained⟩

end Plan

theorem setRegistry_eq_self_iff {session : Session n} {member : Member n}
    (placed : member.registry < session.registries.length) {registry : Registry} :
    session.setRegistry member registry = session ↔ registry = session.registryOf member := by
  have own := getElem?_registry placed
  constructor
  · intro same
    have changed : (session.setRegistry member registry).registries[member.registry]? =
        some registry := List.getElem?_set_self placed
    rw [same, own] at changed
    exact (Option.some.inj changed).symm
  · rintro rfl
    have kept : session.registries.set member.registry (session.registryOf member) =
        session.registries := by
      obtain ⟨_, here⟩ := List.getElem?_eq_some_iff.mp own
      rw [← here, List.set_getElem_self]
    rw [setRegistry, kept]

/-- Translators over one registry see its change, and the others do not. -/
theorem translatorOf_setRegistry {session : Session n} {member : Member n}
    (placed : member.registry < session.registries.length) (registry : Registry)
    (other : Member n) : (session.setRegistry member registry).translatorOf other =
      { session.translatorOf other with
        registry := if other.registry = member.registry then registry
          else session.registryOf other } := by
  have seen : (session.setRegistry member registry).registryOf other =
      if other.registry = member.registry then registry else session.registryOf other := by
    split
    · next same =>
      rw [registryOf, same, setRegistry, List.getElem?_set_self placed, Option.getD_some]
    · next different =>
      rw [registryOf, setRegistry, List.getElem?_set_ne (Ne.symm different), registryOf]
  rw [translatorOf, seen]
  rfl

/-- A build over the registry of another translator is over at once. -/
theorem perform_build {session : Session n} {target : Fin n} {member : Member n}
    (present : session.members[target.val]? = some member) (isDescribed : Bool) (plan : Plan) :
    session.perform (.build (some target) isDescribed (.ok plan)) =
      { session.buildShared member plan with
        events := (if isDescribed then [.described plan.description] else []) ++
          (session.buildShared member plan).events } := by
  refine performWithin_of_over ?_ n
  simp only [start, build, present]

/-- A failed build over a shared registry leaves what its plan has made of the registry. -/
theorem buildShared_of_error {session : Session n} {member : Member n} {plan : Plan}
    {failure : Failure} (failed : (session.buildShared member plan).reply = .error failure) :
    ∃ cause, (plan.apply (session.registryOf member)).2 = .error cause ∧ failure = .error cause ∧
      session.buildShared member plan =
        (session.setRegistry member (plan.apply (session.registryOf member)).1).unchanged
          (.error (.error cause)) := by
  unfold buildShared at failed ⊢
  split at failed
  · next registry cause applied =>
    cases failed
    rw [applied]
    exact ⟨cause, rfl, rfl, rfl⟩
  · cases failed

/-- **What a failed build leaves behind.** A translator whose plan shares the registry of another
one fails to come to be only for a locale that is unknown when the catalogues of the plan have been
registered. These stay registered, and the fallback of the plan stays declared, if it is known;
nothing else changes, and no observer is told of anything. So the session is as before exactly when
the plan adds nothing to the registry. -/
theorem failed_build_leaves {steps : List (Step n)} {moment : Moment n}
    (passes : Passes steps moment) {target : Fin n} {member : Member n}
    (present : moment.session.members[target.val]? = some member) {plan : Plan}
    {isDescribed : Bool} {failure : Failure}
    (failed : (moment.session.perform (.build (some target) isDescribed (.ok plan))).reply =
      .error failure) :
    let outcome := moment.session.perform (.build (some target) isDescribed (.ok plan))
    ∃ after locale, failure = .error (.unknownLocale locale) ∧ plan.FailsFor after locale ∧
      plan.Leaves (moment.session.registryOf member) after ∧
      outcome.session = moment.session.setRegistry member after ∧
      (∀ other, outcome.session.translatorOf other =
        { moment.session.translatorOf other with
          registry := if other.registry = member.registry then after
            else moment.session.registryOf other }) ∧
      (∀ event ∈ outcome.events, event = .described plan.description) ∧
      (outcome.session = moment.session ↔
        plan.AddsNothing (moment.session.registryOf member)) := by
  intro outcome
  have consistent := preserved_consistent.of_passes consistent_empty passes
  have placed := (consistent.fits member (List.mem_of_getElem? present)).placed
  have sound := consistent.sound _ (List.mem_of_getElem? (getElem?_registry placed))
  have leaves := plan.leaves_apply (moment.session.registryOf member)
  have afterSound := (plan.grows_apply (moment.session.registryOf member)).sound sound
  have performed : outcome = _ := perform_build present isDescribed plan
  have replied : (moment.session.buildShared member plan).reply = .error failure :=
    (congrArg Outcome.reply performed).symm.trans failed
  obtain ⟨cause, refused, rfl, built⟩ := buildShared_of_error replied
  obtain ⟨locale, fails, rfl⟩ := (plan.apply_eq_error_iff _ cause).mp refused
  rw [built] at performed
  have changed : outcome.session = moment.session.setRegistry member
      (plan.apply (moment.session.registryOf member)).1 := congrArg Outcome.session performed
  refine ⟨_, locale, rfl, fails, leaves, changed, ?_, ?_, ?_⟩
  · exact changed ▸ translatorOf_setRegistry placed _
  · intro event happened
    rw [performed] at happened
    simp only [unchanged, List.append_nil, List.mem_ite_nil_right, List.mem_singleton] at happened
    exact happened.2
  · rw [changed, ← leaves.eq_iff sound afterSound, setRegistry_eq_self_iff placed]

/-- The session in which a translator has an English catalogue as the fallback. -/
def englishSteps : List (Step 1) :=
  [.build none false (.ok { catalogues := [(.english, .empty)], fallback := some .english })]

/-- A plan that adds German and makes it the fallback, and then cannot activate Norwegian. -/
def germanPlan : Plan :=
  let norwegian : Locale := { Locale.english with language := ⟨"nb", by decide, by decide⟩ }
  { catalogues := [(.german, .empty)], fallback := some .german, active := some norwegian }

theorem failed_build_leaves_german :
    ∃ (moment : Moment 1) (member : Member 1) (failure : Failure), Passes englishSteps moment ∧
      moment.session.members[0]? = some member ∧
      (moment.session.perform (.build (some 0) false (.ok germanPlan))).reply = .error failure ∧
      ∃ after locale, failure = .error (.unknownLocale locale) ∧
        germanPlan.FailsFor after locale ∧
        germanPlan.Leaves (moment.session.registryOf member) after := by
  have passes : Passes englishSteps _ := (Moment.Moves.conclude rfl).leads
  obtain ⟨after, locale, cause, fails, leaves, _⟩ :=
    @failed_build_leaves 1 englishSteps _ passes 0 _ rfl germanPlan false _ rfl
  exact ⟨_, _, _, passes, rfl, rfl, after, locale, cause, fails, leaves⟩

/-- A build that fails may register a locale and change the current one of the translator whose
registry it shares. -/
theorem current_ne_after_failed_build :
    let before := (run {} englishSteps).1
    let outcome := before.perform (.build (some 0) false (.ok germanPlan))
    ∃ member failure, before.members[0]? = some member ∧ outcome.reply = .error failure ∧
      outcome.session.members = before.members ∧
      (before.registryOf member).contains .german = false ∧
      (outcome.session.registryOf member).contains .german = true ∧
      (before.translatorOf member).current = .ok .english ∧
      (outcome.session.translatorOf member).current = .ok .german :=
  ⟨_, _, rfl, rfl, rfl, by decide +kernel, by decide +kernel, rfl, rfl⟩

end Session

end Phrasebook
