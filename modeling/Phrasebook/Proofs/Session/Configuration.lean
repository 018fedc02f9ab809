import Phrasebook.Proofs.Session.Moments
import Phrasebook.Translator

/-! # Results depend on the configuration only

A successful call registers catalogues, declares a fallback or activates a locale, and a call
that fails does nothing of the kind, except that a translator which cannot be built leaves
what it has registered (`Phrasebook.Session.deedsOf`). At any moment of a run each registry
holds the last catalogue of each locale and the last fallback, and each translator has the last
locale that was activated (`Phrasebook.Session.Passes.follows`). So two runs that agree on
these give the same results, whatever has happened before
(`Phrasebook.Session.results_eq_of_configuration_eq`).
-/

namespace Phrasebook.Session

variable {n : Nat}

/-- What a call registers, declares or activates, for a registry or a translator of the given
number. -/
inductive Deed
  | registered (registry : Nat) (locale : Locale) (catalogue : Catalogue)
  | declared (registry : Nat) (locale : Locale)
  | activated (translator : Nat) (locale : Locale)

namespace Deed

/-- The catalogue that is registered for a locale. -/
def registered? (registry : Nat) (locale : Locale) : Deed → Option Catalogue
  | .registered number tag catalogue =>
    if number = registry ∧ tag = locale then some catalogue else none
  | _ => none

/-- The locale that is declared as the fallback. -/
def declared? (registry : Nat) : Deed → Option Locale
  | .declared number locale => if number = registry then some locale else none
  | _ => none

/-- The locale that is activated. -/
def activated? (translator : Nat) : Deed → Option Locale
  | .activated number locale => if number = translator then some locale else none
  | _ => none

/-- The registry that is changed. -/
def registry? : Deed → Option Nat
  | .registered number _ _ | .declared number _ => some number
  | .activated _ _ => none

end Deed

section Last

variable {α : Type}

/-- The last of what deeds do in one respect. -/
def lastOf (pick : Deed → Option α) (deeds : List Deed) : Option α :=
  (deeds.filterMap pick).getLast?

/-- Later deeds replace earlier ones, and these what there was before. -/
theorem lastOf_append_or (pick : Deed → Option α) (deeds more : List Deed)
    (before : Option α) :
    (lastOf pick (deeds ++ more)).or before =
      (lastOf pick more).or ((lastOf pick deeds).or before) := by
  rw [lastOf, List.filterMap_append, List.getLast?_append, Option.or_assoc, lastOf, lastOf]

theorem lastOf_singleton (pick : Deed → Option α) (deed : Deed) :
    lastOf pick [deed] = pick deed := by
  cases picked : pick deed with
  | none => rw [lastOf, List.filterMap_cons_none picked, List.filterMap_nil, List.getLast?_nil]
  | some item =>
    rw [lastOf, List.filterMap_cons_some picked, List.filterMap_nil, List.getLast?_singleton]

theorem lastOf_eq_none {pick : Deed → Option α} {deeds : List Deed}
    (absent : ∀ deed ∈ deeds, pick deed = none) : lastOf pick deeds = none := by
  rw [lastOf, List.filterMap_eq_nil_iff.mpr absent, List.getLast?_nil]

end Last

/-- The catalogue that was registered last for a locale. -/
def lastRegistered (registry : Nat) (locale : Locale) (deeds : List Deed) : Option Catalogue :=
  lastOf (Deed.registered? registry locale) deeds

/-- The fallback that was declared last. -/
def lastDeclared (registry : Nat) (deeds : List Deed) : Option Locale :=
  lastOf (Deed.declared? registry) deeds

/-- The locale that was activated last. -/
def lastActivated (translator : Nat) (deeds : List Deed) : Option Locale :=
  lastOf (Deed.activated? translator) deeds

/-- Whether the call of a step is successful. -/
def succeeds (session : Session n) (step : Step n) : Bool :=
  (session.perform step).reply.isOk

/-- What a plan does to a registry: it registers its catalogues and declares its fallback, if
that is registered then. -/
def Plan.deeds (plan : Plan) (number : Nat) (registry : Registry) : List Deed :=
  plan.catalogues.map (fun item => .registered number item.1 item.2) ++
    match plan.fallback with
    | none => []
    | some locale =>
      if locale ∈ plan.catalogues.map Prod.fst ∨ registry.contains locale = true then
        [.declared number locale]
      else []

/-- What is done to a translator, if there is one of the number. -/
def deedsOn (session : Session n) (target : Fin n) (deeds : Member n → List Deed) : List Deed :=
  match session.members[target.val]? with
  | some member => deeds member
  | none => []

/-- What a call does. -/
def deedsOf (session : Session n) (step : Step n) : List Deed :=
  match step with
  | .build none _ (.ok plan) =>
    if session.succeeds step then
      plan.deeds session.registries.length .empty ++
        plan.active.toList.map (.activated session.members.length)
    else []
  | .build (some target) _ (.ok plan) =>
    session.deedsOn target (fun member =>
        plan.deeds member.registry (session.registryOf member)) ++
      if session.succeeds step then plan.active.toList.map (.activated session.members.length)
      else []
  | .register target locale catalogue =>
    session.deedsOn target fun member => [.registered member.registry locale catalogue]
  | .setFallback target locale =>
    session.deedsOn target fun member =>
      if session.succeeds step then [.declared member.registry locale] else []
  | .setActive target locale =>
    if session.succeeds step then [.activated target locale] else []
  | _ => []

/-- What the calls up to a moment have done. -/
def Moment.deeds (moment : Moment n) : List Deed :=
  moment.calls.flatMap fun call => deedsOf call.1 call.2

/-- A registry in which deeds have been done: later ones have replaced earlier ones. -/
structure Writes (number : Nat) (before : Registry) (deeds : List Deed) (after : Registry) :
    Prop where
  registered : ∀ locale,
    after.get? locale = (lastRegistered number locale deeds).or (before.get? locale)
  declared : after.fallback = (lastDeclared number deeds).or before.fallback
  own : ∀ deed ∈ deeds, deed.registry? = some number

namespace Writes

variable {number : Nat} {registry : Registry}

theorem refl (number : Nat) (registry : Registry) : Writes number registry [] registry :=
  ⟨fun _ => rfl, rfl, List.forall_mem_nil _⟩

theorem trans {middle after : Registry} {deeds more : List Deed}
    (first : Writes number registry deeds middle) (second : Writes number middle more after) :
    Writes number registry (deeds ++ more) after where
  registered := by
    intro locale
    rw [second.registered, first.registered]
    exact (lastOf_append_or ..).symm
  declared := by
    rw [second.declared, first.declared]
    exact (lastOf_append_or ..).symm
  own := List.forall_mem_append.mpr ⟨first.own, second.own⟩

theorem register (number : Nat) (registry : Registry) (locale : Locale) (catalogue : Catalogue) :
    Writes number registry [.registered number locale catalogue]
      (registry.register locale catalogue) where
  registered := by
    intro other
    rw [lastRegistered, lastOf_singleton]
    by_cases same : locale = other
    · subst same
      simp [Deed.registered?, Registry.get?_register_self]
    · simp [Deed.registered?, same, Registry.get?_register_of_ne registry (Ne.symm same)]
  declared := rfl
  own := List.forall_mem_singleton.mpr rfl

theorem setFallback (number : Nat) {next : Registry} {locale : Locale}
    (declared : registry.setFallback locale = .ok next) :
    Writes number registry [.declared number locale] next where
  registered := by
    intro other
    obtain ⟨_, rfl⟩ := Registry.setFallback_eq_ok_iff.mp declared
    rfl
  declared := by
    obtain ⟨_, rfl⟩ := Registry.setFallback_eq_ok_iff.mp declared
    simp [lastDeclared, lastOf_singleton, Deed.declared?]
  own := List.forall_mem_singleton.mpr rfl

theorem registerAll (number : Nat) (registry : Registry)
    (catalogues : List (Locale × Catalogue)) :
    Writes number registry (catalogues.map fun item => .registered number item.1 item.2)
      (catalogues.foldl (fun registry item => registry.register item.1 item.2) registry) := by
  induction catalogues generalizing registry with
  | nil => exact refl number registry
  | cons item rest ih => exact (register number registry item.1 item.2).trans (ih _)

end Writes

theorem contains_registerAll {registry : Registry} {locale : Locale}
    (catalogues : List (Locale × Catalogue)) :
    (catalogues.foldl (fun registry item => registry.register item.1 item.2) registry).contains
        locale = true ↔
      locale ∈ catalogues.map Prod.fst ∨ registry.contains locale = true := by
  induction catalogues generalizing registry with
  | nil => simp
  | cons item rest ih =>
    rw [List.foldl_cons, ih, Registry.contains_register, List.map_cons, List.mem_cons]
    tauto

/-- Applying a plan does what its deeds say, also when it fails. -/
theorem Plan.writes_apply (plan : Plan) (number : Nat) (registry : Registry) :
    Writes number registry (plan.deeds number registry) (plan.apply registry).1 := by
  have registered := Writes.registerAll number registry plan.catalogues
  unfold Plan.deeds Plan.apply
  cases plan.fallback with
  | none => simpa using registered
  | some locale =>
    dsimp only
    by_cases known : locale ∈ plan.catalogues.map Prod.fst ∨ registry.contains locale = true
    · have contained := (contains_registerAll plan.catalogues).mpr known
      have declared := Registry.setFallback_eq_ok_iff.mpr ⟨contained, rfl⟩
      rw [if_pos known, declared]
      exact registered.trans (.setFallback number declared)
    · have missing := mt (contains_registerAll plan.catalogues).mp known
      rw [if_neg known, Registry.setFallback, if_neg missing, List.append_nil]
      exact registered

/-- The registry of a number, which is empty before it exists. -/
def registryAt (session : Session n) (number : Nat) : Registry :=
  session.registries[number]?.getD .empty

/-- A session in which deeds have been done. -/
structure Follows (before : Session n) (deeds : List Deed) (after : Session n) : Prop where
  registered : ∀ number locale, (after.registryAt number).get? locale =
    (lastRegistered number locale deeds).or ((before.registryAt number).get? locale)
  declared : ∀ number, (after.registryAt number).fallback =
    (lastDeclared number deeds).or (before.registryAt number).fallback
  activated : ∀ target,
    after.activeOf target = (lastActivated target deeds).or (before.activeOf target)

namespace Follows

variable {session : Session n}

theorem trans {middle after : Session n} {deeds more : List Deed}
    (first : Follows session deeds middle) (second : Follows middle more after) :
    Follows session (deeds ++ more) after where
  registered := by
    intro number locale
    rw [second.registered, first.registered]
    exact (lastOf_append_or ..).symm
  declared := by
    intro number
    rw [second.declared, first.declared]
    exact (lastOf_append_or ..).symm
  activated := by
    intro target
    rw [second.activated, first.activated]
    exact (lastOf_append_or ..).symm

/-- Where registries and active locales stay, nothing has been done. -/
theorem nil {after : Session n} (registries : after.registries = session.registries)
    (active : ∀ target, after.activeOf target = session.activeOf target) :
    Follows session [] after where
  registered := fun number locale => by rw [registryAt, registries]; rfl
  declared := fun number => by rw [registryAt, registries]; rfl
  activated := active

theorem activation {after : Session n} {target : Nat} {locale : Locale}
    (registries : after.registries = session.registries)
    (active : ∀ number, after.activeOf number =
      if target = number then some locale else session.activeOf number) :
    Follows session [.activated target locale] after where
  registered := fun number locale => by rw [registryAt, registries]; rfl
  declared := fun number => by rw [registryAt, registries]; rfl
  activated := by
    intro number
    rw [active, lastActivated, lastOf_singleton, Deed.activated?]
    split <;> rfl

/-- What is written to one registry leaves all else as it is. -/
theorem writes {after : Session n} {number : Nat} {deeds : List Deed}
    (writes : Writes number (session.registryAt number) deeds (after.registryAt number))
    (others : ∀ other, other ≠ number → after.registryAt other = session.registryAt other)
    (active : ∀ target, after.activeOf target = session.activeOf target) :
    Follows session deeds after := by
  have absent {α : Type} {pick : Deed → Option α}
      (own : ∀ deed, deed.registry? = some number → pick deed = none) : lastOf pick deeds = none :=
    lastOf_eq_none fun deed done => own deed (writes.own deed done)
  refine ⟨fun other locale => ?_, fun other => ?_, fun target => ?_⟩
  · by_cases same : other = number
    · exact same ▸ writes.registered locale
    · have untouched : lastRegistered other locale deeds = none := by
        refine absent fun deed own => ?_
        cases deed with
        | registered registry tag catalogue =>
          exact if_neg fun mine => same (mine.1.symm.trans (Option.some.inj own))
        | _ => rfl
      rw [others other same, untouched, Option.none_or]
  · by_cases same : other = number
    · exact same ▸ writes.declared
    · have untouched : lastDeclared other deeds = none := by
        refine absent fun deed own => ?_
        cases deed with
        | declared registry locale =>
          exact if_neg fun mine => same (mine.symm.trans (Option.some.inj own))
        | _ => rfl
      rw [others other same, untouched, Option.none_or]
  · have untouched : lastActivated target deeds = none := by
      refine absent fun deed own => ?_
      cases deed with
      | activated translator locale => cases own
      | _ => rfl
    rw [active, untouched, Option.none_or]

theorem setRegistry {member : Member n} (placed : member.registry < session.registries.length)
    {registry : Registry} {deeds : List Deed}
    (written : Writes member.registry (session.registryOf member) deeds registry) :
    Follows session deeds (session.setRegistry member registry) := by
  have own : (session.setRegistry member registry).registryAt member.registry = registry := by
    rw [registryAt, Session.setRegistry, List.getElem?_set_self placed, Option.getD_some]
  have changed : Writes member.registry (session.registryAt member.registry) deeds
      ((session.setRegistry member registry).registryAt member.registry) := by
    rw [own]
    exact written
  refine writes changed (fun other different => ?_) fun _ => rfl
  rw [registryAt, Session.setRegistry, List.getElem?_set_ne (Ne.symm different), registryAt]

theorem addRegistry {registry : Registry} {deeds : List Deed}
    (written : Writes session.registries.length .empty deeds registry) :
    Follows session deeds { session with registries := session.registries ++ [registry] } := by
  have fresh : session.registryAt session.registries.length = .empty := by
    rw [registryAt, List.getElem?_eq_none (Nat.le_refl _), Option.getD_none]
  have own : registryAt { session with registries := session.registries ++ [registry] }
      session.registries.length = registry := by
    rw [registryAt, List.getElem?_concat_length, Option.getD_some]
  refine writes (fresh.symm ▸ own.symm ▸ written) (fun other different => ?_) fun _ => rfl
  have kept : (session.registries ++ [registry])[other]? = session.registries[other]? := by
    grind
  rw [registryAt, kept, registryAt]

theorem enrol (session : Session n) (registry : Nat) (plan : Plan) :
    Follows session (plan.active.toList.map (.activated session.members.length))
      (session.enrol registry plan).session := by
  cases active : plan.active with
  | none =>
    refine nil rfl fun target => ?_
    rw [activeOf_enrol]
    split
    · next own => rw [own, activeOf_length, active]
    · rfl
  | some locale =>
    refine activation rfl fun target => ?_
    rw [activeOf_enrol, active]
    simp only [eq_comm]

end Follows

theorem succeeds_of_over {session : Session n} {step : Step n} {outcome : Outcome n}
    (ended : session.start step = .over outcome) :
    session.succeeds step = outcome.reply.isOk := by
  rw [succeeds, perform, performWithin_of_over ended]

/-- A call that opens a round is successful. -/
theorem succeeds_of_round {session opened : Session n} {step : Step n} {target : Nat}
    {change : Change} {observers : List (Observer n)}
    (begun : session.start step = .round opened target change observers) :
    session.succeeds step = true := by
  obtain ⟨number, _⟩ := opening_of_start begun
  cases n with
  | zero => exact number.elim0
  | succ depth =>
    rw [succeeds, perform, performWithin_of_round begun]
    rfl

theorem follows_buildAlone (session : Session n) (plan : Plan) :
    Follows session
      (if (session.buildAlone plan).reply.isOk then
        plan.deeds session.registries.length .empty ++
          plan.active.toList.map (.activated session.members.length)
      else [])
      (session.buildAlone plan).session := by
  have written := plan.writes_apply session.registries.length .empty
  unfold buildAlone
  split
  · exact .nil rfl fun _ => rfl
  · next registry applied =>
    rw [applied] at written
    exact (Follows.addRegistry written).trans (.enrol _ _ plan)

theorem follows_buildShared {session : Session n} {member : Member n}
    (placed : member.registry < session.registries.length) (plan : Plan) :
    Follows session
      (plan.deeds member.registry (session.registryOf member) ++
        if (session.buildShared member plan).reply.isOk then
          plan.active.toList.map (.activated session.members.length)
        else [])
      (session.buildShared member plan).session := by
  have written := plan.writes_apply member.registry (session.registryOf member)
  unfold buildShared
  split
  · next registry cause applied =>
    rw [applied] at written
    exact (Follows.setRegistry placed written).trans (.nil rfl fun _ => rfl)
  · next registry applied =>
    rw [applied] at written
    exact (Follows.setRegistry placed written).trans (.enrol _ _ plan)

theorem follows_build {session : Session n} (consistent : session.Consistent)
    (share : Option (Fin n)) (isDescribed : Bool) (plan : Except Failure Plan) :
    Follows session (deedsOf session (.build share isDescribed plan))
      (session.build share isDescribed plan).session := by
  have replied : session.succeeds (.build share isDescribed plan) =
      (session.build share isDescribed plan).reply.isOk := succeeds_of_over rfl
  cases plan with
  | error cause =>
    cases share with
    | none => exact .nil rfl fun _ => rfl
    | some target =>
      unfold build
      dsimp only
      split
      · exact .nil rfl fun _ => rfl
      · exact .nil rfl fun _ => rfl
  | ok plan =>
    unfold deedsOf
    rw [replied]
    cases share with
    | none => exact session.follows_buildAlone plan
    | some target =>
      unfold build deedsOn
      cases present : session.members[target.val]? with
      | none =>
        simp only [present]
        exact .nil rfl fun _ => rfl
      | some member =>
        simp only [present]
        have placed := (consistent.fits member (List.mem_of_getElem? present)).placed
        exact follows_buildShared placed plan

theorem follows_withMember {session : Session n} {target : Fin n} {next : Member n → Beginning n}
    {deeds : Member n → List Deed}
    (follows : ∀ member, session.members[target.val]? = some member →
      Follows session (deeds member) (next member).session) :
    Follows session (session.deedsOn target deeds)
      (start.withMember session target next).session := by
  unfold deedsOn start.withMember
  cases present : session.members[target.val]? with
  | some member => exact follows member present
  | none => exact .nil rfl fun _ => rfl

/-- Where a step does nothing to a translator, nothing has been done. -/
theorem follows_nothing {session : Session n} {target : Fin n} {next : Member n → Beginning n}
    (registries : ∀ member, (next member).session.registries = session.registries)
    (active : ∀ member, session.members[target.val]? = some member →
      ∀ number, (next member).session.activeOf number = session.activeOf number) :
    Follows session [] (start.withMember session target next).session := by
  unfold start.withMember
  split
  · next member present => exact .nil (registries member) (active member present)
  · exact .nil rfl fun _ => rfl

theorem follows_setFallback {session : Session n} (consistent : session.Consistent)
    (target : Fin n) (locale : Locale) :
    Follows session (deedsOf session (.setFallback target locale))
      (session.start (.setFallback target locale)).session := by
  refine follows_withMember fun member present => ?_
  have placed := (consistent.fits member (List.mem_of_getElem? present)).placed
  cases declared : (session.registryOf member).setFallback locale with
  | error cause =>
    have ended : session.start (.setFallback target locale) =
        .over (session.unchanged (.error (.error cause))) := by
      simp only [start, start.withMember, present, declared]
    rw [succeeds_of_over ended]
    exact .nil rfl fun _ => rfl
  | ok registry =>
    have ended : session.start (.setFallback target locale) =
        .over ((session.setRegistry member registry).unchanged (.ok .done)) := by
      simp only [start, start.withMember, present, declared]
    rw [succeeds_of_over ended]
    exact .setRegistry placed (.setFallback member.registry declared)

theorem follows_setActive (session : Session n) (target : Fin n) (locale : Locale) :
    Follows session (deedsOf session (.setActive target locale))
      (session.start (.setActive target locale)).session := by
  unfold deedsOf
  rcases begun : session.start (.setActive target locale) with
    outcome | ⟨opened, number, change, observers⟩
  · obtain ⟨_, same, refused, refusedOrActive⟩ := over_setActive begun
    rw [succeeds_of_over begun, Beginning.session, same]
    cases replied : outcome.reply with
    | error cause => exact .nil rfl fun _ => rfl
    | ok answer =>
      -- what is not refused has been active before
      have active : session.activeOf target = some locale := by
        refine refusedOrActive.resolve_left ?_
        rintro ⟨cause, refuses⟩
        rw [(refused cause).mpr refuses] at replied
        cases replied
      refine .activation rfl fun number => ?_
      split
      · next own => exact own ▸ active
      · rfl
  · rw [succeeds_of_round begun]
    obtain ⟨_, member, activation, rfl, opening, rfl, _⟩ := opening_of_start begun
    cases activation
    refine .activation rfl fun number => ?_
    rw [Beginning.session, openRound, activeOf_setSelector opening.present]

/-- **What a call does.** A step begins with the deeds of its call. -/
theorem follows_start {session : Session n} (consistent : session.Consistent) (step : Step n) :
    Follows session (deedsOf session step) (session.start step).session := by
  cases step with
  | build share isDescribed plan => exact follows_build consistent share isDescribed plan
  | ask target query => exact follows_nothing (fun _ => rfl) fun _ _ _ => rfl
  | register target locale catalogue =>
    refine follows_withMember fun member present => ?_
    have placed := (consistent.fits member (List.mem_of_getElem? present)).placed
    exact .setRegistry placed (.register member.registry _ locale catalogue)
  | setFallback target locale => exact follows_setFallback consistent target locale
  | setActive target locale => exact session.follows_setActive target locale
  | subscribe target script =>
    exact follows_nothing (fun _ => rfl) fun _ present => activeOf_setSelector_of_same present _ rfl
  | unsubscribe target ticket =>
    refine follows_nothing (fun member => ?_) fun member present => ?_
    · split
      · rfl
      · rfl
    · split
      · exact fun _ => rfl
      · exact activeOf_setSelector_of_same present _ rfl
  | unreadable target cause => exact follows_nothing (fun _ => rfl) fun _ _ _ => rfl

theorem follows_settle (session : Session n) (target : Nat) :
    Follows session [] (session.settle target) :=
  .nil rfl fun number => activeOf_settle session target number

/-- A move does what the call that it begins does, if any. -/
theorem Moment.Moves.follows {moment next : Moment n} (moves : moment.Moves next)
    (consistent : moment.session.Consistent)
    (follows : Follows {} moment.deeds moment.session) : Follows {} next.deeds next.session := by
  have called (log : List Event) {calls : List (Session n × Step n)} {before after : Session n}
      (agenda : List (Pending n)) {step : Step n}
      (earlier : Follows {} (calls.flatMap fun call => deedsOf call.1 call.2) before)
      (done : Follows before (deedsOf before step) after) :
      Follows {} (Moment.deeds ⟨log, calls ++ [(before, step)], after, agenda⟩) after := by
    rw [Moment.deeds, List.flatMap_append, List.flatMap_singleton]
    exact earlier.trans done
  cases moves with
  | @conclude _ _ _ _ step _ _ ended =>
    have done := follows_start consistent step
    rw [ended] at done
    exact called _ _ follows done
  | @round _ _ _ _ _ step _ _ _ _ begun =>
    have done := follows_start consistent step
    rw [begun] at done
    exact called _ _ follows done
  | tell => exact follows
  | @settle _ _ session target _ _ =>
    have settled := follows.trans (session.follows_settle target)
    rw [List.append_nil] at settled
    exact settled

/-- **What the calls of a run have done.** -/
theorem Passes.follows {steps : List (Step n)} {moment : Moment n}
    (passes : Passes steps moment) : Follows {} moment.deeds moment.session := by
  induction passes with
  | refl => exact .nil rfl fun _ => rfl
  | @tail moment next passes moves ih =>
    have consistent : moment.session.Consistent :=
      preserved_consistent.of_leads passes consistent_empty
    exact moves.follows consistent ih

/-- What a translator is in at some moment is what has been done last to it and its registry. -/
theorem Passes.translatorOf_eq {m : Nat} {steps : List (Step n)} {others : List (Step m)}
    {first : Moment n} {second : Moment m} (passes : Passes steps first)
    (otherPasses : Passes others second) {target number : Nat} {member : Member n}
    {other : Member m} (present : first.session.members[target]? = some member)
    (otherPresent : second.session.members[number]? = some other)
    (registered : ∀ locale, lastRegistered member.registry locale first.deeds =
      lastRegistered other.registry locale second.deeds)
    (declared : lastDeclared member.registry first.deeds =
      lastDeclared other.registry second.deeds)
    (activated : lastActivated target first.deeds = lastActivated number second.deeds)
    (escaping : member.escaping = other.escaping) :
    first.session.translatorOf member = second.session.translatorOf other := by
  have sound {k : Nat} {steps : List (Step k)} {moment : Moment k} (passes : Passes steps moment)
      {target : Nat} {member : Member k} (present : moment.session.members[target]? = some member) :
      (moment.session.registryOf member).Sound := by
    have consistent := preserved_consistent.of_passes consistent_empty passes
    have fits := consistent.fits member (List.mem_of_getElem? present)
    exact consistent.sound _ (List.mem_of_getElem? (getElem?_registry fits.placed))
  have registries : first.session.registryOf member = second.session.registryOf other := by
    refine (sound passes present).eq_of_get?_eq (sound otherPasses otherPresent) ?_ ?_
    · intro locale
      have mine := passes.follows.registered member.registry locale
      have theirs := otherPasses.follows.registered other.registry locale
      rw [registered locale] at mine
      exact mine.trans theirs.symm
    · have mine := passes.follows.declared member.registry
      have theirs := otherPasses.follows.declared other.registry
      rw [declared] at mine
      exact mine.trans theirs.symm
  have active : member.selector.active = other.selector.active := by
    have mine := passes.follows.activated target
    have theirs := otherPasses.follows.activated number
    rw [activated] at mine
    rw [← activeOf_eq present, ← activeOf_eq otherPresent]
    exact mine.trans theirs.symm
  rw [translatorOf, translatorOf, registries, active, escaping]

/-- **Results depend on the configuration only.** Consider a translator at any moment of a run
and one at any moment of another run. If the last catalogue registered for each locale, the last
declared fallback and the last activated locale are the same, and values are written the same
way, then the current locale, the registered locales, the coverage and all look-ups are the
same, whatever else has happened in the runs. -/
theorem results_eq_of_configuration_eq {m : Nat} {steps : List (Step n)} {others : List (Step m)}
    {first : Moment n} {second : Moment m} (passes : Passes steps first)
    (otherPasses : Passes others second) {target number : Nat} {member : Member n}
    {other : Member m} (present : first.session.members[target]? = some member)
    (otherPresent : second.session.members[number]? = some other)
    (registered : ∀ locale, lastRegistered member.registry locale first.deeds =
      lastRegistered other.registry locale second.deeds)
    (declared : lastDeclared member.registry first.deeds =
      lastDeclared other.registry second.deeds)
    (activated : lastActivated target first.deeds = lastActivated number second.deeds)
    (escaping : member.escaping = other.escaping) :
    let translator := first.session.translatorOf member
    let another := second.session.translatorOf other
    translator.current = another.current ∧
      translator.registry.locales = another.registry.locales ∧
      translator.registry.coverage = another.registry.coverage ∧
      (∀ locale address index, translator.registry.find locale address index =
        another.registry.find locale address index) ∧
      (∀ path arguments,
        translator.localizer.lookUp path arguments = another.localizer.lookUp path arguments) ∧
      (∀ path arguments, translator.text path arguments = another.text path arguments) ∧
      (∀ locale path arguments,
        translator.textIn locale path arguments = another.textIn locale path arguments) ∧
      (∀ path index arguments,
        translator.textAt path index arguments = another.textAt path index arguments) ∧
      (∀ path arguments, translator.texts path arguments = another.texts path arguments) ∧
      ∀ locale path arguments,
        translator.entry locale path arguments = another.entry locale path arguments := by
  have same := passes.translatorOf_eq otherPasses present otherPresent registered declared
    activated escaping
  intro translator another
  have equal : translator = another := same
  rw [equal]
  exact ⟨rfl, rfl, rfl, fun _ _ _ => rfl, fun _ _ => rfl, fun _ _ => rfl, fun _ _ _ => rfl,
    fun _ _ _ => rfl, fun _ _ => rfl, fun _ _ _ => rfl⟩

/-- A catalogue of one entry. -/
def titleCatalogue : Catalogue := ⟨[("title", .entry (.scalar ⟨"Menu"⟩))]⟩

/-- A translator is built with an English catalogue, which is the fallback and active. -/
def directSteps : List (Step 1) :=
  [.build none false (.ok
    { catalogues := [(.english, titleCatalogue)]
      fallback := some .english
      active := some .english })]

/-- A translator is built with an empty English catalogue, which is active; German cannot be
activated, and then the English catalogue is replaced and becomes the fallback. -/
def indirectSteps : List (Step 1) :=
  [.build none false (.ok { catalogues := [(.english, .empty)], active := some .english }),
    .setActive 0 .german, .register 0 .english titleCatalogue, .setFallback 0 .english]

/-- Both translators give the same results. -/
theorem results_eq_of_configuration_eq_english :
    ∃ (first second : Moment 1) (member other : Member 1),
      Passes directSteps first ∧ Passes indirectSteps second ∧
        first.agenda = [] ∧ second.agenda = [] ∧
        first.session.members[0]? = some member ∧ second.session.members[0]? = some other ∧
        ∀ path arguments, (first.session.translatorOf member).text path arguments =
          (second.session.translatorOf other).text path arguments := by
  have passes : Passes directSteps _ := (Moment.Moves.conclude rfl).leads
  have otherPasses : Passes indirectSteps _ :=
    (Moment.Moves.conclude rfl).leads.trans <| (Moment.Moves.conclude rfl).leads.trans <|
      (Moment.Moves.conclude rfl).leads.trans (Moment.Moves.conclude rfl).leads
  have registered (locale : Locale) :
      lastRegistered 0 locale [.registered 0 .english titleCatalogue, .declared 0 .english,
        .activated 0 .english] =
      lastRegistered 0 locale [.registered 0 .english .empty, .activated 0 .english,
        .registered 0 .english titleCatalogue, .declared 0 .english] := by
    by_cases same : Locale.english = locale
    · subst same
      rfl
    · rw [lastRegistered, lastRegistered, lastOf_eq_none, lastOf_eq_none]
      · simp [Deed.registered?, same]
      · simp [Deed.registered?, same]
  obtain ⟨_, _, _, _, _, text, _⟩ := @results_eq_of_configuration_eq 1 1 directSteps indirectSteps
    _ _ passes otherPasses 0 0 _ _ rfl rfl registered rfl rfl rfl
  exact ⟨_, _, _, _, passes, otherPasses, rfl, rfl, rfl, rfl, text⟩

end Phrasebook.Session
