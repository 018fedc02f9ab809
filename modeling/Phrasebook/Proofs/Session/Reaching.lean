import Phrasebook.Proofs.Registry.Growth
import Phrasebook.Proofs.Session.History

/-! # What steps do to a session

Every step alters a session by small changes, one after another
(`Phrasebook.Session.Alters`): a translator is added with a registry of its own, a
registry grows, a translator joins it, or the selector of a translator activates a
registered locale, gains or loses observers, or ends its round. A session reaches every
later one by such changes (`Phrasebook.Session.Reaches`), at the start of a step
(`Phrasebook.Session.reaches_start`) as well as after whole runs
(`Phrasebook.Session.reaches_run`), so what they keep holds throughout
(`Phrasebook.Session.Preserved.of_reaches`).
-/

namespace Phrasebook.Session

variable {n : Nat}

/-- One small change of a session. -/
inductive Alters : Session n → Session n → Prop
  | found (session : Session n) {registry : Registry} (grown : Registry.empty.Grows registry)
      {added : Member n} (number : added.registry = session.registries.length)
      (active : ∀ locale, added.selector.active = some locale → registry.contains locale = true) :
      Alters session
        { session with
          registries := session.registries ++ [registry]
          members := session.members ++ [added] }
  | grow {session : Session n} {member : Member n} {target : Nat}
      (present : session.members[target]? = some member) {registry : Registry}
      (grown : (session.registryOf member).Grows registry) :
      Alters session (session.setRegistry member registry)
  | join {session : Session n} {member : Member n} {target : Nat}
      (present : session.members[target]? = some member) {registry : Registry}
      (grown : (session.registryOf member).Grows registry) {added : Member n}
      (number : added.registry = member.registry)
      (active : ∀ locale, added.selector.active = some locale → registry.contains locale = true) :
      Alters session
        { session.setRegistry member registry with members := session.members ++ [added] }
  | select {session : Session n} {member : Member n} {target : Nat}
      (present : session.members[target]? = some member) {locale : Locale} {change : Change}
      {selector : Selector (Observer n)}
      (selected : member.selector.select (session.registryOf member) locale =
        .ok (some (change, selector))) :
      Alters session (session.setSelector target selector)
  | subscribe {session : Session n} {member : Member n} {target : Nat}
      (present : session.members[target]? = some member) (observer : Observer n) :
      Alters session
        { session.setSelector target (member.selector.subscribe observer).2 with
          handles := session.handles ++ [(member.selector.subscribe observer).1] }
  | unsubscribe {session : Session n} {member : Member n} {target : Nat}
      (present : session.members[target]? = some member) (handle : Nat) :
      Alters session (session.setSelector target (member.selector.unsubscribe handle).2)
  | settle (session : Session n) (target : Nat) : Alters session (session.settle target)

/-- A session reached from another one by small changes. -/
def Reaches (before after : Session n) : Prop := Relation.ReflTransGen Alters before after

theorem Reaches.trans {before middle after : Session n} (first : before.Reaches middle)
    (second : middle.Reaches after) : before.Reaches after :=
  Relation.ReflTransGen.trans first second

/-- Applying a plan registers catalogues and declares a fallback. -/
theorem Plan.grows_apply (plan : Plan) (registry : Registry) :
    registry.Grows (plan.apply registry).1 := by
  have registered (catalogues : List (Locale × Catalogue)) :
      registry.Grows
        (catalogues.foldl (fun registry item => registry.register item.1 item.2) registry) := by
    induction catalogues generalizing registry with
    | nil => exact .refl
    | cons item rest ih => exact .head (.register registry item.1 item.2) (ih _)
  unfold Plan.apply
  cases plan.fallback with
  | none => exact registered plan.catalogues
  | some fallback =>
    dsimp only
    split
    · exact registered plan.catalogues
    · next declared => exact .tail (registered plan.catalogues) (.setFallback declared)

/-- A plan whose locales are known activates a registered locale, if any. -/
theorem Plan.contains_apply {plan : Plan} {registry : Registry}
    (applied : (plan.apply registry).2 = .ok ()) {locale : Locale}
    (active : plan.active = some locale) : (plan.apply registry).1.contains locale = true := by
  have checked {registry : Registry} (passed : plan.checkActive registry = .ok ()) :
      registry.contains locale = true := by
    simp only [checkActive, active] at passed
    split at passed
    · assumption
    · cases passed
  unfold Plan.apply at applied ⊢
  cases declared : plan.fallback with
  | none =>
    rw [declared] at applied
    exact checked applied
  | some fallback =>
    rw [declared] at applied
    dsimp only at applied ⊢
    split at applied
    · cases applied
    · exact checked applied

/-- The session with which a step begins: the one that it leaves when it is over at once,
or the one in which it opens a round. -/
def Beginning.session : Beginning n → Session n
  | .over outcome => outcome.session
  | .round session _ _ _ => session

theorem reaches_buildAlone (session : Session n) (plan : Plan) :
    session.Reaches (session.buildAlone plan).session := by
  have grown := plan.grows_apply .empty
  unfold buildAlone
  split
  · exact .refl
  · next registry applied =>
    rw [applied] at grown
    refine .single (.found session grown rfl fun locale active => ?_)
    have known := Plan.contains_apply (by rw [applied]) active
    rw [applied] at known
    exact known

theorem reaches_buildShared {session : Session n} {target : Nat} {member : Member n}
    (present : session.members[target]? = some member) (plan : Plan) :
    session.Reaches (session.buildShared member plan).session := by
  have grown := plan.grows_apply (session.registryOf member)
  unfold buildShared
  split
  · next registry cause applied =>
    rw [applied] at grown
    exact .single (.grow present grown)
  · next registry applied =>
    rw [applied] at grown
    refine .single (.join present grown rfl fun locale active => ?_)
    have known := Plan.contains_apply (by rw [applied]) active
    rw [applied] at known
    exact known

theorem reaches_build (session : Session n) (share : Option (Fin n)) (isDescribed : Bool)
    (plan : Except Failure Plan) :
    session.Reaches (session.build share isDescribed plan).session := by
  unfold build
  cases share with
  | none =>
    cases plan with
    | error cause => exact .refl
    | ok plan => exact session.reaches_buildAlone plan
  | some target =>
    dsimp only
    split
    · exact .refl
    · next member present =>
      cases plan with
      | error cause => exact .refl
      | ok plan => exact reaches_buildShared present plan

theorem reaches_withMember {session : Session n} {target : Fin n} {next : Member n → Beginning n}
    (reaches : ∀ member, session.members[target.val]? = some member →
      session.Reaches (next member).session) :
    session.Reaches (start.withMember session target next).session := by
  unfold start.withMember
  split
  · next member present => exact reaches member present
  · exact .refl

/-- **What a step begins with.** A step reaches the session in which it is over or opens a
round. -/
theorem reaches_start (session : Session n) (step : Step n) :
    session.Reaches (session.start step).session := by
  cases step with
  | build share isDescribed plan => exact session.reaches_build share isDescribed plan
  | ask target query => exact reaches_withMember fun _ _ => .refl
  | register target locale catalogue =>
    refine reaches_withMember fun member present => ?_
    exact .single (.grow present (.single (.register _ locale catalogue)))
  | setFallback target locale =>
    refine reaches_withMember fun member present => ?_
    split
    · next declared => exact .single (.grow present (.single (.setFallback declared)))
    · exact .refl
  | setActive target locale =>
    refine reaches_withMember fun member present => ?_
    split
    · exact .refl
    · exact .refl
    · next selected => exact .single (.select present selected)
  | subscribe target script =>
    exact reaches_withMember fun member present => .single (.subscribe present _)
  | unsubscribe target ticket =>
    refine reaches_withMember fun member present => ?_
    split
    · exact .refl
    · next handle _ => exact .single (.unsubscribe present handle)
  | unreadable target cause => exact reaches_withMember fun _ _ => .refl

/-- What small changes keep is preserved. -/
theorem Preserved.of_reaches {holds : Session n → Prop}
    (keeps : ∀ {before after : Session n}, before.Reaches after → holds before → holds after) :
    Preserved fun _ session => holds session where
  ended := by
    intro log session step outcome before ended
    have reaches := session.reaches_start step
    rw [ended] at reaches
    exact keeps reaches before
  opened := by
    intro log session step opened target change observers before begun
    have reaches := session.reaches_start step
    rw [begun] at reaches
    exact keeps reaches before
  notified := fun _ _ _ before => before
  acted := fun _ _ _ before => before
  settled := fun target before => keeps (.single (.settle _ target)) before

/-- **What a run leads to.** A session reaches the one that a run of steps ends in. -/
theorem reaches_run (session : Session n) (steps : List (Step n)) :
    session.Reaches (session.run steps).1 := by
  have preserved : Preserved fun _ after => session.Reaches after :=
    .of_reaches fun further reaches => reaches.trans further
  exact @Preserved.run n _ preserved [] session .refl steps

end Phrasebook.Session
