import Phrasebook.Proofs.Session.History
import Phrasebook.Proofs.Session.Initialized

/-! # How a step starts

A step that opens no round either changes no selector, adds a translator, or subscribes or
removes observers (`Phrasebook.Session.Concludes`). So it leaves active locales and rounds
as they are, and tells of no change but the one that activates a locale for the translator
that it adds. Only the activation of another locale by a translator without a round opens
one (`Phrasebook.Session.Opening`). There is no other way to begin
(`Phrasebook.Session.begins_start`).
-/

namespace Phrasebook

/-- An activation does nothing when the locale is active already. -/
theorem Selector.active_of_select_eq_ok_none {ω : Type} {selector : Selector ω}
    {registry : Registry} {locale : Locale}
    (selected : selector.select registry locale = .ok none) : selector.active = some locale := by
  unfold select at selected
  split at selected
  · cases selected
  · split at selected
    · cases selected
    · split at selected
      · assumption
      · cases selected

theorem Selector.select_eq_error_iff {ω : Type} {selector : Selector ω} {registry : Registry}
    {locale : Locale} {cause : Error} :
    selector.select registry locale = .error cause ↔
      (selector.isNotifying = true ∧ cause = .reentrantSwitch locale) ∨
        (selector.isNotifying = false ∧ registry.contains locale = false ∧
          cause = .unknownLocale locale) := by
  unfold select
  cases selector.isNotifying with
  | true => simpa using eq_comm
  | false =>
    cases registry.contains locale with
    | false => simpa using eq_comm
    | true =>
      by_cases active : selector.active = some locale
      · simp [active]
      · simp [active]

namespace Session

variable {n : Nat}

/-- What a step does that opens no round. -/
inductive Concludes (session : Session n) : Step n → Outcome n → Prop
  | remark (step : Step n) {events : List Event} (remarks : ∀ event ∈ events, event.subject = none)
      (reply : Reply) : Concludes session step ⟨session, events, reply⟩
  | grow (step : Step n) (registries : List Registry) {events : List Event}
      (remarks : ∀ event ∈ events, event.subject = none) (reply : Reply) :
      Concludes session step ⟨{ session with registries }, events, reply⟩
  | build (share : Option (Fin n)) (isDescribed : Bool) (plan : Plan) (registries : List Registry)
      (registry : Nat) {events : List Event} (remarks : ∀ event ∈ events, event.subject = none) :
      Concludes session (.build share isDescribed (.ok plan))
        ⟨(enrol { session with registries } registry plan).session,
          events ++ (enrol { session with registries } registry plan).events,
          .ok (.built session.members.length)⟩
  | subscribe {target : Fin n} {member : Member n}
      (present : session.members[target.val]? = some member) (script : List (Step n)) :
      Concludes session (.subscribe target script)
        { session :=
            { session.setSelector target
                (member.selector.subscribe ⟨session.handles.length, script⟩).2 with
              handles := session.handles ++ [member.selector.nextHandle] }
          events := []
          reply := .ok (.ticket session.handles.length) }
  | unsubscribe {target : Fin n} {member : Member n}
      (present : session.members[target.val]? = some member) (ticket handle : Nat) (reply : Reply) :
      Concludes session (.unsubscribe target ticket)
        ((session.setSelector target (member.selector.unsubscribe handle).2).unchanged reply)

theorem Concludes.unchanged (session : Session n) (step : Step n) (reply : Reply) :
    session.Concludes step (session.unchanged reply) :=
  .remark step (List.forall_mem_nil _) reply

theorem subject_of_mem_issues {session : Session n} {member : Member n} {query : Query} :
    ∀ event ∈ session.issues member query, event.subject = none := by
  intro event issued
  unfold issues at issued
  split at issued
  · cases issued
  · dsimp only at issued
    split at issued
    · cases issued
    · split at issued
      · rw [List.mem_singleton.mp issued]
        rfl
      · cases issued

theorem concludes_build (session : Session n) (share : Option (Fin n)) (isDescribed : Bool)
    (plan : Except Failure Plan) :
    session.Concludes (.build share isDescribed plan) (session.build share isDescribed plan) := by
  have described (plan : Plan) :
      ∀ event ∈ if isDescribed then [Event.described plan.description] else [],
        event.subject = none := by
    intro event remark
    split at remark
    · rw [List.mem_singleton.mp remark]
      rfl
    · cases remark
  unfold build
  cases plan with
  | error cause =>
    cases share with
    | none => exact .unchanged session _ _
    | some target =>
      dsimp only
      split
      · exact .unchanged session _ _
      · exact .unchanged session _ _
  | ok plan =>
    cases share with
    | none =>
      dsimp only [buildAlone]
      split
      · rw [Session.unchanged, List.append_nil]
        exact .remark _ (described plan) _
      · exact .build none isDescribed plan _ _ (described plan)
    | some target =>
      dsimp only
      split
      · exact .unchanged session _ _
      · next member present =>
        dsimp only [buildShared]
        split
        · rw [Session.unchanged, List.append_nil]
          exact .grow _ _ (described plan) _
        · exact .build (some target) isDescribed plan _ _ (described plan)

/-- A translator without a round may activate a locale that is registered and not
active. -/
structure Opening (session : Session n) (target : Nat) (change : Change)
    (member : Member n) : Prop where
  present : session.members[target]? = some member
  isFree : member.selector.isNotifying = false
  known : (session.registryOf member).contains change.current = true
  previous : change.previous = member.selector.active
  fresh : member.selector.active ≠ some change.current

/-- The session in the round of a change. -/
def openRound (session : Session n) (target : Nat) (change : Change) (member : Member n) :
    Session n :=
  session.setSelector target
    { member.selector with active := some change.current, isNotifying := true }

/-- How a step begins, and what it does up to then. -/
inductive Begins (session : Session n) : Step n → Beginning n → Prop
  | concluded {step : Step n} {outcome : Outcome n} (concludes : session.Concludes step outcome) :
      Begins session step (.over outcome)
  | opened {number : Fin n} {change : Change} {member : Member n}
      (opening : session.Opening number change member) :
      Begins session (.setActive number change.current)
        (.round (session.openRound number change member) number change
          (member.selector.observers.map Prod.snd))

theorem begins_withMember {session : Session n} {step : Step n} {target : Fin n}
    {next : Member n → Beginning n}
    (begins : ∀ member, session.members[target.val]? = some member →
      session.Begins step (next member)) :
    session.Begins step (start.withMember session target next) := by
  unfold start.withMember
  split
  · next member present => exact begins member present
  · exact .concluded (.unchanged session step _)

/-- **How steps begin.** -/
theorem begins_start (session : Session n) (step : Step n) :
    session.Begins step (session.start step) := by
  cases step with
  | build share isDescribed plan =>
    exact .concluded (session.concludes_build share isDescribed plan)
  | ask target query =>
    exact begins_withMember fun _ _ => .concluded (.remark _ subject_of_mem_issues _)
  | register target locale catalogue =>
    exact begins_withMember fun _ _ => .concluded (.grow _ _ (List.forall_mem_nil _) _)
  | setFallback target locale =>
    refine begins_withMember fun member present => ?_
    split
    · exact .concluded (.grow _ _ (List.forall_mem_nil _) _)
    · exact .concluded (.unchanged session _ _)
  | setActive target locale =>
    refine begins_withMember fun member present => ?_
    split
    · exact .concluded (.unchanged session _ _)
    · exact .concluded (.unchanged session _ _)
    · next selected =>
      obtain ⟨isFree, known, fresh, rfl, rfl⟩ := Selector.select_eq_ok_some_iff.mp selected
      have opening : session.Opening target ⟨member.selector.active, locale⟩ member :=
        ⟨present, isFree, known, rfl, fresh⟩
      exact .opened opening
  | subscribe target script =>
    exact begins_withMember fun member present => .concluded (.subscribe present script)
  | unsubscribe target ticket =>
    refine begins_withMember fun member present => ?_
    split
    · exact .concluded (.unchanged session _ _)
    · exact .concluded (.unsubscribe present ticket _ _)
  | unreadable target cause =>
    exact begins_withMember fun _ _ => .concluded (.unchanged session _ _)

theorem concludes_of_start {session : Session n} {step : Step n} {outcome : Outcome n}
    (ended : session.start step = .over outcome) : session.Concludes step outcome := by
  have begins := session.begins_start step
  rw [ended] at begins
  cases begins with
  | concluded concludes => exact concludes

theorem opening_of_start {session opened : Session n} {step : Step n} {target : Nat}
    {change : Change} {observers : List (Observer n)}
    (begun : session.start step = .round opened target change observers) :
    ∃ (number : Fin n) (member : Member n), step = .setActive number change.current ∧
      number.val = target ∧ session.Opening target change member ∧
      opened = session.openRound target change member ∧
      observers = member.selector.observers.map Prod.snd := by
  have begins := session.begins_start step
  rw [begun] at begins
  cases begins with
  | opened opening => exact ⟨_, _, rfl, rfl, opening, rfl, rfl⟩

/-- The selector of a translator that may not exist yet. -/
def selectorOf (session : Session n) (target : Nat) : Option (Selector (Observer n)) :=
  session.members[target]?.map Member.selector

/-- The active locale of a translator, which has none before it exists. -/
def activeOf (session : Session n) (target : Nat) : Option Locale :=
  (session.selectorOf target).bind Selector.active

theorem selectorOf_eq {session : Session n} {target : Nat} {member : Member n}
    (present : session.members[target]? = some member) :
    session.selectorOf target = some member.selector := by
  rw [selectorOf, present, Option.map_some]

theorem selectorOf_length (session : Session n) :
    session.selectorOf session.members.length = none := by
  rw [selectorOf, List.getElem?_eq_none (Nat.le_refl _), Option.map_none]

theorem selectorOf_setSelector {session : Session n} {number : Nat} {member : Member n}
    (present : session.members[number]? = some member) (selector : Selector (Observer n))
    (target : Nat) :
    (session.setSelector number selector).selectorOf target =
      if number = target then some selector else session.selectorOf target := by
  rw [selectorOf, setSelector, List.getElem?_modify]
  by_cases same : number = target
  · subst same
    simp [present]
  · simp [same, selectorOf]

theorem selectorOf_settle (session : Session n) (number target : Nat) :
    (session.settle number).selectorOf target =
      if number = target then (session.selectorOf target).map Selector.settle
      else session.selectorOf target := by
  rw [selectorOf, settle, List.getElem?_modify]
  by_cases same : number = target
  · simp [same, selectorOf, Function.comp_def]
  · simp [same, selectorOf]

theorem selectorOf_enrol (session : Session n) (registry : Nat) (plan : Plan) (target : Nat) :
    (session.enrol registry plan).session.selectorOf target =
      if target = session.members.length then some { active := plan.active }
      else session.selectorOf target := by
  by_cases same : target = session.members.length
  · rw [if_pos same, same, selectorOf, enrol, List.getElem?_concat_length, Option.map_some]
  · have kept (added : Member n) :
        (session.members ++ [added])[target]? = session.members[target]? := by grind
    rw [if_neg same, selectorOf, enrol, kept, ← selectorOf]

theorem activeOf_eq {session : Session n} {target : Nat} {member : Member n}
    (present : session.members[target]? = some member) :
    session.activeOf target = member.selector.active := by
  rw [activeOf, selectorOf_eq present, Option.bind_some]

theorem activeOf_length (session : Session n) :
    session.activeOf session.members.length = none := by
  rw [activeOf, selectorOf_length, Option.bind_none]

theorem activeOf_setSelector {session : Session n} {number : Nat} {member : Member n}
    (present : session.members[number]? = some member) (selector : Selector (Observer n))
    (target : Nat) :
    (session.setSelector number selector).activeOf target =
      if number = target then selector.active else session.activeOf target := by
  rw [activeOf, selectorOf_setSelector present]
  split <;> rfl

/-- Other changes of a selector leave active locales as they are. -/
theorem activeOf_setSelector_of_same {session : Session n} {target : Nat} {member : Member n}
    (present : session.members[target]? = some member) (selector : Selector (Observer n))
    (same : selector.active = member.selector.active) (number : Nat) :
    (session.setSelector target selector).activeOf number = session.activeOf number := by
  rw [activeOf_setSelector present]
  split
  · next own => rw [same, ← own, activeOf_eq present]
  · rfl

theorem activeOf_settle (session : Session n) (number target : Nat) :
    (session.settle number).activeOf target = session.activeOf target := by
  rw [activeOf, selectorOf_settle, activeOf]
  by_cases own : number = target
  · rw [if_pos own]
    cases session.selectorOf target with
    | none => rfl
    | some selector => rfl
  · rw [if_neg own]

theorem activeOf_enrol (session : Session n) (registry : Nat) (plan : Plan) (target : Nat) :
    (session.enrol registry plan).session.activeOf target =
      if target = session.members.length then plan.active else session.activeOf target := by
  rw [activeOf, selectorOf_enrol]
  split <;> rfl

theorem eventsOf_enrol (session : Session n) (registry : Nat) (plan : Plan) (target : Nat) :
    eventsOf target (session.enrol registry plan).events =
      match plan.active with
      | none => []
      | some locale =>
        if target = session.members.length then
          [.switched target ⟨none, locale⟩, .settled target]
        else [] := by
  unfold enrol
  cases plan.active with
  | none => rfl
  | some locale =>
    by_cases same : target = session.members.length
    · simp [eventsOf, Event.subject, same]
    · simp [eventsOf, Event.subject, same, Ne.symm same]

/-- A step adds a translator and activates a locale for it. -/
structure Enrols (session : Session n) (step : Step n) (outcome : Outcome n) (target : Nat)
    (current : Locale) : Prop where
  isBuild : ∃ share isDescribed plan,
    step = .build share isDescribed (.ok plan) ∧ plan.active = some current
  number : target = session.members.length
  active : outcome.session.activeOf target = some current
  events : eventsOf target outcome.events = [.switched target ⟨none, current⟩, .settled target]
  reply : outcome.reply = .ok (.built target)

/-- A step that opens no round tells of a change of a translator only when it adds it, and
otherwise keeps its active locale. -/
theorem Concludes.quiet_or_enrols {session : Session n} {step : Step n} {outcome : Outcome n}
    (concludes : session.Concludes step outcome) (target : Nat) :
    (eventsOf target outcome.events = [] ∧
        outcome.session.activeOf target = session.activeOf target) ∨
      ∃ current, session.Enrols step outcome target current := by
  have quiet {events : List Event} (remarks : ∀ event ∈ events, event.subject = none) :
      eventsOf target events = [] :=
    eventsOf_eq_nil_iff.mpr fun event member => by simp [remarks event member]
  cases concludes with
  | remark step remarks reply => exact .inl ⟨quiet remarks, rfl⟩
  | grow step registries remarks reply => exact .inl ⟨quiet remarks, rfl⟩
  | build share isDescribed plan registries registry remarks =>
    have told := eventsOf_enrol { session with registries } registry plan target
    have added := activeOf_enrol { session with registries } registry plan target
    by_cases own : target = session.members.length
    · cases active : plan.active with
      | none =>
        refine .inl ⟨?_, ?_⟩
        · rw [eventsOf_append, quiet remarks, told, active]
          rfl
        · rw [added, if_pos own, active, own, activeOf_length]
      | some current =>
        refine .inr ⟨current, ⟨share, isDescribed, plan, rfl, active⟩, own, ?_, ?_, own ▸ rfl⟩
        · rw [added, if_pos own, active]
        · rw [eventsOf_append, quiet remarks, told, active]
          exact if_pos own
    · refine .inl ⟨?_, added.trans (if_neg own)⟩
      rw [eventsOf_append, quiet remarks, told]
      cases plan.active with
      | none => rfl
      | some current => exact if_neg own
  | @subscribe _ member present script =>
    have kept := activeOf_setSelector_of_same present
      (member.selector.subscribe ⟨session.handles.length, script⟩).2 rfl target
    exact .inl ⟨rfl, kept⟩
  | @unsubscribe _ member present _ handle reply =>
    have kept := activeOf_setSelector_of_same present (member.selector.unsubscribe handle).2 rfl
      target
    exact .inl ⟨rfl, kept⟩

section Activation

variable {session : Session n} {number : Fin n} {locale : Locale}

theorem start_setActive_of_absent (missing : session.members[number.val]? = none) :
    session.start (.setActive number locale) =
      .over (session.unchanged (.error .noTranslator)) := by
  simp only [start, start.withMember, missing]

variable {member : Member n} (present : session.members[number.val]? = some member)
include present

theorem start_setActive_of_refused {cause : Error}
    (refused : member.selector.select (session.registryOf member) locale = .error cause) :
    session.start (.setActive number locale) =
      .over (session.unchanged (.error (.error cause))) := by
  simp only [start, start.withMember, present, refused]

theorem start_setActive_of_active
    (already : member.selector.select (session.registryOf member) locale = .ok none) :
    session.start (.setActive number locale) = .over (session.unchanged (.ok .done)) := by
  simp only [start, start.withMember, present, already]

theorem start_setActive_of_selected {change : Change} {selector : Selector (Observer n)}
    (selected : member.selector.select (session.registryOf member) locale =
      .ok (some (change, selector))) :
    session.start (.setActive number locale) =
      .round (session.setSelector number selector) number change
        (selector.observers.map Prod.snd) := by
  simp only [start, start.withMember, present, selected]

end Activation

/-- Why an activation is refused: there is no such translator, it tells its observers of
another change, or the locale is not registered. -/
inductive Refuses (session : Session n) (target : Nat) (locale : Locale) : Failure → Prop
  | absent (missing : session.members[target]? = none) :
      Refuses session target locale .noTranslator
  | busy {member : Member n} (present : session.members[target]? = some member)
      (notifying : member.selector.isNotifying = true) :
      Refuses session target locale (.error (.reentrantSwitch locale))
  | unknown {member : Member n} (present : session.members[target]? = some member)
      (isFree : member.selector.isNotifying = false)
      (unknown : (session.registryOf member).contains locale = false) :
      Refuses session target locale (.error (.unknownLocale locale))

theorem refuses_iff {session : Session n} {target : Nat} {member : Member n}
    (present : session.members[target]? = some member) {locale : Locale} {cause : Failure} :
    session.Refuses target locale cause ↔
      ∃ error, member.selector.select (session.registryOf member) locale = .error error ∧
        cause = .error error := by
  simp only [Selector.select_eq_error_iff]
  constructor
  · rintro (missing | ⟨found, notifying⟩ | ⟨found, isFree, unknown⟩)
    · cases present.symm.trans missing
    · cases present.symm.trans found
      exact ⟨_, .inl ⟨notifying, rfl⟩, rfl⟩
    · cases present.symm.trans found
      exact ⟨_, .inr ⟨isFree, unknown, rfl⟩, rfl⟩
  · rintro ⟨error, ⟨notifying, rfl⟩ | ⟨isFree, unknown, rfl⟩, rfl⟩
    · exact .busy present notifying
    · exact .unknown present isFree unknown

theorem Opening.not_refuses {session : Session n} {target : Nat} {change : Change}
    {member : Member n} (opening : session.Opening target change member) (cause : Failure) :
    ¬ session.Refuses target change.current cause := by
  rw [refuses_iff opening.present]
  rintro ⟨error, failed, _⟩
  rcases Selector.select_eq_error_iff.mp failed with ⟨notifying, _⟩ | ⟨_, unknown, _⟩
  · cases opening.isFree.symm.trans notifying
  · cases opening.known.symm.trans unknown

/-- **When an activation opens no round.** It is refused, or the locale is active already. -/
theorem over_setActive {session : Session n} {number : Fin n} {locale : Locale}
    {outcome : Outcome n} (ended : session.start (.setActive number locale) = .over outcome) :
    outcome.events = [] ∧ outcome.session = session ∧
      (∀ cause, outcome.reply = .error cause ↔ session.Refuses number locale cause) ∧
      ((∃ cause, session.Refuses number locale cause) ∨
        session.activeOf number = some locale) := by
  simp only [start, start.withMember] at ended
  split at ended
  · next member present =>
    simp only [refuses_iff present]
    split at ended
    · next error failed =>
      cases ended
      refine ⟨rfl, rfl, fun cause => ?_, .inl ⟨_, error, failed, rfl⟩⟩
      simpa [unchanged, failed] using eq_comm
    · next selected =>
      cases ended
      have active := Selector.active_of_select_eq_ok_none selected
      refine ⟨rfl, rfl, fun cause => ?_, .inr ?_⟩
      · simp [unchanged, selected]
      · rw [activeOf_eq present, active]
    · cases ended
  · next missing =>
    cases ended
    refine ⟨rfl, rfl, fun cause => ⟨?_, ?_⟩, .inl ⟨_, .absent missing⟩⟩
    · rintro ⟨⟩
      exact .absent missing
    · rintro (_ | ⟨present, _⟩ | ⟨present, _, _⟩)
      · rfl
      · cases missing.symm.trans present
      · cases missing.symm.trans present

end Session

end Phrasebook
