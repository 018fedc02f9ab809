import Phrasebook.Proofs.Session.Changes
import Phrasebook.Proofs.Session.Deliveries

/-! # Activating the current locale

A translator may be asked to activate the locale that is its current one already. When that
locale has been activated before, the call does nothing, and whatever comes afterwards goes on as
it would without the call (`Phrasebook.Session.Moment.Idle`); for what is done next does not
depend on what has happened so far (`Phrasebook.Session.Moment.Leads.framed`). When the locale is
the current one only as the fallback of the registry, the call is the first activation, which
observers are told of (`Phrasebook.Session.activation_of_current`).
-/

namespace Phrasebook.Session

variable {n : Nat}

namespace Moment

theorem Moves.framed {moment next : Moment n} (moves : moment.Moves next) :
    ∃ events begun, next.log = moment.log ++ events ∧ next.calls = moment.calls ++ begun ∧
      ∀ log calls, Moves ⟨log, calls, moment.session, moment.agenda⟩
        ⟨log ++ events, calls ++ begun, next.session, next.agenda⟩ := by
  cases moves with
  | conclude ended =>
    refine ⟨_, _, List.append_assoc _ _ _, rfl, fun log calls => ?_⟩
    rw [← List.append_assoc]
    exact .conclude ended
  | round begun => exact ⟨_, _, rfl, rfl, fun log calls => .round begun⟩
  | tell =>
    refine ⟨_, [], rfl, (List.append_nil _).symm, fun log calls => ?_⟩
    rw [List.append_nil]
    exact .tell
  | settle =>
    refine ⟨_, [], rfl, (List.append_nil _).symm, fun log calls => ?_⟩
    rw [List.append_nil]
    exact .settle

/-- **What is done next** does not depend on the events and the calls so far. -/
theorem Leads.framed {moment last : Moment n} (leads : moment.Leads last) :
    ∃ events begun, last.log = moment.log ++ events ∧ last.calls = moment.calls ++ begun ∧
      ∀ log calls, Leads ⟨log, calls, moment.session, moment.agenda⟩
        ⟨log ++ events, calls ++ begun, last.session, last.agenda⟩ := by
  induction leads with
  | refl =>
    refine ⟨[], [], (List.append_nil _).symm, (List.append_nil _).symm, fun log calls => ?_⟩
    rw [List.append_nil, List.append_nil]
    exact .refl _
  | tail _ moves ih =>
    obtain ⟨events, begun, log, calls, earlier⟩ := ih
    obtain ⟨more, others, laterLog, laterCalls, later⟩ := moves.framed
    refine ⟨events ++ more, begun ++ others, ?_, ?_, fun log calls => ?_⟩
    · rw [laterLog, log, List.append_assoc]
    · rw [laterCalls, calls, List.append_assoc]
    · rw [← List.append_assoc, ← List.append_assoc]
      exact (earlier log calls).trans (later _ _).leads

/-- Events that happen from a moment on, up to a session and what is then still to be done. -/
def GoesOn (moment : Moment n) (events : List Event) (session : Session n)
    (agenda : List (Pending n)) : Prop :=
  ∃ calls, moment.Leads ⟨moment.log ++ events, calls, session, agenda⟩

theorem GoesOn.of_same {first second : Moment n} (session : first.session = second.session)
    (agenda : first.agenda = second.agenda) {events : List Event} {last : Session n}
    {rest : List (Pending n)} (goesOn : first.GoesOn events last rest) :
    second.GoesOn events last rest := by
  obtain ⟨calls, leads⟩ := goesOn
  obtain ⟨happened, begun, log, _, framed⟩ := leads.framed
  obtain rfl := List.append_cancel_left log
  have onwards := framed second.log second.calls
  rw [session, agenda] at onwards
  exact ⟨_, onwards⟩

/-- A call does nothing: it leaves the session as it is and nobody is told of anything. The steps
that the host takes afterwards have the replies and the events that they would have without it,
and what is still to be done in rounds goes on as it would without it. -/
structure Idle (moment : Moment n) (step : Step n) : Prop where
  outcome : moment.session.perform step = moment.session.unchanged (.ok .done)
  run : ∀ later, moment.session.run (step :: later) =
    ((moment.session.run later).1, (.ok .done, []) :: (moment.session.run later).2)
  goesOn : ∀ caller, ∃ next : Moment n,
    Moves { moment with agenda := .call caller step :: moment.agenda } next ∧
      next.log = moment.log ++ note caller (.ok .done) ∧
      ∀ events session agenda,
        next.GoesOn events session agenda ↔ moment.GoesOn events session agenda

theorem idle_of_over {moment : Moment n} {step : Step n}
    (ended : moment.session.start step = .over (moment.session.unchanged (.ok .done))) :
    moment.Idle step := by
  have outcome : moment.session.perform step = moment.session.unchanged (.ok .done) :=
    performWithin_of_over ended n
  refine ⟨outcome, fun later => ?_, fun caller => ?_⟩
  · rw [Session.run, outcome]
    rfl
  · refine ⟨_, .conclude ended, ?_, fun events session agenda => ⟨?_, ?_⟩⟩
    · rw [unchanged, List.append_nil]
    · apply GoesOn.of_same <;> rfl
    · apply GoesOn.of_same <;> rfl

end Moment

theorem Consistent.contains_current {session : Session n} (consistent : session.Consistent)
    {member : Member n} (present : member ∈ session.members) {locale : Locale}
    (current : (session.translatorOf member).current = .ok locale) :
    (session.registryOf member).contains locale = true := by
  have fits := consistent.fits member present
  rcases current_translatorOf_eq_ok_iff.mp current with active | ⟨_, declared⟩
  · exact fits.active locale active
  · have registered := List.mem_of_getElem? (getElem?_registry fits.placed)
    exact (consistent.sound _ registered).declared locale declared

theorem Opening.start_eq {session : Session n} {number : Fin n} {change : Change}
    {member : Member n} (opening : session.Opening number change member) :
    session.start (.setActive number change.current) =
      .round (session.openRound number change member) number change
        (member.selector.observers.map Prod.snd) := by
  have selected := Selector.select_eq_ok_some_iff.mpr
    ⟨opening.isFree, opening.known, opening.fresh, rfl, rfl⟩
  rw [start_setActive_of_selected opening.present selected, ← opening.previous]
  rfl

/-- An activation that opens a round tells each observer once, in the order of their
subscriptions. -/
theorem Opening.tells_observers {session : Session n} {number : Fin n} {change : Change}
    {member : Member n} (opening : session.Opening number change member) :
    let outcome := session.perform (.setActive number change.current)
    outcome.reply = .ok .done ∧
      eventsOf number outcome.events = Round.events number ⟨change, session.ticketsOf number⟩ := by
  intro outcome
  obtain ⟨depth, rfl⟩ := Nat.exists_eq_succ_of_ne_zero (Nat.ne_zero_of_lt number.isLt)
  have performed : outcome = _ := performWithin_of_round opening.start_eq depth
  have during := (opening.isNotifying_iff number).mpr (.inl rfl)
  have told := eventsOf_tell (quiet_performWithin depth) number.val change during
    (member.selector.observers.map Prod.snd)
  refine ⟨congrArg Outcome.reply performed, ?_⟩
  rw [performed, List.cons_append, eventsOf_cons_of_eq rfl, eventsOf_append, told, if_pos rfl,
    eventsOf_cons_of_eq rfl, Round.events, ticketsOf_eq opening.present, List.map_map, List.map_map]
  rfl

theorem exists_current_of_activeOf {session : Session n} {number : Nat} {locale : Locale}
    (active : session.activeOf number = some locale) :
    ∃ member, session.members[number]? = some member ∧
      (session.translatorOf member).current = .ok locale := by
  obtain ⟨selector, found, active⟩ := Option.bind_eq_some_iff.mp active
  obtain ⟨member, present, rfl⟩ := Option.map_eq_some_iff.mp found
  exact ⟨member, present, current_translatorOf_eq_ok_iff.mpr (.inl active)⟩

/-- **Activating the current locale.** At any moment of a run, let a translator that is not telling
its observers of a change be asked to activate its current locale. The call succeeds, and the
locale is the current one afterwards. When a locale had been activated before, the call does
nothing, and everything afterwards goes on as it would without it. When the locale was the current
one only as the fallback, the call tells each observer of its activation once, in the order of
their subscriptions, and the locale is active afterwards. -/
theorem activation_of_current {steps : List (Step n)} {moment : Moment n}
    (passes : Passes steps moment) {number : Fin n}
    (isFree : ¬ moment.session.IsNotifying number) {member : Member n}
    (present : moment.session.members[number.val]? = some member) {locale : Locale}
    (current : (moment.session.translatorOf member).current = .ok locale) :
    let outcome := moment.session.perform (.setActive number locale)
    (outcome.reply = .ok .done ∧ ∃ later, outcome.session.members[number.val]? = some later ∧
        (outcome.session.translatorOf later).current = .ok locale) ∧
      (member.selector.active ≠ none → moment.Idle (.setActive number locale)) ∧
      (member.selector.active = none →
        eventsOf number outcome.events =
            Round.events number ⟨⟨none, locale⟩, moment.session.ticketsOf number⟩ ∧
          (moment.session.ticketsOf number).Pairwise (· < ·) ∧
          outcome.session.activeOf number = some locale) := by
  intro outcome
  have consistent := preserved_consistent.of_passes consistent_empty passes
  have known := consistent.contains_current (List.mem_of_getElem? present) current
  have free : member.selector.isNotifying = false := by
    rw [isNotifying_of_present present] at isFree
    exact Bool.not_eq_true _ ▸ isFree
  rcases current_translatorOf_eq_ok_iff.mp current with active | ⟨inactive, _⟩
  · have already : member.selector.select (moment.session.registryOf member) locale =
        .ok none := by
      simp [Selector.select, free, known, active]
    have idle := Moment.idle_of_over (start_setActive_of_active present already)
    have quiet : outcome = moment.session.unchanged (.ok .done) := idle.outcome
    refine ⟨?_, fun _ => idle, fun inactive => ?_⟩
    · rw [quiet]
      exact ⟨rfl, member, present, current⟩
    · cases active.symm.trans inactive
  · have fresh : member.selector.active ≠ some locale := by
      rw [inactive]
      exact nofun
    have opening : moment.session.Opening number ⟨none, locale⟩ member :=
      ⟨present, free, known, inactive.symm, fresh⟩
    obtain ⟨reply, events⟩ := opening.tells_observers
    have changes : changesOf number outcome.events = [⟨none, locale⟩] := by
      rw [changesOf, events, changesOf_round]
    have lastChange := preserved_lastChange (n := n) number
    have active := lastChange.performWithin n (.setActive number locale)
      (lastChange.of_passes rfl passes)
    rw [← Session.perform, changesOf_append, changes, List.getLast?_concat] at active
    have increasing := (preserved_ticketed.of_passes ticketed_empty passes).increasing number
    exact ⟨⟨reply, exists_current_of_activeOf active⟩, fun active => absurd inactive active,
      fun _ => ⟨events, increasing, active⟩⟩

/-- German is activated a second time. -/
theorem activation_of_current_german :
    ∃ (moment : Moment 1) (member : Member 1),
      Passes (watchedSteps ++ [.setActive 0 .german]) moment ∧
        ¬ moment.session.IsNotifying (0 : Fin 1) ∧
        moment.session.members[(0 : Fin 1).val]? = some member ∧
        (moment.session.translatorOf member).current = .ok .german ∧
        member.selector.active ≠ none ∧ moment.Idle (.setActive 0 .german) := by
  obtain ⟨calls, _, passes, _⟩ := passes_run (watchedSteps ++ [.setActive 0 .german]) []
  rw [List.append_nil] at passes
  have isFree : ¬ (run {} (watchedSteps ++ [.setActive 0 .german])).1.IsNotifying (0 : Fin 1) := by
    rw [isNotifying_run]
    rintro ⟨_, found, _⟩
    cases found
  obtain ⟨_, idle, _⟩ := activation_of_current passes isFree rfl rfl
  exact ⟨_, _, passes, isFree, rfl, rfl, nofun, idle nofun⟩

/-- English is the current locale as the fallback. Its activation is delivered to the observer,
and when German becomes the fallback afterwards, English stays the current locale only because of
the activation. -/
theorem activation_of_current_fallback :
    ∃ (moment : Moment 1) (member : Member 1), Passes watchedSteps moment ∧
      ¬ moment.session.IsNotifying 0 ∧ moment.session.members[0]? = some member ∧
      (moment.session.translatorOf member).current = .ok .english ∧
      let outcome := moment.session.perform (.setActive 0 .english)
      let later : List (Step 1) := [.setFallback 0 .german, .ask 0 .current]
      deliveriesTo 0 0 outcome.events = [⟨none, .english⟩] ∧
        (outcome.session.run later).2.map Prod.fst = [.ok .done, .ok (.locale .english)] ∧
        (moment.session.run later).2.map Prod.fst = [.ok .done, .ok (.locale .german)] := by
  obtain ⟨calls, _, passes, _⟩ := passes_run watchedSteps []
  rw [List.append_nil] at passes
  have isFree : ¬ (run {} watchedSteps).1.IsNotifying 0 := by
    rw [isNotifying_run]
    rintro ⟨_, found, _⟩
    cases found
  exact ⟨_, _, passes, isFree, rfl, rfl, rfl, rfl, rfl⟩

end Phrasebook.Session
