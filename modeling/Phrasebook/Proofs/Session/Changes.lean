import Mathlib.Data.List.Induction
import Phrasebook.Proofs.Session.Calls

/-! # The chain of changes

The events of a run that belong to a translator make up rounds, one after another
(`Phrasebook.Session.Round.events`). Each round is opened by one call, which activates another
locale or builds the translator with one, and which is over when the round is
(`Phrasebook.Session.Call.Opens`). The changes of the rounds form a chain
(`Phrasebook.Session.changes_chain`).
-/

namespace Phrasebook.Session

variable {n : Nat}

/-- A change and the tickets of the observers that are told of it. -/
structure Round where
  change : Change
  tickets : List Nat

/-- What happens in a round: a translator changes its locale and tells each observer once, one
after another. -/
def Round.events (target : Nat) (round : Round) : List Event :=
  .switched target round.change ::
    round.tickets.map (fun ticket => .notified target ticket round.change) ++ [.settled target]

theorem changesOf_round (target : Nat) (round : Round) :
    (round.events target).filterMap Event.change? = [round.change] := by
  have quiet : (round.tickets.map fun ticket => Event.notified target ticket round.change).filterMap
      Event.change? = [] := by
    rw [List.filterMap_map, List.filterMap_eq_nil_iff]
    exact fun _ _ => rfl
  rw [Round.events, List.cons_append, List.filterMap_cons, List.filterMap_append, quiet]
  rfl

theorem changesOf_rounds {target : Nat} {events : List Event} {rounds : List Round}
    (parts : eventsOf target events = rounds.flatMap (Round.events target)) :
    changesOf target events = rounds.map Round.change := by
  rw [changesOf, parts, List.filterMap_flatMap]
  simp only [changesOf_round]
  exact List.map_eq_flatMap.symm

namespace Call

/-- A call activates another locale and tells all observers that are subscribed when it is
made, in the order of their subscriptions, before it is over. -/
structure Activates (call : Call n) (target : Nat) (round : Round) : Prop where
  isActivation : ∃ number : Fin n, number.val = target ∧
    call.step = .setActive number round.change.current
  registered : ∃ member, call.session.members[target]? = some member ∧
    (call.session.registryOf member).contains round.change.current = true
  tickets : round.tickets = call.session.ticketsOf target
  increasing : round.tickets.Pairwise (· < ·)
  events : eventsOf target call.outcome.events = round.events target
  reply : call.outcome.reply = .ok .done

/-- A call builds a translator with an active locale, when nobody can be subscribed yet. -/
structure Builds (call : Call n) (target : Nat) (round : Round) : Prop where
  isBuild : ∃ share isDescribed plan,
    call.step = .build share isDescribed (.ok plan) ∧ plan.active = some round.change.current
  registered : ∃ member, call.outcome.session.members[target]? = some member ∧
    (call.outcome.session.registryOf member).contains round.change.current = true
  absent : call.session.members[target]? = none
  tickets : round.tickets = []
  events : eventsOf target call.outcome.events = round.events target
  reply : call.outcome.reply = .ok (.built target)

/-- A call opens a round of a translator and is over when the round is. -/
def Opens (call : Call n) (target : Nat) (round : Round) : Prop :=
  call.Activates target round ∨ call.Builds target round

theorem Opens.events {call : Call n} {target : Nat} {round : Round}
    (opens : call.Opens target round) :
    eventsOf target call.outcome.events = round.events target := by
  rcases opens with activates | builds
  · exact activates.events
  · exact builds.events

end Call

namespace Call.MadeBy

variable {steps : List (Step n)} {call : Call n} (made : call.MadeBy steps)
include made

theorem activates {target : Nat} {change : Change} {opened : Session n}
    {observers : List (Observer n)}
    (begun : call.session.start call.step = .round opened target change observers) :
    call.Activates target ⟨change, call.session.ticketsOf target⟩ ∧
      change.previous = call.session.activeOf target ∧ change.previous ≠ some change.current := by
  have during := (made.nests.of_start begun).notifying target List.mem_cons_self
  have outcome := made.outcome_of_round begun
  obtain ⟨number, member, activation, same, opening, rfl, rfl⟩ := opening_of_start begun
  have active := activeOf_eq opening.present
  have told := eventsOf_tell (quiet_performWithin (n - (call.rounds.length + 1))) target change
    during (member.selector.observers.map Prod.snd)
  refine ⟨⟨⟨number, same, activation⟩, ⟨member, opening.present, opening.known⟩, rfl, ?_, ?_, ?_⟩,
    opening.previous.trans active.symm, opening.previous ▸ opening.fresh⟩
  · exact (preserved_ticketed.of_madeBy ticketed_empty made).increasing target
  · rw [outcome, List.cons_append, eventsOf_cons_of_eq rfl, eventsOf_append, within, told,
      if_pos rfl, eventsOf_cons_of_eq rfl, Round.events, ticketsOf_eq opening.present,
      List.map_map, List.map_map]
    rfl
  · rw [outcome]

theorem builds {outcome : Outcome n} (ended : call.session.start call.step = .over outcome)
    {target : Nat} {current : Locale}
    (enrols : call.session.Enrols call.step outcome target current) :
    call.Builds target ⟨⟨none, current⟩, []⟩ := by
  have same : call.outcome = outcome := performWithin_of_over ended _
  obtain ⟨selector, found, active⟩ := Option.bind_eq_some_iff.mp enrols.active
  obtain ⟨member, present, rfl⟩ := Option.map_eq_some_iff.mp found
  have fits := (preserved_consistent.of_outcome consistent_empty made).fits member
  rw [same] at fits
  refine ⟨enrols.isBuild, ⟨member, ?_, ?_⟩, ?_, rfl, ?_, ?_⟩
  · rw [same, present]
  · rw [same]
    exact (fits (List.mem_of_getElem? present)).active current active
  · rw [enrols.number]
    exact List.getElem?_eq_none (Nat.le_refl _)
  · rw [same, enrols.events]
    rfl
  · rw [same, enrols.reply]

end Call.MadeBy

/-- The rounds that events of a translator are made up of, when other events have happened
before; each is opened by a call of the run that is made when the ones before it are
over. -/
structure Accounts (steps : List (Step n)) (target : Nat) (log events : List Event)
    (rounds : List Round) : Prop where
  events : eventsOf target events = rounds.flatMap (Round.events target)
  opened : ∀ earlier round, earlier ++ [round] <+: rounds →
    ∃ call : Call n, call.MadeBy steps ∧ call.Opens target round ∧
      round.change.previous = call.session.activeOf target ∧
      round.change.previous ≠ some round.change.current ∧
      eventsOf target call.log = eventsOf target log ++ earlier.flatMap (Round.events target)

namespace Accounts

variable {steps : List (Step n)} {target : Nat} {log events : List Event}

theorem none (quiet : eventsOf target events = []) : Accounts steps target log events [] where
  events := quiet
  opened := by
    intro earlier round part
    simp at part

theorem skip {event : Event} (other : event.subject ≠ some target) :
    Accounts steps target log [event] [] :=
  .none (eventsOf_cons_of_ne other [])

theorem one {call : Call n} (made : call.MadeBy steps) {round : Round}
    (opens : call.Opens target round)
    (previous : round.change.previous = call.session.activeOf target)
    (fresh : round.change.previous ≠ some round.change.current) :
    Accounts steps target call.log call.outcome.events [round] where
  events := by rw [opens.events, List.flatMap_singleton]
  opened := by
    intro earlier other part
    obtain ⟨rfl, rfl⟩ : earlier = [] ∧ other = round := by
      have inside : earlier ++ [other] <+: [] ++ [round] := part
      rcases List.prefix_concat_iff.mp inside with same | part
      · exact (List.append_inj' same rfl).imp_right List.singleton_inj.mp
      · simp at part
    exact ⟨call, made, opens, previous, fresh, (List.append_nil _).symm⟩

theorem append {more : List Event} {rounds others : List Round}
    (first : Accounts steps target log events rounds)
    (second : Accounts steps target (log ++ events) more others) :
    Accounts steps target log (events ++ more) (rounds ++ others) where
  events := by rw [eventsOf_append, first.events, second.events, List.flatMap_append]
  opened := by
    intro earlier round part
    have front := List.prefix_append rounds others
    rcases List.prefix_or_prefix_of_prefix part front with inner | outer
    · exact first.opened earlier round inner
    · rcases List.prefix_concat_iff.mp outer with same | ⟨between, rfl⟩
      · exact first.opened earlier round (same ▸ List.prefix_rfl)
      · rw [List.append_assoc, List.prefix_append_right_inj] at part
        obtain ⟨call, made, opens, previous, fresh, position⟩ := second.opened between round part
        refine ⟨call, made, opens, previous, fresh, ?_⟩
        rw [position, eventsOf_append, first.events, List.flatMap_append, List.append_assoc]

end Accounts

section Outer

variable {steps : List (Step n)} {target : Nat} {outer : Call n} (made : outer.MadeBy steps)
  {number : Nat} {change : Change} {opened : Session n} {observers : List (Observer n)}
  (begun : outer.session.start outer.step = .round opened number change observers)
  (inner : ∀ call : Call n, call.MadeBy steps → call.rounds = number :: outer.rounds →
    ∃ rounds, Accounts steps target call.log call.outcome.events rounds)
include made begun inner

theorem accounts_act {told waiting : List (Observer n)} {observer : Observer n}
    (parts : observers = told ++ observer :: waiting) {done : List (Step n)}
    (part : done <+: observer.script) :
    let before := tell outer.within number change told opened
    ∃ rounds, Accounts steps target
      (outer.log ++ [.switched number change] ++ before.2 ++
        [.notified number observer.ticket change])
      (act outer.within observer.ticket 0 done before.1).2 rounds := by
  intro before
  induction done using List.reverseRecOn with
  | nil => exact ⟨[], .none rfl⟩
  | append_singleton done step ih =>
    obtain ⟨rounds, earlier⟩ := ih ((List.prefix_append _ _).trans part)
    obtain ⟨rest, script⟩ := part
    rw [List.append_assoc] at script
    have called := Call.MadeBy.scripted made (parts ▸ begun) script.symm
    obtain ⟨others, own⟩ := inner _ called rfl
    refine ⟨rounds ++ (others ++ []), ?_⟩
    rw [act_append]
    refine earlier.append (own.append (.skip ?_))
    exact nofun

theorem accounts_tell (other : number ≠ target) {told : List (Observer n)}
    (part : told <+: observers) :
    ∃ rounds, Accounts steps target (outer.log ++ [.switched number change])
      (tell outer.within number change told opened).2 rounds := by
  induction told using List.reverseRecOn with
  | nil => exact ⟨[], .none rfl⟩
  | append_singleton told observer ih =>
    obtain ⟨rounds, earlier⟩ := ih ((List.prefix_append _ _).trans part)
    obtain ⟨waiting, parts⟩ := part
    rw [List.append_assoc] at parts
    obtain ⟨others, own⟩ := accounts_act made begun inner parts.symm List.prefix_rfl
    have events : (tell outer.within number change (told ++ [observer]) opened).2 =
        (tell outer.within number change told opened).2 ++
          ([.notified number observer.ticket change] ++
            (act outer.within observer.ticket 0 observer.script
              (tell outer.within number change told opened).1).2) := by
      simp only [tell_append, tell, List.append_nil, List.cons_append, List.nil_append]
    refine ⟨rounds ++ ([] ++ others), ?_⟩
    rw [events]
    refine earlier.append ((Accounts.skip ?_).append own)
    exact fun same => other (Option.some.inj same)

end Outer

/-- **What a call accounts for.** The events of a translator that happen in a call make up
rounds, each opened by that call or by one that is made in it. -/
theorem Call.MadeBy.accounts {steps : List (Step n)} (target : Nat) {call : Call n}
    (made : call.MadeBy steps) :
    ∃ rounds, Accounts steps target call.log call.outcome.events rounds := by
  rcases begun : call.session.start call.step with outcome | ⟨opened, number, change, observers⟩
  · have same : call.outcome = outcome := performWithin_of_over begun _
    rcases (concludes_of_start begun).quiet_or_enrols target with ⟨quiet, _⟩ | ⟨current, enrols⟩
    · exact ⟨[], .none (same ▸ quiet)⟩
    · have absent : call.session.activeOf target = none := by
        rw [enrols.number, activeOf_length]
      exact ⟨_, .one made (.inr (made.builds begun enrols)) absent.symm nofun⟩
  · by_cases own : number = target
    · subst own
      obtain ⟨activates, previous, fresh⟩ := made.activates begun
      exact ⟨_, .one made (.inl activates) previous fresh⟩
    · -- what concerns the translator happens in the calls of the observers of another one
      have room := made.length_rounds_lt begun
      obtain ⟨rounds, told⟩ := accounts_tell made begun
        (fun call made deeper => made.accounts target) own List.prefix_rfl
      rw [made.outcome_of_round begun]
      refine ⟨[] ++ (rounds ++ []), ?_⟩
      refine (Accounts.skip ?_).append (told.append (.skip ?_))
      · exact fun same => own (Option.some.inj same)
      · exact fun same => own (Option.some.inj same)
termination_by n - call.rounds.length
decreasing_by
  rw [deeper, List.length_cons]
  omega

/-- The events of a translator that happen in the steps of a run make up rounds. -/
theorem accounts_history {steps : List (Step n)} (target : Nat) {done : List (Step n)}
    (part : done <+: steps) : ∃ rounds, Accounts steps target [] (history done) rounds := by
  induction done using List.reverseRecOn with
  | nil => exact ⟨[], .none rfl⟩
  | append_singleton done step ih =>
    obtain ⟨rounds, earlier⟩ := ih ((List.prefix_append _ _).trans part)
    obtain ⟨rest, parts⟩ := part
    rw [List.append_assoc] at parts
    obtain ⟨others, own⟩ := (Call.MadeBy.own parts.symm).accounts target
    refine ⟨rounds ++ others, ?_⟩
    rw [history_append]
    refine earlier.append ?_
    simpa [run, Call.outcome, perform] using own

/-- The changes of rounds follow one another without a gap. -/
theorem Accounts.linked {steps : List (Step n)} {target : Nat} {events : List Event}
    {rounds : List Round} (accounts : Accounts steps target [] events rounds)
    {earlier : List Round} {round : Round} (part : earlier ++ [round] <+: rounds) :
    round.change.previous = earlier.getLast?.map fun last => last.change.current := by
  obtain ⟨call, made, _, previous, _, position⟩ := accounts.opened earlier round part
  have last := (preserved_lastChange target).of_madeBy rfl made
  rw [changesOf_rounds position, List.getLast?_map, Option.map_map] at last
  exact previous.trans last

/-- **What an activation does.** One that is refused, or that names the active locale, leaves
everything as it is; every other one opens a round. -/
theorem Call.MadeBy.quiet_or_activates {steps : List (Step n)} {call : Call n}
    (made : call.MadeBy steps) {number : Fin n} {locale : Locale}
    (activation : call.step = .setActive number locale) :
    (∀ cause, call.outcome.reply = .error cause ↔ call.session.Refuses number locale cause) ∧
      ((((∃ cause, call.session.Refuses number locale cause) ∨
            call.session.activeOf number = some locale) ∧
          call.outcome.events = [] ∧ call.outcome.session = call.session) ∨
        ((∀ cause, ¬ call.session.Refuses number locale cause) ∧
          call.session.activeOf number ≠ some locale ∧
          ∃ tickets, call.Activates number ⟨⟨call.session.activeOf number, locale⟩, tickets⟩)) := by
  rcases begun : call.session.start call.step with outcome | ⟨opened, target, change, observers⟩
  · have same : call.outcome = outcome := performWithin_of_over begun _
    rw [activation] at begun
    obtain ⟨events, session, replies, refused⟩ := over_setActive begun
    rw [same]
    exact ⟨replies, .inl ⟨refused, events, session⟩⟩
  · obtain ⟨activates, previous, fresh⟩ := made.activates begun
    obtain ⟨_, _, step, rfl, opening, _⟩ := opening_of_start begun
    rw [activation] at step
    cases step
    rw [← previous]
    refine ⟨fun cause => ?_, .inr ⟨opening.not_refuses, fresh, _, activates⟩⟩
    rw [activates.reply]
    exact ⟨nofun, fun refused => (opening.not_refuses cause refused).elim⟩

/-- **Changes of locale form one unbroken chain that all observers see alike.** In any run the
events of a translator make up rounds. The change of each round sets out from the locale of
the one before it, the first one from none, and leads to another, registered locale. Each
round is opened by one call, which tells of the change exactly those observers that are
subscribed then, each once and in the order of their subscriptions, and is over when they
have been told. Calls that fail to activate a locale, or that name the active one, do nothing
at all, and they fail only for a reason. After every call the active locale is that of the
last change. -/
theorem changes_chain (steps : List (Step n)) (target : Nat) :
    (∃ rounds : List Round,
      eventsOf target (history steps) = rounds.flatMap (Round.events target) ∧
      ((run {} steps).1).activeOf target =
        rounds.getLast?.map (fun last => last.change.current) ∧
      ∀ earlier round, earlier ++ [round] <+: rounds →
        round.change.previous = earlier.getLast?.map (fun last => last.change.current) ∧
        round.change.previous ≠ some round.change.current ∧
        ∃ call : Call n, call.MadeBy steps ∧ call.Opens target round ∧
          eventsOf target call.log = earlier.flatMap (Round.events target)) ∧
    ∀ call : Call n, call.MadeBy steps →
      call.log ++ call.outcome.events <+: history steps ∧
      call.outcome.session.activeOf target =
        (changesOf target (call.log ++ call.outcome.events)).getLast?.map Change.current ∧
      ∀ (number : Fin n) (locale : Locale), call.step = .setActive number locale →
        ((∃ cause, call.outcome.reply = .error cause) ∨
            call.session.activeOf number = some locale →
          call.outcome.events = [] ∧ call.outcome.session = call.session) ∧
        (∀ cause, call.outcome.reply = .error cause ↔ call.session.Refuses number locale cause) ∧
        ((∀ cause, ¬ call.session.Refuses number locale cause) →
          call.session.activeOf number ≠ some locale →
          ∃ tickets,
            call.Activates number ⟨⟨call.session.activeOf number, locale⟩, tickets⟩) := by
  constructor
  · obtain ⟨rounds, accounts⟩ := accounts_history target (List.prefix_rfl (l := steps))
    refine ⟨rounds, accounts.events, ?_, fun earlier round part => ?_⟩
    · have last := @Preserved.run n _ (preserved_lastChange target) [] {} rfl steps
      rw [List.nil_append, ← history, changesOf_rounds accounts.events, List.getLast?_map,
        Option.map_map] at last
      exact last
    · obtain ⟨call, made, opens, _, fresh, position⟩ := accounts.opened earlier round part
      exact ⟨accounts.linked part, fresh, call, made, opens, position⟩
  · intro call made
    refine ⟨made.events_prefix, (preserved_lastChange target).of_outcome rfl made, ?_⟩
    intro number locale activation
    obtain ⟨replies, ⟨refused, quiet⟩ | ⟨accepted, fresh, activates⟩⟩ :=
      made.quiet_or_activates activation
    · refine ⟨fun _ => quiet, replies, fun accepted fresh => ?_⟩
      rcases refused with ⟨cause, refused⟩ | active
      · exact absurd refused (accepted cause)
      · exact absurd active fresh
    · refine ⟨?_, replies, fun _ _ => activates⟩
      rintro (⟨cause, failed⟩ | active)
      · exact absurd ((replies cause).mp failed) (accepted cause)
      · exact absurd active fresh

/-- An observer that removes the next one during a round and subscribes another. -/
example :
    let plan : Plan := { catalogues := [(.english, .empty)], fallback := some .english }
    let script : List (Step 1) := [.unsubscribe 0 1, .subscribe 0 [], .setActive 0 .english]
    let steps : List (Step 1) :=
      [.build none false (.ok plan), .subscribe 0 script, .subscribe 0 [], .setActive 0 .english,
        .setActive 0 .english]
    eventsOf 0 (history steps) = Round.events 0 ⟨⟨none, .english⟩, [0, 1]⟩ ∧
      ((run {} steps).1).ticketsOf 0 = [0, 2] := ⟨rfl, rfl⟩

end Phrasebook.Session
