import Phrasebook.Session.Basic

/-! # What happens during a run

The events of a run in the order in which they happen (`Phrasebook.Session.history`). A
script, the observers of a round and a run can be cut into two parts, of which the second
one goes on where the first one ends. Whatever every start of a step and every event
between the steps preserves holds throughout
(`Phrasebook.Session.Preserved.performWithin`).
-/

namespace Phrasebook.Session

variable {n : Nat}

/-- The translator whose change of locale an event belongs to. -/
def Event.subject : Event → Option Nat
  | .switched target _ | .settled target | .notified target _ _ => some target
  | .described _ | .issue _ _ _ | .acted _ _ _ => none

/-- The change that an event begins. -/
def Event.change? : Event → Option Change
  | .switched _ change => some change
  | _ => none

/-- The events that belong to changes of a translator. -/
def eventsOf (target : Nat) (events : List Event) : List Event :=
  events.filter fun event => event.subject = some target

/-- The changes of a translator, in the order in which they began. -/
def changesOf (target : Nat) (events : List Event) : List Change :=
  (eventsOf target events).filterMap Event.change?

@[simp] theorem eventsOf_append (target : Nat) (events more : List Event) :
    eventsOf target (events ++ more) = eventsOf target events ++ eventsOf target more :=
  List.filter_append ..

theorem eventsOf_eq_nil_iff {target : Nat} {events : List Event} :
    eventsOf target events = [] ↔ ∀ event ∈ events, event.subject ≠ some target := by
  simp [eventsOf]

theorem eventsOf_cons_of_ne {target : Nat} {event : Event} (other : event.subject ≠ some target)
    (events : List Event) : eventsOf target (event :: events) = eventsOf target events :=
  List.filter_cons_of_neg (by simpa using other)

theorem eventsOf_cons_of_eq {target : Nat} {event : Event} (own : event.subject = some target)
    (events : List Event) : eventsOf target (event :: events) = event :: eventsOf target events :=
  List.filter_cons_of_pos (decide_eq_true own)

theorem changesOf_append (target : Nat) (events more : List Event) :
    changesOf target (events ++ more) = changesOf target events ++ changesOf target more := by
  rw [changesOf, eventsOf_append, List.filterMap_append, changesOf, changesOf]

theorem changesOf_eq_nil {target : Nat} {events : List Event}
    (quiet : eventsOf target events = []) : changesOf target events = [] := by
  rw [changesOf, quiet, List.filterMap_nil]

theorem changesOf_switched (target number : Nat) (change : Change) :
    changesOf target [.switched number change] = if number = target then [change] else [] := by
  by_cases own : number = target
  · rw [if_pos own, changesOf, eventsOf_cons_of_eq]
    · rfl
    · exact congrArg some own
  · rw [if_neg own, changesOf, eventsOf_cons_of_ne]
    · rfl
    · exact fun same => own (Option.some.inj same)

theorem changesOf_remark {target : Nat} {event : Event} (begins : event.change? = none) :
    changesOf target [event] = [] := by
  by_cases own : event.subject = some target
  · rw [changesOf, eventsOf_cons_of_eq own]
    exact List.filterMap_cons_none begins
  · rw [changesOf, eventsOf_cons_of_ne own]
    rfl

/-- The events of a run. -/
def history (steps : List (Step n)) : List Event :=
  (run {} steps).2.flatMap Prod.snd

theorem run_append (session : Session n) (done rest : List (Step n)) :
    session.run (done ++ rest) =
      (((session.run done).1.run rest).1,
        (session.run done).2 ++ ((session.run done).1.run rest).2) := by
  induction done generalizing session with
  | nil => rfl
  | cons step done ih => rw [List.cons_append, run, run, ih, List.cons_append]

theorem history_append (done rest : List (Step n)) :
    history (done ++ rest) =
      history done ++ ((run {} done).1.run rest).2.flatMap Prod.snd := by
  rw [history, run_append, List.flatMap_append, history]

theorem act_cons (perform : Session n → Step n → Outcome n) (ticket index : Nat) (step : Step n)
    (rest : List (Step n)) (session : Session n) :
    act perform ticket index (step :: rest) session =
      let outcome := perform session step
      let later := act perform ticket (index + 1) rest outcome.session
      (later.1, outcome.events ++ .acted ticket index outcome.reply :: later.2) := rfl

theorem act_append (perform : Session n → Step n → Outcome n) (ticket index : Nat)
    (done rest : List (Step n)) (session : Session n) :
    act perform ticket index (done ++ rest) session =
      let first := act perform ticket index done session
      let second := act perform ticket (index + done.length) rest first.1
      (second.1, first.2 ++ second.2) := by
  induction done generalizing index session with
  | nil => rfl
  | cons step done ih =>
    have further : index + (step :: done).length = index + 1 + done.length := by
      rw [List.length_cons, Nat.add_assoc, Nat.add_comm 1]
    simp only [List.cons_append, act_cons, ih, further, List.append_assoc]

theorem tell_cons (perform : Session n → Step n → Outcome n) (target : Nat) (change : Change)
    (observer : Observer n) (rest : List (Observer n)) (session : Session n) :
    tell perform target change (observer :: rest) session =
      let own := act perform observer.ticket 0 observer.script session
      let later := tell perform target change rest own.1
      (later.1, .notified target observer.ticket change :: own.2 ++ later.2) := rfl

theorem tell_append (perform : Session n → Step n → Outcome n) (target : Nat) (change : Change)
    (told rest : List (Observer n)) (session : Session n) :
    tell perform target change (told ++ rest) session =
      let first := tell perform target change told session
      let second := tell perform target change rest first.1
      (second.1, first.2 ++ second.2) := by
  induction told generalizing session with
  | nil => rfl
  | cons observer told ih =>
    simp only [List.cons_append, tell_cons, ih, List.append_assoc]

theorem performWithin_of_over {session : Session n} {step : Step n} {outcome : Outcome n}
    (begun : session.start step = .over outcome) (depth : Nat) :
    performWithin depth session step = outcome := by
  cases depth with
  | zero => rw [performWithin, begun]
  | succ depth => rw [performWithin, begun]

theorem performWithin_zero_of_round {session opened : Session n} {step : Step n} {target : Nat}
    {change : Change} {observers : List (Observer n)}
    (begun : session.start step = .round opened target change observers) :
    performWithin 0 session step =
      session.unchanged (.error (.error (.reentrantSwitch change.current))) := by
  rw [performWithin, begun]

theorem performWithin_of_round {session opened : Session n} {step : Step n} {target : Nat}
    {change : Change} {observers : List (Observer n)}
    (begun : session.start step = .round opened target change observers) (depth : Nat) :
    performWithin (depth + 1) session step =
      { session := (tell (performWithin depth) target change observers opened).1.settle target
        events := .switched target change ::
          (tell (performWithin depth) target change observers opened).2 ++ [.settled target]
        reply := .ok .done } := by
  rw [performWithin, begun]

section Script

variable {perform : Session n → Step n → Outcome n} {holds : List Event → Session n → Prop}
  (performs : ∀ {log : List Event} {session : Session n} (step : Step n), holds log session →
    holds (log ++ (perform session step).events) (perform session step).session)
  (acted : ∀ {log : List Event} {session : Session n} (ticket index : Nat) (reply : Reply),
    holds log session → holds (log ++ [.acted ticket index reply]) session)
include performs acted

theorem holds_act {log : List Event} {session : Session n} (before : holds log session)
    (ticket index : Nat) (script : List (Step n)) :
    holds (log ++ (act perform ticket index script session).2)
      (act perform ticket index script session).1 := by
  induction script generalizing log session index with
  | nil =>
    rw [act, List.append_nil]
    exact before
  | cons step rest ih =>
    have noted := acted ticket index (perform session step).reply (performs step before)
    have later := ih noted (index + 1)
    rw [List.append_assoc, List.append_assoc] at later
    exact later

theorem holds_tell {target : Nat} {change : Change}
    (notified : ∀ {log : List Event} {session : Session n} (ticket : Nat),
      holds log session → holds (log ++ [.notified target ticket change]) session)
    {log : List Event} {session : Session n} (before : holds log session)
    (observers : List (Observer n)) :
    holds (log ++ (tell perform target change observers session).2)
      (tell perform target change observers session).1 := by
  induction observers generalizing log session with
  | nil =>
    rw [tell, List.append_nil]
    exact before
  | cons observer rest ih =>
    have told := notified observer.ticket before
    have carriedOut := holds_act performs acted told observer.ticket 0 observer.script
    have later := ih carriedOut
    rw [List.append_assoc, List.append_assoc] at later
    exact later

end Script

/-- What holds of the events so far and of the session, and goes on to hold whatever
happens. -/
structure Preserved (holds : List Event → Session n → Prop) : Prop where
  ended : ∀ {log : List Event} {session : Session n} {step : Step n} {outcome : Outcome n},
    holds log session → session.start step = .over outcome →
      holds (log ++ outcome.events) outcome.session
  opened : ∀ {log : List Event} {session : Session n} {step : Step n} {opened : Session n}
      {target : Nat} {change : Change} {observers : List (Observer n)},
    holds log session → session.start step = .round opened target change observers →
      holds (log ++ [.switched target change]) opened
  notified : ∀ {log : List Event} {session : Session n} (target ticket : Nat) (change : Change),
    holds log session → holds (log ++ [.notified target ticket change]) session
  acted : ∀ {log : List Event} {session : Session n} (ticket index : Nat) (reply : Reply),
    holds log session → holds (log ++ [.acted ticket index reply]) session
  settled : ∀ {log : List Event} {session : Session n} (target : Nat),
    holds log session → holds (log ++ [.settled target]) (session.settle target)

namespace Preserved

variable {holds : List Event → Session n → Prop} (preserved : Preserved holds)
include preserved

theorem performWithin (depth : Nat) {log : List Event} {session : Session n} (step : Step n)
    (before : holds log session) :
    holds (log ++ (performWithin depth session step).events)
      (performWithin depth session step).session := by
  -- a script runs one level deeper than the round that tells its observer
  induction depth generalizing log session step with
  | zero =>
    rcases begun : session.start step with outcome | ⟨opened, target, change, observers⟩
    · rw [performWithin_of_over begun]
      exact preserved.ended before begun
    · rw [performWithin_zero_of_round begun, unchanged, List.append_nil]
      exact before
  | succ depth ih =>
    rcases begun : session.start step with outcome | ⟨opened, target, change, observers⟩
    · rw [performWithin_of_over begun]
      exact preserved.ended before begun
    · have switched := preserved.opened before begun
      have told := holds_tell ih preserved.acted
        (fun ticket => preserved.notified target ticket change) switched observers
      have settled := preserved.settled target told
      rw [List.append_assoc, List.append_assoc] at settled
      rw [performWithin_of_round begun]
      exact settled

theorem run {log : List Event} {session : Session n} (before : holds log session)
    (steps : List (Step n)) :
    holds (log ++ (session.run steps).2.flatMap Prod.snd) (session.run steps).1 := by
  induction steps generalizing log session with
  | nil =>
    rw [Session.run, List.flatMap_nil, List.append_nil]
    exact before
  | cons step rest ih =>
    have later := ih (preserved.performWithin n step before)
    rw [List.append_assoc] at later
    exact later

end Preserved

end Phrasebook.Session
