import Phrasebook.Proofs.Session.Completion

/-! # The moments of a run

A run passes through moments, also in the middle of its rounds. At each of them, some events
have happened, some calls have been begun, and what is still to be done stands on an agenda
(`Phrasebook.Session.Moment`). One move carries out the first item of the agenda
(`Phrasebook.Session.Moment.Moves`). The moves of a run are those of its steps one after
another (`Phrasebook.Session.passes_run`), and nothing is left to be done only at its end
(`Phrasebook.Session.Passes.eq_run`). What is preserved holds at each moment
(`Phrasebook.Session.Preserved.of_passes`), and what is still to be done in rounds belongs to
rounds that are in progress (`Phrasebook.Session.Moment.Orderly`).
-/

namespace Phrasebook.Session

variable {n : Nat}

/-- What is still to be done: a step is called, by an observer with its ticket as the step of
the given index of its script, or by the host; an observer is told of a change; a round ends,
and with it the call that has opened it. -/
inductive Pending (n : Nat)
  | call (caller : Option (Nat × Nat)) (step : Step n)
  | tell (target : Nat) (change : Change) (observer : Observer n)
  | settle (target : Nat) (caller : Option (Nat × Nat))

namespace Pending

/-- The translator in whose round something is to be done. -/
def subject : Pending n → Option Nat
  | .call _ _ => none
  | .tell target _ _ | .settle target _ => some target

/-- The calls of a script from the step of the given index on. -/
def script (ticket : Nat) : Nat → List (Step n) → List (Pending n)
  | _, [] => []
  | index, step :: rest => .call (some (ticket, index)) step :: script ticket (index + 1) rest

theorem exists_of_mem_script {ticket index : Nat} {steps : List (Step n)} {item : Pending n}
    (member : item ∈ script ticket index steps) : ∃ caller step, item = .call caller step := by
  induction steps generalizing index with
  | nil => cases member
  | cons step rest ih =>
    rcases List.mem_cons.mp member with rfl | later
    · exact ⟨_, _, rfl⟩
    · exact ih later

end Pending

/-- What is noted when an observer has carried out a step. -/
def note (caller : Option (Nat × Nat)) (reply : Reply) : List Event :=
  match caller with
  | none => []
  | some (ticket, index) => [.acted ticket index reply]

/-- A moment of a run: the events so far, the calls so far with the sessions that they were
made in, the session, and what is still to be done. -/
structure Moment (n : Nat) where
  log : List Event
  calls : List (Session n × Step n)
  session : Session n
  agenda : List (Pending n)

namespace Moment

/-- The first item of the agenda is carried out. -/
inductive Moves : Moment n → Moment n → Prop
  | conclude {log : List Event} {calls : List (Session n × Step n)} {session : Session n}
      {caller : Option (Nat × Nat)} {step : Step n} {agenda : List (Pending n)}
      {outcome : Outcome n} (ended : session.start step = .over outcome) :
      Moves ⟨log, calls, session, .call caller step :: agenda⟩
        { log := log ++ outcome.events ++ note caller outcome.reply
          calls := calls ++ [(session, step)]
          session := outcome.session
          agenda }
  | round {log : List Event} {calls : List (Session n × Step n)} {session opened : Session n}
      {caller : Option (Nat × Nat)} {step : Step n} {agenda : List (Pending n)} {target : Nat}
      {change : Change} {observers : List (Observer n)}
      (begun : session.start step = .round opened target change observers) :
      Moves ⟨log, calls, session, .call caller step :: agenda⟩
        { log := log ++ [.switched target change]
          calls := calls ++ [(session, step)]
          session := opened
          agenda := observers.map (.tell target change) ++ .settle target caller :: agenda }
  | tell {log : List Event} {calls : List (Session n × Step n)} {session : Session n}
      {target : Nat} {change : Change} {observer : Observer n} {agenda : List (Pending n)} :
      Moves ⟨log, calls, session, .tell target change observer :: agenda⟩
        { log := log ++ [.notified target observer.ticket change]
          calls
          session
          agenda := Pending.script observer.ticket 0 observer.script ++ agenda }
  | settle {log : List Event} {calls : List (Session n × Step n)} {session : Session n}
      {target : Nat} {caller : Option (Nat × Nat)} {agenda : List (Pending n)} :
      Moves ⟨log, calls, session, .settle target caller :: agenda⟩
        { log := log ++ ([.settled target] ++ note caller (.ok .done))
          calls
          session := session.settle target
          agenda }

/-- Any number of moves. -/
def Leads (first second : Moment n) : Prop := Relation.ReflTransGen Moves first second

/-- A moment with more to be done afterwards. -/
def before (moment : Moment n) (later : List (Pending n)) : Moment n :=
  { moment with agenda := moment.agenda ++ later }

/-- The moment at which nothing has happened and the steps of a run are to be done. -/
def initial (steps : List (Step n)) : Moment n :=
  ⟨[], [], {}, steps.map (.call none)⟩

/-- There is one move at most. -/
theorem Moves.unique {moment next other : Moment n} (moves : moment.Moves next)
    (again : moment.Moves other) : next = other := by
  cases moves with
  | conclude ended =>
    cases again with
    | conclude same => rw [Beginning.over.inj (ended.symm.trans same)]
    | round begun => cases ended.symm.trans begun
  | round begun =>
    cases again with
    | conclude ended => cases ended.symm.trans begun
    | round same =>
      cases begun.symm.trans same
      rfl
  | tell => cases again with | tell => rfl
  | settle => cases again with | settle => rfl

/-- What is done first does not depend on what comes afterwards. -/
theorem Moves.before {moment next : Moment n} (moves : moment.Moves next)
    (later : List (Pending n)) : (moment.before later).Moves (next.before later) := by
  cases moves with
  | conclude ended => exact .conclude ended
  | round begun =>
    rw [Moment.before, Moment.before, List.append_assoc]
    exact .round begun
  | tell =>
    rw [Moment.before, Moment.before, List.append_assoc]
    exact .tell
  | settle => exact .settle

theorem Leads.refl (moment : Moment n) : moment.Leads moment := Relation.ReflTransGen.refl

theorem Leads.trans {first second third : Moment n} (leads : first.Leads second)
    (onwards : second.Leads third) : first.Leads third :=
  Relation.ReflTransGen.trans leads onwards

theorem Moves.leads {moment next : Moment n} (moves : moment.Moves next) : moment.Leads next :=
  Relation.ReflTransGen.single moves

theorem Leads.before {first second : Moment n} (leads : first.Leads second)
    (later : List (Pending n)) : (first.before later).Leads (second.before later) := by
  induction leads with
  | refl => exact .refl _
  | tail _ moves ih => exact ih.trans (moves.before later).leads

/-- Of two moments that the same one leads to, one leads to the other. -/
theorem Leads.total {moment first second : Moment n} (leads : moment.Leads first)
    (others : moment.Leads second) : first.Leads second ∨ second.Leads first :=
  Relation.ReflTransGen.total_of_right_unique (fun _ _ _ => Moves.unique) leads others

end Moment

open Moment

section Adequacy

mutual

/-- A call is over after some moves. -/
theorem Performs.leads {session : Session n} {step : Step n} {outcome : Outcome n}
    (log : List Event) (calls : List (Session n × Step n)) (caller : Option (Nat × Nat))
    (agenda : List (Pending n)) : Performs session step outcome →
      ∃ begun, Leads ⟨log, calls, session, .call caller step :: agenda⟩
        ⟨log ++ outcome.events ++ note caller outcome.reply, calls ++ begun, outcome.session,
          agenda⟩
  | .over ended => ⟨_, (Moves.conclude ended).leads⟩
  | @Performs.round _ _ _ _ _ target change _ events begun tells => by
    obtain ⟨inner, told⟩ := tells.leads (log ++ [.switched target change])
      (calls ++ [(session, step)]) (.settle target caller :: agenda)
    have whole := (Moves.round begun).leads.trans (told.trans Moves.settle.leads)
    refine ⟨[(session, step)] ++ inner, ?_⟩
    simpa using whole

theorem Tells.leads {target : Nat} {change : Change} {observers : List (Observer n)}
    {session last : Session n} {events : List Event} (log : List Event)
    (calls : List (Session n × Step n)) (agenda : List (Pending n)) :
    Tells target change observers session last events →
      ∃ begun, Leads ⟨log, calls, session, observers.map (.tell target change) ++ agenda⟩
        ⟨log ++ events, calls ++ begun, last, agenda⟩
  | .nil => ⟨[], by simpa using .refl _⟩
  | @Tells.cons _ _ _ observer rest _ _ _ own _ acts tells => by
    obtain ⟨first, done⟩ := acts.leads (log ++ [.notified target observer.ticket change]) calls
      (rest.map (.tell target change) ++ agenda)
    obtain ⟨second, told⟩ := tells.leads
      (log ++ [.notified target observer.ticket change] ++ own) (calls ++ first) agenda
    have whole := Moves.tell.leads.trans (done.trans told)
    refine ⟨first ++ second, ?_⟩
    simpa using whole

theorem Acts.leads {ticket index : Nat} {script : List (Step n)} {session last : Session n}
    {events : List Event} (log : List Event) (calls : List (Session n × Step n))
    (agenda : List (Pending n)) : Acts ticket index script session last events →
      ∃ begun, Leads ⟨log, calls, session, Pending.script ticket index script ++ agenda⟩
        ⟨log ++ events, calls ++ begun, last, agenda⟩
  | .nil => ⟨[], by simpa [Pending.script] using .refl _⟩
  | @Acts.cons _ _ _ step rest _ _ outcome _ performs acts => by
    obtain ⟨first, done⟩ := performs.leads log calls (some (ticket, index))
      (Pending.script ticket (index + 1) rest ++ agenda)
    obtain ⟨second, later⟩ := acts.leads
      (log ++ outcome.events ++ [.acted ticket index outcome.reply]) (calls ++ first) agenda
    have whole := done.trans later
    refine ⟨first ++ second, ?_⟩
    simpa [note, Pending.script] using whole

end

/-- The steps of a run are carried out one after another. -/
theorem leads_run (log : List Event) (calls : List (Session n × Step n)) (session : Session n)
    (steps : List (Step n)) (agenda : List (Pending n)) :
    ∃ begun, Leads ⟨log, calls, session, steps.map (.call none) ++ agenda⟩
      ⟨log ++ (session.run steps).2.flatMap Prod.snd, calls ++ begun, (session.run steps).1,
        agenda⟩ := by
  induction steps generalizing log calls session with
  | nil => exact ⟨[], by simpa [run] using .refl _⟩
  | cons step rest ih =>
    have performed : Performs session step (session.perform step) := performs_iff.mpr rfl
    obtain ⟨first, done⟩ := performed.leads log calls none (rest.map (.call none) ++ agenda)
    obtain ⟨second, later⟩ := ih (log ++ (session.perform step).events) (calls ++ first)
      (session.perform step).session
    have whole := done.trans (by simpa [note] using later)
    refine ⟨first ++ second, ?_⟩
    simpa [run] using whole

end Adequacy

/-- A moment that the run of steps passes through. -/
def Passes (steps : List (Step n)) (moment : Moment n) : Prop := (initial steps).Leads moment

/-- All calls that are begun between two moments are over at the second one: what was to be
done before is done, and nothing has been begun of what comes afterwards. -/
def Moment.Completes (first second : Moment n) : Prop :=
  ∃ now, first.agenda = now ++ second.agenda ∧
    Leads { first with agenda := now } { second with agenda := [] }

theorem Moment.Completes.leads {first second : Moment n} (completes : first.Completes second) :
    first.Leads second := by
  obtain ⟨now, parts, leads⟩ := completes
  have framed := leads.before second.agenda
  simp only [Moment.before, ← parts] at framed
  exact framed

/-- **A run and its moments.** A run passes through the end of each of its steps, and from there
to its own end the calls of the other steps are completed. -/
theorem passes_run (done rest : List (Step n)) :
    ∃ calls more,
      let first : Moment n := ⟨history done, calls, (run {} done).1, rest.map (.call none)⟩
      Passes (done ++ rest) first ∧
        first.Completes
          ⟨history (done ++ rest), calls ++ more, (run {} (done ++ rest)).1, []⟩ := by
  obtain ⟨calls, earlier⟩ := leads_run [] [] {} done (rest.map (.call none))
  obtain ⟨more, later⟩ := leads_run (history done) calls (run {} done).1 rest []
  refine ⟨calls, more, ?_, rest.map (.call none), (List.append_nil _).symm, ?_⟩
  · rw [Passes, initial, List.map_append]
    exact earlier
  · rw [history_append, run_append]
    rw [List.append_nil] at later
    exact later

theorem Moment.Leads.eq_of_agenda_eq_nil {first second : Moment n} (leads : first.Leads second)
    (done : first.agenda = []) : second = first := by
  cases leads.cases_head with
  | inl same => exact same.symm
  | inr further =>
    obtain ⟨next, moves, _⟩ := further
    cases moves with
    | _ => cases done

/-- Nothing is left to be done only at the end of a run. -/
theorem Passes.eq_run {steps : List (Step n)} {moment : Moment n} (passes : Passes steps moment)
    (done : moment.agenda = []) :
    moment.log = history steps ∧ moment.session = (run {} steps).1 := by
  obtain ⟨calls, more, ended, _⟩ := passes_run steps []
  rw [List.append_nil] at ended
  rcases passes.total ended with leads | leads
  · rw [← leads.eq_of_agenda_eq_nil done]
    exact ⟨rfl, rfl⟩
  · rw [leads.eq_of_agenda_eq_nil rfl]
    exact ⟨rfl, rfl⟩

theorem Preserved.of_moves {holds : List Event → Session n → Prop} (preserved : Preserved holds)
    {moment next : Moment n} (moves : moment.Moves next)
    (before : holds moment.log moment.session) : holds next.log next.session := by
  have noted {log : List Event} {session : Session n} (caller : Option (Nat × Nat))
      (reply : Reply) (before : holds log session) : holds (log ++ note caller reply) session := by
    cases caller with
    | none => exact (List.append_nil log).symm ▸ before
    | some ticket => exact preserved.acted _ _ _ before
  cases moves with
  | conclude ended => exact noted _ _ (preserved.ended before ended)
  | round begun => exact preserved.opened before begun
  | tell => exact preserved.notified _ _ _ before
  | settle =>
    dsimp only
    rw [← List.append_assoc]
    exact noted _ _ (preserved.settled _ before)

theorem Preserved.of_leads {holds : List Event → Session n → Prop} (preserved : Preserved holds)
    {first second : Moment n} (leads : first.Leads second)
    (before : holds first.log first.session) : holds second.log second.session := by
  induction leads with
  | refl => exact before
  | tail _ moves ih => exact preserved.of_moves moves ih

/-- **What is preserved holds at each moment.** -/
theorem Preserved.of_passes {holds : List Event → Session n → Prop} (preserved : Preserved holds)
    (initially : holds [] {}) {steps : List (Step n)} {moment : Moment n}
    (passes : Passes steps moment) : holds moment.log moment.session :=
  preserved.of_leads passes initially

theorem changesOf_note (target : Nat) (caller : Option (Nat × Nat)) (reply : Reply) :
    changesOf target (note caller reply) = [] := by
  cases caller with
  | none => rfl
  | some ticket => exact changesOf_remark rfl

namespace Moment

/-- When a round ends, nothing is left to be done in it. -/
def Closing (agenda : List (Pending n)) : Prop :=
  agenda.Pairwise fun item later =>
    ∀ target caller, item = .settle target caller → later.subject ≠ some target

/-- What ends no round may come before anything. -/
theorem Closing.append {items agenda : List (Pending n)}
    (ends : ∀ item ∈ items, ∀ target caller, item ≠ .settle target caller)
    (closing : Closing agenda) : Closing (items ++ agenda) := by
  induction items with
  | nil => exact closing
  | cons item items ih =>
    obtain ⟨first, others⟩ := List.forall_mem_cons.mp ends
    refine List.pairwise_cons.mpr ⟨?_, ih others⟩
    exact fun _ _ target caller same => absurd same (first target caller)

/-- What is still to be done in rounds: they are in progress, observers are to be told of the
last change of their translator, and a round ends last. -/
structure Orderly (moment : Moment n) : Prop where
  ongoing : ∀ item ∈ moment.agenda, ∀ target, item.subject = some target →
    moment.session.IsNotifying target
  latest : ∀ target change observer, .tell target change observer ∈ moment.agenda →
    (changesOf target moment.log).getLast? = some change
  closing : Closing moment.agenda

theorem orderly_initial (steps : List (Step n)) : (initial steps).Orderly := by
  have called (item : Pending n) (member : item ∈ steps.map (.call none)) :
      ∃ step, item = .call none step := by
    obtain ⟨step, _, rfl⟩ := List.mem_map.mp member
    exact ⟨step, rfl⟩
  refine ⟨?_, ?_, ?_⟩
  · intro item member target subject
    obtain ⟨step, rfl⟩ := called item member
    cases subject
  · intro target change observer member
    obtain ⟨step, same⟩ := called _ member
    cases same
  · rw [initial, ← List.append_nil (steps.map _)]
    refine Closing.append ?_ .nil
    rintro item member target caller rfl
    obtain ⟨step, same⟩ := called _ member
    cases same

namespace Orderly

variable {log : List Event} {calls : List (Session n × Step n)} {session : Session n}
  {agenda : List (Pending n)}

theorem conclude {caller : Option (Nat × Nat)} {step : Step n} {outcome : Outcome n}
    (orderly : Orderly ⟨log, calls, session, .call caller step :: agenda⟩)
    (ended : session.start step = .over outcome) :
    Orderly ⟨log ++ outcome.events ++ note caller outcome.reply, calls ++ [(session, step)],
      outcome.session, agenda⟩ := by
  have concludes := concludes_of_start ended
  refine ⟨?_, ?_, orderly.closing.of_cons⟩
  · intro item member target subject
    exact (concludes.isNotifying_iff target).mpr
      (orderly.ongoing item (.tail _ member) target subject)
  · intro target change observer member
    have quiet := concludes.quiet (orderly.ongoing _ (.tail _ member) target rfl)
    rw [changesOf_append, changesOf_append, changesOf_note, changesOf_eq_nil quiet,
      List.append_nil, List.append_nil]
    exact orderly.latest target change observer (.tail _ member)

theorem round {caller : Option (Nat × Nat)} {step : Step n} {opened : Session n} {number : Nat}
    {change : Change} {observers : List (Observer n)}
    (orderly : Orderly ⟨log, calls, session, .call caller step :: agenda⟩)
    (begun : session.start step = .round opened number change observers) :
    Orderly ⟨log ++ [.switched number change], calls ++ [(session, step)], opened,
      observers.map (.tell number change) ++ .settle number caller :: agenda⟩ := by
  obtain ⟨_, member, _, _, opening, rfl, _⟩ := opening_of_start begun
  -- the translator is in no round, so nothing is to be done in one
  have other (item : Pending n) (later : item ∈ agenda) : item.subject ≠ some number :=
    fun own => opening.not_isNotifying (orderly.ongoing item (.tail _ later) number own)
  have told (item : Pending n) (new : item ∈ observers.map (.tell number change)) :
      ∃ observer, item = .tell number change observer := by
    obtain ⟨observer, _, rfl⟩ := List.mem_map.mp new
    exact ⟨observer, rfl⟩
  refine ⟨?_, ?_, ?_⟩
  · intro item member target subject
    rw [opening.isNotifying_iff]
    rcases List.mem_append.mp member with new | member
    · obtain ⟨observer, rfl⟩ := told item new
      exact .inl (Option.some.inj subject)
    · rcases List.mem_cons.mp member with rfl | later
      · exact .inl (Option.some.inj subject)
      · exact .inr (orderly.ongoing item (.tail _ later) target subject)
  · intro target change' observer member
    rw [changesOf_append, changesOf_switched]
    rcases List.mem_append.mp member with new | member
    · obtain ⟨_, same⟩ := told _ new
      cases same
      rw [if_pos rfl, List.getLast?_concat]
    · rcases List.mem_cons.mp member with same | later
      · cases same
      · have stranger : number ≠ target := fun same => other _ later (same ▸ rfl)
        rw [if_neg stranger, List.append_nil]
        exact orderly.latest target change' observer (.tail _ later)
  · refine Closing.append ?_ (List.pairwise_cons.mpr ⟨?_, orderly.closing.of_cons⟩)
    · rintro item new target caller rfl
      obtain ⟨_, same⟩ := told _ new
      cases same
    · intro item later target caller same
      cases same
      exact other item later

theorem tell {number : Nat} {change : Change} {observer : Observer n}
    (orderly : Orderly ⟨log, calls, session, .tell number change observer :: agenda⟩) :
    Orderly ⟨log ++ [.notified number observer.ticket change], calls, session,
      Pending.script observer.ticket 0 observer.script ++ agenda⟩ := by
  refine ⟨?_, ?_, ?_⟩
  · intro item member target subject
    rcases List.mem_append.mp member with called | later
    · obtain ⟨_, _, rfl⟩ := Pending.exists_of_mem_script called
      cases subject
    · exact orderly.ongoing item (.tail _ later) target subject
  · intro target change' told member
    rw [changesOf_append, changesOf_remark rfl, List.append_nil]
    rcases List.mem_append.mp member with called | later
    · obtain ⟨_, _, same⟩ := Pending.exists_of_mem_script called
      cases same
    · exact orderly.latest target change' told (.tail _ later)
  · refine Closing.append ?_ orderly.closing.of_cons
    rintro item called target caller rfl
    obtain ⟨_, _, same⟩ := Pending.exists_of_mem_script called
    cases same

theorem settle {number : Nat} {caller : Option (Nat × Nat)}
    (orderly : Orderly ⟨log, calls, session, .settle number caller :: agenda⟩) :
    Orderly ⟨log ++ ([.settled number] ++ note caller (.ok .done)), calls,
      session.settle number, agenda⟩ := by
  have other (item : Pending n) (later : item ∈ agenda) : item.subject ≠ some number :=
    (List.pairwise_cons.mp orderly.closing).1 item later number caller rfl
  refine ⟨?_, ?_, orderly.closing.of_cons⟩
  · intro item member target subject
    rw [isNotifying_settle]
    refine ⟨?_, orderly.ongoing item (.tail _ member) target subject⟩
    rintro rfl
    exact other item member subject
  · intro target change observer member
    rw [changesOf_append, changesOf_append, changesOf_note, changesOf_remark rfl,
      List.append_nil, List.append_nil]
    exact orderly.latest target change observer (.tail _ member)

end Orderly

theorem Moves.orderly {moment next : Moment n} (moves : moment.Moves next)
    (orderly : moment.Orderly) : next.Orderly := by
  cases moves with
  | conclude ended => exact orderly.conclude ended
  | round begun => exact orderly.round begun
  | tell => exact orderly.tell
  | settle => exact orderly.settle

end Moment

/-- **Rounds are carried out in order.** -/
theorem Passes.orderly {steps : List (Step n)} {moment : Moment n} (passes : Passes steps moment) :
    moment.Orderly := by
  induction passes with
  | refl => exact orderly_initial steps
  | tail _ moves ih => exact moves.orderly ih

end Phrasebook.Session
