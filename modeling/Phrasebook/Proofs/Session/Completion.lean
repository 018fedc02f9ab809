import Phrasebook.Proofs.Session.Calls

/-! # Calls come to an end

A step is carried out without any bound on the nesting of rounds
(`Phrasebook.Session.Performs`), and it has one outcome at most
(`Phrasebook.Session.Performs.unique`). It always has one: rounds that nest belong to
different translators, so a bound of one round for each translator is never met
(`Phrasebook.Session.performs_performWithin`).
-/

namespace Phrasebook.Session

variable {n : Nat}

mutual

/-- A step is carried out: it is over when it has begun, or when all observers have been told
of the change that it makes. -/
inductive Performs : Session n → Step n → Outcome n → Prop
  | over {session : Session n} {step : Step n} {outcome : Outcome n}
      (ended : session.start step = .over outcome) : Performs session step outcome
  | round {session opened last : Session n} {step : Step n} {target : Nat} {change : Change}
      {observers : List (Observer n)} {events : List Event}
      (begun : session.start step = .round opened target change observers)
      (tells : Tells target change observers opened last events) :
      Performs session step
        { session := last.settle target
          events := .switched target change :: events ++ [.settled target]
          reply := .ok .done }

/-- Observers are told of a change one after another, and each carries out its script. -/
inductive Tells : Nat → Change → List (Observer n) → Session n → Session n → List Event → Prop
  | nil {target : Nat} {change : Change} {session : Session n} :
      Tells target change [] session session []
  | cons {target : Nat} {change : Change} {observer : Observer n} {rest : List (Observer n)}
      {session next last : Session n} {own events : List Event}
      (acts : Acts observer.ticket 0 observer.script session next own)
      (tells : Tells target change rest next last events) :
      Tells target change (observer :: rest) session last
        (.notified target observer.ticket change :: own ++ events)

/-- The steps of a script are carried out one after another. -/
inductive Acts : Nat → Nat → List (Step n) → Session n → Session n → List Event → Prop
  | nil {ticket index : Nat} {session : Session n} : Acts ticket index [] session session []
  | cons {ticket index : Nat} {step : Step n} {rest : List (Step n)} {session last : Session n}
      {outcome : Outcome n} {events : List Event} (performs : Performs session step outcome)
      (acts : Acts ticket (index + 1) rest outcome.session last events) :
      Acts ticket index (step :: rest) session last
        (outcome.events ++ .acted ticket index outcome.reply :: events)

end

mutual

/-- A step has no two outcomes. -/
theorem Performs.unique {session : Session n} {step : Step n} {outcome other : Outcome n} :
    Performs session step outcome → Performs session step other → outcome = other
  | .over ended, .over again => Beginning.over.inj (ended.symm.trans again)
  | .over ended, .round begun _ => nomatch ended.symm.trans begun
  | .round begun _, .over ended => nomatch ended.symm.trans begun
  | .round begun tells, .round again others => by
    cases begun.symm.trans again
    obtain ⟨rfl, rfl⟩ := tells.unique others
    rfl

theorem Tells.unique {target : Nat} {change : Change} {observers : List (Observer n)}
    {session last other : Session n} {events more : List Event} :
    Tells target change observers session last events →
      Tells target change observers session other more → last = other ∧ events = more
  | .nil, .nil => ⟨rfl, rfl⟩
  | .cons acts tells, .cons again others => by
    obtain ⟨rfl, rfl⟩ := acts.unique again
    obtain ⟨rfl, rfl⟩ := tells.unique others
    exact ⟨rfl, rfl⟩

theorem Acts.unique {ticket index : Nat} {script : List (Step n)} {session last other : Session n}
    {events more : List Event} :
    Acts ticket index script session last events →
      Acts ticket index script session other more → last = other ∧ events = more
  | .nil, .nil => ⟨rfl, rfl⟩
  | .cons performs acts, .cons again others => by
    cases performs.unique again
    obtain ⟨rfl, rfl⟩ := acts.unique others
    exact ⟨rfl, rfl⟩

end

section Rounds

variable {depth : Nat} {rounds : List Nat}
  (performs : ∀ {session : Session n} (step : Step n), session.Nests rounds →
    Performs session step (performWithin depth session step))
include performs

theorem acts_act {session : Session n} (nests : session.Nests rounds) (ticket index : Nat)
    (script : List (Step n)) :
    Acts ticket index script session (act (performWithin depth) ticket index script session).1
      (act (performWithin depth) ticket index script session).2 := by
  induction script generalizing session index with
  | nil => exact .nil
  | cons step rest ih =>
    have first := performs step nests
    have still := nests.of_isNotifying_iff fun target =>
      isNotifying_performWithin depth target session step
    exact .cons first (ih still (index + 1))

theorem tells_tell {session : Session n} (nests : session.Nests rounds) (target : Nat)
    (change : Change) (observers : List (Observer n)) :
    Tells target change observers session
      (tell (performWithin depth) target change observers session).1
      (tell (performWithin depth) target change observers session).2 := by
  induction observers generalizing session with
  | nil => exact .nil
  | cons observer rest ih =>
    have own := acts_act performs nests observer.ticket 0 observer.script
    have still := nests.of_isNotifying_iff fun number =>
      isNotifying_act (isNotifying_performWithin depth number) observer.ticket 0 observer.script
        session
    exact .cons own (ih still)

end Rounds

/-- **Every step comes to an end.** Where there is room for the rounds of all other
translators, the bound on their nesting has no effect. -/
theorem performs_performWithin (depth : Nat) {session : Session n} (step : Step n)
    {rounds : List Nat} (nests : session.Nests rounds) (room : n ≤ depth + rounds.length) :
    Performs session step (performWithin depth session step) := by
  -- the bound falls as the list of the translators that have rounds grows
  induction depth generalizing session step rounds with
  | zero =>
    rcases begun : session.start step with outcome | ⟨opened, target, change, observers⟩
    · rw [performWithin_of_over begun]
      exact .over begun
    · have fewer := (nests.of_start begun).length_le
      rw [List.length_cons] at fewer
      omega
  | succ depth ih =>
    rcases begun : session.start step with outcome | ⟨opened, target, change, observers⟩
    · rw [performWithin_of_over begun]
      exact .over begun
    · have deeper : n ≤ depth + (target :: rounds).length := by
        rw [List.length_cons]
        omega
      have tells := tells_tell (fun step nests => ih step nests deeper) (nests.of_start begun)
        target change observers
      rw [performWithin_of_round begun]
      exact .round begun tells

/-- A step has one outcome, whichever rounds are in progress. -/
theorem performs_iff {session : Session n} {step : Step n} {outcome : Outcome n} :
    Performs session step outcome ↔ outcome = session.perform step := by
  have performed : Performs session step (session.perform step) :=
    performs_performWithin n step ⟨.nil, nofun, nofun⟩ (Nat.le_refl n)
  constructor
  · exact fun performs => performs.unique performed
  · rintro rfl
    exact performed

/-- In the middle of rounds a call leads to what it would lead to on its own. -/
theorem Call.MadeBy.outcome_eq_perform {steps : List (Step n)} {call : Call n}
    (made : call.MadeBy steps) : call.outcome = call.session.perform call.step := by
  apply performs_iff.mp
  apply performs_performWithin _ call.step made.nests
  omega

end Phrasebook.Session
