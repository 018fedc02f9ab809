import Phrasebook.Proofs.Session.Rounds
import Phrasebook.Proofs.Session.Subscriptions

/-! # The calls of a run

A run makes the calls of its own steps, and observers that are told of a change make the
calls of their scripts (`Phrasebook.Session.Call.MadeBy`). Each call stands in the history of
the run behind the events that happened before it
(`Phrasebook.Session.Call.MadeBy.events_prefix`). What is preserved holds whenever a call is
made (`Phrasebook.Session.Preserved.of_madeBy`). Rounds never nest too deep for another one
(`Phrasebook.Session.Call.MadeBy.length_rounds_lt`).
-/

namespace Phrasebook.Session

variable {n : Nat}

/-- A call: the events before it, the translators in whose rounds it is made, the innermost
one first, and the session that it is made in. -/
structure Call (n : Nat) where
  log : List Event
  rounds : List Nat
  session : Session n
  step : Step n

namespace Call

/-- What a call leads to. Every round around it takes one level of nesting. -/
def outcome (call : Call n) : Outcome n :=
  performWithin (n - call.rounds.length) call.session call.step

/-- How steps are carried out in the round of a call. -/
def within (call : Call n) : Session n → Step n → Outcome n :=
  performWithin (n - (call.rounds.length + 1))

/-- The call that an observer makes in the round of a call, when others have been told and it
has carried out a part of its script. -/
def scripted (outer : Call n) (opened : Session n) (target : Nat) (change : Change)
    (told : List (Observer n)) (observer : Observer n) (done : List (Step n)) (step : Step n) :
    Call n :=
  let before := tell outer.within target change told opened
  let during := act outer.within observer.ticket 0 done before.1
  { log := outer.log ++ [.switched target change] ++ before.2 ++
      [.notified target observer.ticket change] ++ during.2
    rounds := target :: outer.rounds
    session := during.1
    step }

/-- The calls that a run of steps makes. -/
inductive MadeBy (steps : List (Step n)) : Call n → Prop
  | own {done rest : List (Step n)} {step : Step n} (parts : steps = done ++ step :: rest) :
      MadeBy steps ⟨history done, [], (run {} done).1, step⟩
  | scripted {outer : Call n} (made : outer.MadeBy steps) {opened : Session n} {target : Nat}
      {change : Change} {told waiting : List (Observer n)} {observer : Observer n}
      (begun : outer.session.start outer.step =
        .round opened target change (told ++ observer :: waiting))
      {done rest : List (Step n)} {step : Step n} (parts : observer.script = done ++ step :: rest) :
      MadeBy steps (outer.scripted opened target change told observer done step)

end Call

/-- What is preserved holds whenever a call is made. -/
theorem Preserved.of_madeBy {holds : List Event → Session n → Prop} (preserved : Preserved holds)
    (initially : holds [] {}) {steps : List (Step n)} {call : Call n} (made : call.MadeBy steps) :
    holds call.log call.session := by
  induction made with
  | @own done rest step parts => exact preserved.run initially done
  | @scripted outer made opened target change told waiting observer begun done rest step parts ih =>
    have performs {log : List Event} {session : Session n} (step : Step n)
        (before : holds log session) :
        holds (log ++ (outer.within session step).events) (outer.within session step).session :=
      preserved.performWithin _ step before
    have switched := preserved.opened ih begun
    have others := holds_tell performs preserved.acted
      (fun ticket => preserved.notified target ticket change) switched told
    have notified := preserved.notified target observer.ticket change others
    exact holds_act performs preserved.acted notified observer.ticket 0 done

theorem Preserved.of_outcome {holds : List Event → Session n → Prop} (preserved : Preserved holds)
    (initially : holds [] {}) {steps : List (Step n)} {call : Call n} (made : call.MadeBy steps) :
    holds (call.log ++ call.outcome.events) call.outcome.session :=
  preserved.performWithin _ call.step (preserved.of_madeBy initially made)

namespace Call

namespace MadeBy

variable {steps : List (Step n)} {call : Call n}

/-- **Which rounds are in progress.** When a call is made, exactly the translators in whose
rounds it is made are telling their observers of a change. -/
theorem isNotifying_iff (made : call.MadeBy steps) (target : Nat) :
    call.session.IsNotifying target ↔ target ∈ call.rounds := by
  induction made with
  | own parts =>
    rw [isNotifying_run]
    exact ⟨fun ⟨_, found, _⟩ => (nomatch found), nofun⟩
  | @scripted outer made opened number change told waiting observer begun done rest step parts ih =>
    have kept := isNotifying_performWithin (n := n) (n - (outer.rounds.length + 1)) target
    obtain ⟨_, member, _, _, opening, rfl, _⟩ := opening_of_start begun
    calc
      (outer.scripted _ number change told observer done step).session.IsNotifying target
        ↔ (tell outer.within number change told _).1.IsNotifying target :=
          isNotifying_act kept observer.ticket 0 done _
      _ ↔ (outer.session.openRound number change member).IsNotifying target :=
          isNotifying_tell kept number change told _
      _ ↔ number = target ∨ outer.session.IsNotifying target := opening.isNotifying_iff target
      _ ↔ target ∈ number :: outer.rounds := by rw [ih, List.mem_cons, eq_comm]

/-- The rounds around a call belong to different translators. -/
theorem nests (made : call.MadeBy steps) : call.session.Nests call.rounds := by
  induction made with
  | own parts => exact ⟨.nil, nofun, nofun⟩
  | scripted made begun parts ih =>
    have opened := ih.of_start begun
    have called := MadeBy.scripted made begun parts
    exact ⟨opened.distinct, opened.bounded, fun target => (called.isNotifying_iff target).mpr⟩

/-- **Rounds have room.** A call that opens a round is made in fewer rounds than there are
translators. -/
theorem length_rounds_lt (made : call.MadeBy steps) {opened : Session n} {target : Nat}
    {change : Change} {observers : List (Observer n)}
    (begun : call.session.start call.step = .round opened target change observers) :
    call.rounds.length < n :=
  (made.nests.of_start begun).length_le

theorem outcome_of_round (made : call.MadeBy steps) {opened : Session n} {target : Nat}
    {change : Change} {observers : List (Observer n)}
    (begun : call.session.start call.step = .round opened target change observers) :
    call.outcome =
      { session := (tell call.within target change observers opened).1.settle target
        events := .switched target change ::
          (tell call.within target change observers opened).2 ++ [.settled target]
        reply := .ok .done } := by
  have room := made.length_rounds_lt begun
  have depth : n - call.rounds.length = n - (call.rounds.length + 1) + 1 := by omega
  rw [outcome, depth, performWithin_of_round begun]
  rfl

/-- **Where a call stands.** The events of a call follow those before it in the history of
the run. -/
theorem events_prefix (made : call.MadeBy steps) :
    call.log ++ call.outcome.events <+: history steps := by
  induction made with
  | @own done rest step parts =>
    rw [parts, history_append]
    exact List.prefix_append_right_inj _ |>.mpr (List.prefix_append _ _)
  | @scripted outer made opened target change told waiting observer begun done rest step parts ih =>
    refine List.IsPrefix.trans ?_ ih
    rw [made.outcome_of_round begun]
    simp only [Call.scripted, tell_append, tell_cons, parts, act_append, act_cons,
      List.append_assoc, List.cons_append, List.nil_append, List.prefix_append_right_inj,
      List.cons_prefix_cons, true_and]
    exact List.prefix_append _ _

end MadeBy

end Call

end Phrasebook.Session
