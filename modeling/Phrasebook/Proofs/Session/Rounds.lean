import Phrasebook.Proofs.Session.Starting

/-! # The round of a change

A round ends with the step that opens it, so every step leaves behind the rounds that it
finds (`Phrasebook.Session.isNotifying_performWithin`). While a translator tells its observers
of a change, nothing that they do tells of another change of it
(`Phrasebook.Session.quiet_performWithin`): its round reaches exactly the observers that it
began with (`Phrasebook.Session.eventsOf_tell`). Rounds that nest belong to different
translators (`Phrasebook.Session.Nests.of_start`). Outside of rounds as well as inside, the
active locale of a translator is the one of its last change
(`Phrasebook.Session.preserved_lastChange`).
-/

namespace Phrasebook.Session

variable {n : Nat}

/-- A translator tells its observers of a change. -/
def IsNotifying (session : Session n) (target : Nat) : Prop :=
  ∃ selector, session.selectorOf target = some selector ∧ selector.isNotifying = true

theorem isNotifying_of_present {session : Session n} {target : Nat} {member : Member n}
    (present : session.members[target]? = some member) :
    session.IsNotifying target ↔ member.selector.isNotifying = true := by
  simp [IsNotifying, selectorOf_eq present]

theorem isNotifying_setSelector {session : Session n} {number : Nat} {member : Member n}
    (present : session.members[number]? = some member) (selector : Selector (Observer n))
    (target : Nat) :
    (session.setSelector number selector).IsNotifying target ↔
      if number = target then selector.isNotifying = true else session.IsNotifying target := by
  rw [IsNotifying, selectorOf_setSelector present]
  by_cases own : number = target
  · simp [own]
  · simp [own, IsNotifying]

theorem isNotifying_settle (session : Session n) (number target : Nat) :
    (session.settle number).IsNotifying target ↔
      number ≠ target ∧ session.IsNotifying target := by
  rw [IsNotifying, selectorOf_settle]
  by_cases own : number = target
  · simp [own, Selector.settle]
  · simp [own, IsNotifying]

theorem Opening.isNotifying_iff {session : Session n} {number : Nat} {change : Change}
    {member : Member n} (opening : session.Opening number change member) (target : Nat) :
    (session.openRound number change member).IsNotifying target ↔
      number = target ∨ session.IsNotifying target := by
  rw [openRound, isNotifying_setSelector opening.present]
  by_cases own : number = target
  · simp [own]
  · simp [own]

theorem Opening.not_isNotifying {session : Session n} {target : Nat} {change : Change}
    {member : Member n} (opening : session.Opening target change member) :
    ¬ session.IsNotifying target := by
  rw [isNotifying_of_present opening.present, opening.isFree]
  exact Bool.false_ne_true

/-- A step that opens no round leaves the rounds as they are. -/
theorem Concludes.isNotifying_iff {session : Session n} {step : Step n} {outcome : Outcome n}
    (concludes : session.Concludes step outcome) (target : Nat) :
    outcome.session.IsNotifying target ↔ session.IsNotifying target := by
  have kept {number : Fin n} {member : Member n} {selector : Selector (Observer n)}
      (present : session.members[number.val]? = some member)
      (same : selector.isNotifying = member.selector.isNotifying) :
      (session.setSelector number selector).IsNotifying target ↔ session.IsNotifying target := by
    rw [isNotifying_setSelector present]
    split
    · next own => rw [← own, isNotifying_of_present present, same]
    · exact Iff.rfl
  cases concludes with
  | remark step remarks reply => exact Iff.rfl
  | grow step registries remarks reply => exact Iff.rfl
  | build share isDescribed plan registries registry remarks =>
    rw [IsNotifying, selectorOf_enrol]
    by_cases own : target = session.members.length
    · simp [own, IsNotifying, selectorOf_length]
    · simp [own, IsNotifying, selectorOf]
  | subscribe present script => exact kept present rfl
  | unsubscribe present ticket handle reply => exact kept present rfl

/-- A step that opens no round tells of no change of a translator that has one. -/
theorem Concludes.quiet {session : Session n} {step : Step n} {outcome : Outcome n}
    (concludes : session.Concludes step outcome) {target : Nat}
    (notifying : session.IsNotifying target) : eventsOf target outcome.events = [] := by
  rcases concludes.quiet_or_enrols target with ⟨quiet, _⟩ | ⟨current, enrols⟩
  · exact quiet
  · obtain ⟨selector, found, _⟩ := notifying
    rw [enrols.number, selectorOf_length] at found
    cases found

section Kept

variable {perform : Session n → Step n → Outcome n} {target : Nat}
  (kept : ∀ (session : Session n) (step : Step n),
    (perform session step).session.IsNotifying target ↔ session.IsNotifying target)
include kept

theorem isNotifying_act (ticket index : Nat) (script : List (Step n)) (session : Session n) :
    (act perform ticket index script session).1.IsNotifying target ↔
      session.IsNotifying target := by
  induction script generalizing session index with
  | nil => exact Iff.rfl
  | cons step rest ih => exact (ih (index + 1) _).trans (kept session step)

theorem isNotifying_tell (number : Nat) (change : Change) (observers : List (Observer n))
    (session : Session n) :
    (tell perform number change observers session).1.IsNotifying target ↔
      session.IsNotifying target := by
  induction observers generalizing session with
  | nil => exact Iff.rfl
  | cons observer rest ih =>
    exact (ih _).trans (isNotifying_act kept observer.ticket 0 observer.script session)

end Kept

/-- **Every round ends with the step that opens it.** A step leaves behind the rounds that it
finds. -/
theorem isNotifying_performWithin (depth target : Nat) (session : Session n) (step : Step n) :
    (performWithin depth session step).session.IsNotifying target ↔
      session.IsNotifying target := by
  induction depth generalizing session step with
  | zero =>
    rcases begun : session.start step with outcome | ⟨opened, number, change, observers⟩
    · rw [performWithin_of_over begun]
      exact (concludes_of_start begun).isNotifying_iff target
    · rw [performWithin_zero_of_round begun]
      exact Iff.rfl
  | succ depth ih =>
    rcases begun : session.start step with outcome | ⟨opened, number, change, observers⟩
    · rw [performWithin_of_over begun]
      exact (concludes_of_start begun).isNotifying_iff target
    · rw [performWithin_of_round begun, isNotifying_settle, isNotifying_tell ih]
      obtain ⟨_, member, _, _, opening, rfl, rfl⟩ := opening_of_start begun
      rw [opening.isNotifying_iff]
      by_cases own : number = target
      · subst own
        simp [opening.not_isNotifying]
      · simp [own]

theorem isNotifying_run (target : Nat) (session : Session n) (steps : List (Step n)) :
    (session.run steps).1.IsNotifying target ↔ session.IsNotifying target := by
  induction steps generalizing session with
  | nil => exact Iff.rfl
  | cons step rest ih => exact (ih _).trans (isNotifying_performWithin n target session step)

section Quiet

variable {depth target : Nat}
  (quiet : ∀ {session : Session n} (step : Step n), session.IsNotifying target →
    eventsOf target (performWithin depth session step).events = [])
include quiet

theorem quiet_act {session : Session n} (notifying : session.IsNotifying target)
    (ticket index : Nat) (script : List (Step n)) :
    eventsOf target (act (performWithin depth) ticket index script session).2 = [] := by
  induction script generalizing session index with
  | nil => rfl
  | cons step rest ih =>
    have still := (isNotifying_performWithin depth target session step).mpr notifying
    have later := ih still (index + 1)
    rw [act_cons, eventsOf_append, quiet step notifying]
    exact later

/-- A round of any translator tells of the change of one that has a round only what that one
tells its own observers. -/
theorem eventsOf_tell (number : Nat) (change : Change) {session : Session n}
    (notifying : session.IsNotifying target) (observers : List (Observer n)) :
    eventsOf target (tell (performWithin depth) number change observers session).2 =
      if number = target then
        observers.map fun observer => .notified target observer.ticket change
      else [] := by
  induction observers generalizing session with
  | nil => split <;> rfl
  | cons observer rest ih =>
    have silent := quiet_act quiet notifying observer.ticket 0 observer.script
    have still := (isNotifying_act (isNotifying_performWithin depth target) observer.ticket 0
      observer.script session).mpr notifying
    rw [tell_cons, eventsOf_append, ih still]
    by_cases own : number = target
    · subst own
      rw [if_pos rfl, if_pos rfl, eventsOf_cons_of_eq rfl, silent, List.map_cons]
      rfl
    · rw [if_neg own, if_neg own, List.append_nil, eventsOf_cons_of_ne]
      · exact silent
      · exact fun same => own (Option.some.inj same)

end Quiet

/-- **Nothing disturbs a round.** While a translator tells its observers of a change, steps
tell of no other change of it. -/
theorem quiet_performWithin (depth : Nat) {target : Nat} {session : Session n} (step : Step n)
    (notifying : session.IsNotifying target) :
    eventsOf target (performWithin depth session step).events = [] := by
  induction depth generalizing session step with
  | zero =>
    rcases begun : session.start step with outcome | ⟨opened, number, change, observers⟩
    · rw [performWithin_of_over begun]
      exact (concludes_of_start begun).quiet notifying
    · rw [performWithin_zero_of_round begun]
      rfl
  | succ depth ih =>
    rcases begun : session.start step with outcome | ⟨opened, number, change, observers⟩
    · rw [performWithin_of_over begun]
      exact (concludes_of_start begun).quiet notifying
    · rw [performWithin_of_round begun]
      obtain ⟨_, member, _, _, opening, rfl, rfl⟩ := opening_of_start begun
      -- only a translator without a round opens one
      have other : number ≠ target := by
        rintro rfl
        exact opening.not_isNotifying notifying
      have stranger : some number ≠ some target := fun same => other (Option.some.inj same)
      have during := (opening.isNotifying_iff target).mpr (.inr notifying)
      rw [List.cons_append, eventsOf_cons_of_ne, eventsOf_append, eventsOf_tell ih _ _ during,
        if_neg other, eventsOf_cons_of_ne]
      · rfl
      · exact stranger
      · exact stranger

/-- Different translators of the numbers that steps can call have rounds. -/
structure Nests (session : Session n) (rounds : List Nat) : Prop where
  distinct : rounds.Nodup
  bounded : ∀ target ∈ rounds, target < n
  notifying : ∀ target ∈ rounds, session.IsNotifying target

namespace Nests

variable {session : Session n} {rounds : List Nat} (nests : session.Nests rounds)
include nests

theorem of_isNotifying_iff {later : Session n}
    (kept : ∀ target, later.IsNotifying target ↔ session.IsNotifying target) :
    later.Nests rounds :=
  ⟨nests.distinct, nests.bounded, fun target around =>
    (kept target).mpr (nests.notifying target around)⟩

theorem of_start {step : Step n} {opened : Session n} {target : Nat} {change : Change}
    {observers : List (Observer n)}
    (begun : session.start step = .round opened target change observers) :
    opened.Nests (target :: rounds) := by
  obtain ⟨number, member, _, rfl, opening, rfl, _⟩ := opening_of_start begun
  refine ⟨List.nodup_cons.mpr ⟨?_, nests.distinct⟩, ?_, ?_⟩
  · exact fun around => opening.not_isNotifying (nests.notifying _ around)
  · exact List.forall_mem_cons.mpr ⟨number.isLt, nests.bounded⟩
  · intro target around
    rw [opening.isNotifying_iff]
    rcases List.mem_cons.mp around with rfl | outer
    · exact .inl rfl
    · exact .inr (nests.notifying target outer)

theorem length_le : rounds.length ≤ n := by
  have inside : rounds ⊆ List.range n := fun target around =>
    List.mem_range.mpr (nests.bounded target around)
  have fewer := nests.distinct.length_le_of_subset inside
  rw [List.length_range] at fewer
  exact fewer

end Nests

/-- **The last change.** At any time the active locale of a translator is the one that its
last change activated, and it has none before its first change. -/
theorem preserved_lastChange (target : Nat) :
    Preserved fun log (session : Session n) =>
      session.activeOf target = (changesOf target log).getLast?.map Change.current where
  ended := by
    intro log session step outcome before ended
    rw [changesOf_append]
    rcases (concludes_of_start ended).quiet_or_enrols target with ⟨quiet, same⟩ | ⟨current, enrols⟩
    · rw [changesOf_eq_nil quiet, List.append_nil, same, before]
    · have own : changesOf target outcome.events = [⟨none, current⟩] := by
        rw [changesOf, enrols.events]
        rfl
      rw [own, List.getLast?_concat, enrols.active]
      rfl
  opened := by
    intro log session step opened number change observers before begun
    obtain ⟨_, member, _, _, opening, rfl, rfl⟩ := opening_of_start begun
    rw [changesOf_append, changesOf_switched, openRound, activeOf_setSelector opening.present]
    by_cases own : number = target
    · rw [if_pos own, if_pos own, List.getLast?_concat]
      rfl
    · rw [if_neg own, if_neg own, List.append_nil, before]
  notified := by
    intro log session number ticket change before
    rw [changesOf_append, changesOf_remark rfl, List.append_nil, before]
  acted := by
    intro log session ticket index reply before
    rw [changesOf_append, changesOf_remark rfl, List.append_nil, before]
  settled := by
    intro log session number before
    rw [changesOf_append, changesOf_remark rfl, List.append_nil, activeOf_settle, before]

end Phrasebook.Session
