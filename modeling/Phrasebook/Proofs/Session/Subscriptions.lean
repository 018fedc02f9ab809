import Phrasebook.Proofs.Session.Starting

/-! # The order of observers

A translator keeps its observers in the order in which they subscribed, which is the order of
their tickets, and each ticket stands for one subscription only
(`Phrasebook.Session.Ticketed`). This holds at any time, also while observers that are told of
a change subscribe or remove others (`Phrasebook.Session.preserved_ticketed`).
-/

namespace Phrasebook.Session

variable {n : Nat}

/-- The tickets of the observers of a translator, in the order of its list. -/
def ticketsOf (session : Session n) (target : Nat) : List Nat :=
  match session.selectorOf target with
  | none => []
  | some selector => selector.observers.map fun observer => observer.2.ticket

/-- The observers of each translator stand in the order of their tickets, all of which the
session has issued. -/
structure Ticketed (session : Session n) : Prop where
  increasing : ∀ target, (session.ticketsOf target).Pairwise (· < ·)
  issued : ∀ target, ∀ ticket ∈ session.ticketsOf target, ticket < session.handles.length

theorem ticketsOf_setSelector {session : Session n} {number : Nat} {member : Member n}
    (present : session.members[number]? = some member) (selector : Selector (Observer n))
    (target : Nat) :
    (session.setSelector number selector).ticketsOf target =
      if number = target then selector.observers.map fun observer => observer.2.ticket
      else session.ticketsOf target := by
  rw [ticketsOf, selectorOf_setSelector present]
  by_cases own : number = target
  · rw [if_pos own, if_pos own]
  · rw [if_neg own, if_neg own, ticketsOf]

theorem ticketsOf_eq {session : Session n} {target : Nat} {member : Member n}
    (present : session.members[target]? = some member) :
    session.ticketsOf target = member.selector.observers.map fun observer => observer.2.ticket := by
  rw [ticketsOf, selectorOf_eq present]

/-- Observers stay in order when some are removed. -/
theorem Ticketed.of_sublist {session after : Session n} (ticketed : session.Ticketed)
    (fewer : ∀ target, (after.ticketsOf target).Sublist (session.ticketsOf target))
    (handles : after.handles = session.handles) : after.Ticketed where
  increasing := fun target => (ticketed.increasing target).sublist (fewer target)
  issued := by
    intro target ticket member
    rw [handles]
    exact ticketed.issued target ticket ((fewer target).subset member)

/-- A subscription puts its ticket behind those of the observers that are there. -/
theorem ticketsOf_subscribe {session : Session n} {number : Nat} {member : Member n}
    (present : session.members[number]? = some member) (script : List (Step n)) (handle : Nat)
    (target : Nat) :
    ticketsOf
        { session.setSelector number
            (member.selector.subscribe ⟨session.handles.length, script⟩).2 with
          handles := session.handles ++ [handle] } target =
      session.ticketsOf target ++ if number = target then [session.handles.length] else [] := by
  refine (ticketsOf_setSelector present _ target).trans ?_
  by_cases own : number = target
  · subst own
    rw [if_pos rfl, if_pos rfl, ticketsOf_eq present, Selector.subscribe, List.map_append]
    rfl
  · rw [if_neg own, if_neg own, List.append_nil]

theorem Ticketed.subscribe {session : Session n} (ticketed : session.Ticketed) {number : Nat}
    {member : Member n} (present : session.members[number]? = some member)
    (script : List (Step n)) (handle : Nat) :
    Ticketed
      { session.setSelector number
          (member.selector.subscribe ⟨session.handles.length, script⟩).2 with
        handles := session.handles ++ [handle] } := by
  have fresh (target ticket : Nat)
      (new : ticket ∈ if number = target then [session.handles.length] else []) :
      ticket = session.handles.length := by
    split at new
    · exact List.mem_singleton.mp new
    · cases new
  constructor
  · intro target
    rw [ticketsOf_subscribe present, List.pairwise_append]
    refine ⟨ticketed.increasing target, ?_, ?_⟩
    · split
      · exact List.pairwise_singleton ..
      · exact .nil
    · intro ticket earlier added new
      rw [fresh target added new]
      exact ticketed.issued target ticket earlier
  · intro target ticket member
    rw [ticketsOf_subscribe present, List.mem_append] at member
    rw [List.length_append]
    rcases member with earlier | new
    · exact Nat.lt_succ_of_lt (ticketed.issued target ticket earlier)
    · rw [fresh target ticket new]
      exact Nat.lt_succ_self _

/-- A translator that is added has no observers. -/
theorem ticketsOf_enrol (session : Session n) (registry : Nat) (plan : Plan) (target : Nat) :
    (session.enrol registry plan).session.ticketsOf target =
      if target = session.members.length then [] else session.ticketsOf target := by
  rw [ticketsOf, selectorOf_enrol]
  by_cases own : target = session.members.length
  · rw [if_pos own, if_pos own]
    rfl
  · rw [if_neg own, if_neg own, ticketsOf]

/-- A removal leaves the other observers in their order. -/
theorem ticketsOf_unsubscribe_sublist {session : Session n} {number : Nat} {member : Member n}
    (present : session.members[number]? = some member) (handle target : Nat) :
    ((session.setSelector number (member.selector.unsubscribe handle).2).ticketsOf target).Sublist
      (session.ticketsOf target) := by
  rw [ticketsOf_setSelector present]
  split
  · next own =>
    subst own
    rw [ticketsOf_eq present]
    exact List.filter_sublist.map _
  · exact .refl _

theorem ticketed_empty : Ticketed ({} : Session n) where
  increasing := fun _ => .nil
  issued := fun _ => List.forall_mem_nil _

theorem Concludes.ticketed {session : Session n} {step : Step n} {outcome : Outcome n}
    (concludes : session.Concludes step outcome) (ticketed : session.Ticketed) :
    outcome.session.Ticketed := by
  cases concludes with
  | remark step remarks reply => exact ticketed
  | grow step registries remarks reply => exact ⟨ticketed.increasing, ticketed.issued⟩
  | build share isDescribed plan registries registry remarks =>
    refine ticketed.of_sublist (fun target => ?_) rfl
    refine (ticketsOf_enrol _ registry plan target) ▸ ?_
    split
    · exact List.nil_sublist _
    · exact .refl _
  | subscribe present script => exact ticketed.subscribe present script _
  | unsubscribe present ticket handle reply =>
    exact ticketed.of_sublist (ticketsOf_unsubscribe_sublist present handle) rfl

theorem Opening.ticketsOf_openRound {session : Session n} {number : Nat} {change : Change}
    {member : Member n} (opening : session.Opening number change member) (target : Nat) :
    (session.openRound number change member).ticketsOf target = session.ticketsOf target := by
  rw [openRound, ticketsOf_setSelector opening.present]
  split
  · next own => exact own ▸ (ticketsOf_eq opening.present).symm
  · rfl

theorem ticketsOf_settle (session : Session n) (number target : Nat) :
    (session.settle number).ticketsOf target = session.ticketsOf target := by
  rw [ticketsOf, selectorOf_settle, ticketsOf]
  by_cases own : number = target
  · rw [if_pos own]
    cases session.selectorOf target with
    | none => rfl
    | some selector => rfl
  · rw [if_neg own]

/-- **Observers stay in order.** -/
theorem preserved_ticketed : Preserved fun _ (session : Session n) => session.Ticketed where
  ended := fun before ended => (concludes_of_start ended).ticketed before
  opened := by
    intro log session step opened number change observers before begun
    obtain ⟨_, member, _, _, opening, rfl, rfl⟩ := opening_of_start begun
    exact before.of_sublist (fun target => opening.ticketsOf_openRound target ▸ .refl _) rfl
  notified := fun _ _ _ before => before
  acted := fun _ _ _ before => before
  settled := by
    intro log session number before
    exact before.of_sublist (fun target => session.ticketsOf_settle number target ▸ .refl _) rfl

end Phrasebook.Session
