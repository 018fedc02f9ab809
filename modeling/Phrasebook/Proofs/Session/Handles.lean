import Mathlib.Data.List.Nodup
import Phrasebook.Proofs.Session.Moments

/-! # Handles of subscriptions

A translator answers a subscription with a handle, and says of a handle that is handed in whether
it has removed an observer. These dealings of a run (`Phrasebook.Session.Moment.dealings`) tell
which observers a translator has: those that have joined and whose handles have not been handed in
since (`Phrasebook.Session.standing`). Every step and every end of a round keeps the books in this
way (`Phrasebook.Session.Deals.tallies`), so they are right at each moment of a run
(`Phrasebook.Session.Passes.tallies`). Handles count up to the greatest one, so as many
subscriptions as there are handles have different ones, and each handle removes its own observer,
once (`Phrasebook.Session.handles_identify_observers`).
-/

namespace Phrasebook

/-- A handle under which there is no observer removes none. -/
theorem Selector.unsubscribe_eq_self {ω : Type} {selector : Selector ω} {handle : Nat}
    (refused : (selector.unsubscribe handle).1 = false) :
    (selector.unsubscribe handle).2 = selector := by
  have others : (selector.observers.filter fun observer => observer.1 != handle) =
      selector.observers := by
    refine List.filter_eq_self.mpr fun observer listed => bne_iff_ne.mpr fun same => ?_
    exact List.any_eq_false.mp refused observer listed (beq_iff_eq.mpr same)
  rw [Selector.unsubscribe, others]

/-- A handle that is different from all others removes its own item alone. -/
theorem Selector.exists_filter_eq_append {ω : Type} {observers : List (Nat × ω)}
    (distinct : (observers.map Prod.fst).Nodup) {handle : Nat} {observer : ω}
    (listed : (handle, observer) ∈ observers) :
    ∃ front back, observers = front ++ (handle, observer) :: back ∧
      (observers.filter fun other => other.1 != handle) = front ++ back := by
  obtain ⟨front, back, rfl⟩ := List.append_of_mem listed
  rw [List.map_append, List.map_cons] at distinct
  obtain ⟨_, behind, apart⟩ := List.nodup_append.mp distinct
  obtain ⟨after, _⟩ := List.nodup_cons.mp behind
  have kept {others : List (Nat × ω)} (different : ∀ other ∈ others, other.1 ≠ handle) :
      (others.filter fun other => other.1 != handle) = others :=
    List.filter_eq_self.mpr fun other member => bne_iff_ne.mpr (different other member)
  refine ⟨front, back, rfl, ?_⟩
  rw [List.filter_append, List.filter_cons_of_neg (by simp), kept, kept]
  · exact fun other member same => after (List.mem_map.mpr ⟨other, member, same⟩)
  · exact fun other member => apart _ (List.mem_map_of_mem member) _ List.mem_cons_self

namespace Session

variable {n : Nat}

/-- What a call does about subscriptions: an observer joins under a handle, or a handle is handed
in to dismiss its observer, with the answer whether there was one. -/
inductive Dealing (n : Nat)
  | joined (handle : Nat) (observer : Observer n)
  | dismissed (handle : Nat) (removed : Bool)

namespace Dealing

/-- The handle under which an observer joins. -/
def handle? : Dealing n → Option Nat
  | .joined handle _ => some handle
  | .dismissed _ _ => none

/-- Whether a handle is handed in. -/
def returns (handle : Nat) : Dealing n → Bool
  | .joined _ _ => false
  | .dismissed other _ => other == handle

/-- Whether an observer is removed. -/
def removes : Dealing n → Bool
  | .joined _ _ => false
  | .dismissed _ removed => removed

end Dealing

/-- The handles under which observers have joined, one for each subscription. -/
def handlesOf (dealings : List (Dealing n)) : List Nat :=
  dealings.filterMap Dealing.handle?

/-- An observer has joined under a handle that has not been handed in since. -/
def Stands (handle : Nat) (observer : Observer n) (dealings : List (Dealing n)) : Prop :=
  ∃ earlier since, dealings = earlier ++ .joined handle observer :: since ∧
    ∀ again, .dismissed handle again ∉ since

/-- The observers that have joined and whose handles have not been handed in since, in the order
of their subscriptions. -/
def standing : List (Dealing n) → List (Nat × Observer n)
  | [] => []
  | .joined handle observer :: later =>
    if later.any (Dealing.returns handle) then standing later
    else (handle, observer) :: standing later
  | .dismissed _ _ :: later => standing later

/-- What a call does about the subscriptions of a translator, as its reply says. -/
def dealing? (target : Nat) (session : Session n) (step : Step n) : Option (Dealing n) :=
  let outcome := session.perform step
  match step, outcome.reply with
  | .subscribe number script, .ok (.ticket ticket) =>
    if number.val = target then
      outcome.session.handles[ticket]?.map fun handle => .joined handle ⟨ticket, script⟩
    else none
  | .unsubscribe number ticket, .ok (.truth removed) =>
    if number.val = target then session.handles[ticket]?.map fun handle => .dismissed handle removed
    else none
  | _, _ => none

/-- What the calls up to a moment have done about the subscriptions of a translator. -/
def Moment.dealings (moment : Moment n) (target : Nat) : List (Dealing n) :=
  moment.calls.filterMap fun call => dealing? target call.1 call.2

section Dealings

variable {dealings : List (Dealing n)} {handle : Nat} {observer : Observer n}

theorem handlesOf_concat_joined (dealings : List (Dealing n)) (handle : Nat)
    (observer : Observer n) :
    handlesOf (dealings ++ [.joined handle observer]) = handlesOf dealings ++ [handle] :=
  List.filterMap_append ..

theorem handlesOf_concat_dismissed (dealings : List (Dealing n)) (handle : Nat)
    (removed : Bool) :
    handlesOf (dealings ++ [.dismissed handle removed]) = handlesOf dealings := by
  rw [handlesOf, List.filterMap_append]
  exact List.append_nil _

theorem standing_concat_joined (dealings : List (Dealing n)) (handle : Nat)
    (observer : Observer n) :
    standing (dealings ++ [.joined handle observer]) =
      standing dealings ++ [(handle, observer)] := by
  induction dealings with
  | nil => rfl
  | cons dealing rest ih =>
    cases dealing with
    | joined other earlier =>
      have same : (rest ++ [Dealing.joined handle observer]).any (Dealing.returns other) =
          rest.any (Dealing.returns other) := by
        rw [List.any_append]
        exact Bool.or_false _
      rw [List.cons_append, standing, standing, ih, same]
      split <;> rfl
    | dismissed other removed => exact ih

/-- A handle that is handed in leaves the observers under other handles. -/
theorem standing_concat_dismissed (dealings : List (Dealing n)) (handle : Nat) (removed : Bool) :
    standing (dealings ++ [.dismissed handle removed]) =
      (standing dealings).filter fun item => item.1 != handle := by
  induction dealings with
  | nil => rfl
  | cons dealing rest ih =>
    cases dealing with
    | joined other observer =>
      have more : (rest ++ [Dealing.dismissed handle removed]).any (Dealing.returns other) =
          (rest.any (Dealing.returns other) || handle == other) := by
        rw [List.any_append]
        exact congrArg _ (Bool.or_false _)
      rw [List.cons_append, standing, standing, ih, more]
      by_cases returned : rest.any (Dealing.returns other) = true
      · rw [returned, Bool.true_or, if_pos rfl, if_pos rfl]
      · rw [Bool.not_eq_true _ |>.mp returned, Bool.false_or, if_neg Bool.false_ne_true,
          List.filter_cons]
        by_cases same : handle = other
        · simp [same]
        · simp [same, Ne.symm same]
    | dismissed other again => exact ih

theorem any_returns_iff : dealings.any (Dealing.returns handle) = true ↔
    ∃ again, .dismissed handle again ∈ dealings := by
  rw [List.any_eq_true]
  constructor
  · rintro ⟨dealing, happened, returns⟩
    cases dealing with
    | joined other observer => cases returns
    | dismissed other removed =>
      cases (beq_iff_eq.mp returns : other = handle)
      exact ⟨removed, happened⟩
  · rintro ⟨again, happened⟩
    exact ⟨_, happened, beq_self_eq_true handle⟩

theorem not_stands_nil : ¬ Stands handle observer [] := by
  rintro ⟨earlier, since, parts, _⟩
  exact List.append_ne_nil_of_right_ne_nil _ (List.cons_ne_nil _ _) parts.symm

theorem stands_cons_iff {dealing : Dealing n} : Stands handle observer (dealing :: dealings) ↔
    (dealing = .joined handle observer ∧ ∀ again, .dismissed handle again ∉ dealings) ∨
      Stands handle observer dealings := by
  constructor
  · rintro ⟨earlier, since, parts, silent⟩
    cases earlier with
    | nil =>
      cases parts
      exact .inl ⟨rfl, silent⟩
    | cons first earlier =>
      cases parts
      exact .inr ⟨earlier, since, rfl, silent⟩
  · rintro (⟨rfl, silent⟩ | ⟨earlier, since, rfl, silent⟩)
    · exact ⟨[], dealings, rfl, silent⟩
    · exact ⟨dealing :: earlier, since, rfl, silent⟩

theorem mem_standing_iff :
    (handle, observer) ∈ standing dealings ↔ Stands handle observer dealings := by
  induction dealings with
  | nil => exact ⟨nofun, fun stands => absurd stands not_stands_nil⟩
  | cons dealing rest ih =>
    rw [stands_cons_iff, ← ih]
    cases dealing with
    | dismissed other removed => exact ⟨.inr, fun listed => listed.resolve_left nofun⟩
    | joined other first =>
      rw [standing]
      by_cases returned : rest.any (Dealing.returns other) = true
      · obtain ⟨again, happened⟩ := any_returns_iff.mp returned
        rw [if_pos returned]
        refine ⟨.inr, fun listed => listed.resolve_left ?_⟩
        rintro ⟨⟨⟩, silent⟩
        exact silent again happened
      · rw [if_neg returned, List.mem_cons]
        refine or_congr_left ⟨?_, ?_⟩
        · rintro ⟨⟩
          exact ⟨rfl, fun again happened => returned (any_returns_iff.mpr ⟨again, happened⟩)⟩
        · rintro ⟨⟨⟩, _⟩
          rfl

/-- The observers that stand are some of those that have joined, in the same order. -/
theorem handles_standing_sublist (dealings : List (Dealing n)) :
    ((standing dealings).map Prod.fst).Sublist (handlesOf dealings) := by
  induction dealings with
  | nil => exact .slnil
  | cons dealing rest ih =>
    cases dealing with
    | joined handle observer =>
      rw [standing]
      split
      · exact ih.cons handle
      · exact ih.cons_cons handle
    | dismissed handle removed => exact ih

/-- Each handle that has been handed in was answered with whether an observer stood under it. -/
def Answered (dealings : List (Dealing n)) : Prop :=
  ∀ before handle removed after, dealings = before ++ .dismissed handle removed :: after →
    (removed = true ↔ ∃ observer, Stands handle observer before)

theorem answered_nil : Answered ([] : List (Dealing n)) := fun _ _ _ _ parts =>
  absurd parts.symm (List.append_ne_nil_of_right_ne_nil _ (List.cons_ne_nil _ _))

theorem answered_concat_iff {dealing : Dealing n} : Answered (dealings ++ [dealing]) ↔
    Answered dealings ∧ ∀ handle removed, dealing = .dismissed handle removed →
      (removed = true ↔ ∃ observer, Stands handle observer dealings) := by
  constructor
  · intro answered
    refine ⟨?_, ?_⟩
    · rintro before handle removed after rfl
      exact answered before handle removed (after ++ [dealing]) (by simp)
    · rintro handle removed rfl
      exact answered dealings handle removed [] rfl
  · rintro ⟨answered, last⟩ before handle removed after parts
    rcases List.eq_nil_or_concat' after with rfl | ⟨rest, latest, rfl⟩
    · obtain ⟨rfl, same⟩ := List.append_inj' parts rfl
      exact last handle removed (List.singleton_inj.mp same)
    · rw [← List.cons_append, ← List.append_assoc] at parts
      exact answered before handle removed rest (List.append_inj' parts rfl).1

/-- The observers that stand are as many as have joined less those that have been removed. -/
theorem length_standing_add_removals (answered : Answered dealings)
    (distinct : (handlesOf dealings).Nodup) :
    (standing dealings).length + dealings.countP Dealing.removes =
      (handlesOf dealings).length := by
  induction dealings using List.reverseRecOn with
  | nil => rfl
  | append_singleton earlier dealing ih =>
    obtain ⟨before, last⟩ := answered_concat_iff.mp answered
    rw [List.countP_append]
    cases dealing with
    | joined handle observer =>
      rw [handlesOf_concat_joined] at distinct ⊢
      have counted := ih before distinct.of_append_left
      rw [standing_concat_joined, List.length_append, List.length_append, ← counted]
      change _ + 1 + (_ + 0) = _ + 1
      omega
    | dismissed handle removed =>
      rw [handlesOf_concat_dismissed] at distinct ⊢
      have counted := ih before distinct
      have answer := last handle removed rfl
      rw [standing_concat_dismissed, ← counted]
      cases removed with
      | true =>
        obtain ⟨observer, stands⟩ := answer.mp rfl
        have apart := distinct.sublist (handles_standing_sublist earlier)
        obtain ⟨front, back, parts, left⟩ :=
          Selector.exists_filter_eq_append apart (mem_standing_iff.mpr stands)
        rw [left, parts, List.length_append, List.length_append, List.length_cons]
        change _ + (_ + 1) = _
        omega
      | false =>
        have others (item : Nat × Observer n) (listed : item ∈ standing earlier) :
            (item.1 != handle) = true := by
          refine bne_iff_ne.mpr fun same => Bool.false_ne_true (answer.mpr ⟨item.2, ?_⟩)
          exact mem_standing_iff.mp (same ▸ listed)
        rw [List.filter_eq_self.mpr others]
        rfl

end Dealings

/-- The books of a selector: the handles count the subscriptions up to the greatest handle, the
observers are those that stand, and the handles that were handed in were answered so. -/
structure Tallies (dealings : List (Dealing n)) (selector : Selector (Observer n)) : Prop where
  handles : handlesOf dealings =
    (List.range (handlesOf dealings).length).map fun count => min count Selector.maxHandle
  next : selector.nextHandle = min (handlesOf dealings).length Selector.maxHandle
  observers : selector.observers = standing dealings
  answered : Answered dealings

/-- How a dealing, if there is one, changes the subscriptions of a selector. -/
inductive Deals (selector : Selector (Observer n)) :
    Option (Dealing n) → Selector (Observer n) → Prop
  | nothing {later : Selector (Observer n)} (next : later.nextHandle = selector.nextHandle)
      (observers : later.observers = selector.observers) : Deals selector none later
  | joined (observer : Observer n) :
      Deals selector (some (.joined selector.nextHandle observer))
        (selector.subscribe observer).2
  | dismissed (handle : Nat) :
      Deals selector (some (.dismissed handle (selector.unsubscribe handle).1))
        (selector.unsubscribe handle).2

theorem Deals.refl (selector : Selector (Observer n)) : Deals selector none selector :=
  .nothing rfl rfl

section Books

variable {dealings : List (Dealing n)} {selector later : Selector (Observer n)}

theorem tallies_nil : Tallies ([] : List (Dealing n)) {} := ⟨rfl, rfl, rfl, answered_nil⟩

/-- A removal is answered with whether an observer stands under the handle. -/
theorem Tallies.unsubscribe_iff (tallies : Tallies dealings selector) (handle : Nat) :
    (selector.unsubscribe handle).1 = true ↔ ∃ observer, Stands handle observer dealings := by
  rw [Selector.unsubscribe, tallies.observers, List.any_eq_true]
  constructor
  · rintro ⟨⟨other, observer⟩, listed, same⟩
    cases (beq_iff_eq.mp same : other = handle)
    exact ⟨observer, mem_standing_iff.mp listed⟩
  · rintro ⟨observer, stands⟩
    exact ⟨_, mem_standing_iff.mpr stands, beq_self_eq_true handle⟩

/-- **Books stay right.** -/
theorem Deals.tallies {dealing : Option (Dealing n)} (deals : Deals selector dealing later)
    (tallies : Tallies dealings selector) : Tallies (dealings ++ dealing.toList) later := by
  cases deals with
  | nothing next observers =>
    rw [Option.toList_none, List.append_nil]
    exact ⟨tallies.handles, next.trans tallies.next, observers.trans tallies.observers,
      tallies.answered⟩
  | joined observer =>
    rw [Option.toList_some]
    refine ⟨?_, ?_, ?_, answered_concat_iff.mpr ⟨tallies.answered, nofun⟩⟩
    · rw [handlesOf_concat_joined, List.length_append, List.length_singleton, List.range_succ,
        List.map_append, ← tallies.handles, tallies.next, List.map_singleton]
    · rw [handlesOf_concat_joined, List.length_append, List.length_singleton]
      change min (selector.nextHandle + 1) Selector.maxHandle = _
      rw [tallies.next]
      omega
    · rw [standing_concat_joined, ← tallies.observers]
      rfl
  | dismissed handle =>
    rw [Option.toList_some]
    refine ⟨?_, ?_, ?_, answered_concat_iff.mpr ⟨tallies.answered, ?_⟩⟩
    · rw [handlesOf_concat_dismissed]
      exact tallies.handles
    · rw [handlesOf_concat_dismissed]
      exact tallies.next
    · rw [standing_concat_dismissed, ← tallies.observers]
      rfl
    · rintro _ _ ⟨⟩
      exact tallies.unsubscribe_iff handle

/-- As many subscriptions as there are handles have different ones. -/
theorem Tallies.nodup_handlesOf (tallies : Tallies dealings selector)
    (few : (handlesOf dealings).length ≤ UInt64.size) : (handlesOf dealings).Nodup := by
  rw [tallies.handles]
  refine List.Nodup.map_on (fun first here second there same => ?_) List.nodup_range
  rw [List.mem_range] at here there
  have greatest : UInt64.size = Selector.maxHandle + 1 := rfl
  omega

end Books

/-- The selector of a translator, which is a new one before it exists. -/
def rosterOf (session : Session n) (target : Nat) : Selector (Observer n) :=
  (session.selectorOf target).getD {}

section Calls

variable {session : Session n}

theorem rosterOf_eq {target : Nat} {member : Member n}
    (present : session.members[target]? = some member) :
    session.rosterOf target = member.selector := by
  rw [rosterOf, selectorOf_eq present, Option.getD_some]

theorem rosterOf_length (session : Session n) :
    session.rosterOf session.members.length = {} := by
  rw [rosterOf, selectorOf_length, Option.getD_none]

theorem rosterOf_setSelector {number : Nat} {member : Member n}
    (present : session.members[number]? = some member) (selector : Selector (Observer n))
    (target : Nat) :
    (session.setSelector number selector).rosterOf target =
      if number = target then selector else session.rosterOf target := by
  rw [rosterOf, selectorOf_setSelector present]
  split <;> rfl

theorem rosterOf_enrol (session : Session n) (registry : Nat) (plan : Plan) (target : Nat) :
    (session.enrol registry plan).session.rosterOf target =
      if target = session.members.length then { active := plan.active }
      else session.rosterOf target := by
  rw [rosterOf, selectorOf_enrol]
  split <;> rfl

theorem setSelector_self {number : Nat} {member : Member n}
    (present : session.members[number]? = some member) :
    session.setSelector number member.selector = session := by
  have same : session.members.modify number
      (fun other => { other with selector := member.selector }) = session.members := by
    refine List.ext_getElem? fun index => ?_
    rw [List.getElem?_modify]
    by_cases own : number = index
    · simp [← own, present]
    · simp [own]
  rw [setSelector, same]

/-- A change of the selector of one translator is none of another one. -/
theorem deals_setSelector {number : Nat} {member : Member n}
    (present : session.members[number]? = some member) {selector : Selector (Observer n)}
    {dealing : Dealing n} (deals : Deals member.selector (some dealing) selector) (target : Nat) :
    Deals (session.rosterOf target) (if number = target then some dealing else none)
      ((session.setSelector number selector).rosterOf target) := by
  rw [rosterOf_setSelector present]
  by_cases own : number = target
  · rw [if_pos own, if_pos own, ← own, rosterOf_eq present]
    exact deals
  · rw [if_neg own, if_neg own]
    exact .refl _

section Subscription

variable {number : Fin n} {member : Member n}
  (present : session.members[number.val]? = some member)
include present

theorem start_subscribe (script : List (Step n)) :
    session.start (.subscribe number script) = .over
      { session :=
          { session.setSelector number
              (member.selector.subscribe ⟨session.handles.length, script⟩).2 with
            handles := session.handles ++ [member.selector.nextHandle] }
        events := []
        reply := .ok (.ticket session.handles.length) } := by
  simp only [start, start.withMember, present]
  rfl

theorem start_unsubscribe {ticket handle : Nat} (issued : session.handles[ticket]? = some handle) :
    session.start (.unsubscribe number ticket) = .over
      ((session.setSelector number (member.selector.unsubscribe handle).2).unchanged
        (.ok (.truth (member.selector.unsubscribe handle).1))) := by
  simp only [start, start.withMember, present, issued]

/-- A subscription to a translator is answered with the next handle. -/
theorem dealing?_subscribe (script : List (Step n)) (target : Nat) :
    dealing? target session (.subscribe number script) =
      if number.val = target then
        some (.joined member.selector.nextHandle ⟨session.handles.length, script⟩)
      else none := by
  have performed := performWithin_of_over (start_subscribe present script) n
  simp only [dealing?, perform, performed, List.getElem?_concat_length, Option.map_some]

/-- A handle that is handed in to a translator is answered with whether it removes an observer. -/
theorem dealing?_unsubscribe {ticket handle : Nat}
    (issued : session.handles[ticket]? = some handle) (target : Nat) :
    dealing? target session (.unsubscribe number ticket) =
      if number.val = target then some (.dismissed handle (member.selector.unsubscribe handle).1)
      else none := by
  have performed := performWithin_of_over (start_unsubscribe present issued) n
  simp only [dealing?, perform, performed, unchanged, issued, Option.map_some]

end Subscription

theorem deals_of_refused {step : Step n} {cause : Failure}
    (refused : session.start step = .over (session.unchanged (.error cause))) (target : Nat) :
    Deals (session.rosterOf target) (dealing? target session step)
      ((session.unchanged (.error cause)).session.rosterOf target) := by
  have performed := performWithin_of_over refused n
  have nothing : dealing? target session step = none := by
    cases step <;> simp only [dealing?, perform, performed, unchanged]
  rw [nothing]
  exact .refl _

/-- A step that neither subscribes nor removes an observer leaves the subscriptions alone. -/
theorem Concludes.deals {step : Step n} {outcome : Outcome n}
    (concludes : session.Concludes step outcome)
    (noSubscription : ∀ number script, step ≠ .subscribe number script)
    (noRemoval : ∀ number ticket, step ≠ .unsubscribe number ticket) (target : Nat) :
    Deals (session.rosterOf target) none (outcome.session.rosterOf target) := by
  cases concludes with
  | remark step remarks reply => exact .refl _
  | grow step registries remarks reply => exact .refl _
  | build share isDescribed plan registries registry remarks =>
    rw [rosterOf_enrol]
    split
    · next own =>
      subst own
      exact (rosterOf_length session).symm ▸ .nothing rfl rfl
    · exact .refl _
  | subscribe present script => exact absurd rfl (noSubscription _ _)
  | unsubscribe present ticket handle reply => exact absurd rfl (noRemoval _ _)

/-- **What a step does.** A step that opens no round changes the subscriptions of a translator as
its reply says. -/
theorem deals_of_over {step : Step n} {outcome : Outcome n}
    (ended : session.start step = .over outcome) (target : Nat) :
    Deals (session.rosterOf target) (dealing? target session step)
      (outcome.session.rosterOf target) := by
  have missing {number : Fin n} {next : Member n → Beginning n}
      (absent : session.members[number.val]? = none)
      (same : session.start step = start.withMember session number next) :
      Deals (session.rosterOf target) (dealing? target session step)
        (outcome.session.rosterOf target) := by
    rw [start.withMember, absent] at same
    cases ended.symm.trans same
    exact deals_of_refused same target
  cases step with
  | subscribe number script =>
    cases found : session.members[number.val]? with
    | none => exact missing found rfl
    | some member =>
      cases ended.symm.trans (start_subscribe found script)
      rw [dealing?_subscribe found]
      exact deals_setSelector found (.joined _) target
  | unsubscribe number ticket =>
    cases found : session.members[number.val]? with
    | none => exact missing found rfl
    | some member =>
      cases issued : session.handles[ticket]? with
      | none =>
        have refused : session.start (.unsubscribe number ticket) =
            .over (session.unchanged (.error .noTicket)) := by
          simp only [start, start.withMember, found, issued]
        cases ended.symm.trans refused
        exact deals_of_refused refused target
      | some handle =>
        cases ended.symm.trans (start_unsubscribe found issued)
        rw [dealing?_unsubscribe found issued]
        exact deals_setSelector found (.dismissed handle) target
  | _ =>
    exact (concludes_of_start ended).deals (fun _ _ same => by cases same)
      (fun _ _ same => by cases same) target

theorem deals_of_round {step : Step n} {opened : Session n} {number : Nat} {change : Change}
    {observers : List (Observer n)}
    (begun : session.start step = .round opened number change observers) (target : Nat) :
    Deals (session.rosterOf target) (dealing? target session step) (opened.rosterOf target) := by
  obtain ⟨_, member, rfl, _, opening, rfl, _⟩ := opening_of_start begun
  change Deals _ none _
  rw [openRound, rosterOf_setSelector opening.present]
  split
  · next own =>
    rw [← own, rosterOf_eq opening.present]
    exact .nothing rfl rfl
  · exact .refl _

theorem deals_settle (session : Session n) (number target : Nat) :
    Deals (session.rosterOf target) none ((session.settle number).rosterOf target) := by
  rw [rosterOf, rosterOf, selectorOf_settle]
  split
  · cases session.selectorOf target with
    | none => exact .refl _
    | some selector => exact .nothing rfl rfl
  · exact .refl _

end Calls

/-- **What a move does.** A move changes the subscriptions of a translator by the dealing that it
adds, if any. -/
theorem Moment.Moves.deals {moment next : Moment n} (moves : moment.Moves next) (target : Nat) :
    ∃ dealing : Option (Dealing n),
      next.dealings target = moment.dealings target ++ dealing.toList ∧
        Deals (moment.session.rosterOf target) dealing (next.session.rosterOf target) := by
  have called (log : List Event) (calls : List (Session n × Step n)) (session after : Session n)
      (agenda : List (Pending n)) (step : Step n) :
      Moment.dealings ⟨log, calls ++ [(session, step)], after, agenda⟩ target =
        (calls.filterMap fun call => dealing? target call.1 call.2) ++
          (dealing? target session step).toList := by
    rw [Moment.dealings, List.filterMap_append]
    cases made : dealing? target session step with
    | none => exact congrArg _ (List.filterMap_cons_none made)
    | some dealing => exact congrArg _ (List.filterMap_cons_some made)
  cases moves with
  | conclude ended => exact ⟨_, called .., deals_of_over ended target⟩
  | round begun => exact ⟨_, called .., deals_of_round begun target⟩
  | tell => exact ⟨none, (List.append_nil _).symm, .refl _⟩
  | settle => exact ⟨none, (List.append_nil _).symm, deals_settle _ _ target⟩

/-- **The books of a run.** They are right at each moment. -/
theorem Passes.tallies {steps : List (Step n)} {moment : Moment n} (passes : Passes steps moment)
    (target : Nat) : Tallies (moment.dealings target) (moment.session.rosterOf target) := by
  induction passes with
  | refl => exact tallies_nil
  | tail _ moves ih =>
    obtain ⟨dealing, added, deals⟩ := moves.deals target
    exact added ▸ deals.tallies ih

/-- **Handles identify observers.** Let a translator have been given at most as many subscriptions
as there are handles, at any moment of a run. All handles that it has answered are different. Of
the handles that have been handed in to it, exactly those removed an observer under which one stood
at the time. Its observers are those that stand, in the order of their subscriptions, and they are
as many as its subscriptions less the removals. Handing in a handle under which an observer stands
removes this observer alone, and handing in any other handle does nothing. -/
theorem handles_identify_observers {steps : List (Step n)} {moment : Moment n}
    (passes : Passes steps moment) {number : Fin n} {member : Member n}
    (present : moment.session.members[number.val]? = some member)
    (few : (handlesOf (moment.dealings number)).length ≤ UInt64.size) :
    let dealings := moment.dealings number
    (handlesOf dealings).Nodup ∧
      (∀ before handle removed after, dealings = before ++ .dismissed handle removed :: after →
        (removed = true ↔ ∃ observer, Stands handle observer before)) ∧
      member.selector.observers = standing dealings ∧
      (moment.session.statusOf member).observers + dealings.countP Dealing.removes =
        (handlesOf dealings).length ∧
      ∀ ticket handle, moment.session.handles[ticket]? = some handle →
        let outcome := moment.session.perform (.unsubscribe number ticket)
        (∀ observer, Stands handle observer dealings →
          outcome.reply = .ok (.truth true) ∧ ∃ front back,
            member.selector.observers = front ++ (handle, observer) :: back ∧
            outcome.session = moment.session.setSelector number
              { member.selector with observers := front ++ back }) ∧
        ((¬ ∃ observer, Stands handle observer dealings) →
          outcome = moment.session.unchanged (.ok (.truth false))) := by
  have tallies := passes.tallies number
  rw [rosterOf_eq present] at tallies
  have distinct := tallies.nodup_handlesOf few
  have counted := length_standing_add_removals tallies.answered distinct
  rw [← tallies.observers] at counted
  refine ⟨distinct, tallies.answered, tallies.observers, counted, fun ticket handle issued => ?_⟩
  have performed : moment.session.perform (.unsubscribe number ticket) = _ :=
    performWithin_of_over (start_unsubscribe present issued) n
  have answer := tallies.unsubscribe_iff handle
  refine ⟨fun observer stands => ?_, fun absent => ?_⟩
  · have listed := mem_standing_iff.mpr stands
    have apart := distinct.sublist (handles_standing_sublist _)
    rw [← tallies.observers] at listed apart
    obtain ⟨front, back, parts, left⟩ := Selector.exists_filter_eq_append apart listed
    rw [performed, answer.mpr ⟨observer, stands⟩]
    refine ⟨rfl, front, back, parts, ?_⟩
    rw [← left]
    rfl
  · have refused := Bool.not_eq_true _ |>.mp (mt answer.mp absent)
    rw [performed, refused, Selector.unsubscribe_eq_self refused, setSelector_self present]

/-- An observer hands in its own handle when it is told of a change, and subscribes another
observer. The host hands in the same handle again and subscribes a third observer. -/
def leavingSteps : List (Step 1) :=
  let built : Fin 1 := ⟨0, Nat.one_pos⟩
  [.build none false (.ok { catalogues := [(.english, .empty)], fallback := some .english }),
    .subscribe built [.unsubscribe built 0, .subscribe built []], .setActive built .english,
    .unsubscribe built 0, .subscribe built []]

/-- The second and the third observer are left. -/
theorem handles_identify_observers_leaving :
    ∃ (moment : Moment 1) (member : Member 1), Passes leavingSteps moment ∧ moment.agenda = [] ∧
      moment.session.members[0]? = some member ∧
      (handlesOf (moment.dealings 0)).length ≤ UInt64.size ∧
      moment.dealings 0 =
        [.joined 0 ⟨0, [.unsubscribe 0 0, .subscribe 0 []]⟩, .dismissed 0 true, .joined 1 ⟨1, []⟩,
          .dismissed 0 false, .joined 2 ⟨2, []⟩] ∧
      (handlesOf (moment.dealings 0)).Nodup ∧
      member.selector.observers = [(1, ⟨1, []⟩), (2, ⟨2, []⟩)] ∧
      (moment.session.statusOf member).observers + 1 = 3 := by
  -- the moves of the five steps, of which the third one opens a round
  have passes : Passes leavingSteps _ := .head (.conclude rfl) <| .head (.conclude rfl) <|
    .head (.round rfl) <| .head .tell <| .head (.conclude rfl) <| .head (.conclude rfl) <|
    .head .settle <| .head (.conclude rfl) <| .head (.conclude rfl) .refl
  have few : 3 ≤ UInt64.size := by decide
  obtain ⟨distinct, _, observers, counted, _⟩ :=
    @handles_identify_observers 1 leavingSteps _ passes 0 _ rfl few
  exact ⟨_, _, passes, rfl, rfl, few, rfl, distinct, observers, counted⟩

end Session

end Phrasebook
