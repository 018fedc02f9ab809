import Phrasebook.Proofs.Locale.Canonical
import Phrasebook.Proofs.Session.Moments
import Phrasebook.Proofs.Session.Subscriptions

/-! # What observers know

An observer that stays subscribed has been told of the last change of its translator, or is
still to be told of it, or there has been no change since it was told last
(`Phrasebook.Session.Informed`). This is what every move of a run keeps
(`Phrasebook.Session.Moment.Moves.informed`). So when the calls since some moment are over, the
changes that were delivered since say what the active locale is
(`Phrasebook.Session.current_eq_of_deliveries`). They say nothing of the fallback, which is
current as long as no locale has been activated.
-/

namespace Phrasebook.Session

variable {n : Nat}

/-- The change of a translator that an event tells the observer with the given ticket of. -/
def Event.delivery? (target ticket : Nat) : Event → Option Change
  | .notified number told change =>
    if number = target ∧ told = ticket then some change else none
  | _ => none

/-- The changes of a translator that the observer with the given ticket is told of. -/
def deliveriesTo (target ticket : Nat) (events : List Event) : List Change :=
  events.filterMap (Event.delivery? target ticket)

theorem deliveriesTo_append (target ticket : Nat) (events more : List Event) :
    deliveriesTo target ticket (events ++ more) =
      deliveriesTo target ticket events ++ deliveriesTo target ticket more :=
  List.filterMap_append ..

theorem deliveriesTo_eq_nil {target ticket : Nat} {events : List Event}
    (quiet : eventsOf target events = []) : deliveriesTo target ticket events = [] := by
  refine List.filterMap_eq_nil_iff.mpr fun event happened => ?_
  have other := eventsOf_eq_nil_iff.mp quiet event happened
  cases event with
  | notified number told change => exact if_neg fun own => other (congrArg some own.1)
  | _ => rfl

theorem deliveriesTo_note (target ticket : Nat) (caller : Option (Nat × Nat)) (reply : Reply) :
    deliveriesTo target ticket (note caller reply) = [] := by
  cases caller with
  | none => rfl
  | some caller => rfl

/-- An observer is subscribed to a translator only when there is one. -/
theorem exists_member_of_subscribed {session : Session n} {target ticket : Nat}
    (subscribed : ticket ∈ session.ticketsOf target) :
    ∃ member, session.members[target]? = some member := by
  cases found : session.members[target]? with
  | none =>
    rw [ticketsOf, selectorOf, found] at subscribed
    cases subscribed
  | some member => exact ⟨member, rfl⟩

/-- No ticket is issued twice. -/
theorem Concludes.length_handles_le {session : Session n} {step : Step n} {outcome : Outcome n}
    (concludes : session.Concludes step outcome) :
    session.handles.length ≤ outcome.session.handles.length := by
  cases concludes with
  | subscribe present script =>
    rw [List.length_append]
    exact Nat.le_add_right _ _
  | _ => exact Nat.le_refl _

theorem preserved_issued (ticket : Nat) :
    Preserved fun _ (session : Session n) => ticket < session.handles.length where
  ended := fun before ended =>
    Nat.lt_of_lt_of_le before (concludes_of_start ended).length_handles_le
  opened := by
    intro log session step opened number change observers before begun
    obtain ⟨_, member, _, _, opening, rfl, rfl⟩ := opening_of_start begun
    exact before
  notified := fun _ _ _ before => before
  acted := fun _ _ _ before => before
  settled := fun _ before => before

/-- A subscription that is over. -/
structure Cancelled (session : Session n) (target ticket : Nat) : Prop where
  issued : ticket < session.handles.length
  absent : ticket ∉ session.ticketsOf target

theorem Concludes.cancelled {session : Session n} {step : Step n} {outcome : Outcome n}
    (concludes : session.Concludes step outcome) {target ticket : Nat}
    (cancelled : session.Cancelled target ticket) : outcome.session.Cancelled target ticket := by
  refine ⟨Nat.lt_of_lt_of_le cancelled.issued concludes.length_handles_le, ?_⟩
  cases concludes with
  | remark step remarks reply => exact cancelled.absent
  | grow step registries remarks reply => exact cancelled.absent
  | build share isDescribed plan registries registry remarks =>
    rw [ticketsOf_enrol]
    split
    · exact List.not_mem_nil
    · exact cancelled.absent
  | subscribe present script =>
    rw [ticketsOf_subscribe present, List.mem_append, not_or]
    refine ⟨cancelled.absent, fun new => ?_⟩
    split at new
    · exact Nat.ne_of_lt cancelled.issued (List.mem_singleton.mp new)
    · cases new
  | unsubscribe present removed handle reply =>
    have fewer := ticketsOf_unsubscribe_sublist present handle target
    exact fun kept => cancelled.absent (fewer.subset kept)

theorem preserved_cancelled (target ticket : Nat) :
    Preserved fun _ (session : Session n) => session.Cancelled target ticket where
  ended := fun before ended => (concludes_of_start ended).cancelled before
  opened := by
    intro log session step opened number change observers before begun
    obtain ⟨_, member, _, _, opening, rfl, rfl⟩ := opening_of_start begun
    exact ⟨before.issued, opening.ticketsOf_openRound target ▸ before.absent⟩
  notified := fun _ _ _ before => before
  acted := fun _ _ _ before => before
  settled := by
    intro log session number before
    exact ⟨before.issued, (session.ticketsOf_settle number target).symm ▸ before.absent⟩

/-- What an observer knows of the changes since a moment at which the given locale was
active. -/
inductive Informed (active : Option Locale) (target ticket : Nat) (since : List Event)
    (agenda : List (Pending n)) : Prop
  | unchanged (changes : changesOf target since = [])
      (deliveries : ∀ change ∈ deliveriesTo target ticket since, active = some change.current)
  | changed {change : Change} (last : (changesOf target since).getLast? = some change)
      (told : (deliveriesTo target ticket since).getLast? = some change ∨
        ∃ observer, observer.ticket = ticket ∧ .tell target change observer ∈ agenda)

theorem Informed.quiet {active : Option Locale} {target ticket : Nat} {since events : List Event}
    {agenda later : List (Pending n)} (informed : Informed active target ticket since agenda)
    (changes : changesOf target events = []) (deliveries : deliveriesTo target ticket events = [])
    (waiting : ∀ change observer, observer.ticket = ticket →
      .tell target change observer ∈ agenda → .tell target change observer ∈ later) :
    Informed active target ticket (since ++ events) later := by
  have sameChanges : changesOf target (since ++ events) = changesOf target since := by
    rw [changesOf_append, changes, List.append_nil]
  have sameDeliveries :
      deliveriesTo target ticket (since ++ events) = deliveriesTo target ticket since := by
    rw [deliveriesTo_append, deliveries, List.append_nil]
  cases informed with
  | unchanged changes deliveries =>
    exact .unchanged (sameChanges.trans changes) (sameDeliveries ▸ deliveries)
  | changed last told =>
    refine .changed (sameChanges ▸ last) ?_
    rcases told with told | ⟨observer, same, member⟩
    · exact .inl (sameDeliveries ▸ told)
    · exact .inr ⟨observer, same, waiting _ observer same member⟩

section Moves

variable {log earlier since : List Event} {calls : List (Session n × Step n)}
  {session : Session n} {agenda : List (Pending n)} {active : Option Locale}
  {target ticket : Nat}

/-- A step that opens no round neither changes the active locale of a translator that has
observers nor tells any of them of a change. -/
theorem Informed.conclude {caller : Option (Nat × Nat)} {step : Step n} {outcome : Outcome n}
    (informed : Informed active target ticket since (.call caller step :: agenda))
    (subscribed : ticket ∈ session.ticketsOf target)
    (ended : session.start step = .over outcome) :
    Informed active target ticket (since ++ (outcome.events ++ note caller outcome.reply))
      agenda := by
  have quiet : eventsOf target outcome.events = [] := by
    rcases (concludes_of_start ended).quiet_or_enrols target with ⟨quiet, _⟩ | ⟨current, enrols⟩
    · exact quiet
    · obtain ⟨member, present⟩ := exists_member_of_subscribed subscribed
      obtain ⟨inside, _⟩ := List.getElem?_eq_some_iff.mp present
      exact absurd enrols.number (Nat.ne_of_lt inside)
  refine informed.quiet ?_ ?_ ?_
  · rw [changesOf_append, changesOf_eq_nil quiet, changesOf_note, List.append_nil]
  · rw [deliveriesTo_append, deliveriesTo_eq_nil quiet, deliveriesTo_note, List.append_nil]
  · intro change observer _ member
    exact (List.mem_cons.mp member).resolve_left nofun

/-- An observer that is subscribed when a round opens will be told of the change. -/
theorem Informed.round {caller : Option (Nat × Nat)} {step : Step n} {opened : Session n}
    {number : Nat} {change : Change} {observers : List (Observer n)}
    (informed : Informed active target ticket since (.call caller step :: agenda))
    (subscribed : ticket ∈ session.ticketsOf target)
    (begun : session.start step = .round opened number change observers) :
    Informed active target ticket (since ++ [.switched number change])
      (observers.map (.tell number change) ++ .settle number caller :: agenda) := by
  obtain ⟨_, member, _, _, opening, rfl, rfl⟩ := opening_of_start begun
  by_cases own : number = target
  · subst own
    rw [ticketsOf_eq opening.present] at subscribed
    obtain ⟨⟨handle, observer⟩, listed, same⟩ := List.mem_map.mp subscribed
    have last : (changesOf number (since ++ [.switched number change])).getLast? = some change := by
      rw [changesOf_append, changesOf_switched, if_pos rfl, List.getLast?_concat]
    refine .changed last (.inr ⟨observer, same, List.mem_append_left _ ?_⟩)
    exact List.mem_map_of_mem (List.mem_map_of_mem listed)
  · refine informed.quiet ?_ rfl ?_
    · rw [changesOf_switched, if_neg own]
    · intro change observer _ member
      exact List.mem_append_right _ (.tail _ ((List.mem_cons.mp member).resolve_left nofun))

/-- An observer that is told of a change is told of the last one. -/
theorem Informed.tell {number : Nat} {change : Change} {observer : Observer n}
    (informed : Informed active target ticket since (.tell number change observer :: agenda))
    (before : active = (changesOf target earlier).getLast?.map Change.current)
    (latest : number = target → (changesOf target (earlier ++ since)).getLast? = some change) :
    Informed active target ticket (since ++ [.notified number observer.ticket change])
      (Pending.script observer.ticket 0 observer.script ++ agenda) := by
  have same : changesOf target (since ++ [.notified number observer.ticket change]) =
      changesOf target since := by
    rw [changesOf_append, changesOf_remark rfl, List.append_nil]
  by_cases own : number = target ∧ observer.ticket = ticket
  · have delivered :
        deliveriesTo target ticket (since ++ [.notified number observer.ticket change]) =
          deliveriesTo target ticket since ++ [change] := by
      rw [deliveriesTo_append]
      exact congrArg _ (List.filterMap_cons_some (if_pos own))
    have latest := latest own.1
    rw [changesOf_append] at latest
    cases informed with
    | unchanged changes deliveries =>
      rw [changes, List.append_nil] at latest
      refine .unchanged (same.trans changes) ?_
      rw [delivered]
      refine List.forall_mem_append.mpr ⟨deliveries, List.forall_mem_singleton.mpr ?_⟩
      rw [before, latest]
      rfl
    | changed last told =>
      rw [List.getLast?_append, last] at latest
      cases latest
      refine .changed (same ▸ last) (.inl ?_)
      rw [delivered, List.getLast?_concat]
  · refine informed.quiet (changesOf_remark rfl) (List.filterMap_cons_none (if_neg own)) ?_
    intro _ other mine member
    refine List.mem_append_right _ (List.mem_of_ne_of_mem ?_ member)
    intro same
    cases same
    exact own ⟨rfl, mine⟩

theorem Informed.settle {number : Nat} {caller : Option (Nat × Nat)}
    (informed : Informed active target ticket since (.settle number caller :: agenda)) :
    Informed active target ticket (since ++ ([.settled number] ++ note caller (.ok .done)))
      agenda := by
  refine informed.quiet ?_ (deliveriesTo_note target ticket caller _) ?_
  · rw [changesOf_append, changesOf_remark rfl, changesOf_note, List.append_nil]
  · intro change observer _ member
    exact (List.mem_cons.mp member).resolve_left nofun

end Moves

/-- When nothing is left to be done, the last delivery is of the last change. -/
theorem Informed.active_eq {active after : Option Locale} {target ticket : Nat}
    {since : List Event} (informed : Informed (n := n) active target ticket since [])
    (moved : after = ((changesOf target since).getLast?.map Change.current).or active) :
    (∀ change, (deliveriesTo target ticket since).getLast? = some change →
      after = some change.current) ∧
      (deliveriesTo target ticket since = [] → after = active) := by
  cases informed with
  | unchanged changes deliveries =>
    have same : after = active := by
      rw [moved, changes, List.getLast?_nil, Option.map_none, Option.none_or]
    refine ⟨fun change told => ?_, fun _ => same⟩
    rw [same]
    exact deliveries change (List.mem_of_getLast? told)
  | @changed change last told =>
    have latest : after = some change.current := by
      rw [moved, last, Option.map_some, Option.some_or]
    rcases told with told | ⟨_, _, member⟩
    · refine ⟨fun other same => ?_, fun none => ?_⟩
      · cases told.symm.trans same
        exact latest
      · rw [none] at told
        cases told
    · cases member

/-- **What every move keeps.** An observer that stays subscribed stays informed. -/
theorem Moment.Moves.informed {moment next : Moment n} (moves : moment.Moves next)
    {earlier since : List Event} (parts : moment.log = earlier ++ since) {active : Option Locale}
    {target ticket : Nat} (before : active = (changesOf target earlier).getLast?.map Change.current)
    (latest : ∀ change observer, .tell target change observer ∈ moment.agenda →
      (changesOf target moment.log).getLast? = some change)
    (subscribed : ticket ∈ moment.session.ticketsOf target)
    (informed : Informed active target ticket since moment.agenda) :
    ∃ events, next.log = earlier ++ (since ++ events) ∧
      Informed active target ticket (since ++ events) next.agenda := by
  cases moves with
  | conclude ended =>
    refine ⟨_, ?_, informed.conclude subscribed ended⟩
    simp only [← List.append_assoc, ← parts]
  | round begun =>
    refine ⟨_, ?_, informed.round subscribed begun⟩
    simp only [← List.append_assoc, ← parts]
  | tell =>
    refine ⟨_, ?_, informed.tell before ?_⟩
    · simp only [← List.append_assoc, ← parts]
    · rintro rfl
      exact parts ▸ latest _ _ List.mem_cons_self
  | settle =>
    refine ⟨_, ?_, informed.settle⟩
    simp only [← List.append_assoc, ← parts]

/-- An observer that is subscribed later has been subscribed all the time. -/
theorem Moment.Moves.subscribed {moment next : Moment n} (moves : moment.Moves next)
    {target ticket : Nat} (issued : ticket < moment.session.handles.length)
    (kept : ticket ∈ next.session.ticketsOf target) :
    ticket ∈ moment.session.ticketsOf target := by
  by_contra absent
  exact ((preserved_cancelled target ticket).of_moves moves ⟨issued, absent⟩).absent kept

/-- **What a run keeps.** When all calls since some moment are over, no observer is still to be
told of a change. -/
theorem informed_of_completes {steps : List (Step n)} {first second : Moment n}
    (passes : Passes steps first) (completes : first.Completes second) {target ticket : Nat}
    (subscribed : ticket ∈ first.session.ticketsOf target)
    (kept : ticket ∈ second.session.ticketsOf target) :
    ∃ since, second.log = first.log ++ since ∧
      Informed (n := n) (first.session.activeOf target) target ticket since [] := by
  obtain ⟨now, parts, leads⟩ := completes
  have before := (preserved_lastChange target).of_passes rfl passes
  have ticketed := preserved_ticketed.of_passes ticketed_empty passes
  have issued := ticketed.issued target ticket subscribed
  have during {moment : Moment n} (leads : Moment.Leads { first with agenda := now } moment)
      (kept : ticket ∈ moment.session.ticketsOf target) :
      ∃ since, moment.log = first.log ++ since ∧
        Informed (first.session.activeOf target) target ticket since moment.agenda := by
    induction leads with
    | refl =>
      exact ⟨[], (List.append_nil _).symm, .unchanged rfl (List.forall_mem_nil _)⟩
    | @tail moment next leads moves ih =>
      have issued := (preserved_issued ticket).of_leads leads issued
      have subscribed := moves.subscribed issued kept
      obtain ⟨since, log, informed⟩ := ih subscribed
      -- what was to be done after the calls does not disturb them
      have framed := Moment.Leads.before leads second.agenda
      simp only [Moment.before, ← parts] at framed
      have onwards : Passes steps _ := Moment.Leads.trans passes framed
      have latest (change : Change) (observer : Observer n)
          (member : .tell target change observer ∈ moment.agenda) :
          (changesOf target moment.log).getLast? = some change :=
        onwards.orderly.latest target change observer (List.mem_append_left _ member)
      obtain ⟨events, further, informed⟩ := moves.informed log before latest subscribed informed
      exact ⟨_, further, informed⟩
  exact during leads kept

/-- The current locale is the active one or else the fallback. -/
theorem current_translatorOf_eq_ok_iff {session : Session n} {member : Member n}
    {locale : Locale} :
    (session.translatorOf member).current = .ok locale ↔
      member.selector.active = some locale ∨
        member.selector.active = none ∧ (session.registryOf member).fallback = some locale := by
  unfold Translator.current translatorOf
  dsimp only
  split
  · next locale' active => simp [active]
  · next active declared => simp [active, declared]
  · next active declared => simp [active, declared]

/-- **What observers know.** Let an observer be subscribed to a translator that has a current
locale, at any moment of a run, and still be subscribed when the calls since then are over. If
it has been told of changes since, the last of them says what the current locale is. If not,
the current locale is the same when it had been activated, and the fallback of that time
otherwise. -/
theorem current_eq_of_deliveries (steps : List (Step n)) {first second : Moment n}
    (passes : Passes steps first) (completes : first.Completes second) {target ticket : Nat}
    {member : Member n} (present : first.session.members[target]? = some member)
    {locale : Locale} (current : (first.session.translatorOf member).current = .ok locale)
    (subscribed : ticket ∈ first.session.ticketsOf target)
    (kept : ticket ∈ second.session.ticketsOf target) :
    ∃ since later, second.log = first.log ++ since ∧
      second.session.members[target]? = some later ∧
      let translator := second.session.translatorOf later
      (∀ change, (deliveriesTo target ticket since).getLast? = some change →
        translator.current = .ok change.current) ∧
      (deliveriesTo target ticket since = [] →
        (member.selector.active ≠ none → translator.current = .ok locale) ∧
        (member.selector.active = none → ∃ fallback,
          translator.registry.fallback = some fallback ∧ translator.current = .ok fallback)) := by
  obtain ⟨since, log, informed⟩ := informed_of_completes passes completes subscribed kept
  have further : Passes steps second := passes.trans completes.leads
  have reached : Preserved fun _ (session : Session n) => first.session.Reaches session :=
    .of_reaches fun onwards reaches => reaches.trans onwards
  have extended := (reached.of_leads completes.leads .refl).extends
  have consistent := preserved_consistent.of_passes consistent_empty passes
  have placed := (consistent.fits member (List.mem_of_getElem? present)).placed
  obtain ⟨later, still, number⟩ := extended.members target member present
  have before := (preserved_lastChange target).of_passes rfl passes
  have after := (preserved_lastChange target).of_passes rfl further
  rw [log, changesOf_append, List.getLast?_append, Option.map_or, ← before] at after
  obtain ⟨delivered, silent⟩ := informed.active_eq after
  rw [activeOf_eq still, activeOf_eq present] at silent
  rw [activeOf_eq still] at delivered
  refine ⟨since, later, log, still, ?_, ?_⟩
  · intro change told
    exact current_translatorOf_eq_ok_iff.mpr (.inl (delivered change told))
  · intro none
    have same := silent none
    rcases current_translatorOf_eq_ok_iff.mp current with active | ⟨inactive, declared⟩
    · refine ⟨fun _ => ?_, fun inactive => ?_⟩
      · exact current_translatorOf_eq_ok_iff.mpr (.inl (same.trans active))
      · cases active.symm.trans inactive
    · refine ⟨fun active => absurd inactive active, fun _ => ?_⟩
      -- a registry keeps some fallback, though it may become another one
      have ready := (extended.grows_registryOf placed number).isSome_fallback
        (Option.isSome_iff_exists.mpr ⟨locale, declared⟩)
      obtain ⟨fallback, declaredLater⟩ := Option.isSome_iff_exists.mp ready
      exact ⟨fallback, declaredLater,
        current_translatorOf_eq_ok_iff.mpr (.inr ⟨same.trans inactive, declaredLater⟩)⟩

/-- A host registers English and German with English as the fallback, and an observer
subscribes. -/
def watchedSteps : List (Step 1) :=
  [.build none false (.ok
    { catalogues := [(.english, .empty), (.german, .empty)], fallback := some .english }),
    .subscribe ⟨0, Nat.one_pos⟩ []]

/-- When German is activated, the observer is told of it. -/
theorem current_eq_of_deliveries_activation :
    ∃ (first second : Moment 1) (since : List Event) (later : Member 1),
      Passes (watchedSteps ++ [.setActive 0 .german]) first ∧ first.Completes second ∧
        0 ∈ first.session.ticketsOf 0 ∧ 0 ∈ second.session.ticketsOf 0 ∧
        second.log = first.log ++ since ∧ second.session.members[0]? = some later ∧
        deliveriesTo 0 0 since = [⟨none, .german⟩] ∧
        (second.session.translatorOf later).current = .ok .german := by
  obtain ⟨calls, more, passes, completes⟩ := passes_run watchedSteps [.setActive 0 .german]
  obtain ⟨since, later, log, present, told, _⟩ :=
    @current_eq_of_deliveries _ _ _ _ passes completes 0 0 _ rfl _ rfl List.mem_cons_self
      List.mem_cons_self
  rw [history_append] at log
  have since_eq := (List.append_cancel_left log).symm
  have delivered : deliveriesTo 0 0 since = [⟨none, .german⟩] := by
    rw [since_eq]
    rfl
  refine ⟨_, _, since, later, passes, completes, List.mem_cons_self, List.mem_cons_self, ?_,
    present, delivered, told ⟨none, .german⟩ ?_⟩
  · rw [history_append, since_eq]
  · rw [delivered]
    rfl

/-- When German becomes the fallback, the current locale changes without a delivery. -/
theorem current_ne_after_redeclaration :
    ∃ (first second : Moment 1) (since : List Event) (member later : Member 1),
      Passes (watchedSteps ++ [.setFallback 0 .german]) first ∧ first.Completes second ∧
        0 ∈ first.session.ticketsOf 0 ∧ 0 ∈ second.session.ticketsOf 0 ∧
        second.log = first.log ++ since ∧
        first.session.members[0]? = some member ∧ second.session.members[0]? = some later ∧
        deliveriesTo 0 0 since = [] ∧
        (first.session.translatorOf member).current = .ok .english ∧
        (second.session.translatorOf later).current = .ok .german ∧
        Locale.german ≠ .english := by
  obtain ⟨calls, more, passes, completes⟩ := passes_run watchedSteps [.setFallback 0 .german]
  exact ⟨_, _, [], _, _, passes, completes, List.mem_cons_self, List.mem_cons_self, rfl, rfl, rfl,
    rfl, rfl, rfl, Locale.german_ne_english⟩

end Phrasebook.Session
