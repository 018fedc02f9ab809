import Phrasebook.Proofs.Session.Changes
import Phrasebook.Proofs.Session.Completion

/-! # Activations in the middle of rounds

An observer may call any translator of the session, also the one that is telling it of a
change. Every call comes to an end, and it fails as re-entrant exactly when it would activate
a locale for a translator in whose round it is made
(`Phrasebook.Session.reentrancy_contained`). Such a call leaves everything as it is; any other
activation proceeds as if no round were in progress (`Phrasebook.Session.Call.Proceeds`).
-/

namespace Phrasebook.Session

variable {n : Nat}

namespace Call

/-- What an activation leads to when its translator has no round: it fails because there is no
such translator or no such locale, it has nothing to do, or it switches to the locale and tells
all observers. -/
inductive Proceeds (call : Call n) (number : Fin n) (locale : Locale) : Prop
  | absent (missing : call.session.members[number.val]? = none)
      (refused : call.outcome = call.session.unchanged (.error .noTranslator))
  | unknown {member : Member n} (present : call.session.members[number.val]? = some member)
      (unknown : (call.session.registryOf member).contains locale = false)
      (refused : call.outcome = call.session.unchanged (.error (.error (.unknownLocale locale))))
  | already {member : Member n} (present : call.session.members[number.val]? = some member)
      (known : (call.session.registryOf member).contains locale = true)
      (active : member.selector.active = some locale)
      (quiet : call.outcome = call.session.unchanged (.ok .done))
  | switches {member : Member n} (present : call.session.members[number.val]? = some member)
      (known : (call.session.registryOf member).contains locale = true)
      (fresh : member.selector.active ≠ some locale)
      (activates : call.Activates number
        ⟨⟨member.selector.active, locale⟩, call.session.ticketsOf number⟩)
      (active : call.outcome.session.activeOf number = some locale)

namespace MadeBy

variable {steps : List (Step n)} {call : Call n} (made : call.MadeBy steps)
include made

theorem isNotifying_outcome_iff (target : Nat) :
    call.outcome.session.IsNotifying target ↔ target ∈ call.rounds :=
  (isNotifying_performWithin _ target call.session call.step).trans (made.isNotifying_iff target)

/-- The activated locale is still active when all observers have been told of it. -/
theorem active_of_activates {target : Nat} {round : Round}
    (activates : call.Activates target round) :
    call.outcome.session.activeOf target = some round.change.current := by
  have last := (preserved_lastChange target).of_outcome rfl made
  have changes : changesOf target call.outcome.events = [round.change] := by
    rw [changesOf, activates.events, changesOf_round]
  rw [changesOf_append, changes, List.getLast?_concat] at last
  exact last

variable {number : Fin n} {locale : Locale} (activation : call.step = .setActive number locale)
include activation

theorem outcome_of_reentrant (inside : number.val ∈ call.rounds) :
    call.outcome = call.session.unchanged (.error (.error (.reentrantSwitch locale))) := by
  obtain ⟨selector, found, notifying⟩ := (made.isNotifying_iff number).mpr inside
  obtain ⟨member, present, rfl⟩ := Option.map_eq_some_iff.mp found
  have refused : member.selector.select (call.session.registryOf member) locale =
      .error (.reentrantSwitch locale) :=
    Selector.select_eq_error_iff.mpr (.inl ⟨notifying, rfl⟩)
  apply performWithin_of_over
  rw [activation, start_setActive_of_refused present refused]

theorem proceeds (outside : number.val ∉ call.rounds) : call.Proceeds number locale := by
  cases present : call.session.members[number.val]? with
  | none =>
    apply Proceeds.absent present
    apply performWithin_of_over
    rw [activation, start_setActive_of_absent present]
  | some member =>
    have isFree : member.selector.isNotifying = false := by
      rw [← made.isNotifying_iff, isNotifying_of_present present] at outside
      exact Bool.not_eq_true _ ▸ outside
    cases known : (call.session.registryOf member).contains locale with
    | false =>
      have refused : member.selector.select (call.session.registryOf member) locale =
          .error (.unknownLocale locale) :=
        Selector.select_eq_error_iff.mpr (.inr ⟨isFree, known, rfl⟩)
      apply Proceeds.unknown present known
      apply performWithin_of_over
      rw [activation, start_setActive_of_refused present refused]
    | true =>
      by_cases active : member.selector.active = some locale
      · have already : member.selector.select (call.session.registryOf member) locale =
            .ok none := by
          simp [Selector.select, isFree, known, active]
        apply Proceeds.already present known active
        apply performWithin_of_over
        rw [activation, start_setActive_of_active present already]
      · have selected := Selector.select_eq_ok_some_iff.mpr ⟨isFree, known, active, rfl, rfl⟩
        have begun := start_setActive_of_selected present selected
        rw [← activation] at begun
        obtain ⟨activates, _⟩ := made.activates begun
        exact .switches present known active activates (made.active_of_activates activates)

end MadeBy

theorem Proceeds.reply_ne {call : Call n} {number : Fin n} {locale : Locale}
    (proceeds : call.Proceeds number locale) (requested : Locale) :
    call.outcome.reply ≠ .error (.error (.reentrantSwitch requested)) := by
  cases proceeds with
  | absent missing refused =>
    rw [refused]
    exact nofun
  | unknown present unknown refused =>
    rw [refused]
    exact nofun
  | already present known active quiet =>
    rw [quiet]
    exact nofun
  | switches present known fresh activates active =>
    rw [activates.reply]
    exact nofun

end Call

/-- **Re-entrant activation is contained.** In any run, whatever the scripts of its observers,
every call of a step has exactly one outcome, and it finds and leaves exactly those
translators telling their observers of a change in whose rounds it is made. An activation
fails as re-entrant if and only if it is made in a round of its own translator, whatever the
locale, and then it does nothing at all. Every other activation proceeds as usual, also in the
middle of the rounds of other translators. When the last of its steps is over, the run leaves
no translator telling its observers of a change. -/
theorem reentrancy_contained (steps : List (Step n)) :
    (∀ call : Call n, call.MadeBy steps →
      (∀ outcome, Performs call.session call.step outcome ↔ outcome = call.outcome) ∧
      (∀ target, (call.session.IsNotifying target ↔ target ∈ call.rounds) ∧
        (call.outcome.session.IsNotifying target ↔ target ∈ call.rounds)) ∧
      ∀ (number : Fin n) (locale : Locale), call.step = .setActive number locale →
        ((∃ requested, call.outcome.reply = .error (.error (.reentrantSwitch requested))) ↔
          number.val ∈ call.rounds) ∧
        (number.val ∈ call.rounds →
          call.outcome = call.session.unchanged (.error (.error (.reentrantSwitch locale)))) ∧
        (number.val ∉ call.rounds → call.Proceeds number locale)) ∧
    ∀ target, ¬ (run {} steps).1.IsNotifying target := by
  constructor
  · intro call made
    refine ⟨fun outcome => ?_, fun target => ?_, fun number locale activation => ⟨?_, ?_, ?_⟩⟩
    · rw [made.outcome_eq_perform]
      exact performs_iff
    · exact ⟨made.isNotifying_iff target, made.isNotifying_outcome_iff target⟩
    · constructor
      · rintro ⟨requested, failed⟩
        by_contra outside
        exact (made.proceeds activation outside).reply_ne requested failed
      · intro inside
        exact ⟨locale, congrArg Outcome.reply (made.outcome_of_reentrant activation inside)⟩
    · exact made.outcome_of_reentrant activation
    · exact made.proceeds activation
  · intro target
    rw [isNotifying_run]
    rintro ⟨_, found, _⟩
    cases found

/-- Two translators over one registry whose observers call each other: the second one switches
in the round of the first one, the first one does not in the round of the second one. -/
example :
    let plan : Plan := { catalogues := [(.english, .empty)], fallback := some .english }
    let steps : List (Step 2) :=
      [.build none false (.ok plan), .build (some 0) false (.ok plan),
        .subscribe 0 [.setActive 1 .english], .subscribe 1 [.setActive 0 .english]]
    let change : Change := ⟨none, .english⟩
    ((run {} steps).1.perform (.setActive 0 .english)).events =
      [.switched 0 change, .notified 0 0 change,
        .switched 1 change, .notified 1 1 change,
        .acted 1 0 (.error (.error (.reentrantSwitch .english))), .settled 1,
        .acted 0 0 (.ok .done), .settled 0] := rfl

end Phrasebook.Session
