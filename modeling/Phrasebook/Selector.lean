import Phrasebook.Registry.Basic

/-! # Selectors

A selector holds the active locale of a translator and the observers that are told
of its changes (`Phrasebook.Selector`). While it tells them of a change it refuses
another one (`Phrasebook.Selector.select`).
-/

namespace Phrasebook

/-- A change of the active locale. -/
structure Change where
  previous : Option Locale
  current : Locale
deriving DecidableEq

/-- The active locale and the observers of its changes, in the order in which they
subscribed, each under a handle of its own. -/
structure Selector (ω : Type) where
  active : Option Locale := none
  isNotifying : Bool := false
  nextHandle : Nat := 0
  observers : List (Nat × ω) := []

namespace Selector

variable {ω : Type}

/-- The greatest handle; subscriptions beyond it share it. -/
def maxHandle : Nat := UInt64.size - 1

/-- Activates a registered locale. The answer is the change, with the selector that
is about to tell its observers, or nothing when the locale is active already. -/
def select (selector : Selector ω) (registry : Registry) (locale : Locale) :
    Except Error (Option (Change × Selector ω)) :=
  if selector.isNotifying then .error (.reentrantSwitch locale)
  else if !registry.contains locale then .error (.unknownLocale locale)
  else if selector.active = some locale then .ok none
  else
    .ok (some (⟨selector.active, locale⟩,
      { selector with active := some locale, isNotifying := true }))

/-- The observers have been told of a change. -/
def settle (selector : Selector ω) : Selector ω :=
  { selector with isNotifying := false }

/-- Adds an observer behind the others; the answer begins with its handle. -/
def subscribe (selector : Selector ω) (observer : ω) : Nat × Selector ω :=
  (selector.nextHandle,
    { selector with
      nextHandle := min (selector.nextHandle + 1) maxHandle
      observers := selector.observers ++ [(selector.nextHandle, observer)] })

/-- Removes the observers under a handle; the answer says whether there was one. -/
def unsubscribe (selector : Selector ω) (handle : Nat) : Bool × Selector ω :=
  (selector.observers.any fun observer => observer.1 == handle,
    { selector with
      observers := selector.observers.filter fun observer => observer.1 != handle })

end Selector

end Phrasebook
