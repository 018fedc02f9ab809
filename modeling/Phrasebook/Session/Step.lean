import Phrasebook.Registry.Coverage
import Phrasebook.Selector
import Phrasebook.Translator

/-! # Steps of sessions

A session works with several translators, which its steps call by number
(`Phrasebook.Session.Step`). A step builds a translator, asks one a question that
changes nothing (`Phrasebook.Session.Query`), or changes a registry, the active
locale or the observers of one. What an observer does when it is told of a change
is again a list of steps.
-/

namespace Phrasebook.Session

/-- How a translator is built: the catalogues that it registers, the locales that it
declares and activates, and whether its failed look-ups are reported. -/
structure Plan where
  catalogues : List (Locale × Catalogue) := []
  fallback : Option Locale := none
  active : Option Locale := none
  escaping : Escaping := .markup
  reports : Bool := true

/-- A question to a translator. -/
inductive Query
  | current
  | status
  | contains (locale : Locale)
  | catalogue (locale : Locale)
  | find (locale : Locale) (address : Address) (index : Option Position)
  | text (path : String) (arguments : Arguments)
  | textIn (locale : Locale) (path : String) (arguments : Arguments)
  | textAt (path : String) (index : Position) (arguments : Arguments)
  | texts (path : String) (arguments : Arguments)
  | entry (locale : Option Locale) (path : String) (arguments : Arguments)
  | lookUp (path : String) (arguments : Option Arguments)
  | message (path : String) (arguments : Option Arguments) (fallback : String)
  | messageOrPath (path : String) (arguments : Option Arguments)
  | coverage
  | description

/-- Why a step fails: its translator or its subscription does not exist, the library
refuses it, or a value in it cannot be decoded as a catalogue. -/
inductive Failure
  | noTranslator
  | noTicket
  | error (cause : Error)
  | undecodable (fault : Option Catalogue.Fault)
deriving Inhabited

/-- A step of a session that calls its translators by the numbers below `n`. A step
that could not be read fails with its cause once its translator is known to
exist. -/
inductive Step (n : Nat)
  | build (share : Option (Fin n)) (isDescribed : Bool) (plan : Except Failure Plan)
  | ask (target : Fin n) (query : Query)
  | register (target : Fin n) (locale : Locale) (catalogue : Catalogue)
  | setFallback (target : Fin n) (locale : Locale)
  | setActive (target : Fin n) (locale : Locale)
  | subscribe (target : Fin n) (script : List (Step n))
  | unsubscribe (target : Fin n) (ticket : Nat)
  | unreadable (target : Fin n) (cause : Failure)
deriving Inhabited

/-- The state of a translator: whether its registry has a fallback, the fallback, the
current locale, the registered locales, the number of observers, and how values are
written. -/
structure Status where
  isReady : Bool
  fallback : Option Locale
  current : Option Locale
  locales : List Locale
  observers : Nat
  escaping : Escaping

/-- What a step answers. -/
inductive Answer
  | done
  | built (translator : Nat)
  | locale (locale : Locale)
  | status (status : Status)
  | truth (value : Bool)
  | catalogue (catalogue : Catalogue)
  | finding (finding : Finding)
  | text (text : String)
  | texts (texts : List String)
  | rendered (entry : Rendered)
  | message (text : Option String)
  | ticket (ticket : Nat)
  | coverage (coverage : Coverage)
  | description (text : String)

/-- The answer of a step or its failure. -/
abbrev Reply := Except Failure Answer

/-- What happens during a step: a plan is described, a look-up fails, the active
locale of a translator changes and all its observers have been told of it, an
observer is told of a change, and an observer has carried out a step of its
script. -/
inductive Event
  | described (text : String)
  | issue (path : String) (locale : Option Locale) (cause : Error)
  | switched (translator : Nat) (change : Change)
  | settled (translator : Nat)
  | notified (translator ticket : Nat) (change : Change)
  | acted (ticket index : Nat) (reply : Reply)

end Phrasebook.Session
