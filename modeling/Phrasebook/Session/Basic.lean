import Phrasebook.Session.Description

/-! # Sessions

A session holds registries and the translators over them; several translators may
share a registry (`Phrasebook.Session`). Its steps run one after another
(`Phrasebook.Session.run`). A change of an active locale opens a round, in which
every observer that was subscribed when the round began is told of the change and
carries out its script. Only a translator without a round can open one, so rounds
nest at most once for each translator (`Phrasebook.Session.performWithin`).
-/

namespace Phrasebook

/-- An observer: the ticket of its subscription, which counts all subscriptions of
the session, and what it does when it is told of a change. -/
structure Session.Observer (n : Nat) where
  ticket : Nat
  script : List (Session.Step n)

/-- A translator of a session: the number of its registry, its active locale and
observers, how it writes values, and whether its failed look-ups are reported. -/
structure Session.Member (n : Nat) where
  registry : Nat
  selector : Selector (Session.Observer n)
  escaping : Escaping
  reports : Bool

/-- The registries and translators of a session, and for each ticket the handle under
which the translator knows the subscription. -/
structure Session (n : Nat) where
  registries : List Registry := []
  members : List (Session.Member n) := []
  handles : List Nat := []

namespace Session

variable {n : Nat}

/-- What a step leads to: the session afterwards, what happened, and the reply. -/
structure Outcome (n : Nat) where
  session : Session n
  events : List Event
  reply : Reply

/-- The outcome of a step that changes nothing and of which nothing is reported. -/
def unchanged (session : Session n) (reply : Reply) : Outcome n :=
  ⟨session, [], reply⟩

/-- The registry of a translator. -/
def registryOf (session : Session n) (member : Member n) : Registry :=
  session.registries[member.registry]?.getD .empty

/-- The view of a translator that look-ups depend on. -/
def translatorOf (session : Session n) (member : Member n) : Translator where
  registry := session.registryOf member
  active := member.selector.active
  escaping := member.escaping

/-- Changes the registry of a translator. -/
def setRegistry (session : Session n) (member : Member n) (registry : Registry) : Session n :=
  { session with registries := session.registries.set member.registry registry }

/-- Changes the active locale and the observers of a translator. -/
def setSelector (session : Session n) (target : Nat) (selector : Selector (Observer n)) :
    Session n :=
  { session with
    members := session.members.modify target fun member => { member with selector } }

/-- The status of a translator. -/
def statusOf (session : Session n) (member : Member n) : Status :=
  let translator := session.translatorOf member
  { isReady := translator.registry.fallback.isSome
    fallback := translator.registry.fallback
    current := translator.current.toOption
    locales := translator.registry.locales
    observers := member.selector.observers.length
    escaping := translator.escaping }

/-- The reply to a question. -/
def answer (session : Session n) (member : Member n) (query : Query) : Except Error Answer :=
  let translator := session.translatorOf member
  match query with
  | .current => translator.current.map .locale
  | .status => .ok (.status (session.statusOf member))
  | .contains locale => .ok (.truth (translator.registry.contains locale))
  | .catalogue locale => (translator.registry.get locale).map .catalogue
  | .find locale address index => (translator.registry.find locale address index).map .finding
  | .text path arguments => (translator.text path arguments).map .text
  | .textIn locale path arguments => (translator.textIn locale path arguments).map .text
  | .textAt path index arguments => (translator.textAt path index arguments).map .text
  | .texts path arguments => (translator.texts path arguments).map .texts
  | .entry locale path arguments => (translator.entry locale path arguments).map .rendered
  | .lookUp path arguments => .ok (.message (translator.localizer.lookUp path arguments))
  | .message path arguments fallback =>
    .ok (.text (translator.localizer.message path arguments fallback))
  | .messageOrPath path arguments =>
    .ok (.text (translator.localizer.messageOrPath path arguments))
  | .coverage => .ok (.coverage translator.registry.coverage)
  | .description =>
    .ok (.description (describeTranslator translator member.selector.observers.length))

/-- The path and the arguments of a question that a localizer answers. -/
def Query.lookUp? : Query → Option (String × Arguments)
  | .lookUp path arguments | .message path arguments _ | .messageOrPath path arguments =>
    some (path, arguments.getD [])
  | _ => none

/-- The failed look-up that a question reports. -/
def issues (session : Session n) (member : Member n) (query : Query) : List Event :=
  match query.lookUp? with
  | none => []
  | some (path, arguments) =>
    let translator := session.translatorOf member
    match translator.text path arguments with
    | .ok _ => []
    | .error cause =>
      if member.reports then [.issue path translator.current.toOption cause] else []

/-- Whether the locale that a plan activates, if any, is registered. -/
def Plan.checkActive (plan : Plan) (registry : Registry) : Except Error Unit :=
  match plan.active with
  | none => .ok ()
  | some locale => if registry.contains locale then .ok () else .error (.unknownLocale locale)

/-- Registers the catalogues of a plan and declares its fallback. What has been
registered remains also when a locale of the plan turns out to be unknown. -/
def Plan.apply (plan : Plan) (registry : Registry) : Registry × Except Error Unit :=
  let registered := plan.catalogues.foldl
    (fun registry (locale, catalogue) => registry.register locale catalogue) registry
  match plan.fallback with
  | none => (registered, plan.checkActive registered)
  | some fallback =>
    match registered.setFallback fallback with
    | .error cause => (registered, .error cause)
    | .ok ready => (ready, plan.checkActive ready)

/-- Adds the translator of a plan over a registry of the session. -/
def enrol (session : Session n) (registry : Nat) (plan : Plan) : Outcome n :=
  let number := session.members.length
  let member : Member n :=
    { registry
      selector := { active := plan.active }
      escaping := plan.escaping
      reports := plan.reports }
  { session := { session with members := session.members ++ [member] }
    events := match plan.active with
      | none => []
      | some locale => [.switched number ⟨none, locale⟩, .settled number]
    reply := .ok (.built number) }

/-- Builds a translator over a new registry, which comes to be only with it. -/
def buildAlone (session : Session n) (plan : Plan) : Outcome n :=
  match plan.apply .empty with
  | (_, .error cause) => session.unchanged (.error (.error cause))
  | (registry, .ok ()) =>
    enrol { session with registries := session.registries ++ [registry] }
      session.registries.length plan

/-- Builds a translator over the registry of another one. -/
def buildShared (session : Session n) (member : Member n) (plan : Plan) : Outcome n :=
  match plan.apply (session.registryOf member) with
  | (registry, .error cause) =>
    (session.setRegistry member registry).unchanged (.error (.error cause))
  | (registry, .ok ()) => (session.setRegistry member registry).enrol member.registry plan

/-- Builds a translator; its plan may be described first. -/
def build (session : Session n) (share : Option (Fin n)) (isDescribed : Bool)
    (plan : Except Failure Plan) : Outcome n :=
  let described (outcome : Plan → Outcome n) : Outcome n :=
    match plan with
    | .error cause => session.unchanged (.error cause)
    | .ok plan =>
      let built := outcome plan
      { built with
        events := (if isDescribed then [.described plan.description] else []) ++ built.events }
  match share with
  | none => described session.buildAlone
  | some target =>
    match session.members[target.val]? with
    | none => session.unchanged (.error .noTranslator)
    | some member => described (session.buildShared member)

/-- How a step begins: it is over at once, or it opens a round. -/
inductive Beginning (n : Nat)
  | over (outcome : Outcome n)
  | round (session : Session n) (target : Nat) (change : Change) (observers : List (Observer n))

/-- Carries out a step up to the round that it may open. -/
def start (session : Session n) (step : Step n) : Beginning n :=
  match step with
  | .build share isDescribed plan => .over (session.build share isDescribed plan)
  | .ask target query => withMember target fun member =>
    .over
      { session
        events := session.issues member query
        reply := (session.answer member query).mapError .error }
  | .register target locale catalogue => withMember target fun member =>
    let registry := (session.registryOf member).register locale catalogue
    .over ((session.setRegistry member registry).unchanged (.ok .done))
  | .setFallback target locale => withMember target fun member =>
    match (session.registryOf member).setFallback locale with
    | .ok registry => .over ((session.setRegistry member registry).unchanged (.ok .done))
    | .error cause => .over (session.unchanged (.error (.error cause)))
  | .setActive target locale => withMember target fun member =>
    match member.selector.select (session.registryOf member) locale with
    | .error cause => .over (session.unchanged (.error (.error cause)))
    | .ok none => .over (session.unchanged (.ok .done))
    | .ok (some (change, selector)) =>
      .round (session.setSelector target selector) target change
        (selector.observers.map Prod.snd)
  | .subscribe target script => withMember target fun member =>
    let ticket := session.handles.length
    let (handle, selector) := member.selector.subscribe ⟨ticket, script⟩
    .over
      { session :=
          { session.setSelector target selector with handles := session.handles ++ [handle] }
        events := []
        reply := .ok (.ticket ticket) }
  | .unsubscribe target ticket => withMember target fun member =>
    match session.handles[ticket]? with
    | none => .over (session.unchanged (.error .noTicket))
    | some handle =>
      let (removed, selector) := member.selector.unsubscribe handle
      .over ((session.setSelector target selector).unchanged (.ok (.truth removed)))
  | .unreadable target cause => withMember target fun _ =>
    .over (session.unchanged (.error cause))
where
  /-- Goes on with a translator, if there is one of the number. -/
  withMember (target : Fin n) (next : Member n → Beginning n) : Beginning n :=
    match session.members[target.val]? with
    | some member => next member
    | none => .over (session.unchanged (.error .noTranslator))

/-- Carries out the rest of the script of an observer, from the step of the given
index on. -/
def act (perform : Session n → Step n → Outcome n) (ticket : Nat) :
    Nat → List (Step n) → Session n → Session n × List Event
  | _, [], session => (session, [])
  | index, step :: rest, session =>
    let outcome := perform session step
    let (session, events) := act perform ticket (index + 1) rest outcome.session
    (session, outcome.events ++ .acted ticket index outcome.reply :: events)

/-- Tells observers of a change, one after another. -/
def tell (perform : Session n → Step n → Outcome n) (target : Nat) (change : Change) :
    List (Observer n) → Session n → Session n × List Event
  | [], session => (session, [])
  | observer :: rest, session =>
    let (session, own) := act perform observer.ticket 0 observer.script session
    let (session, events) := tell perform target change rest session
    (session, .notified target observer.ticket change :: own ++ events)

/-- The round of a translator is over. -/
def settle (session : Session n) (target : Nat) : Session n :=
  { session with
    members := session.members.modify target fun member =>
      { member with selector := member.selector.settle } }

/-- Carries out a step in which rounds may nest `depth` deep. A translator beyond
that depth would be in a round already, so its change is refused as such. -/
def performWithin : Nat → Session n → Step n → Outcome n
  | 0, session, step =>
    match session.start step with
    | .over outcome => outcome
    | .round _ _ change _ =>
      session.unchanged (.error (.error (.reentrantSwitch change.current)))
  | depth + 1, session, step =>
    match session.start step with
    | .over outcome => outcome
    | .round session target change observers =>
      let (session, events) := tell (performWithin depth) target change observers session
      { session := session.settle target
        events := .switched target change :: events ++ [.settled target]
        reply := .ok .done }

/-- Carries out a step. -/
def perform (session : Session n) (step : Step n) : Outcome n :=
  performWithin n session step

/-- Carries out steps one after another; the answer has the reply and the events of
each. -/
def run : Session n → List (Step n) → Session n × List (Reply × List Event)
  | session, [] => (session, [])
  | session, step :: rest =>
    let outcome := session.perform step
    let (session, replies) := run outcome.session rest
    (session, (outcome.reply, outcome.events) :: replies)

end Session

end Phrasebook
