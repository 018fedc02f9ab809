import Phrasebook.Proofs.Catalogue.Following
import Phrasebook.Proofs.Locale.Canonical
import Phrasebook.Proofs.Ordered

/-! # Overlays of catalogues

A catalogue that is laid over another one merges the two trees key by key: its own
templates win, and the other catalogue fills the keys and positions that it lacks
(`Phrasebook.Catalogue.overlay`). Where the two trees have the same shape at every
chain of keys that both have (`Phrasebook.Catalogue.Alike`), following an address in
the overlay merges what following it in each tree leads to
(`Phrasebook.Node.follow?_overlay`). So a look-up with a fallback finds a template
exactly where a look-up in the overlay alone does, and falls back exactly where the
wanted catalogue alone does not yield it (`Phrasebook.Edition.find_scalar_overlay`).
-/

namespace Phrasebook

/-- An entry laid over another one of its shape. A list is continued by the items of
the other behind its own length, an indexed map by the keys that it lacks. -/
def Entry.overlay (own other : Entry) : Entry :=
  match own, other with
  | .list own, .list other => .list (own ++ other.drop own.length)
  | .indexed own, .indexed other =>
    .indexed ⟨own.entries ++ other.entries.filter fun item => (own.get? item.1).isNone⟩
  | own, _ => own

namespace Node

mutual

/-- A node laid over another one. -/
def overlay : Node → Node → Node
  | .branch own, .branch other => .branch (overlayChildren own other)
  | .entry own, .entry other => .entry (own.overlay other)
  | own, _ => own

/-- A namespace laid over another one, key by key. -/
def overlayChildren : List (String × Node) → List (String × Node) → List (String × Node)
  | [], other => other
  | (name, node) :: rest, other =>
    let merged := match other.lookup name with
      | some below => overlay node below
      | none => node
    Ordered.insert Prod.fst (name, merged) (overlayChildren rest other)

end

end Node

/-- A catalogue laid over another one. -/
def Catalogue.overlay (own other : Catalogue) : Catalogue :=
  ⟨Node.overlayChildren own.root other.root⟩

namespace IndexedMap

theorem get?_append (own other : IndexedMap) (key : Key) :
    get? ⟨own.entries ++ other.entries.filter fun item => (own.get? item.1).isNone⟩ key =
      (own.get? key).or (other.get? key) := by
  rw [get?, List.lookup_append]
  cases held : own.get? key with
  | some template =>
    rw [show own.entries.lookup key = some template from held]
    rfl
  | none =>
    rw [show own.entries.lookup key = none from held,
      Ordered.lookup_filter_of_kept (fun key => (own.get? key).isNone) (by rw [held]; rfl)]
    rfl

end IndexedMap

theorem getElem?_append_drop {α : Type} (own other : List α) (index : Nat) :
    (own ++ other.drop own.length)[index]? = own[index]?.or other[index]? := by
  by_cases inside : index < own.length
  · rw [List.getElem?_append_left inside, List.getElem?_eq_getElem inside]
    rfl
  · have outside : own.length ≤ index := Nat.le_of_not_lt inside
    rw [List.getElem?_append_right outside, List.getElem?_drop, List.getElem?_eq_none outside]
    simp [Nat.add_sub_cancel' outside]

namespace Entry

theorem shape_overlay (own other : Entry) : (own.overlay other).shape = own.shape := by
  cases own <;> cases other <;> rfl

theorem overlay_of_scalar {own other : Entry} (scalar : own.shape = .scalar) :
    own.overlay other = own := by
  cases own <;> cases other <;> first | rfl | cases scalar

theorem item?_overlay {own other : Entry} (alike : own.shape = other.shape)
    (step : Address.Step) :
    (own.overlay other).item? step = (own.item? step).or (other.item? step) := by
  cases own <;> cases other <;> try cases alike
  · rfl
  · cases step with
    | name text => rfl
    | position index => exact getElem?_append_drop _ _ _
  · exact IndexedMap.get?_append _ _ _

end Entry

namespace Node

/-- Two nodes have one shape at every chain of names that both have. -/
def Alike (own other : Node) : Prop :=
  ∀ names first second, own.descend? names = some first → other.descend? names = some second →
    first.shape = second.shape

namespace Alike

theorem shape {own other : Node} (alike : own.Alike other) : own.shape = other.shape :=
  alike [] own other (by simp [descend?]) (by simp [descend?])

theorem child {own other : Namespace} (alike : (Node.branch own).Alike (.branch other))
    {name : String} {first second : Node} (ownChild : own.get? name = some first)
    (otherChild : other.get? name = some second) : first.Alike second := by
  intro names below belowOther reached reachedOther
  refine alike (name :: names) below belowOther ?_ ?_
  · rw [descend?, ownChild]
    exact reached
  · rw [descend?, otherChild]
    exact reachedOther

theorem scalars (first second : Template) :
    (Node.entry (.scalar first)).Alike (.entry (.scalar second)) := by
  intro names below belowOther reached reachedOther
  cases names with
  | nil =>
    cases reached
    cases reachedOther
    rfl
  | cons name names => cases reached

end Alike

theorem get?_overlayChildren (own other : Namespace) (name : String) :
    Namespace.get? (overlayChildren own other) name =
      Option.merge overlay (own.get? name) (other.get? name) := by
  induction own with
  | nil => cases found : other.get? name <;> simpa [overlayChildren, Namespace.get?] using found
  | cons head rest ih =>
    obtain ⟨key, node⟩ := head
    simp only [overlayChildren, Namespace.get?] at ih ⊢
    by_cases same : name = key
    · subst same
      rw [Ordered.lookup_insert_self, List.lookup_cons_self]
      cases other.lookup name <;> rfl
    · rw [Ordered.lookup_insert_of_ne same, List.lookup_cons, beq_false_of_ne same]
      exact ih

theorem below?_overlay {own other : Node} (alike : own.Alike other) (step : Address.Step) :
    (own.overlay other).below? step =
      Option.merge overlay (own.below? step) (other.below? step) := by
  have shapes := alike.shape
  cases own with
  | branch own =>
    cases other with
    | branch other =>
      rw [overlay]
      exact get?_overlayChildren own other step.text
    | entry other => cases other <;> cases shapes
  | entry own =>
    cases other with
    | branch other => cases own <;> cases shapes
    | entry other =>
      simp only [overlay, below?, Entry.item?_overlay (show own.shape = other.shape from shapes)]
      cases own.item? step <;> cases other.item? step <;> rfl

theorem Alike.below {own other first second : Node} (alike : own.Alike other)
    {step : Address.Step} (ownStep : own.below? step = some first)
    (otherStep : other.below? step = some second) : first.Alike second := by
  have shapes := alike.shape
  cases own with
  | branch own =>
    cases other with
    | branch other => exact alike.child ownStep otherStep
    | entry other => cases other <;> cases shapes
  | entry own =>
    cases other with
    | branch other => cases own <;> cases shapes
    | entry other =>
      obtain ⟨_, _, rfl⟩ := Option.map_eq_some_iff.mp ownStep
      obtain ⟨_, _, rfl⟩ := Option.map_eq_some_iff.mp otherStep
      exact .scalars _ _

/-- **Following an address in an overlay.** The induction is on the address: the two
trees are alike at the root, and each step keeps them alike while both go on. -/
theorem follow?_overlay {own other : Node} (alike : own.Alike other)
    (steps : List Address.Step) :
    (own.overlay other).follow? steps =
      Option.merge overlay (own.follow? steps) (other.follow? steps) := by
  induction steps generalizing own other with
  | nil => rfl
  | cons step rest ih =>
    rw [follow?_cons, follow?_cons, follow?_cons, below?_overlay alike step]
    cases ownStep : own.below? step with
    | none => simp
    | some first =>
      cases otherStep : other.below? step with
      | none => simp
      | some second => exact ih (alike.below ownStep otherStep)

theorem Alike.follow {own other first second : Node} (alike : own.Alike other)
    {steps : List Address.Step} (ownSteps : own.follow? steps = some first)
    (otherSteps : other.follow? steps = some second) : first.Alike second := by
  induction steps generalizing own other with
  | nil =>
    cases ownSteps
    cases otherSteps
    exact alike
  | cons step rest ih =>
    obtain ⟨_, ownStep, ownRest⟩ := Option.bind_eq_some_iff.mp ownSteps
    obtain ⟨_, otherStep, otherRest⟩ := Option.bind_eq_some_iff.mp otherSteps
    exact ih (alike.below ownStep otherStep) ownRest otherRest

/-- At an overlay of two nodes of one shape stands the template of the first, or
that of the second where the first has none and allows a fallback. -/
theorem entryAt_overlay {own other : Node} (alike : own.Alike other) (index : Option Position)
    (template : Template) :
    (own.overlay other).entryAt index = .ok (.scalar template) ↔
      own.entryAt index = .ok (.scalar template) ∨
        (∃ miss, own.entryAt index = .error miss ∧ miss.AllowsFallback) ∧
          other.entryAt index = .ok (.scalar template) := by
  have shapes := alike.shape
  cases own with
  | branch own =>
    cases other with
    | branch other => cases index <;> simp [overlay, entryAt, Miss.AllowsFallback]
    | entry other => cases other <;> cases shapes
  | entry own =>
    cases other with
    | branch other => cases own <;> cases shapes
    | entry other =>
      replace shapes : own.shape = other.shape := shapes
      rw [overlay]
      cases index with
      | none =>
        have kept : own.overlay other = .scalar template ↔ own = .scalar template := by
          cases own <;> cases other <;> simp_all [Entry.overlay, Entry.shape]
        simpa [entryAt] using kept
      | some index =>
        by_cases scalar : own.shape = .scalar
        · rw [Entry.overlay_of_scalar scalar]
          cases own with
          | scalar own => simp [entryAt, Entry.element?, Miss.AllowsFallback]
          | list items => cases scalar
          | indexed map => cases scalar
        · rw [entryAt_some_of_item? _ _ (by rw [Entry.shape_overlay]; exact scalar),
            entryAt_some_of_item? _ _ scalar, entryAt_some_of_item? _ _ (shapes ▸ scalar),
            Entry.item?_overlay shapes]
          cases own.item? (.position index) <;> cases other.item? (.position index) <;>
            simp [Miss.AllowsFallback]

end Node

namespace Catalogue

/-- Two catalogues have one shape at every chain of keys that both have: both have a
namespace there, or entries of one kind. -/
def Alike (own other : Catalogue) : Prop :=
  ∀ names first second, own.node? names = some first → other.node? names = some second →
    first.shape = second.shape

theorem Alike.roots {own other : Catalogue} (alike : own.Alike other) :
    (Node.branch own.root).Alike (.branch other.root) := by
  intro names first second reached reachedOther
  exact alike names first second (own.node?_eq_descend? names ▸ reached)
    (other.node?_eq_descend? names ▸ reachedOther)

/-- A template stands in an overlay where it stands in the first catalogue, or where
the first misses, without a wrong shape, and it stands in the second. -/
theorem find_overlay {own other : Catalogue} (alike : own.Alike other) (address : Address)
    (index : Option Position) (template : Template) :
    (own.overlay other).find address index = .ok (.scalar template) ↔
      own.find address index = .ok (.scalar template) ∨
        (∃ miss, own.find address index = .error miss ∧ miss.AllowsFallback) ∧
          other.find address index = .ok (.scalar template) := by
  have merged : (Node.branch (own.overlay other).root).follow? address.steps =
      Option.merge Node.overlay ((Node.branch own.root).follow? address.steps)
        ((Node.branch other.root).follow? address.steps) := by
    rw [← Node.follow?_overlay alike.roots, Node.overlay]
    rfl
  cases ownReach : (Node.branch own.root).follow? address.steps with
  | none =>
    obtain ⟨miss, missed, allows⟩ := find_of_follow?_eq_none ownReach index
    cases otherReach : (Node.branch other.root).follow? address.steps with
    | none =>
      obtain ⟨_, missedOther, _⟩ := find_of_follow?_eq_none otherReach index
      obtain ⟨_, missedMerged, _⟩ := find_of_follow?_eq_none
        (merged.trans (by rw [ownReach, otherReach]; rfl)) index
      simp [missed, missedOther, missedMerged]
    | some second =>
      rw [find_of_follow?_eq_some (merged.trans (by rw [ownReach, otherReach]; rfl)),
        find_of_follow?_eq_some otherReach, missed]
      simp [allows]
  | some first =>
    cases otherReach : (Node.branch other.root).follow? address.steps with
    | none =>
      obtain ⟨_, missedOther, _⟩ := find_of_follow?_eq_none otherReach index
      rw [find_of_follow?_eq_some (merged.trans (by rw [ownReach, otherReach]; rfl)),
        find_of_follow?_eq_some ownReach, missedOther]
      simp
    | some second =>
      rw [find_of_follow?_eq_some (merged.trans (by rw [ownReach, otherReach]; rfl)),
        find_of_follow?_eq_some ownReach, find_of_follow?_eq_some otherReach]
      exact Node.entryAt_overlay (alike.roots.follow ownReach otherReach) index template

end Catalogue

/-- **Fallback works template by template.** For two catalogues that are alike, a
look-up with a fallback finds a template exactly where the overlay alone has it. The
template is the fallback's exactly when the wanted catalogue alone does not yield
it. -/
theorem Edition.find_scalar_overlay {own other : Catalogue} (alike : own.Alike other)
    {wanted fallback : Locale} (different : wanted ≠ fallback) (address : Address)
    (index : Option Position) (template : Template) :
    ((∃ finding, Edition.find ⟨wanted, own⟩ ⟨fallback, other⟩ address index = .ok finding ∧
        finding.entry = .scalar template) ↔
      (own.overlay other).find address index = .ok (.scalar template)) ∧
    ∀ finding, Edition.find ⟨wanted, own⟩ ⟨fallback, other⟩ address index = .ok finding →
      finding.entry = .scalar template →
      (finding.fellBack = true ↔ own.find address index ≠ .ok (.scalar template)) ∧
        finding.locale = if finding.fellBack then fallback else wanted := by
  constructor
  · rw [Catalogue.find_overlay alike]
    constructor
    · rintro ⟨finding, found, scalar⟩
      rcases Edition.find_eq_ok_iff.mp found with ⟨here, _, _⟩ | ⟨missed, _, there, _, _⟩
      · exact .inl (scalar ▸ here)
      · exact .inr ⟨missed, scalar ▸ there⟩
    · rintro (here | ⟨missed, there⟩)
      · exact ⟨⟨.scalar template, wanted, false⟩,
          Edition.find_eq_ok_iff.mpr (.inl ⟨here, rfl, rfl⟩), rfl⟩
      · exact ⟨⟨.scalar template, fallback, true⟩,
          Edition.find_eq_ok_iff.mpr (.inr ⟨missed, different, there, rfl, rfl⟩), rfl⟩
  · intro finding found scalar
    rcases Edition.find_eq_ok_iff.mp found with
      ⟨here, locale, fellBack⟩ | ⟨⟨miss, missed, _⟩, _, _, locale, fellBack⟩
    · rw [fellBack, locale, ← scalar]
      simpa using here
    · rw [fellBack, locale]
      simp [missed]

/-- The second message of a list of indexed messages comes from the fallback. -/
theorem Edition.find_scalar_overlay_second_message :
    let own : Catalogue := ⟨[("messages", .entry (.indexed ⟨[(.position 0, ⟨"uno"⟩)]⟩))]⟩
    let other : Catalogue :=
      ⟨[("messages", .entry (.indexed ⟨[(.position 0, ⟨"one"⟩), (.position 1, ⟨"two"⟩)]⟩))]⟩
    let address : Address := ⟨"messages[1]", [.name "messages", .position 1]⟩
    own.Alike other ∧ Locale.german ≠ .english ∧
      ((∃ finding, Edition.find ⟨.german, own⟩ ⟨.english, other⟩ address none = .ok finding ∧
          finding.entry = .scalar ⟨"two"⟩) ↔
        (own.overlay other).find address none = .ok (.scalar ⟨"two"⟩)) ∧
      (own.overlay other).find address none = .ok (.scalar ⟨"two"⟩) := by
  intro own other address
  have alike : own.Alike other := by
    intro names first second reached reachedOther
    rw [Catalogue.node?_eq_descend?] at reached reachedOther
    rcases names with _ | ⟨name, _ | ⟨next, names⟩⟩
    · cases reached
      cases reachedOther
      rfl
    · by_cases same : name = "messages"
      · subst same
        cases reached
        cases reachedOther
        rfl
      · simp [Node.descend?, Namespace.get?, own, List.lookup_cons, beq_false_of_ne same] at reached
    · by_cases same : name = "messages"
      · subst same
        cases reached
      · simp [Node.descend?, Namespace.get?, own, List.lookup_cons, beq_false_of_ne same] at reached
  have merged : own.overlay other = ⟨[("messages",
      .entry (.indexed ⟨[(.position 0, ⟨"uno"⟩), (.position 1, ⟨"two"⟩)]⟩))]⟩ := by decide
  refine ⟨alike, Locale.german_ne_english,
    (Edition.find_scalar_overlay alike Locale.german_ne_english address none ⟨"two"⟩).1, ?_⟩
  rw [merged]
  rfl

end Phrasebook
