import Phrasebook.Catalogue.Search

/-! # Following an address

Looking at a tree name by name goes down its namespaces (`Phrasebook.Node.descend?`).
A look-up goes down a tree one step of an address at a time. What a step leads to is a matter of
the tree alone (`Phrasebook.Node.below?`), and so is what all steps of an address
lead to (`Phrasebook.Node.follow?`); the miss of a failed step never speaks of a
wrong shape (`Phrasebook.Node.step_of_below?_eq_none`). A look-up in one catalogue is
therefore decided by the node that is reached
(`Phrasebook.Catalogue.find_of_follow?_eq_some`), and a look-up in two editions has an
entry in exactly two ways (`Phrasebook.Edition.find_eq_ok_iff`).
-/

namespace Phrasebook

/-- The key of an indexed map that a step names. -/
def Address.Step.key : Address.Step → IndexedMap.Key
  | .name text => .name text
  | .position index => .position index

/-- The template one step below an entry. -/
def Entry.item? (entry : Entry) (step : Address.Step) : Option Template :=
  match entry, step with
  | .list items, .position index => items[index.toNat]?
  | .indexed map, step => map.get? step.key
  | _, _ => none

/-- Whether a look-up that misses goes on to the fallback. -/
def Miss.AllowsFallback : Miss → Prop
  | .misshapen _ _ => False
  | _ => True

namespace Node

/-- The node one step below a node. -/
def below? (node : Node) (step : Address.Step) : Option Node :=
  match node with
  | .branch children => Namespace.get? children step.text
  | .entry found => (found.item? step).map fun template => .entry (.scalar template)

/-- The node that a chain of names leads to. -/
def descend? : Node → List String → Option Node
  | node, [] => some node
  | .branch children, name :: names =>
    (Namespace.get? children name).bind fun child => child.descend? names
  | .entry _, _ :: _ => none

/-- The node that steps lead to. -/
def follow? (node : Node) (steps : List Address.Step) : Option Node :=
  steps.foldlM below? node

@[simp] theorem descend?_nil (node : Node) : node.descend? [] = some node := by
  cases node <;> rfl

@[simp] theorem descend?_branch_cons (children : Namespace) (name : String)
    (names : List String) : (Node.branch children).descend? (name :: names) =
      (children.get? name).bind fun child => child.descend? names := rfl

@[simp] theorem descend?_entry_cons (found : Entry) (name : String) (names : List String) :
    (Node.entry found).descend? (name :: names) = none := rfl

@[simp] theorem follow?_nil (node : Node) : node.follow? [] = some node := rfl

@[simp] theorem follow?_cons (node : Node) (step : Address.Step) (rest : List Address.Step) :
    node.follow? (step :: rest) = (node.below? step).bind fun next => next.follow? rest := rfl

theorem follow?_append (node : Node) (steps more : List Address.Step) :
    node.follow? (steps ++ more) = (node.follow? steps).bind fun next => next.follow? more :=
  List.foldlM_append ..

theorem step_of_below?_eq_some {node next : Node} {step : Address.Step}
    (found : node.below? step = some next) : node.step step = .ok next := by
  cases node with
  | branch children =>
    cases step <;> simp_all [below?, Node.step, child, Address.Step.text]
  | entry entry =>
    obtain ⟨template, held, rfl⟩ := Option.map_eq_some_iff.mp found
    cases entry <;> cases step <;>
      simp_all [Entry.item?, Node.step, Entry.element?, IndexedMap.named?_eq_get?,
        IndexedMap.atPosition?, Address.Step.key, Except.map]

/-- A step that leads nowhere misses, and its miss lets the look-up fall back. -/
theorem step_of_below?_eq_none {node : Node} {step : Address.Step}
    (absent : node.below? step = none) :
    ∃ miss, node.step step = .error miss ∧ miss.AllowsFallback := by
  cases node with
  | branch children =>
    refine ⟨.absent, ?_, trivial⟩
    cases step <;> simp_all [below?, Node.step, child, Address.Step.text]
  | entry entry =>
    have nothing : entry.item? step = none := Option.map_eq_none_iff.mp absent
    cases entry <;> cases step <;>
      simp_all [Entry.item?, Node.step, Entry.element?, IndexedMap.named?_eq_get?,
        IndexedMap.atPosition?, Address.Step.key, Except.map, Miss.AllowsFallback]

theorem foldlM_step_of_follow?_eq_some {node reached : Node} {steps : List Address.Step}
    (found : node.follow? steps = some reached) : steps.foldlM Node.step node = .ok reached := by
  induction steps generalizing node with
  | nil =>
    cases found
    rfl
  | cons step rest ih =>
    obtain ⟨next, first, later⟩ := Option.bind_eq_some_iff.mp found
    rw [List.foldlM_cons, step_of_below?_eq_some first]
    exact ih later

theorem foldlM_step_of_follow?_eq_none {node : Node} {steps : List Address.Step}
    (absent : node.follow? steps = none) :
    ∃ miss, steps.foldlM Node.step node = .error miss ∧ miss.AllowsFallback := by
  induction steps generalizing node with
  | nil => cases absent
  | cons step rest ih =>
    rw [List.foldlM_cons]
    cases first : node.below? step with
    | none =>
      obtain ⟨miss, failed, allows⟩ := step_of_below?_eq_none first
      exact ⟨miss, by rw [failed]; rfl, allows⟩
    | some next =>
      rw [step_of_below?_eq_some first]
      rw [follow?_cons, first] at absent
      exact ih absent

/-- A position of a list or an indexed map holds the template one step below. -/
theorem entryAt_some_of_item? (entry : Entry) (index : Position)
    (notScalar : entry.shape ≠ .scalar) :
    (Node.entry entry).entryAt (some index) = match entry.item? (.position index) with
      | some template => .ok (.scalar template)
      | none => .error (.outOfRange index) := by
  cases entry with
  | scalar template => exact absurd rfl notScalar
  | list items =>
    simp only [entryAt, Entry.element?, Entry.item?]
    cases items[index.toNat]? <;> rfl
  | indexed map =>
    simp only [entryAt, Entry.element?, Entry.item?, IndexedMap.atPosition?, Address.Step.key]
    cases map.get? (.position index) <;> rfl

end Node

namespace Catalogue

theorem node?_eq_descend? (catalogue : Catalogue) (names : List String) :
    catalogue.node? names = (Node.branch catalogue.root).descend? names := by
  rw [node?]
  generalize Node.branch catalogue.root = node
  induction names generalizing node with
  | nil => cases node <;> rfl
  | cons name names ih =>
    cases node with
    | branch children =>
      rw [List.foldlM_cons, Node.descend?]
      exact bind_congr ih
    | entry found => rfl

theorem find_of_follow?_eq_some {catalogue : Catalogue} {address : Address} {node : Node}
    (found : (Node.branch catalogue.root).follow? address.steps = some node)
    (index : Option Position) : catalogue.find address index = node.entryAt index := by
  rw [find, Node.foldlM_step_of_follow?_eq_some found]
  rfl

theorem find_of_follow?_eq_none {catalogue : Catalogue} {address : Address}
    (absent : (Node.branch catalogue.root).follow? address.steps = none)
    (index : Option Position) :
    ∃ miss, catalogue.find address index = .error miss ∧ miss.AllowsFallback := by
  obtain ⟨miss, failed, allows⟩ := Node.foldlM_step_of_follow?_eq_none absent
  exact ⟨miss, by rw [find, failed]; rfl, allows⟩

end Catalogue

/-- **The two ways to an entry.** A look-up in two editions has its entry from the
wanted one, or from the fallback where the wanted one misses without a wrong
shape. -/
theorem Edition.find_eq_ok_iff {wanted fallback : Edition} {address : Address}
    {index : Option Position} {finding : Finding} :
    wanted.find fallback address index = .ok finding ↔
      (wanted.catalogue.find address index = .ok finding.entry ∧
        finding.locale = wanted.locale ∧ finding.fellBack = false) ∨
      ((∃ miss, wanted.catalogue.find address index = .error miss ∧ miss.AllowsFallback) ∧
        wanted.locale ≠ fallback.locale ∧
        fallback.catalogue.find address index = .ok finding.entry ∧
        finding.locale = fallback.locale ∧ finding.fellBack = true) := by
  obtain ⟨entry, locale, fellBack⟩ := finding
  cases own : wanted.catalogue.find address index with
  | ok found =>
    simp only [find, own, Except.ok.injEq, Finding.mk.injEq]
    grind
  | error miss =>
    by_cases same : wanted.locale = fallback.locale
    · cases miss <;> simp [find, own, same]
    · cases other : fallback.catalogue.find address index <;> cases miss <;>
        simp [find, own, other, same, Miss.AllowsFallback] <;> grind

end Phrasebook
