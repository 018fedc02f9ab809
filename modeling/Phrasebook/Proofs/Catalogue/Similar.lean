import Mathlib.Data.List.Zip
import Phrasebook.Proofs.Catalogue.Listing
import Phrasebook.Proofs.Registry.Growth

/-! # Similar catalogues

Two catalogues may differ only in the order in which indexed maps keep their entries
(`Phrasebook.Catalogue.Similar`). They list the same paths, every look-up misses in both alike or
finds similar entries (`Phrasebook.Catalogue.Similar.find`), and so do look-ups in registries
that hold similar catalogues (`Phrasebook.Registry.Similar.find`). As the keys of an indexed map
are different, the templates under a key and the templates at positions are the same
(`Phrasebook.IndexedMap.Reordered.get?_eq`, `Phrasebook.IndexedMap.Reordered.positional_eq`).
-/

namespace Phrasebook

/-- Two computations fail alike, or have related results. -/
inductive Outcome.Agree {ε α β : Type} (related : α → β → Prop) : Except ε α → Except ε β → Prop
  | ok {result : α} {other : β} (pair : related result other) :
      Agree related (.ok result) (.ok other)
  | error (cause : ε) : Agree related (.error cause) (.error cause)

namespace Outcome.Agree

variable {ε α β γ δ : Type} {related : α → β → Prop} {next : γ → δ → Prop}
  {first : Except ε α} {second : Except ε β}

theorem bind (agree : Agree related first second) {further : α → Except ε γ}
    {otherFurther : β → Except ε δ}
    (each : ∀ result other, related result other →
      Agree next (further result) (otherFurther other)) :
    Agree next (first >>= further) (second >>= otherFurther) := by
  cases agree with
  | ok pair => exact each _ _ pair
  | error cause => exact .error cause

theorem exists_of_ok (agree : Agree related first second) {result : α}
    (done : first = .ok result) : ∃ other, second = .ok other ∧ related result other := by
  subst done
  cases agree with
  | ok pair => exact ⟨_, rfl, pair⟩

theorem eq_error_iff (agree : Agree related first second) {cause : ε} :
    first = .error cause ↔ second = .error cause := by
  cases agree with
  | ok pair => simp
  | error other => simp

theorem of_eq {first second : Except ε α} {related : α → α → Prop}
    (refl : ∀ result, related result result) (same : first = second) :
    Agree related first second := by
  subst same
  cases first with
  | ok result => exact .ok (refl result)
  | error cause => exact .error cause

end Outcome.Agree

/-- The same templates under the same keys, each key once, possibly in another order. -/
structure IndexedMap.Reordered (map other : IndexedMap) : Prop where
  distinct : (map.entries.map Prod.fst).Nodup
  order : map.entries.Perm other.entries

theorem IndexedMap.mem_positional_iff {map : IndexedMap} {slot : Position × Template} :
    slot ∈ map.positional ↔ (.position slot.1, slot.2) ∈ map.entries := by
  rw [positional, List.mem_mergeSort, List.mem_filterMap]
  constructor
  · rintro ⟨⟨key, template⟩, here, same⟩
    cases key with
    | name text => cases same
    | position index =>
      cases same
      exact here
  · exact fun here => ⟨_, here, rfl⟩

theorem IndexedMap.pairwise_positional (map : IndexedMap) :
    map.positional.Pairwise fun first second => first.1 ≤ second.1 := by
  have total (first second : Position × Template) :
      (decide (first.1 ≤ second.1) || decide (second.1 ≤ first.1)) = true := by
    simpa using UInt64.le_total first.1 second.1
  have trans (first second third : Position × Template) :
      decide (first.1 ≤ second.1) = true → decide (second.1 ≤ third.1) = true →
        decide (first.1 ≤ third.1) = true := by
    simpa using UInt64.le_trans
  exact (List.pairwise_mergeSort trans total _).imp of_decide_eq_true

namespace IndexedMap.Reordered

variable {map other : IndexedMap} (reordered : map.Reordered other)
include reordered

theorem symm : other.Reordered map where
  distinct := (reordered.order.map Prod.fst).nodup_iff.mp reordered.distinct
  order := reordered.order.symm

theorem get?_eq (key : Key) : map.get? key = other.get? key := by
  have distinct := reordered.symm.distinct
  refine Option.ext fun template => ?_
  rw [get?, get?, Ordered.lookup_eq_some_iff_mem reordered.distinct,
    Ordered.lookup_eq_some_iff_mem distinct, reordered.order.mem_iff]

theorem positional_eq : map.positional = other.positional := by
  have moved : map.positional.Perm other.positional :=
    ((List.mergeSort_perm _ _).trans (reordered.order.filterMap _)).trans
      (List.mergeSort_perm _ _).symm
  refine List.Perm.eq_of_pairwise ?_ map.pairwise_positional other.pairwise_positional moved
  intro first second here there less greater
  -- the positions of a map are different, so slots at the same position are the same
  have same : first.1 = second.1 := UInt64.le_antisymm less greater
  have own := IndexedMap.mem_positional_iff.mp here
  have others := reordered.order.mem_iff.mpr (IndexedMap.mem_positional_iff.mp there)
  rw [← same] at others
  have found := (Ordered.lookup_eq_some_iff_mem reordered.distinct).mpr own
  have foundOther := (Ordered.lookup_eq_some_iff_mem reordered.distinct).mpr others
  exact Prod.ext same (Option.some.inj (found.symm.trans foundOther))

end IndexedMap.Reordered

/-- Two entries are the same but for the order of an indexed map. -/
inductive Entry.Similar : Entry → Entry → Prop
  | same (entry : Entry) : Similar entry entry
  | indexed {map other : IndexedMap} (reordered : map.Reordered other) :
      Similar (.indexed map) (.indexed other)

/-- Two trees are the same but for the order of indexed maps. -/
inductive Node.Similar : Node → Node → Prop
  | entry {found other : Entry} (similar : found.Similar other) :
      Similar (.entry found) (.entry other)
  | branch {children others : Namespace} (names : children.map Prod.fst = others.map Prod.fst)
      (nodes : ∀ pair ∈ children.zip others, Similar pair.1.2 pair.2.2) :
      Similar (.branch children) (.branch others)

/-- Two catalogues are the same but for the order of indexed maps. -/
def Catalogue.Similar (first second : Catalogue) : Prop :=
  (Node.branch first.root).Similar (.branch second.root)

/-- What two look-ups find is the same but for the order of an indexed map. -/
structure Finding.Similar (first second : Finding) : Prop where
  entry : first.entry.Similar second.entry
  locale : first.locale = second.locale
  fellBack : first.fellBack = second.fellBack

open Outcome (Agree)

namespace Entry.Similar

variable {found other : Entry} (similar : found.Similar other)
include similar

theorem symm : other.Similar found := by
  cases similar with
  | same => exact .same _
  | indexed reordered => exact .indexed reordered.symm

/-- Only indexed maps may differ. -/
theorem eq_of_shape (plain : found.shape ≠ .indexedMap) : other = found := by
  cases similar with
  | same entry => rfl
  | indexed reordered => exact absurd rfl plain

theorem shape_eq : found.shape = other.shape := by
  cases similar <;> rfl

theorem element?_eq (index : Position) : found.element? index = other.element? index := by
  cases similar with
  | same entry => rfl
  | indexed reordered =>
    simp only [element?, IndexedMap.atPosition?, reordered.get?_eq]

theorem perm_coveragePaths (place : String) :
    (found.coveragePaths place).Perm (other.coveragePaths place) := by
  cases similar with
  | same entry => exact .refl _
  | indexed reordered => exact reordered.order.map _

end Entry.Similar

namespace Node

mutual

theorem Similar.refl (node : Node) : node.Similar node := by
  cases node with
  | entry found => exact .entry (.same found)
  | branch children => exact .branch rfl (Similar.refl_children children)

theorem Similar.refl_children (children : List (String × Node)) :
    ∀ pair ∈ children.zip children, pair.1.2.Similar pair.2.2 := by
  cases children with
  | nil => exact nofun
  | cons child rest =>
    obtain ⟨name, node⟩ := child
    exact List.forall_mem_cons.mpr ⟨Similar.refl node, Similar.refl_children rest⟩

end

theorem Similar.symm {node other : Node} (similar : node.Similar other) : other.Similar node := by
  induction similar with
  | entry similar => exact .entry similar.symm
  | branch names _ ih =>
    refine .branch names.symm fun pair listed => ?_
    rw [← List.zip_swap] at listed
    obtain ⟨swapped, here, rfl⟩ := List.mem_map.mp listed
    exact ih swapped here

/-- Under each name similar namespaces have similar children, or neither has one. -/
theorem Similar.get? {children others : Namespace}
    (similar : (Node.branch children).Similar (.branch others)) (name : String) :
    Option.Rel Similar (children.get? name) (others.get? name) := by
  cases similar with
  | branch names nodes => exact Related.lookup ((Related.keyed_iff Similar).mpr ⟨names, nodes⟩) name

theorem Similar.child {children others : Namespace}
    (similar : (Node.branch children).Similar (.branch others)) (name : String) :
    Agree Similar (child children name) (child others name) := by
  have pair := similar.get? name
  unfold Node.child
  generalize children.get? name = own at pair ⊢
  generalize others.get? name = other at pair ⊢
  cases pair with
  | some pair => exact .ok pair
  | none => exact .error Miss.absent

theorem Similar.step {node other : Node} (similar : node.Similar other) (step : Address.Step) :
    Agree Similar (node.step step) (other.step step) := by
  cases similar with
  | branch names nodes =>
    have similar := Similar.branch names nodes
    cases step with
    | name name => exact similar.child name
    | position index => exact similar.child index.numeral
  | @entry found other similar =>
    have same : (Node.entry found).step step = (Node.entry other).step step := by
      cases similar with
      | same entry => rfl
      | indexed reordered =>
        cases step <;>
          simp only [Node.step, Entry.element?, IndexedMap.named?_eq_get?, IndexedMap.atPosition?,
            reordered.get?_eq]
    exact .of_eq Similar.refl same

theorem Similar.entryAt {node other : Node} (similar : node.Similar other)
    (index : Option Position) :
    Agree Entry.Similar (node.entryAt index) (other.entryAt index) := by
  cases similar with
  | branch names nodes =>
    cases index <;> exact .error _
  | entry similar =>
    cases index with
    | none => exact .ok similar
    | some index =>
      unfold Node.entryAt
      dsimp only
      rw [similar.element?_eq, similar.shape_eq]
      exact .of_eq .same rfl

theorem Similar.foldlM_step {node other : Node} (similar : node.Similar other)
    (steps : List Address.Step) :
    Agree Similar (steps.foldlM Node.step node) (steps.foldlM Node.step other) := by
  induction steps generalizing node other with
  | nil => exact .ok similar
  | cons step rest ih =>
    rw [List.foldlM_cons, List.foldlM_cons]
    exact (similar.step step).bind fun _ _ similar => ih similar

theorem entryPathsBelow_eq {children others : Namespace}
    (pairs : List.Forall₂ (fun child other => child.1 = other.1 ∧
      ∀ place, child.2.entryPaths place = other.2.entryPaths place) children others)
    (place : String) : entryPathsBelow place children = entryPathsBelow place others := by
  induction pairs with
  | nil => rfl
  | cons pair _ ih =>
    obtain ⟨name, same⟩ := pair
    rw [entryPathsBelow, entryPathsBelow, name, same, ih]

theorem perm_coveragePathsBelow {children others : Namespace}
    (pairs : List.Forall₂ (fun child other => child.1 = other.1 ∧
      ∀ place, (child.2.coveragePaths place).Perm (other.2.coveragePaths place)) children others)
    (place : String) :
    (coveragePathsBelow place children).Perm (coveragePathsBelow place others) := by
  induction pairs with
  | nil => exact .refl _
  | cons pair _ ih =>
    obtain ⟨name, order⟩ := pair
    rw [coveragePathsBelow, coveragePathsBelow, name]
    exact (order _).append ih

namespace Similar

theorem entryPaths_eq {node other : Node} (similar : node.Similar other) (place : String) :
    node.entryPaths place = other.entryPaths place := by
  induction similar generalizing place with
  | entry similar => rw [entryPaths, entryPaths]
  | branch names _ ih =>
    rw [entryPaths, entryPaths]
    exact entryPathsBelow_eq ((Related.keyed_iff fun node other : Node =>
      ∀ place, node.entryPaths place = other.entryPaths place).mpr ⟨names, ih⟩) place

theorem perm_coveragePaths {node other : Node} (similar : node.Similar other) (place : String) :
    (node.coveragePaths place).Perm (other.coveragePaths place) := by
  induction similar generalizing place with
  | entry similar =>
    rw [coveragePaths, coveragePaths]
    exact similar.perm_coveragePaths place
  | branch names _ ih =>
    rw [coveragePaths, coveragePaths]
    exact perm_coveragePathsBelow ((Related.keyed_iff fun node other : Node =>
      ∀ place, (node.coveragePaths place).Perm (other.coveragePaths place)).mpr ⟨names, ih⟩) place

/-- A chain of names leads to similar nodes, or nowhere in both trees. -/
theorem descend? {node other : Node} (similar : node.Similar other) (names : List String) :
    Option.Rel Similar (node.descend? names) (other.descend? names) := by
  induction names generalizing node other with
  | nil =>
    rw [descend?_nil, descend?_nil]
    exact .some similar
  | cons name rest ih =>
    cases similar with
    | entry similar => exact .none
    | @branch children others names nodes =>
      have pair := Similar.get? (.branch names nodes) name
      rw [descend?_branch_cons, descend?_branch_cons]
      generalize Namespace.get? children name = own at pair ⊢
      generalize Namespace.get? others name = other at pair ⊢
      cases pair with
      | some similar => exact ih similar
      | none => exact .none

end Similar

end Node

namespace Catalogue.Similar

variable {first second : Catalogue} (similar : first.Similar second)
include similar

/-- **Look-ups in similar catalogues** miss alike or find similar entries. -/
theorem find (address : Address) (index : Option Position) :
    Agree Entry.Similar (first.find address index) (second.find address index) :=
  (Node.Similar.foldlM_step similar address.steps).bind fun _ _ similar => similar.entryAt index

theorem entryPaths_eq : first.entryPaths = second.entryPaths := by
  have paths := Node.Similar.entryPaths_eq similar ""
  rwa [Node.entryPaths, Node.entryPaths] at paths

theorem coveragePaths_eq : first.coveragePaths = second.coveragePaths := by
  have paths := Node.Similar.perm_coveragePaths similar ""
  rw [Node.coveragePaths, Node.coveragePaths] at paths
  exact Ordered.ofList_id_eq fun path => paths.mem_iff

theorem symm : second.Similar first := Node.Similar.symm similar

/-- A chain of names that leads to an entry leads to a similar entry. -/
theorem exists_entry {names : List String} {found : Entry}
    (reached : first.node? names = some (.entry found)) :
    ∃ other, second.node? names = some (.entry other) ∧ found.Similar other := by
  have pair := Node.Similar.descend? similar names
  rw [node?_eq_descend?] at reached ⊢
  rw [reached] at pair
  generalize (Node.branch second.root).descend? names = reachedOther at pair ⊢
  cases pair with
  | some pair =>
    cases pair with
    | entry similar => exact ⟨_, rfl, similar⟩

end Catalogue.Similar

theorem Catalogue.Similar.refl (catalogue : Catalogue) : catalogue.Similar catalogue :=
  Node.Similar.refl _

/-- **Look-ups with a fallback** in similar editions fail alike or find similar entries. -/
theorem Edition.find_similar {own other below otherBelow : Catalogue} (similar : own.Similar other)
    (similarBelow : below.Similar otherBelow) (wanted fallback : Locale) (address : Address)
    (index : Option Position) :
    Agree Finding.Similar (Edition.find ⟨wanted, own⟩ ⟨fallback, below⟩ address index)
      (Edition.find ⟨wanted, other⟩ ⟨fallback, otherBelow⟩ address index) := by
  have here := similar.find address index
  have there := similarBelow.find address index
  unfold find
  dsimp only
  generalize own.find address index = found at here ⊢
  generalize other.find address index = foundOther at here ⊢
  generalize below.find address index = foundBelow at there ⊢
  generalize otherBelow.find address index = foundOtherBelow at there ⊢
  cases here with
  | ok pair => exact .ok ⟨pair, rfl, rfl⟩
  | error miss =>
    by_cases same : wanted = fallback
    · simp only [if_pos same]
      cases miss <;> exact .error _
    · simp only [if_neg same]
      cases there with
      | ok pair =>
        cases miss with
        | absent => exact .ok ⟨pair, rfl, rfl⟩
        | outOfRange index => exact .ok ⟨pair, rfl, rfl⟩
        | misshapen expected found => exact .error _
      | error second => cases miss <;> exact .error _

/-- Two registries have the same fallback and similar catalogues under the same locales. -/
structure Registry.Similar (first second : Registry) : Prop where
  fallback : first.fallback = second.fallback
  catalogues : ∀ locale, Option.Rel Catalogue.Similar (first.get? locale) (second.get? locale)

namespace Registry

variable {first second : Registry}

theorem similar_register (registry : Registry) (locale : Locale) {own other : Catalogue}
    (similar : own.Similar other) :
    (registry.register locale own).Similar (registry.register locale other) where
  fallback := rfl
  catalogues := by
    intro wanted
    by_cases same : wanted = locale
    · subst same
      rw [get?_register_self, get?_register_self]
      exact .some similar
    · rw [get?_register_of_ne registry same, get?_register_of_ne registry same]
      cases registry.get? wanted with
      | none => exact .none
      | some catalogue => exact .some (.refl catalogue)

theorem Similar.get (similar : first.Similar second) (locale : Locale) :
    Agree Catalogue.Similar (first.get locale) (second.get locale) := by
  have pair := similar.catalogues locale
  unfold Registry.get
  generalize first.get? locale = own at pair ⊢
  generalize second.get? locale = other at pair ⊢
  cases pair with
  | some pair => exact .ok pair
  | none => exact .error _

/-- **Look-ups in similar registries** fail alike or find similar entries. -/
theorem Similar.find (similar : first.Similar second) (wanted : Locale) (address : Address)
    (index : Option Position) :
    Agree Finding.Similar (first.find wanted address index) (second.find wanted address index) := by
  unfold Registry.find Registry.editions
  rw [similar.fallback]
  cases second.fallback with
  | none => exact .error _
  | some fallback =>
    simp only [bind_assoc, pure_bind]
    refine (similar.get fallback).bind fun _ _ fallbackPair => ?_
    refine (similar.get wanted).bind fun _ _ pair => ?_
    exact Edition.find_similar pair fallbackPair wanted fallback address index

end Registry

end Phrasebook
