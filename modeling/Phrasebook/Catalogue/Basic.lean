import Phrasebook.Address
import Phrasebook.Entry
import Phrasebook.Ordered

/-! # Catalogues

The catalogue of a locale is a tree: its inner nodes are namespaces, whose
children stand in increasing order of their names, and its leaves are entries
(`Phrasebook.Catalogue`). The dotted paths of its entries list the leaves from left
to right (`Phrasebook.Catalogue.entryPaths`). Comparing two trees decides whether they
are equal (`Phrasebook.Catalogue.same_iff_eq`).
-/

namespace Phrasebook

/-- A place in a catalogue: an entry, or a namespace with named children. -/
inductive Node
  | entry (entry : Entry)
  | branch (children : List (String × Node))

/-- The children of a namespace, in increasing order of their names. -/
abbrev Namespace := List (String × Node)

/-- The entries of one locale below their root namespace. -/
structure Catalogue where
  root : Namespace

namespace Node

mutual

/-- Whether two nodes are the same tree. -/
def same : Node → Node → Bool
  | .entry first, .entry second => first == second
  | .branch first, .branch second => sameChildren first second
  | _, _ => false

/-- Whether two namespaces have the same children. -/
def sameChildren : List (String × Node) → List (String × Node) → Bool
  | [], [] => true
  | (name, first) :: rest, (other, second) :: others =>
    name == other && same first second && sameChildren rest others
  | _, _ => false

end

mutual

theorem same_iff_eq (first second : Node) : first.same second = true ↔ first = second := by
  cases first with
  | entry first => cases second <;> simp [same]
  | branch first =>
    cases second with
    | entry second => simp [same]
    | branch second => rw [same, sameChildren_iff_eq, Node.branch.injEq]

theorem sameChildren_iff_eq (first second : List (String × Node)) :
    sameChildren first second = true ↔ first = second := by
  cases first with
  | nil => cases second <;> simp [sameChildren]
  | cons head rest =>
    obtain ⟨name, node⟩ := head
    cases second with
    | nil => simp [sameChildren]
    | cons other others =>
      obtain ⟨other, otherNode⟩ := other
      simp only [sameChildren, Bool.and_eq_true, beq_iff_eq, same_iff_eq node otherNode,
        sameChildren_iff_eq rest others, List.cons.injEq, Prod.mk.injEq]

end

mutual

/-- The dotted paths of the entries at and below a place. -/
def entryPaths (place : String) : Node → List String
  | .entry _ => [place]
  | .branch children => entryPathsBelow place children

/-- The dotted paths of the entries below a namespace. -/
def entryPathsBelow (place : String) : List (String × Node) → List String
  | [] => []
  | (name, node) :: rest =>
    entryPaths (Address.under place name) node ++ entryPathsBelow place rest

end

/-- The shape that is found at a node. -/
def shape : Node → Shape
  | .entry found => found.shape
  | .branch _ => .namespaced

end Node

namespace Namespace

/-- The child of a namespace under a name. -/
def get? (children : Namespace) (name : String) : Option Node :=
  children.lookup name

/-- Puts a node under a name. -/
def put (children : Namespace) (name : String) (node : Node) : Namespace :=
  Ordered.insert Prod.fst (name, node) children

end Namespace

namespace Catalogue

/-- The catalogue without entries. -/
def empty : Catalogue := ⟨[]⟩

/-- Whether two catalogues are the same tree. -/
def same (first second : Catalogue) : Bool :=
  Node.sameChildren first.root second.root

theorem same_iff_eq (first second : Catalogue) : first.same second = true ↔ first = second := by
  rw [same, Node.sameChildren_iff_eq]
  exact Catalogue.mk.injEq _ _ ▸ Iff.rfl

instance : DecidableEq Catalogue :=
  fun first second => decidable_of_iff _ (same_iff_eq first second)

/-- The dotted paths of all entries. -/
def entryPaths (catalogue : Catalogue) : List String :=
  Node.entryPathsBelow "" catalogue.root

/-- The number of entries. -/
def entryCount (catalogue : Catalogue) : Nat :=
  catalogue.entryPaths.length

/-- The node that a chain of names leads to. -/
def node? (catalogue : Catalogue) (names : List String) : Option Node :=
  names.foldlM
    (fun node name =>
      match node with
      | .branch children => Namespace.get? children name
      | .entry _ => none)
    (.branch catalogue.root)

end Catalogue

end Phrasebook
