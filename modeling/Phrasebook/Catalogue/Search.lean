import Phrasebook.Catalogue.Basic
import Phrasebook.Error

/-! # Finding entries

An address is followed step by step from the root of a catalogue
(`Phrasebook.Catalogue.find`). A host asks two catalogues: the one of the locale
that it wants and, where that one has nothing at the address, the one of the
fallback locale (`Phrasebook.Edition.find`).
-/

namespace Phrasebook

/-- Why an address leads to no entry of one catalogue. -/
inductive Miss
  | absent
  | outOfRange (index : Position)
  | misshapen (expected found : Shape)
deriving DecidableEq, Repr

namespace Entry

/-- The template at a position of a list or an indexed map. A scalar has no
positions, which is no failure of the position. -/
def element? (entry : Entry) (index : Position) : Option (Except Miss Template) :=
  match entry with
  | .scalar _ => none
  | .list items =>
    some (match items[index.toNat]? with
      | some template => .ok template
      | none => .error (.outOfRange index))
  | .indexed map =>
    some (match map.atPosition? index with
      | some template => .ok template
      | none => .error (.outOfRange index))

end Entry

namespace Node

/-- The child of a namespace under a name. -/
def child (children : Namespace) (name : String) : Except Miss Node :=
  match children.get? name with
  | some node => .ok node
  | none => .error .absent

/-- One step down from a node. A position addresses the child of a namespace that is
named by its numeral, and the element of a list or an indexed map. -/
def step (node : Node) (step : Address.Step) : Except Miss Node :=
  match node, step with
  | .branch children, .name name => child children name
  | .branch children, .position index => child children index.numeral
  | .entry (.indexed map), .name name =>
    match map.named? name with
    | some template => .ok (.entry (.scalar template))
    | none => .error .absent
  | .entry found, .position index =>
    match found.element? index with
    | some element => element.map fun template => .entry (.scalar template)
    | none => .error .absent
  | .entry _, .name _ => .error .absent

/-- The entry at a node, or the element of it at an index. -/
def entryAt (node : Node) (index : Option Position) : Except Miss Entry :=
  match node, index with
  | .entry found, none => .ok found
  | .entry found, some index =>
    match found.element? index with
    | some element => element.map .scalar
    | none => .error (.misshapen .list found.shape)
  | .branch _, none => .error (.misshapen .scalar .namespaced)
  | .branch _, some _ => .error (.misshapen .list .namespaced)

end Node

/-- The entry of one catalogue at an address, or its element at an index. -/
def Catalogue.find (catalogue : Catalogue) (address : Address) (index : Option Position) :
    Except Miss Entry := do
  let node ← address.steps.foldlM Node.step (.branch catalogue.root)
  node.entryAt index

/-- The catalogue of a locale. -/
structure Edition where
  locale : Locale
  catalogue : Catalogue

/-- An entry, the locale whose catalogue holds it, and whether that catalogue was
the fallback. -/
structure Finding where
  entry : Entry
  locale : Locale
  fellBack : Bool
deriving DecidableEq

namespace Finding

/-- The entry as one template. -/
def scalar (finding : Finding) (address : Address) : Except Error Template :=
  match finding.entry with
  | .scalar template => .ok template
  | other => .error (.unexpectedShape address.text .scalar other.shape)

/-- The entry as a list of templates. -/
def list (finding : Finding) (address : Address) : Except Error (List Template) :=
  match finding.entry with
  | .list items => .ok items
  | other => .error (.unexpectedShape address.text .list other.shape)

end Finding

/-- The error of a miss at an address. -/
def Miss.error (miss : Miss) (address : Address) : Error :=
  match miss with
  | .absent => .missingKey address.text
  | .outOfRange index => .indexOutOfRange address.text index
  | .misshapen expected found => .unexpectedShape address.text expected found

/-- What two misses of the same address come to. A wrong shape in the fallback
counts most; else a position that is out of range says more than an absent
path. -/
def Miss.orElse (first second : Miss) : Miss :=
  match first, second with
  | _, .misshapen expected found => .misshapen expected found
  | .absent, second => second
  | first, _ => first

/-- The entry at an address in the edition that a host wants or, where that has
none, in the fallback edition. A wrong shape is not a reason to fall back. -/
def Edition.find (wanted fallback : Edition) (address : Address) (index : Option Position) :
    Except Error Finding :=
  match wanted.catalogue.find address index with
  | .ok entry => .ok { entry, locale := wanted.locale, fellBack := false }
  | .error (.misshapen expected found) =>
    .error (.unexpectedShape address.text expected found)
  | .error first =>
    if wanted.locale = fallback.locale then .error (first.error address)
    else match fallback.catalogue.find address index with
      | .ok entry => .ok { entry, locale := fallback.locale, fellBack := true }
      | .error second => .error ((first.orElse second).error address)

end Phrasebook
