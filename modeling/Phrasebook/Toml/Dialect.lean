/-! # Dialects of TOML

Catalogue files and settings files are read by slightly different rules
(`Phrasebook.Toml.Dialect.catalogue`, `Phrasebook.Toml.Dialect.settings`). What the
rules differ in is one record, and each reader of a part of a file takes it.
-/

namespace Phrasebook.Toml

/-- What the rules for two files may differ in. -/
structure Dialect where
  /-- Whether the forms that version 1.1 added may stand: escapes for the escape
  character and for code points of two digits, line ends and a last comma in inline
  tables, and times without seconds. -/
  isExtended : Bool
  /-- Whether a line end inside a string keeps the carriage return before its line
  feed. -/
  keepsReturns : Bool
  /-- The least integer that is too large. -/
  integerBound : Nat
  /-- Whether a negative float beyond double precision stands for infinity. -/
  readsNegativeOverflow : Bool
  /-- How deep arrays and inline tables may be nested. -/
  maxDepth : Nat
  /-- How many parts a dotted key may have. -/
  maxParts : Nat
deriving DecidableEq, Repr

namespace Dialect

/-- The rules of catalogue files, which may use version 1.1. -/
def catalogue : Dialect where
  isExtended := true
  keepsReturns := true
  integerBound := UInt64.size
  readsNegativeOverflow := false
  maxDepth := 80
  maxParts := 80

/-- The rules of settings files, which keep to version 1.0. -/
def settings : Dialect where
  isExtended := false
  keepsReturns := false
  integerBound := Nat.pow 2 63
  readsNegativeOverflow := true
  maxDepth := 79
  maxParts := 79

end Dialect

end Phrasebook.Toml
