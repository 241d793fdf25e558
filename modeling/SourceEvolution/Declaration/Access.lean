/-!
# Access levels

How far a declaration can be seen, from the file-local levels to the open one.
-/

namespace SourceEvolution

/-- An access level, the least visible first. -/
inductive AccessLevel where
  | ownScope
  | ownFile
  | ownModule
  | ownPackage
  | everywhere
  | everywhereOpen
deriving DecidableEq, Repr, Inhabited

namespace AccessLevel

/-- Every level, the least visible first. -/
def all : List AccessLevel :=
  [ownScope, ownFile, ownModule, ownPackage, everywhere, everywhereOpen]

/-- The modifier that asks for a level. -/
def keyword : AccessLevel → String
  | ownScope => "private"
  | ownFile => "fileprivate"
  | ownModule => "internal"
  | ownPackage => "package"
  | everywhere => "public"
  | everywhereOpen => "open"

/-- The name under which a level is written. -/
def name : AccessLevel → String
  | ownScope => "Private"
  | ownFile => "FilePrivate"
  | ownModule => "Internal"
  | ownPackage => "Package"
  | everywhere => "Public"
  | everywhereOpen => "Open"

/-- The level that a modifier asks for, if it asks for one. -/
def ofKeyword? (modifier : String) : Option AccessLevel :=
  all.find? fun level => level.keyword == modifier

/-- The level written as `s`, if there is one. -/
def ofName? (s : String) : Option AccessLevel :=
  all.find? fun level => level.name == s

/-- Whether the rest of the module cannot see what has this level. -/
def isHidden : AccessLevel → Bool
  | ownScope | ownFile => true
  | _ => false

end AccessLevel

end SourceEvolution
