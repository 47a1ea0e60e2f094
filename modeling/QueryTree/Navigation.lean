import QueryTree.Association

/-! Entity types and the navigations between them. -/

namespace QueryTree

/-- A property that leads to related entities. -/
structure Navigation where
  name : String
  /-- The entity type on the other side. -/
  target : String
  isCollection : Bool
  /-- The declaring entity holds the foreign key. -/
  toPrincipal : Bool
  inverse : Option String
  deriving DecidableEq, Repr

namespace Navigation

/-- A navigation to one entity, on the side that holds the key. -/
def reference (name target : String) : Navigation := ⟨name, target, false, true, none⟩

/-- A navigation to a set of entities, which hold the keys. -/
def collection (name target : String) : Navigation := ⟨name, target, true, false, none⟩

/-- The other side holds the key. -/
def toDependent (n : Navigation) : Navigation := { n with toPrincipal := false }

def withInverse (n : Navigation) (inverse : String) : Navigation :=
  { n with inverse := some inverse }

end Navigation

structure EntityType where
  name : String
  navigations : List Navigation
  deriving DecidableEq, Repr

def EntityType.navigation? (e : EntityType) (name : String) : Option Navigation :=
  e.navigations.find? (·.name == name)

abbrev EntityLookup := String → Option EntityType

/-- Entity types by name; every name occurs once. -/
abbrev EntityModel := List (String × EntityType)

namespace EntityModel

def add (m : EntityModel) (e : EntityType) : EntityModel := upsert e.name e m

def ofTypes (types : List EntityType) : EntityModel := types.foldl add []

def find? (m : EntityModel) : EntityLookup := fun name => m.lookup name

end EntityModel

end QueryTree
