/-! Identities of methods and members. A signature is an open definition; a method is a use of one,
closed over generic arguments. -/

namespace QueryTree

/-- Owner, name and number of explicit arguments. An extension method counts the sequence it
extends; an instance method does not count its receiver. -/
structure Signature where
  owner : String
  name : String
  arity : Nat
  deriving DecidableEq, Hashable, Repr, Inhabited

structure Method where
  signature : Signature
  generics : List String
  /-- The arguments have to stay literals. -/
  constArgs : Bool
  deriving DecidableEq, Hashable, Repr, Inhabited

structure Member where
  owner : String
  name : String
  deriving DecidableEq, Hashable, Repr, Inhabited

namespace Signature

def text (s : Signature) : String := s.owner ++ "." ++ s.name ++ "/" ++ toString s.arity

def compare (a b : Signature) : Ordering :=
  ((Ord.compare a.owner b.owner).then (Ord.compare a.name b.name)).then
    (Ord.compare a.arity b.arity)

end Signature

namespace Method

def owner (m : Method) : String := m.signature.owner

def name (m : Method) : String := m.signature.name

def arity (m : Method) : Nat := m.signature.arity

def ofParts (owner name : String) (arity : Nat) : Method := ⟨⟨owner, name, arity⟩, [], false⟩

def genericsText (m : Method) : String :=
  if m.generics.isEmpty then "" else "<" ++ ", ".intercalate m.generics ++ ">"

def text (m : Method) : String :=
  m.owner ++ "." ++ m.name ++ m.genericsText ++ "/" ++ toString m.arity

def isFormOf (m : Method) (s : Signature) : Bool := decide (m.signature = s)

end Method

namespace Member

def text (m : Member) : String := m.owner ++ "." ++ m.name

def compare (a b : Member) : Ordering :=
  (Ord.compare a.owner b.owner).then (Ord.compare a.name b.name)

end Member

/-! The owners, methods and members that have a meaning of their own here. -/

namespace Owner

def queryable : String := "Queryable"
def enumerable : String := "Enumerable"
def entityQueryable : String := "EntityQueryableExtensions"
def asyncEntityQueryable : String := "AsyncEntityQueryableExtensions"
def string : String := "String"
def math : String := "Math"
def guid : String := "Guid"
def random : String := "Random"
def dateTime : String := "DateTime"
def dateTimeOffset : String := "DateTimeOffset"
def basicOperators : String := "Microsoft.VisualBasic.CompilerServices.Operators"

end Owner

namespace Method

def queryable (name : String) (arity : Nat) : Method := ofParts Owner.queryable name arity
def enumerable (name : String) (arity : Nat) : Method := ofParts Owner.enumerable name arity
def stringStartsWith : Method := ofParts Owner.string "StartsWith" 1
def stringEndsWith : Method := ofParts Owner.string "EndsWith" 1
def stringCompare : Method := ofParts Owner.string "Compare" 3
/-- The comparison of another language's front end, with a flag for ignoring case. -/
def compareString : Method := ofParts Owner.basicOperators "CompareString" 3
def newGuid : Method := ofParts Owner.guid "NewGuid" 0
def randomNext (arity : Nat) : Method := ofParts Owner.random "Next" arity
def asTracking : Method := ofParts Owner.entityQueryable "AsTracking" 1
def asNoTracking : Method := ofParts Owner.entityQueryable "AsNoTracking" 1
def tagWith : Method := ⟨⟨Owner.entityQueryable, "TagWith", 2⟩, [], true⟩
def ignoreQueryFilters : Method := ofParts Owner.entityQueryable "IgnoreQueryFilters" 1
def includeNavigation : Method := ofParts Owner.entityQueryable "Include" 2
def includeAsync : Method := ofParts Owner.asyncEntityQueryable "Include" 2
def includeString : Method := ⟨⟨Owner.entityQueryable, "IncludeString", 2⟩, [], true⟩
def thenInclude : Method := ofParts Owner.entityQueryable "ThenInclude" 2
def thenIncludeAsync : Method := ofParts Owner.asyncEntityQueryable "ThenInclude" 2

/-- Any closed form of the two include methods that take a navigation. -/
def isInclude (m : Method) : Bool :=
  m.isFormOf includeNavigation.signature || m.isFormOf includeAsync.signature

/-- Query operators always stay part of the query. -/
def isQueryOperator (m : Method) : Bool :=
  m.owner == Owner.queryable || m.owner == Owner.entityQueryable
    || m.owner == Owner.asyncEntityQueryable

end Method

namespace Member

def now : Member := ⟨Owner.dateTime, "Now"⟩
def utcNow : Member := ⟨Owner.dateTime, "UtcNow"⟩
def today : Member := ⟨Owner.dateTime, "Today"⟩
def offsetNow : Member := ⟨Owner.dateTimeOffset, "Now"⟩
def offsetUtcNow : Member := ⟨Owner.dateTimeOffset, "UtcNow"⟩

end Member

end QueryTree
