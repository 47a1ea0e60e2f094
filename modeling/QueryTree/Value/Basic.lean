import QueryTree.Instant
import QueryTree.Number.Double
import QueryTree.Uuid

/-! Values: what constants hold and evaluation yields. Equality is structural, and floats are
equal iff they have the same bits. -/

namespace QueryTree

inductive Value where
  | null
  | bool (b : Bool)
  | int (i : Int64)
  | float (x : Number.Double)
  | string (s : String)
  | uuid (u : Uuid)
  | instant (t : Instant)
  | enum (type name : String)
  | list (items : List Value)
  /-- An object with named fields, sorted by name. -/
  | record (type : String) (fields : List (String × Value))

inductive Kind where
  | null | bool | int | float | string | uuid | instant | enum | list | record
  deriving DecidableEq, Repr

namespace Kind

def label : Kind → String
  | null => "null"
  | bool => "bool"
  | int => "int"
  | float => "float"
  | string => "string"
  | uuid => "uuid"
  | instant => "datetime"
  | enum => "enum"
  | list => "list"
  | record => "record"

end Kind

namespace Value

mutual

def beq : Value → Value → Bool
  | null, null => true
  | bool a, bool b => a == b
  | int a, int b => a == b
  | float a, float b => decide (a = b)
  | string a, string b => a == b
  | uuid a, uuid b => a == b
  | instant a, instant b => a == b
  | enum a m, enum b n => a == b && m == n
  | list as, list bs => beqList as bs
  | record a fs, record b gs => a == b && beqFields fs gs
  | _, _ => false

def beqList : List Value → List Value → Bool
  | [], [] => true
  | a :: as, b :: bs => beq a b && beqList as bs
  | _, _ => false

def beqFields : List (String × Value) → List (String × Value) → Bool
  | [], [] => true
  | (m, a) :: as, (n, b) :: bs => m == n && beq a b && beqFields as bs
  | _, _ => false

end

mutual

theorem eq_of_beq : (a b : Value) → beq a b = true → a = b
  | null, b, h => by cases b <;> simp_all [beq]
  | bool _, b, h => by cases b <;> simp_all [beq]
  | int _, b, h => by cases b <;> simp_all [beq]
  | float _, b, h => by cases b <;> simp_all [beq]
  | string _, b, h => by cases b <;> simp_all [beq]
  | uuid _, b, h => by cases b <;> simp_all [beq]
  | instant _, b, h => by cases b <;> simp_all [beq]
  | enum _ _, b, h => by cases b <;> simp_all [beq]
  | list as, b, h => by
    cases b <;> simp only [beq, Bool.false_eq_true] at h
    rw [eq_of_beqList as _ h]
  | record _ fs, b, h => by
    cases b <;> simp only [beq, Bool.and_eq_true, beq_iff_eq, Bool.false_eq_true] at h
    rw [h.1, eq_of_beqFields fs _ h.2]

theorem eq_of_beqList : (as bs : List Value) → beqList as bs = true → as = bs
  | [], bs, h => by cases bs <;> simp_all [beqList]
  | a :: as, bs, h => by
    cases bs with
    | nil => simp [beqList] at h
    | cons b bs =>
      simp only [beqList, Bool.and_eq_true] at h
      rw [eq_of_beq a b h.1, eq_of_beqList as bs h.2]

theorem eq_of_beqFields : (as bs : List (String × Value)) → beqFields as bs = true → as = bs
  | [], bs, h => by cases bs <;> simp_all [beqFields]
  | (m, a) :: as, bs, h => by
    cases bs with
    | nil => simp [beqFields] at h
    | cons b bs =>
      simp only [beqFields, Bool.and_eq_true, beq_iff_eq] at h
      rw [eq_of_beqFields as bs h.2, h.1.1, eq_of_beq a b.2 h.1.2]

end

mutual

theorem beq_refl : (a : Value) → beq a a = true
  | null => rfl
  | bool _ => by simp [beq]
  | int _ => by simp [beq]
  | float _ => by simp [beq]
  | string _ => by simp [beq]
  | uuid _ => by simp [beq]
  | instant _ => by simp [beq]
  | enum _ _ => by simp [beq]
  | list as => beqList_refl as
  | record _ fs => by simp [beq, beqFields_refl fs]

theorem beqList_refl : (as : List Value) → beqList as as = true
  | [] => rfl
  | a :: as => by simp [beqList, beq_refl a, beqList_refl as]

theorem beqFields_refl : (as : List (String × Value)) → beqFields as as = true
  | [] => rfl
  | (m, a) :: as => by simp [beqFields, beq_refl a, beqFields_refl as]

end

theorem beq_iff (a b : Value) : beq a b = true ↔ a = b :=
  ⟨eq_of_beq a b, fun h => h ▸ beq_refl a⟩

instance : DecidableEq Value := fun a b => decidable_of_iff _ (beq_iff a b)

instance : Inhabited Value := ⟨null⟩

def kind : Value → Kind
  | null => .null
  | bool _ => .bool
  | int _ => .int
  | float _ => .float
  | string _ => .string
  | uuid _ => .uuid
  | instant _ => .instant
  | enum .. => .enum
  | list _ => .list
  | record .. => .record

def isNull : Value → Bool
  | null => true
  | _ => false

def isRecord : Value → Bool
  | record .. => true
  | _ => false

def asBool? : Value → Option Bool
  | bool b => some b
  | _ => none

def asInt? : Value → Option Int64
  | int i => some i
  | _ => none

def asString? : Value → Option String
  | string s => some s
  | _ => none

/-- Adds a field in name order; a field of the same name is replaced. -/
def insertField (name : String) (value : Value) : List (String × Value) → List (String × Value)
  | [] => [(name, value)]
  | (n, v) :: fields =>
    if name = n then (n, value) :: fields
    else if name < n then (name, value) :: (n, v) :: fields
    else (n, v) :: insertField name value fields

/-- A record from fields in any order; of fields with one name the last counts. -/
def ofFields (type : String) (fields : List (String × Value)) : Value :=
  record type (fields.foldl (fun sorted field => insertField field.1 field.2 sorted) [])

def field? : Value → String → Option Value
  | record _ fields, name => fields.lookup name
  | _, _ => none

end Value

inductive StringComparison where
  | ordinal | ordinalIgnoreCase
  deriving DecidableEq, Repr

namespace StringComparison

def typeName : String := "StringComparison"

def name : StringComparison → String
  | ordinal => "Ordinal"
  | ordinalIgnoreCase => "OrdinalIgnoreCase"

def toValue (c : StringComparison) : Value := .enum typeName c.name

def ofValue? : Value → Option StringComparison
  | .enum type name =>
    if type = typeName then
      if name = "Ordinal" then some ordinal
      else if name = "OrdinalIgnoreCase" then some ordinalIgnoreCase
      else none
    else none
  | _ => none

end StringComparison

end QueryTree
