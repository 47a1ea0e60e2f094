import QueryTree.Directive.Context
import QueryTree.Error
import QueryTree.Toml.Document

/-! Settings of the compiler, and their form as a TOML table. -/

namespace QueryTree

structure Settings where
  /-- Captured values become parameters; otherwise they become constants. -/
  parameterize : Bool
  /-- What depends on the session is evaluated each time the query runs. -/
  contextAccessors : Bool
  defaultTracking : TrackingBehavior
  /-- Errors show the expression of a parameter. -/
  showSensitive : Bool
  /-- Expressions are brought into normal form again when models are built. -/
  normalizeInBuilder : Bool
  deriving DecidableEq, Repr

namespace Settings

def standard : Settings := ⟨true, false, .trackAll, false, true⟩

def keys : List String :=
  ["parameterize", "generate_context_accessors", "default_tracking", "log_sensitive_data",
    "normalize_in_builder"]

def boolOf? : Toml.Item → Option Bool
  | .bool b => some b
  | _ => none

/-- A behavior is named by a string, or by the one key of a table under which nothing stands. -/
def trackingOf? : Toml.Item → Option TrackingBehavior
  | .string s => TrackingBehavior.ofLabel? s
  | .table _ [(key, .array _ [])] => TrackingBehavior.ofLabel? key
  | .table _ [(key, .table _ [])] => TrackingBehavior.ofLabel? key
  | _ => none

def ofFields? (field? : String → Option Toml.Item) : Option Settings := do
  let flag (key : String) (default : Bool) : Option Bool :=
    ((field? key).map boolOf?).getD (some default)
  let parameterize ← flag "parameterize" standard.parameterize
  let contextAccessors ← flag "generate_context_accessors" standard.contextAccessors
  let defaultTracking ←
    ((field? "default_tracking").map trackingOf?).getD (some standard.defaultTracking)
  let showSensitive ← flag "log_sensitive_data" standard.showSensitive
  let normalizeInBuilder ← flag "normalize_in_builder" standard.normalizeInBuilder
  some ⟨parameterize, contextAccessors, defaultTracking, showSensitive, normalizeInBuilder⟩

/-- Settings are a table, in which other keys mean nothing, or an array with the first fields in
order. A date has none of the fields. -/
def ofItem? : Toml.Item → Option Settings
  | .table _ entries =>
    if entries.all fun (key, item) => keys.contains key || item.inRange then
      ofFields? (entries.lookup ·)
    else none
  | .array _ items => ofFields? ((keys.zip items).lookup ·)
  | .datetime _ => some standard
  | _ => none

def ofEntries? (entries : Toml.Entries) : Option Settings :=
  if entries.all fun (key, item) => key == "query" || item.inRange then
    ((entries.lookup "query").map ofItem?).getD (some standard)
  else none

/-- Reads the table `query` of a document. -/
def read (text : String) : Except Error Settings :=
  match (Toml.parse? text).bind ofEntries? with
  | some s => .ok s
  | none => .error (.settings "the document is malformed or a setting has the wrong type")

def flagText (b : Bool) : String := if b then "true" else "false"

def text (s : Settings) : String :=
  "[query]\nparameterize = " ++ flagText s.parameterize ++
  "\ngenerate_context_accessors = " ++ flagText s.contextAccessors ++
  "\ndefault_tracking = \"" ++ s.defaultTracking.label ++
  "\"\nlog_sensitive_data = " ++ flagText s.showSensitive ++
  "\nnormalize_in_builder = " ++ flagText s.normalizeInBuilder ++ "\n"

end Settings

end QueryTree
