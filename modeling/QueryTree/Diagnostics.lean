import QueryTree.Compilation
import QueryTree.Text.Quoted

/-! One-line summaries of the parts of a compiler, for logs. -/

namespace QueryTree

namespace Summary

def braced (inner : String) : String := "\x7b" ++ inner ++ "\x7d"

def record (name : String) (fields : List (String × String)) : String :=
  name ++ " " ++ braced (" " ++ ", ".intercalate (fields.map fun f => f.1 ++ ": " ++ f.2) ++ " ")

def setOf (items : List String) : String := braced (", ".intercalate items)

def listOf (items : List String) : String := "[" ++ ", ".intercalate items ++ "]"

def flag (b : Bool) : String := if b then "true" else "false"

end Summary

open Summary

def Signature.summary (s : Signature) : String :=
  record "MethodSignature"
    [("owner", Text.quoted s.owner), ("name", Text.quoted s.name), ("arity", toString s.arity)]

def Member.summary (m : Member) : String :=
  record "MemberRef" [("owner", Text.quoted m.owner), ("name", Text.quoted m.name)]

def FunctionTable.summary (t : FunctionTable) : String :=
  record "ClientFunctions"
    [("methods", toString t.methods.length), ("members", toString t.members.length)]

def Policy.summary (p : Policy) : String :=
  record "EvaluabilityOracle"
    [("policy", record "ExclusionPolicy"
      [("methods", setOf (p.methods.map (·.summary))),
       ("members", setOf (p.members.map (·.summary))),
       ("predicates", toString p.predicates.length)])]

def Registry.summary (r : Registry) : String :=
  record "NodeTypeRegistry" [("providers", listOf (r.names.map Text.quoted))]

def Builder.summary (b : Builder) : String :=
  record "QueryModelBuilder"
    [("registry", b.registry.summary),
     ("processors", listOf (b.passes.map fun p => Text.quoted p.name))]

def Cache.summary {K D : Type} (c : Cache K D) : String :=
  record "CompiledQueryCache"
    [("entries", toString c.entries.length), ("hits", toString c.hits),
     ("misses", toString c.misses)]

def TrackingBehavior.summary : TrackingBehavior → String
  | trackAll => "TrackAll"
  | noTracking => "NoTracking"

def Settings.summary (s : Settings) : String :=
  record "TranslationConfig"
    [("parameterize", flag s.parameterize),
     ("generate_context_accessors", flag s.contextAccessors),
     ("default_tracking", s.defaultTracking.summary),
     ("log_sensitive_data", flag s.showSensitive),
     ("normalize_in_builder", flag s.normalizeInBuilder)]

def Compiler.summary (c : Compiler) (registry : Registry) (cache : QueryCache) : String :=
  record "QueryCompiler"
    [("config", c.settings.summary), ("builder", (c.builder registry).summary),
     ("cache", cache.summary)]

end QueryTree
