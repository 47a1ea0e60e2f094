import QueryTree.Include.Plan

/-! Fixups: an include plan applied to one entity, as calls to a sink. Asynchronous fixups may be
cancelled between calls, and their sink may fail. -/

namespace QueryTree

inductive SinkCall (E : Type) where
  | track (entity : E)
  /-- Attaches what was loaded, or nothing. -/
  | reference (entity : E) (path : List String) (related : Option E)
  | collection (entity : E) (path : List String) (load : Nat)

def SinkCall.text : SinkCall String → String
  | track entity => "track " ++ entity
  | reference entity path related =>
    entity ++ " . " ++ ".".intercalate path ++ " = " ++ related.getD "null"
  | collection entity path load =>
    entity ++ " . " ++ ".".intercalate path ++ " <- #" ++ toString load

/-- The call of one step; a reference is taken from its slot. -/
def IncludeStep.call {E : Type} (entity : E) (included : List (Option E)) :
    IncludeStep → SinkCall E
  | startTracking => .track entity
  | reference path _ slot => .reference entity path ((included[slot]?).getD none)
  | collection path _ load => .collection entity path load

def IncludePlan.calls {E : Type} (p : IncludePlan) (entity : E) (included : List (Option E)) :
    List (SinkCall E) :=
  p.steps.map (·.call entity included)

structure Sink (σ E : Type) where
  accept : SinkCall E → σ → σ

/-- A sink that may fail, with a cancellation signal. Anyone may give the signal at any time, so two
checks in a row may have different answers. -/
structure AsyncSink (σ E : Type) where
  accept : SinkCall E → σ → Except Error Unit × σ
  cancelled : σ → Bool × σ

namespace Fixup

/-- Makes all calls; a missing entity gets none. -/
def run {σ E : Type} (sink : Sink σ E) (plan : IncludePlan) (entity : Option E)
    (included : List (Option E)) (s : σ) : Option E × σ :=
  match entity with
  | none => (none, s)
  | some e => (some e, (plan.calls e included).foldl (fun s call => sink.accept call s) s)

/-- Makes calls up to a cancellation or a failure. -/
def callAll {σ E : Type} (sink : AsyncSink σ E) : List (SinkCall E) → σ → Except Error Unit × σ
  | [], s => (.ok (), s)
  | call :: calls, s =>
    match sink.cancelled s with
    | (true, s) => (.error .cancelled, s)
    | (false, s) =>
      match sink.accept call s with
      | (.error e, s) => (.error e, s)
      | (.ok (), s) => callAll sink calls s

/-- A missing entity is returned whatever the signal says; for another one a signal that was given
before the first call ends the fixup. -/
def runAsync {σ E : Type} (sink : AsyncSink σ E) (plan : IncludePlan) (entity : Option E)
    (included : List (Option E)) (s : σ) : Except Error (Option E) × σ :=
  match entity with
  | none => (.ok none, s)
  | some e =>
    match sink.cancelled s with
    | (true, s) => (.error .cancelled, s)
    | (false, s) =>
      let (result, s) := callAll sink (plan.calls e included) s
      (result.map fun _ => some e, s)

end Fixup

end QueryTree
