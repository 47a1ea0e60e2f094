import Mathlib.Data.List.ReduceOption
import QueryTree.Include.Fixup
import QueryTree.Proofs.IncludePlans

/-! Fixups with a sink that may fail and a signal that may cancel them. Sinks are logged: the log of
a synchronous fixup is the list of its calls, that of an asynchronous one also has the checks of the
signal and all answers. An asynchronous fixup makes the calls of the synchronous one up to the first
failure, which is then its result; without a failure it makes them all and returns the entity. -/

namespace QueryTree

/-- What happens in an asynchronous fixup: a check of the signal, or a call, with the answer. -/
inductive FixupEvent (E : Type) where
  | checked (cancelled : Bool)
  | called (call : SinkCall E) (outcome : Except Error Unit)

namespace FixupEvent

variable {E : Type}

/-- The error that a fixup ends with after an event. -/
def failure? : FixupEvent E → Option Error
  | checked true => some .cancelled
  | called _ (.error error) => some error
  | _ => none

def call? : FixupEvent E → Option (SinkCall E)
  | checked _ => none
  | called call _ => some call

theorem forall_failure?_eq_none_iff {events : List (FixupEvent E)} :
    (∀ event ∈ events, event.failure? = none) ↔
      .checked true ∉ events ∧ ∀ call error, .called call (.error error) ∉ events := by
  constructor
  · intro h
    exact ⟨fun hmem => Option.some_ne_none _ (h _ hmem),
      fun call error hmem => Option.some_ne_none _ (h _ hmem)⟩
  · rintro ⟨hchecked, hcalled⟩ event hmem
    cases event with
    | checked cancelled =>
      cases cancelled with
      | true => exact absurd hmem hchecked
      | false => rfl
    | called call outcome =>
      cases outcome with
      | error error => exact absurd hmem (hcalled call error)
      | ok _ => rfl

end FixupEvent

/-- What a call attaches as a reference. -/
def SinkCall.related? {E : Type} : SinkCall E → Option (Option E)
  | reference _ _ related => some related
  | _ => none

/-- A sink with a log of its calls. -/
def Sink.logged {τ E : Type} (sink : Sink τ E) : Sink (τ × List (SinkCall E)) E where
  accept call s := (sink.accept call s.1, s.2 ++ [call])

/-- A sink with a log of all that happens. -/
def AsyncSink.logged {σ E : Type} (sink : AsyncSink σ E) :
    AsyncSink (σ × List (FixupEvent E)) E where
  accept call s :=
    let (outcome, state) := sink.accept call s.1
    (outcome, state, s.2 ++ [.called call outcome])
  cancelled s :=
    let (answer, state) := sink.cancelled s.1
    (answer, state, s.2 ++ [.checked answer])

namespace Fixup

variable {σ τ E : Type}

def callsMade (sink : Sink τ E) (plan : IncludePlan) (entity : Option E)
    (included : List (Option E)) (t : τ) : List (SinkCall E) :=
  (run sink.logged plan entity included (t, [])).2.2

def events (sink : AsyncSink σ E) (plan : IncludePlan) (entity : Option E)
    (included : List (Option E)) (s : σ) : List (FixupEvent E) :=
  (runAsync sink.logged plan entity included (s, [])).2.2

/-! ### Logs -/

theorem foldl_logged (sink : Sink τ E) (calls : List (SinkCall E)) (t : τ)
    (log : List (SinkCall E)) :
    (calls.foldl (fun s call => sink.logged.accept call s) (t, log)).2 = log ++ calls := by
  induction calls generalizing t log with
  | nil => simp
  | cons call calls ih =>
    rw [List.foldl_cons, ← List.singleton_append, ← List.append_assoc]
    exact ih _ _

theorem callsMade_some (sink : Sink τ E) (plan : IncludePlan) (e : E) (included : List (Option E))
    (t : τ) : callsMade sink plan (some e) included t = plan.calls e included := by
  rw [callsMade, run, foldl_logged, List.nil_append]

/-- The items of an agenda, dealt with up to the first failure. An item is a call, or else a
check. -/
inductive Proceeds :
    List (Option (SinkCall E)) → List (FixupEvent E) → Except Error Unit → Prop where
  | done : Proceeds [] [] (.ok ())
  | fails (event : FixupEvent E) {error : Error} {rest : List (Option (SinkCall E))}
      (h : event.failure? = some error) : Proceeds (event.call? :: rest) [event] (.error error)
  | goesOn (event : FixupEvent E) {rest : List (Option (SinkCall E))} {events : List (FixupEvent E)}
      {result : Except Error Unit} (h : event.failure? = none)
      (hrest : Proceeds rest events result) :
      Proceeds (event.call? :: rest) (event :: events) result

/-- A check before each call. -/
def agenda (calls : List (SinkCall E)) : List (Option (SinkCall E)) :=
  calls.flatMap fun call => [none, some call]

/-- Calls proceed along their agenda, and logging them does not change the outcome. -/
theorem callAll_proceeds (sink : AsyncSink σ E) (calls : List (SinkCall E)) (s : σ)
    (log : List (FixupEvent E)) :
    ∃ events, callAll sink.logged calls (s, log) =
        ((callAll sink calls s).1, (callAll sink calls s).2, log ++ events) ∧
      Proceeds (agenda calls) events (callAll sink calls s).1 := by
  induction calls generalizing s log with
  | nil => exact ⟨[], by simp [callAll], .done⟩
  | cons call calls ih =>
    obtain ⟨cancelled, s₁, hcheck⟩ : ∃ cancelled s₁, sink.cancelled s = (cancelled, s₁) :=
      ⟨_, _, rfl⟩
    cases cancelled with
    | true =>
      refine ⟨[.checked true], by simp [callAll, AsyncSink.logged, hcheck], ?_⟩
      simp only [callAll, hcheck]
      exact .fails (.checked true) rfl
    | false =>
      obtain ⟨outcome, s₂, haccept⟩ : ∃ outcome s₂, sink.accept call s₁ = (outcome, s₂) :=
        ⟨_, _, rfl⟩
      cases outcome with
      | error error =>
        refine ⟨[.checked false, .called call (.error error)],
          by simp [callAll, AsyncSink.logged, hcheck, haccept], ?_⟩
        simp only [callAll, hcheck, haccept]
        exact .goesOn (.checked false) rfl (.fails (.called call (.error error)) rfl)
      | ok _ =>
        obtain ⟨events, hrun, hrest⟩ := ih s₂ (log ++ [.checked false, .called call (.ok ())])
        refine ⟨.checked false :: .called call (.ok ()) :: events, ?_, ?_⟩
        · simpa [callAll, AsyncSink.logged, hcheck, haccept] using hrun
        · simp only [callAll, hcheck, haccept]
          exact .goesOn (.checked false) rfl (.goesOn (.called call (.ok ())) rfl hrest)

theorem runAsync_proceeds (sink : AsyncSink σ E) (plan : IncludePlan) (e : E)
    (included : List (Option E)) (s : σ) :
    ∃ result, Proceeds (none :: agenda (plan.calls e included))
        (events sink plan (some e) included s) result ∧
      (runAsync sink plan (some e) included s).1 = result.map fun _ => some e := by
  obtain ⟨cancelled, s₁, hcheck⟩ : ∃ cancelled s₁, sink.cancelled s = (cancelled, s₁) := ⟨_, _, rfl⟩
  cases cancelled with
  | true =>
    refine ⟨.error .cancelled, ?_, by simp [runAsync, hcheck, Except.map]⟩
    have hevents : events sink plan (some e) included s = [.checked true] := by
      simp [events, runAsync, AsyncSink.logged, hcheck]
    rw [hevents]
    exact .fails (.checked true) rfl
  | false =>
    obtain ⟨rest, hrun, hrest⟩ := callAll_proceeds sink (plan.calls e included) s₁ [.checked false]
    refine ⟨_, ?_, by simp [runAsync, hcheck]; rfl⟩
    have hevents : events sink plan (some e) included s = .checked false :: rest := by
      simp only [events, runAsync, AsyncSink.logged, hcheck, List.nil_append] at hrun ⊢
      rw [hrun, List.singleton_append]
    rw [hevents]
    exact .goesOn (.checked false) rfl hrest

/-! ### What follows from a log -/

namespace Proceeds

variable {items : List (Option (SinkCall E))} {events : List (FixupEvent E)}
  {result : Except Error Unit}

theorem map_call? (h : Proceeds items events result) : events.map (·.call?) <+: items := by
  induction h with
  | done => exact List.prefix_rfl
  | fails event _ => exact (List.prefix_cons_inj _).mpr (List.nil_prefix)
  | goesOn event _ _ ih => exact (List.prefix_cons_inj _).mpr ih

/-- Either nothing fails and all items are dealt with, or the last event fails. -/
theorem ends (h : Proceeds items events result) :
    (∀ event ∈ events, event.failure? = none) ∧ events.map (·.call?) = items ∧ result = .ok () ∨
      ∃ front last error, events = front ++ [last] ∧ (∀ event ∈ front, event.failure? = none) ∧
        last.failure? = some error ∧ result = .error error := by
  induction h with
  | done => exact .inl ⟨by simp, rfl, rfl⟩
  | fails event hfails => exact .inr ⟨[], event, _, rfl, by simp, hfails, rfl⟩
  | goesOn event hgoesOn _ ih =>
    obtain ⟨hnone, hall, hok⟩ | ⟨front, last, error, rfl, hfront, hlast, herror⟩ := ih
    · exact .inl ⟨List.forall_mem_cons.mpr ⟨hgoesOn, hnone⟩, by rw [List.map_cons, hall], hok⟩
    · exact .inr ⟨event :: front, last, error, rfl,
        List.forall_mem_cons.mpr ⟨hgoesOn, hfront⟩, hlast, herror⟩

theorem eq_ok_iff (h : Proceeds items events result) :
    result = .ok () ↔ ∀ event ∈ events, event.failure? = none := by
  obtain ⟨hnone, -, rfl⟩ | ⟨front, last, error, rfl, -, hlast, rfl⟩ := h.ends
  · exact iff_of_true rfl hnone
  · refine iff_of_false (fun hok => by cases hok) fun hnone => ?_
    cases hlast.symm.trans (hnone last (by simp))

theorem map_call?_of_ok (h : Proceeds items events (.ok ())) : events.map (·.call?) = items := by
  obtain ⟨-, hall, -⟩ | ⟨_, _, _, -, -, -, herror⟩ := h.ends
  · exact hall
  · cases herror

theorem eq_error_iff (h : Proceeds items events result) {error : Error} :
    result = .error error ↔ ∃ front last, events = front ++ [last] ∧
      (∀ event ∈ front, event.failure? = none) ∧ last.failure? = some error := by
  constructor
  · rintro rfl
    obtain ⟨-, -, hok⟩ | ⟨front, last, error', rfl, hfront, hlast, herror⟩ := h.ends
    · cases hok
    · obtain rfl := Except.error.inj herror
      exact ⟨front, last, rfl, hfront, hlast⟩
  · rintro ⟨front, last, rfl, -, hlast⟩
    obtain ⟨hnone, -, -⟩ | ⟨front', last', error', heq, -, hlast', rfl⟩ := h.ends
    · cases hlast.symm.trans (hnone last (by simp))
    · obtain rfl := List.singleton_inj.mp (List.append_inj' heq rfl).2
      rw [Option.some.inj (hlast.symm.trans hlast')]

end Proceeds

@[simp] theorem reduceOption_agenda (calls : List (SinkCall E)) :
    (agenda calls).reduceOption = calls := by
  induction calls with
  | nil => rfl
  | cons call calls ih => exact congrArg (call :: ·) ih

theorem agenda_concat (calls : List (SinkCall E)) (call : SinkCall E) :
    agenda (calls ++ [call]) = agenda calls ++ [none] ++ [some call] := by
  simp [agenda]

theorem filterMap_call? (events : List (FixupEvent E)) :
    events.filterMap (·.call?) = (events.map (·.call?)).reduceOption := by
  rw [List.reduceOption, List.filterMap_map, Function.id_comp]

theorem filterMap_call?_of_map_call? {items : List (Option (SinkCall E))}
    {events : List (FixupEvent E)}
    (h : events.map (·.call?) <+: items) : events.filterMap (·.call?) <+: items.reduceOption := by
  rw [filterMap_call?]
  exact h.filterMap id

/-- A log that ends in a check does not have all calls, for a call comes last on the agenda. -/
theorem filterMap_call?_ne_of_check {calls : List (SinkCall E)} {front : List (FixupEvent E)}
    {last : FixupEvent E} (hcalls : calls ≠ []) (hlast : last.call? = none)
    (h : (front ++ [last]).map (·.call?) <+: none :: agenda calls) :
    (front ++ [last]).filterMap (·.call?) ≠ calls := by
  obtain ⟨calls, call, rfl⟩ := (List.eq_nil_or_concat' calls).resolve_left hcalls
  intro hall
  rw [agenda_concat, ← List.cons_append, List.prefix_concat_iff] at h
  obtain heq | hfirst := h
  · rw [List.map_append, List.map_singleton, hlast] at heq
    cases (List.append_inj' heq rfl).2
  · have hfewer := (filterMap_call?_of_map_call? hfirst).length_le
    rw [hall] at hfewer
    simp only [List.length_append, List.length_singleton, List.reduceOption_cons_of_none,
      List.reduceOption_append, reduceOption_agenda, List.reduceOption_nil,
      List.append_nil] at hfewer
    omega

/-- If there are calls to make and all are made, no check has seen the signal. -/
theorem Proceeds.checked_not_mem {calls : List (SinkCall E)} {events : List (FixupEvent E)}
    {result : Except Error Unit} (h : Proceeds (none :: agenda calls) events result)
    (hcalls : calls ≠ [])
    (hmade : events.filterMap (·.call?) = calls) : .checked true ∉ events := by
  intro hmem
  obtain ⟨hnone, -, -⟩ | ⟨front, last, error, rfl, hfront, -, -⟩ := h.ends
  · cases hnone _ hmem
  · -- the check that saw the signal is the last event
    rcases List.mem_append.mp hmem with hmem | hmem
    · cases hfront _ hmem
    · obtain rfl := List.mem_singleton.mp hmem
      exact filterMap_call?_ne_of_check hcalls rfl h.map_call? hmade

/-- How an asynchronous fixup of an entity relates to the calls of the synchronous one. -/
structure Follows (e : E) (calls : List (SinkCall E)) (events : List (FixupEvent E))
    (result : Except Error (Option E)) : Prop where
  /-- The calls made are the first ones. -/
  called : events.filterMap (·.call?) <+: calls
  /-- A check comes first, and another one before each call. -/
  scheduled : events.map (·.call?) <+: none :: agenda calls
  /-- The entity is returned unchanged, if any. -/
  unchanged : ∀ answer, result = .ok answer → answer = some e
  succeeds : result = .ok (some e) ↔ .checked true ∉ events ∧
    events.filterMap (·.call?) = calls ∧ ∀ call error, .called call (.error error) ∉ events
  /-- If there are calls to make, those of the log show whether the fixup succeeds. -/
  succeeds_of_calls : calls ≠ [] → (result = .ok (some e) ↔
    events.filterMap (·.call?) = calls ∧ ∀ call error, .called call (.error error) ∉ events)
  /-- The error is that of the first failure, and nothing happens after it. -/
  fails : ∀ error, result = .error error ↔ ∃ front last, events = front ++ [last] ∧
    (∀ event ∈ front, event.failure? = none) ∧ last.failure? = some error

theorem Proceeds.follows {calls : List (SinkCall E)} {events : List (FixupEvent E)}
    {result : Except Error Unit} (h : Proceeds (none :: agenda calls) events result) (e : E) :
    Follows e calls events (result.map fun _ => some e) := by
  have hok (answer : Option E) :
      (result.map fun _ => some e) = .ok answer ↔ result = .ok () ∧ answer = some e := by
    cases result <;> simp [Except.map, eq_comm]
  have herror (error : Error) : (result.map fun _ => some e) = .error error ↔
      result = .error error := by
    cases result <;> simp [Except.map]
  have hsucceeds : (result.map fun _ => some e) = .ok (some e) ↔ .checked true ∉ events ∧
      events.filterMap (·.call?) = calls ∧ ∀ call error, .called call (.error error) ∉ events := by
    rw [hok, and_iff_left rfl]
    constructor
    · rintro rfl
      obtain ⟨hchecked, herrors⟩ := FixupEvent.forall_failure?_eq_none_iff.mp (h.eq_ok_iff.mp rfl)
      exact ⟨hchecked, by simp [filterMap_call?, h.map_call?_of_ok], herrors⟩
    · rintro ⟨hchecked, -, herrors⟩
      exact h.eq_ok_iff.mpr (FixupEvent.forall_failure?_eq_none_iff.mpr ⟨hchecked, herrors⟩)
  exact {
    called := by simpa using filterMap_call?_of_map_call? h.map_call?
    scheduled := h.map_call?
    unchanged := fun answer hanswer => ((hok answer).mp hanswer).2
    succeeds := hsucceeds
    succeeds_of_calls := fun hcalls => hsucceeds.trans
      ⟨fun hall => hall.2, fun hmade => ⟨h.checked_not_mem hcalls hmade.1, hmade⟩⟩
    fails := fun error => (herror error).trans h.eq_error_iff }

/-! ### Slots -/

theorem filterMap_related?_calls (plan : IncludePlan) (e : E) (included : List (Option E)) :
    (plan.calls e included).filterMap (·.related?) =
      (plan.steps.filterMap (·.slot?)).map fun slot => (included[slot]?).getD none := by
  rw [IncludePlan.calls, List.filterMap_map, List.map_filterMap]
  congr
  funext step
  cases step <;> rfl

/-- References that are numbered as they come take over the whole list, entry by entry. -/
theorem filterMap_related?_of_slots {plan : IncludePlan} {included : List (Option E)}
    (h : plan.steps.filterMap (·.slot?) = List.range included.length) (e : E) :
    (plan.calls e included).filterMap (·.related?) = included := by
  rw [filterMap_related?_calls, h]
  refine List.ext_getElem (by simp) fun slot _ hslot => ?_
  simp [List.getElem?_eq_getElem hslot]

theorem slots_of_compile {a : Arena} {root : ModelId} {context : CompilationContext}
    {find : EntityLookup} {compiled : CompiledIncludes} {plan : IncludePlan}
    (h : (Include.compile a root context find).1 = .ok compiled) (hplan : plan ∈ compiled.plans) :
    plan.steps.filterMap (·.slot?) = List.range plan.referenceCount := by
  have hcompiled : compiled.WellFormed a find context.isTracking := by
    obtain rfl | ⟨results, bs, hbs, rfl⟩ := Include.compile_ok_cases h
    · exact Include.empty_wellFormed a find context.isTracking
    · exact Include.assemble_wellFormed (Include.plannable_of_bindAll hbs)
  exact (hcompiled.plans plan hplan).slots

/-- An asynchronous fixup follows the synchronous one, whatever the sink and the signal answer. A
missing entity is returned without a call or a check. For a compiled plan and a list with one entry
for each of its references, each entry is attached by one step. -/
theorem runAsync_follows_run (sink : Sink τ E) (asyncSink : AsyncSink σ E) (plan : IncludePlan)
    (included : List (Option E)) (t : τ) (s : σ) :
    (∀ e, Follows e (callsMade sink plan (some e) included t)
      (events asyncSink plan (some e) included s) (runAsync asyncSink plan (some e) included s).1) ∧
    (callsMade sink plan none included t = [] ∧ events asyncSink plan none included s = [] ∧
      (runAsync asyncSink plan none included s).1 = .ok none) ∧
    ∀ a root context find compiled, (Include.compile a root context find).1 = .ok compiled →
      plan ∈ compiled.plans → included.length = plan.referenceCount →
      plan.steps.filterMap (·.slot?) = List.range included.length ∧
        ∀ e, (callsMade sink plan (some e) included t).filterMap (·.related?) = included := by
  refine ⟨fun e => ?_, ⟨rfl, rfl, rfl⟩, fun a root context find compiled h hplan hlength => ?_⟩
  · obtain ⟨result, hproceeds, hresult⟩ := runAsync_proceeds asyncSink plan e included s
    rw [callsMade_some, hresult]
    exact hproceeds.follows e
  · have hslots : plan.steps.filterMap (·.slot?) = List.range included.length := by
      rw [hlength]
      exact slots_of_compile h hplan
    refine ⟨hslots, fun e => ?_⟩
    rw [callsMade_some]
    exact filterMap_related?_of_slots hslots e

def silent : Sink Unit String where
  accept _ s := s

/-- A sink that accepts a number of calls and fails after them. Its signal is not given. -/
def failingAfter : AsyncSink Nat String where
  accept _ n :=
    (if n = 0 then .error (.evaluation (.clientFailure "sink failure")) else .ok (), n - 1)
  cancelled n := (false, n)

/-- One of the plans for the overlapping includes. -/
def addressPlan : IncludePlan :=
  ⟨0, "Order", [.startTracking, .reference ["Customer"] (.reference "Customer" "Customer") 0,
    .collection ["Customer", "Orders"] (.collection "Orders" "Order") 1,
    .reference ["Customer", "Address"] (Navigation.reference "Address" "Address").toDependent 1]⟩

/-- The third of four calls fails; the synchronous fixup makes the fourth, too. -/
theorem runAsync_follows_run_overlapping :
    (runAsync failingAfter addressPlan (some "order1") [some "customer1", none] 2).1 =
        .error (.evaluation (.clientFailure "sink failure")) ∧
      Follows "order1" (callsMade silent addressPlan (some "order1") [some "customer1", none] ())
        (events failingAfter addressPlan (some "order1") [some "customer1", none] 2)
        (.error (.evaluation (.clientFailure "sink failure"))) ∧
      ∃ compiled,
        (Include.compile Include.passedOrders 1 Include.overlappingContext Include.shop.find?).1 =
            .ok compiled ∧ addressPlan ∈ compiled.plans ∧
          (callsMade silent addressPlan (some "order1") [some "customer1", none] ()).filterMap
            (·.related?) = [some "customer1", none] := by
  have hfollows :=
    runAsync_follows_run silent failingAfter addressPlan [some "customer1", none] () 2
  have hplan : ∃ compiled,
      (Include.compile Include.passedOrders 1 Include.overlappingContext Include.shop.find?).1 =
        .ok compiled ∧ addressPlan ∈ compiled.plans := ⟨_, rfl, .tail _ (.head _)⟩
  obtain ⟨compiled, hcompiled, hmem⟩ := hplan
  exact ⟨rfl, hfollows.1 "order1", compiled, hcompiled, hmem,
    (hfollows.2.2 _ _ _ _ _ hcompiled hmem rfl).2 "order1"⟩

/-- The signal of this sink has been given. -/
def alreadyCancelled : AsyncSink Unit String where
  accept _ s := (.ok (), s)
  cancelled s := (true, s)

/-- A plan without steps has no calls to make, so they are all made, but a signal still cancels
it. -/
theorem runAsync_cancelled_without_calls :
    ¬ ((runAsync alreadyCancelled ⟨0, "Order", []⟩ (some "order1") [] ()).1 = .ok (some "order1") ↔
      (events alreadyCancelled ⟨0, "Order", []⟩ (some "order1") [] ()).filterMap (·.call?) =
          callsMade silent ⟨0, "Order", []⟩ (some "order1") [] () ∧
        ∀ call error, .called call (.error error) ∉
          events alreadyCancelled ⟨0, "Order", []⟩ (some "order1") [] ()) := by
  intro h
  cases h.mpr ⟨rfl, by simp [events, runAsync, AsyncSink.logged, alreadyCancelled]⟩

end Fixup

end QueryTree
