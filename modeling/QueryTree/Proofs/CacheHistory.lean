import Mathlib.Data.Finset.Card
import Mathlib.Data.List.DropRight
import Mathlib.Data.List.Induction
import QueryTree.Proofs.Cells

/-! Histories of a cache. The log of a history lists what each call was seen to do. Everything
that a cache answers and counts can be read off its log: no cell, filled or empty, has to be
looked at. -/

namespace QueryTree.Cache

/-- A call to a cache. The function that compiles may look at the cache, and it may fail. -/
inductive Request (K D E : Type) where
  | getOrAdd (space : Keyspace) (key : K) (compile : Cache K D → Except E D)
  | get (space : Keyspace) (key : K)
  | stats
  | clear

/-- What a call was seen to do; `ran` says whether its own function was run. -/
inductive Event (K D E : Type) where
  | answered (cell : Keyspace × K) (result : Except E D) (ran : Bool)
  | found (cell : Keyspace × K) (d : Option D)
  | counted (hits misses entries : Nat)
  | cleared

variable {K D E : Type} [DecidableEq K]

/-! ### Logs -/

namespace Event

def isClear : Event K D E → Bool
  | cleared => true
  | _ => false

def requested? : Event K D E → Option (Keyspace × K)
  | answered cell _ _ => some cell
  | _ => none

/-- A call that was answered with a result. -/
def succeeds : Event K D E → Bool
  | answered _ (.ok _) _ => true
  | _ => false

/-- A call whose own function was run and succeeded. -/
def compiles : Event K D E → Bool
  | answered _ (.ok _) ran => ran
  | _ => false

def compiled? (cell : Keyspace × K) : Event K D E → Option D
  | answered cell' (.ok d) true => if cell = cell' then some d else none
  | _ => none

end Event

def sinceClear (log : List (Event K D E)) : List (Event K D E) := log.rtakeWhile (!·.isClear)

/-- The first result that was compiled for a cell since the last clearing. -/
def stored (log : List (Event K D E)) (cell : Keyspace × K) : Option D :=
  (sinceClear log).findSome? (·.compiled? cell)

/-- The cells that were asked for since the last clearing by calls that may compile. -/
def requested (log : List (Event K D E)) : Finset (Keyspace × K) :=
  ((sinceClear log).filterMap (·.requested?)).toFinset

variable {log : List (Event K D E)} {event : Event K D E} {cell x : Keyspace × K}

theorem stored_concat (h : event.isClear = false) :
    stored (log ++ [event]) cell = (stored log cell).or (event.compiled? cell) := by
  rw [stored, sinceClear, List.rtakeWhile_concat_pos _ _ _ (by simp [h]), List.findSome?_append]
  simp [stored, sinceClear]

theorem mem_requested_concat (h : event.isClear = false) :
    x ∈ requested (log ++ [event]) ↔ x ∈ requested log ∨ event.requested? = some x := by
  rw [requested, sinceClear, List.rtakeWhile_concat_pos _ _ _ (by simp [h]), List.filterMap_append]
  simp [requested, sinceClear]

theorem stored_cleared : stored (log ++ [.cleared]) cell = none := by
  rw [stored, sinceClear, List.rtakeWhile_concat_neg _ _ _ (by simp [Event.isClear])]
  rfl

theorem requested_cleared : requested (log ++ [.cleared]) = ∅ := by
  rw [requested, sinceClear, List.rtakeWhile_concat_neg _ _ _ (by simp [Event.isClear])]
  rfl

/-! ### Runs -/

def serve (c : Cache K D) : Request K D E → Event K D E × Cache K D
  | .getOrAdd space key compile =>
    let ((result, ran), c) := c.getOrAdd space key fun c => (compile c, c)
    (.answered (space, key) result ran, c)
  | .get space key => (.found (space, key) (c.get? space key), c)
  | .stats => (.counted c.hits c.misses c.size, c)
  | .clear => (.cleared, c.clear)

/-- A cache, and the log of the calls that led to it. -/
structure History (K D E : Type) where
  log : List (Event K D E)
  cache : Cache K D

def History.record (h : History K D E) (request : Request K D E) : History K D E :=
  ⟨h.log ++ [(h.cache.serve request).1], (h.cache.serve request).2⟩

/-- What calls lead to, from an empty cache. -/
def run (requests : List (Request K D E)) : History K D E :=
  requests.foldl History.record ⟨[], .empty⟩

variable {c : Cache K D} {space : Keyspace} {key : K} {compile : Cache K D → Except E D} {d : D}

theorem serve_of_stored (h : c.get? space key = some d) :
    c.serve (.getOrAdd space key compile) =
      (.answered (space, key) (.ok d) false, { c with hits := c.hits + 1 }) := by
  simp only [serve, getOrAdd_of_stored h]

theorem serve_of_error {e : E} (h : c.get? space key = none)
    (hcompile : compile (c.reserve space key) = .error e) :
    c.serve (.getOrAdd space key compile) =
      (.answered (space, key) (.error e) true, c.reserve space key) := by
  have hcall : c.getOrAdd space key (fun c => (compile c, c)) =
      ((.error e, true), c.reserve space key) := getOrAdd_of_error h (by rw [hcompile])
  simp only [serve, hcall]

theorem serve_of_ok (h : c.get? space key = none)
    (hcompile : compile (c.reserve space key) = .ok d) :
    c.serve (.getOrAdd space key compile) =
      (.answered (space, key) (.ok d) true,
        { (c.reserve space key).fill space key d with
          misses := (c.reserve space key).misses + 1 }) := by
  have hcall : c.getOrAdd space key (fun c => (compile c, c)) = ((.ok d, true),
      { (c.reserve space key).fill space key d with misses := (c.reserve space key).misses + 1 }) :=
    getOrAdd_of_ok h (by rw [hcompile])
  simp only [serve, hcall]

/-- The cells and the counters are as the log says. -/
structure Tallies (log : List (Event K D E)) (c : Cache K D) : Prop where
  stored : ∀ space key, c.get? space key = stored log (space, key)
  successes : c.hits + c.misses = log.countP (·.succeeds)
  misses : c.misses = log.countP (·.compiles)
  nodup : c.keys.Nodup
  requested : ∀ x, x ∈ c.keys ↔ x ∈ requested log

namespace Tallies

/-- What a call that does not clear has to do to the cache, given what it was seen to do. -/
theorem step {c' : Cache K D} (h : Tallies log c) (hclear : event.isClear = false)
    (hstored : ∀ space key, c'.get? space key =
      (c.get? space key).or (event.compiled? (space, key)))
    (hsuccesses : c'.hits + c'.misses = c.hits + c.misses + event.succeeds.toNat)
    (hmisses : c'.misses = c.misses + event.compiles.toNat) (hnodup : c'.keys.Nodup)
    (hkeys : ∀ x, x ∈ c'.keys ↔ x ∈ c.keys ∨ event.requested? = some x) :
    Tallies (log ++ [event]) c' where
  stored space key := by rw [stored_concat hclear, hstored, h.stored]
  successes := by
    rw [hsuccesses, h.successes, List.countP_append]
    cases hevent : event.succeeds <;> simp [hevent]
  misses := by
    rw [hmisses, h.misses, List.countP_append]
    cases hevent : event.compiles <;> simp [hevent]
  nodup := hnodup
  requested x := by rw [mem_requested_concat hclear, hkeys, h.requested]

theorem getOrAdd (h : Tallies log c) (space : Keyspace) (key : K)
    (compile : Cache K D → Except E D) :
    Tallies (log ++ [(c.serve (.getOrAdd space key compile)).1])
      (c.serve (.getOrAdd space key compile)).2 := by
  cases hcell : c.get? space key with
  | some d =>
    rw [serve_of_stored hcell]
    apply h.step rfl
    · intro s k
      exact Option.or_none.symm
    · show c.hits + 1 + c.misses = c.hits + c.misses + 1
      omega
    · rfl
    · exact h.nodup
    · intro x
      show x ∈ c.keys ↔ x ∈ c.keys ∨ some (space, key) = some x
      constructor
      · exact .inl
      · intro hx
        obtain hx | hx := hx
        · exact hx
        · exact Option.some.inj hx ▸ mem_keys_of_get? hcell
  | none =>
    have hkeys : ∀ x, x ∈ (c.reserve space key).keys ↔ x ∈ c.keys ∨ some (space, key) = some x := by
      intro x
      rw [mem_keys_reserve, Option.some_inj, eq_comm (a := x)]
    cases hcompile : compile (c.reserve space key) with
    | error e =>
      rw [serve_of_error hcell hcompile]
      apply h.step rfl
      · intro s k
        exact get?_reserve.trans Option.or_none.symm
      · show (c.reserve space key).hits + (c.reserve space key).misses = c.hits + c.misses
        rw [hits_reserve, misses_reserve]
      · exact misses_reserve
      · exact nodup_keys_reserve h.nodup
      · exact hkeys
    | ok d =>
      rw [serve_of_ok hcell hcompile]
      apply h.step rfl
      · intro s k
        show ((c.reserve space key).fill space key d).get? s k =
          (c.get? s k).or (if (s, k) = (space, key) then some d else none)
        rw [get?_fill_reserve]
        split
        next heq =>
          obtain ⟨rfl, rfl⟩ := Prod.mk.inj heq
          rw [hcell, Option.none_or]
        next => exact Option.or_none.symm
      · show (c.reserve space key).hits + ((c.reserve space key).misses + 1) = c.hits + c.misses + 1
        rw [hits_reserve, misses_reserve]
        omega
      · show (c.reserve space key).misses + 1 = c.misses + 1
        rw [misses_reserve]
      · show ((c.reserve space key).fill space key d).keys.Nodup
        rw [keys_fill]
        exact nodup_keys_reserve h.nodup
      · intro x
        show x ∈ ((c.reserve space key).fill space key d).keys ↔ _
        rw [keys_fill]
        exact hkeys x

theorem clear (h : Tallies log c) : Tallies (log ++ [.cleared]) c.clear where
  stored space key := stored_cleared.symm
  successes := by
    rw [List.countP_append]
    exact h.successes
  misses := by
    rw [List.countP_append]
    exact h.misses
  nodup := List.nodup_nil
  requested x := by
    rw [requested_cleared]
    simp [keys, Cache.clear]

theorem serve (h : Tallies log c) (request : Request K D E) :
    Tallies (log ++ [(c.serve request).1]) (c.serve request).2 := by
  cases request with
  | getOrAdd space key compile => exact h.getOrAdd space key compile
  | get space key =>
    exact h.step rfl (fun _ _ => Option.or_none.symm) rfl rfl h.nodup
      fun x => by simp [Cache.serve, Event.requested?]
  | stats =>
    exact h.step rfl (fun _ _ => Option.or_none.symm) rfl rfl h.nodup
      fun x => by simp [Cache.serve, Event.requested?]
  | clear => exact h.clear

theorem size (h : Tallies log c) : c.size = (Cache.requested log).card := by
  have hkeys : c.keys.toFinset = Cache.requested log := by
    ext x
    rw [List.mem_toFinset]
    exact h.requested x
  rw [← hkeys, List.toFinset_card_of_nodup h.nodup, keys, List.length_map]
  rfl

end Tallies

theorem tallies_empty : Tallies ([] : List (Event K D E)) (.empty : Cache K D) where
  stored _ _ := rfl
  successes := rfl
  misses := rfl
  nodup := .nil
  requested x := by simp [keys, empty, requested, sinceClear]

theorem run_tallies (requests : List (Request K D E)) :
    Tallies (run requests).log (run requests).cache := by
  induction requests using List.reverseRecOn with
  | nil => exact tallies_empty
  | append_singleton requests request ih =>
    rw [run, List.foldl_append]
    exact ih.serve request

/-! ### What a log says about a cache -/

/-- The answers of a cache, and its counters, as the log of its history has them. -/
structure Answers (log : List (Event K D E)) (c : Cache K D) : Prop where
  /-- A call runs its own function if nothing was compiled for its cell since the last clearing, and
  answers with the outcome; otherwise it answers with what was compiled first. -/
  calls : ∀ space key (compile : Cache K D → Except E D),
    (c.serve (.getOrAdd space key compile)).1 =
      ((stored log (space, key)).elim
        (.answered (space, key) (compile (c.reserve space key)) true)
        fun d => .answered (space, key) (.ok d) false)
  /-- A call that fails changes neither stored results nor counters; the next one for its cell runs
  its own function again. -/
  failures : ∀ space key (compile : Cache K D → Except E D) e ran,
    (c.serve (.getOrAdd space key compile)).1 = .answered (space, key) (.error e) ran →
    let c' := (c.serve (.getOrAdd space key compile)).2
    (∀ s k, c'.get? s k = c.get? s k) ∧ c'.hits = c.hits ∧ c'.misses = c.misses ∧
      ∀ again : Cache K D → Except E D, (c'.serve (.getOrAdd space key again)).1 =
        .answered (space, key) (again (c'.reserve space key)) true
  /-- Reading finds what was compiled first, and changes nothing. -/
  reads : ∀ space key, c.serve (.get space key : Request K D E) =
    (.found (space, key) (stored log (space, key)), c)
  /-- Every cell that was asked for is an entry, also one for which nothing could be compiled. -/
  stats : c.serve (.stats : Request K D E) = (.counted c.hits c.misses (requested log).card, c)
  successes : c.hits + c.misses = log.countP (·.succeeds)
  misses : c.misses = log.countP (·.compiles)
  clear : let c' := (c.serve (.clear : Request K D E)).2
    c'.hits = c.hits ∧ c'.misses = c.misses

theorem Tallies.calls (h : Tallies log c) (space : Keyspace) (key : K)
    (compile : Cache K D → Except E D) : (c.serve (.getOrAdd space key compile)).1 =
      ((Cache.stored log (space, key)).elim
        (.answered (space, key) (compile (c.reserve space key)) true)
        fun d => .answered (space, key) (.ok d) false) := by
  rw [← h.stored]
  cases hcell : c.get? space key with
  | some d => rw [serve_of_stored hcell, Option.elim_some]
  | none =>
    cases hcompile : compile (c.reserve space key) with
    | error e => rw [serve_of_error hcell hcompile, Option.elim_none]
    | ok d => rw [serve_of_ok hcell hcompile, Option.elim_none]

/-- A failure has nothing stored before it, and leaves no more than an empty cell behind. -/
theorem serve_of_failure {e : E} {ran : Bool}
    (h : (c.serve (.getOrAdd space key compile)).1 = .answered (space, key) (.error e) ran) :
    c.get? space key = none ∧
      (c.serve (.getOrAdd space key compile)).2 = c.reserve space key := by
  cases hcell : c.get? space key with
  | some d =>
    rw [serve_of_stored hcell] at h
    cases h
  | none =>
    cases hcompile : compile (c.reserve space key) with
    | error e => rw [serve_of_error hcell hcompile]; exact ⟨rfl, rfl⟩
    | ok d =>
      rw [serve_of_ok hcell hcompile] at h
      cases h

/-- After any sequence of calls a cache answers and counts as its log says: a function is run if and
only if no compilation for its cell has succeeded since the last clearing, and the first success is
what all later calls get; failures leave no trace but an entry; each successful call is counted
once, as a miss if it compiled and as a hit otherwise. -/
theorem run_answers_from_log (requests : List (Request K D E)) :
    Answers (run requests).log (run requests).cache := by
  have h := run_tallies requests
  constructor
  · exact h.calls
  · intro space key compile e ran hfailure
    obtain ⟨hcell, hcache⟩ := serve_of_failure hfailure
    simp only [hcache]
    refine ⟨fun _ _ => get?_reserve, hits_reserve, misses_reserve, fun again => ?_⟩
    have hagain := (h.serve (.getOrAdd space key compile)).calls space key again
    rw [← (h.serve (.getOrAdd space key compile)).stored, hcache, get?_reserve, hcell,
      Option.elim_none] at hagain
    exact hagain
  · intro space key
    rw [← h.stored]
    rfl
  · rw [← h.size]
    rfl
  · exact h.successes
  · exact h.misses
  · exact ⟨rfl, rfl⟩

/-- A failure, a compilation, a hit, and after a clearing another failure. -/
example :
    let requests : List (Request Nat Nat String) :=
      [.getOrAdd .sync 1 fun _ => .error "boom", .getOrAdd .sync 1 fun _ => .ok 7,
        .getOrAdd .sync 1 fun _ => .ok 8, .clear, .getOrAdd .async 1 fun _ => .error "boom"]
    let c := (run requests).cache
    (c.hits, c.misses, c.size) = (1, 1, 1) ∧ c.get? .sync 1 = none := ⟨rfl, rfl⟩

end QueryTree.Cache
