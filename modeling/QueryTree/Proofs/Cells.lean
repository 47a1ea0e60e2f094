import Mathlib.Data.List.Nodup
import QueryTree.Cache.Basic

/-! The cells of a cache: what reserving, filling and asking for them does to the stored results, to
the keys and to the counters. -/

namespace QueryTree.Cache

variable {K D E : Type} [DecidableEq K] {c : Cache K D} {space s : Keyspace} {key k : K} {d : D}

/-! ### Stored results -/

theorem get?_reserve : (c.reserve space key).get? s k = c.get? s k := by
  unfold reserve
  cases hcell : c.entries.lookup (space, key) with
  | some cell => rfl
  | none =>
    simp only [get?, List.lookup_append]
    cases c.entries.lookup (s, k) with
    | some cell => rfl
    | none =>
      rw [Option.none_or, List.lookup_cons]
      split <;> rfl

theorem reserve_of_get? (h : c.get? space key = some d) : c.reserve space key = c := by
  unfold reserve
  cases hcell : c.entries.lookup (space, key) with
  | some cell => rfl
  | none => simp [get?, hcell] at h

theorem lookup_fill (c : Cache K D) (d : D) (x : Keyspace × K) :
    (c.fill space key d).entries.lookup x =
      if x = (space, key) then (c.entries.lookup x).map fun _ => some d
      else c.entries.lookup x := by
  obtain ⟨entries, hits, misses⟩ := c
  simp only [fill]
  induction entries with
  | nil => simp
  | cons entry entries ih =>
    obtain ⟨cellKey, cell⟩ := entry
    rw [List.map_cons]
    by_cases hx : x = cellKey
    · subst hx
      by_cases hcell : x = (space, key) <;> simp [hcell]
    · have hne : (x == cellKey) = false := beq_false_of_ne hx
      split <;> simp only [List.lookup_cons, hne, ih]

theorem get?_fill_reserve (c : Cache K D) (d : D) :
    ((c.reserve space key).fill space key d).get? s k =
      if (s, k) = (space, key) then some d else c.get? s k := by
  have hcell : ((c.reserve space key).entries.lookup (space, key)).isSome = true := by
    unfold reserve
    cases hlookup : c.entries.lookup (space, key) <;> simp [hlookup, List.lookup_append]
  rw [get?, lookup_fill]
  split
  next heq =>
    obtain ⟨cell, hcell⟩ := Option.isSome_iff_exists.mp hcell
    simp [heq, hcell]
  next => exact get?_reserve

/-! ### Keys -/

def keys (c : Cache K D) : List (Keyspace × K) := c.entries.map (·.1)

theorem mem_keys_iff : (space, key) ∈ c.keys ↔ (c.entries.lookup (space, key)).isSome := by
  simp [keys, List.lookup_isSome_iff]

theorem mem_keys_of_get? (h : c.get? space key = some d) : (space, key) ∈ c.keys := by
  rw [mem_keys_iff]
  cases hcell : c.entries.lookup (space, key) with
  | some cell => rfl
  | none => simp [get?, hcell] at h

theorem keys_fill : (c.fill space key d).keys = c.keys := by
  simp only [keys, fill, List.map_map]
  apply List.map_congr_left
  intro entry _
  simp only [Function.comp_apply]
  split <;> rfl

theorem keys_reserve : (c.reserve space key).keys =
    if (space, key) ∈ c.keys then c.keys else c.keys ++ [(space, key)] := by
  unfold reserve
  cases hcell : c.entries.lookup (space, key) with
  | some cell => rw [if_pos (by simp [mem_keys_iff, hcell])]
  | none =>
    rw [if_neg (by simp [mem_keys_iff, hcell])]
    simp [keys]

theorem mem_keys_reserve {x : Keyspace × K} :
    x ∈ (c.reserve space key).keys ↔ x ∈ c.keys ∨ x = (space, key) := by
  rw [keys_reserve]
  split
  next hmem =>
    constructor
    · exact .inl
    · intro hx
      obtain hx | rfl := hx
      · exact hx
      · exact hmem
  next => simp

theorem nodup_keys_reserve (h : c.keys.Nodup) : (c.reserve space key).keys.Nodup := by
  rw [keys_reserve]
  split
  next => exact h
  next hmem => simpa only [List.concat_eq_append] using h.concat hmem

/-! ### Calls -/

theorem hits_reserve : (c.reserve space key).hits = c.hits := by
  unfold reserve
  split <;> rfl

theorem misses_reserve : (c.reserve space key).misses = c.misses := by
  unfold reserve
  split <;> rfl

variable {compile : Cache K D → Except E D × Cache K D}

theorem getOrAdd_of_stored (h : c.get? space key = some d) :
    c.getOrAdd space key compile = ((.ok d, false), { c with hits := c.hits + 1 }) := by
  simp only [getOrAdd, reserve_of_get? h, h]

theorem getOrAdd_of_error {e : E} {c' : Cache K D} (h : c.get? space key = none)
    (hcompile : compile (c.reserve space key) = (.error e, c')) :
    c.getOrAdd space key compile = ((.error e, true), c') := by
  simp only [getOrAdd, get?_reserve, h, hcompile]

theorem getOrAdd_of_ok {c' : Cache K D} (h : c.get? space key = none)
    (hcompile : compile (c.reserve space key) = (.ok d, c')) :
    c.getOrAdd space key compile = ((.ok d, true),
      { c'.fill space key d with misses := c'.misses + 1 }) := by
  simp only [getOrAdd, get?_reserve, h, hcompile]
  rfl

/-- The first compilation that succeeds fills the cell of its key, for good. -/
theorem get?_getOrAdd (hcompile : ∀ c, (compile c).2 = c) (c : Cache K D) (space s : Keyspace)
    (key k : K) :
    (c.getOrAdd space key compile).2.get? s k =
      if (s, k) = (space, key) then
        (c.get? space key).or (compile (c.reserve space key)).1.toOption
      else c.get? s k := by
  have hsame : (s, k) = (space, key) → c.get? s k = c.get? space key := by
    intro heq
    obtain ⟨rfl, rfl⟩ := Prod.mk.inj heq
    rfl
  cases hcell : c.get? space key with
  | some d =>
    rw [getOrAdd_of_stored hcell, Option.some_or]
    show c.get? s k = _
    split
    next heq => rw [hsame heq, hcell]
    next => rfl
  | none =>
    have hcache := hcompile (c.reserve space key)
    rw [Option.none_or]
    rcases hresult : compile (c.reserve space key) with ⟨error | d, cache⟩
    · rw [hresult] at hcache
      obtain rfl : cache = c.reserve space key := hcache
      rw [getOrAdd_of_error hcell hresult]
      show (c.reserve space key).get? s k = _
      rw [get?_reserve]
      split
      next heq => rw [hsame heq, hcell]; rfl
      next => rfl
    · rw [hresult] at hcache
      obtain rfl : cache = c.reserve space key := hcache
      rw [getOrAdd_of_ok hcell hresult]
      exact get?_fill_reserve c d

end QueryTree.Cache
