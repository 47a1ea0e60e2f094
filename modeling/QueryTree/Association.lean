/-! Association lists in which every key occurs once. -/

namespace QueryTree

/-- The list with the entry of a key replaced, or added at the end. -/
def upsert {α β : Type} [DecidableEq α] (key : α) (value : β) : List (α × β) → List (α × β)
  | [] => [(key, value)]
  | (k, v) :: rest => if k = key then (k, value) :: rest else (k, v) :: upsert key value rest

theorem lookup_upsert {α β : Type} [DecidableEq α] (key : α) (value : β) (l : List (α × β))
    (k : α) : (upsert key value l).lookup k = if k = key then some value else l.lookup k := by
  induction l with
  | nil =>
    by_cases h : k = key
    · simp [upsert, h]
    · have hb : (k == key) = false := by simpa using h
      simp [upsert, List.lookup_cons, h, hb]
  | cons p rest ih =>
    obtain ⟨k', v'⟩ := p
    by_cases hk : k = k'
    · subst hk
      by_cases h : k = key <;> simp [upsert, h]
    · have hb : (k == k') = false := by simpa using hk
      by_cases h : k' = key
      · subst h
        simp [upsert, List.lookup_cons, hb, hk]
      · simp [upsert, h, List.lookup_cons, hb, ih]

end QueryTree
