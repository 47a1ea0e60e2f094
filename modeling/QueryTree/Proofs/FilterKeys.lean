import Mathlib.Data.List.Nodup
import Mathlib.Data.List.Perm.Subperm
import QueryTree.Cache.Key

/-! Keys of filters. A key lists its filters once each, in an order that nothing fixes. Two keys of
equally many filters are equal if one of them has all filters of the other, and then the lists are
permutations of each other. So the comparison is symmetric although it looks for the filters of one
side only, and the digests of equal keys agree, as a sum that wraps around does not depend on the
order of its terms. -/

namespace QueryTree.FilterKey

variable {k k' : FilterKey} {entity entity' : Nat} {fs fs' listed : List String} {f g : String}

/-! ### Listing filters -/

theorem mem_insertNew : g ∈ insertNew listed f ↔ g ∈ listed ∨ g = f := by
  unfold insertNew
  split
  next hf =>
    constructor
    · exact .inl
    · rintro (hg | rfl)
      · exact hg
      · exact hf
  next => simp

theorem nodup_insertNew (h : listed.Nodup) : (insertNew listed f).Nodup := by
  unfold insertNew
  split
  next => exact h
  next hf => exact List.nodup_append_comm.mp (List.nodup_cons.mpr ⟨hf, h⟩)

theorem mem_foldl_insertNew : g ∈ fs.foldl insertNew listed ↔ g ∈ listed ∨ g ∈ fs := by
  induction fs generalizing listed with
  | nil => simp
  | cons f fs ih => rw [List.foldl_cons, ih, mem_insertNew, or_assoc, List.mem_cons]

theorem nodup_foldl_insertNew (h : listed.Nodup) : (fs.foldl insertNew listed).Nodup := by
  induction fs generalizing listed with
  | nil => exact h
  | cons f fs ih => exact ih (nodup_insertNew h)

/-- `k` is the key of an entity type and filters, in whatever order it lists them. -/
def IsKeyOf (k : FilterKey) (entity : Nat) (fs : List String) : Prop :=
  k.entity = entity ∧ k.filters.Perm (ofFilters entity fs).filters

theorem IsKeyOf.nodup (h : k.IsKeyOf entity fs) : k.filters.Nodup :=
  h.2.nodup_iff.mpr (nodup_foldl_insertNew List.nodup_nil)

theorem IsKeyOf.mem_filters (h : k.IsKeyOf entity fs) : f ∈ k.filters ↔ f ∈ fs := by
  rw [h.2.mem_iff, ofFilters, mem_foldl_insertNew]
  simp

/-! ### Comparison -/

/-- Keys without repetitions are equal if they list the same filters in any two orders. -/
theorem equals_iff_perm (h : k.filters.Nodup) :
    k.equals k' = true ↔ k.entity = k'.entity ∧ k.filters.Perm k'.filters := by
  have hall : k.filters.all (k'.filters.contains ·) = true ↔ k.filters ⊆ k'.filters := by
    simp [List.subset_def]
  simp only [equals, Bool.and_eq_true, decide_eq_true_eq, hall, and_assoc]
  apply and_congr_right
  intro _
  constructor
  · rintro ⟨hlength, hsubset⟩
    exact (h.subperm hsubset).perm_of_length_le (Nat.le_of_eq hlength.symm)
  · intro hperm
    exact ⟨hperm.length_eq, hperm.subset⟩

theorem digest_eq_of_perm (hash : String → UInt64) (hentity : k.entity = k'.entity)
    (hperm : k.filters.Perm k'.filters) : k.digest hash = k'.digest hash := by
  have hsum : k.filters.foldl (fun sum f => sum + hash f) 0 =
      k'.filters.foldl (fun sum f => sum + hash f) 0 := by
    apply hperm.foldl_eq'
    intro f _ g _ sum
    rw [UInt64.add_assoc, UInt64.add_comm (hash f), ← UInt64.add_assoc]
  rw [digest, digest, hentity, hsum]

/-- Keys are equal just if their entity types and their sets of filters are, which makes equality an
equivalence, and equal keys have one digest. None of this depends on the order of the filters, on
their repetitions or on how a single filter is hashed. -/
theorem equals_same_filters :
    (∀ (k k' : FilterKey) (entity entity' : Nat) (fs fs' : List String),
      k.IsKeyOf entity fs → k'.IsKeyOf entity' fs' →
        (k.equals k' = true ↔ entity = entity' ∧ ∀ f, f ∈ fs ↔ f ∈ fs')) ∧
    Equivalence (fun k k' : { k : FilterKey // ∃ entity fs, k.IsKeyOf entity fs } =>
      k.1.equals k'.1 = true) ∧
    ∀ (k k' : FilterKey) (entity entity' : Nat) (fs fs' : List String),
      k.IsKeyOf entity fs → k'.IsKeyOf entity' fs' → k.equals k' = true →
        ∀ hash, k.digest hash = k'.digest hash := by
  refine ⟨?_, ⟨?_, ?_, ?_⟩, ?_⟩
  · intro k k' entity entity' fs fs' h h'
    rw [equals_iff_perm h.nodup, List.perm_ext_iff_of_nodup h.nodup h'.nodup, h.1, h'.1]
    simp only [h.mem_filters, h'.mem_filters]
  · rintro ⟨k, entity, fs, h⟩
    exact (equals_iff_perm h.nodup).mpr ⟨rfl, .refl _⟩
  · rintro ⟨k, entity, fs, h⟩ ⟨k', entity', fs', h'⟩ heq
    obtain ⟨hentity, hperm⟩ := (equals_iff_perm h.nodup).mp heq
    exact (equals_iff_perm h'.nodup).mpr ⟨hentity.symm, hperm.symm⟩
  · rintro ⟨k, entity, fs, h⟩ ⟨k', entity', fs', h'⟩ ⟨k'', entity'', fs'', h''⟩ heq heq'
    obtain ⟨hentity, hperm⟩ := (equals_iff_perm h.nodup).mp heq
    obtain ⟨hentity', hperm'⟩ := (equals_iff_perm h'.nodup).mp heq'
    exact (equals_iff_perm h.nodup).mpr ⟨hentity.trans hentity', hperm.trans hperm'⟩
  · intro k k' entity entity' fs fs' h h' heq hash
    obtain ⟨hentity, hperm⟩ := (equals_iff_perm h.nodup).mp heq
    exact digest_eq_of_perm hash hentity hperm

example : (ofFilters 0 ["tenant", "deleted"]).equals
    (ofFilters 0 ["deleted", "tenant", "deleted"]) = true := by
  decide

end QueryTree.FilterKey
