import QueryTree.Expr.Chain
import QueryTree.Proofs.MaximalExtraction

/-! Extractions that fail. Sites are placed one after the other, and each new parameter is in the
store before the next site is looked at. A site that fails adds nothing itself, but what the sites
before it have added stays; a later extraction counts on from there. -/

namespace QueryTree.Extractor

variable {x : Extractor} {store start : ParameterStore} {s s' : Extraction} {site : Site}
  {run : List Site}

/-! ### Faults -/

/-- The fault of the first site that stands for nothing. -/
def firstFault? (x : Extractor) (run : List Site) : Option Error :=
  run.findSome? fun site =>
    match x.bindingOf site.root with
    | .ok _ => none
    | .error cause => some (x.fault site.root cause)

theorem firstFault?_of_bound (h : ∀ site ∈ run, ∃ binding, x.bindingOf site.root = .ok binding) :
    x.firstFault? run = none := by
  rw [firstFault?, List.findSome?_eq_none_iff]
  intro site hsite
  obtain ⟨binding, hb⟩ := h site hsite
  rw [hb]

theorem firstFault?_append {after : List Site} {cause : EvalError}
    (h : ∀ site ∈ run, ∃ binding, x.bindingOf site.root = .ok binding)
    (hb : x.bindingOf site.root = .error cause) :
    x.firstFault? (run ++ site :: after) = some (x.fault site.root cause) := by
  have hrun := firstFault?_of_bound h
  unfold firstFault? at hrun ⊢
  rw [List.findSome?_append, hrun, Option.none_or, List.findSome?_cons, hb]

/-- Whether an extraction fails, and why, does not depend on the store. -/
theorem extract_error_iff (e : Expr) (store : ParameterStore) (error : Error) :
    (x.extract e store).1 = .error error ↔ x.firstFault? (x.sites false false e) = some error := by
  rw [extract_eq]
  rcases placements_placed x e store with
    ⟨hrun, hs⟩ | ⟨before, site, after, cause, hsites, hrun, hb, hs⟩
  · rw [hrun, firstFault?_of_bound hs.bound]
    simp [Except.map]
  · rw [hrun, hsites, firstFault?_append hs.bound hb]
    simp [Except.map]

/-! ### Numbers of parameters -/

/-- The name of a parameter for an expression, with a number of its own. -/
def nameAt (x : Extractor) (t : Expr) (n : Nat) : String :=
  "__" ++ cleanName (if x.defers t then accessorBase t else (baseName? t).getD "p") ++
    "_" ++ toString n

theorem newName_eq (t : Expr) (store : ParameterStore) :
    x.newName t store = x.nameAt t store.length := rfl

/-- The expression with its sites replaced, parameters being numbered from `n` on. -/
def shapeFrom (x : Extractor) (n : Nat) (e : Expr) : Expr :=
  x.replaceMaximal (fun inLambda literal t =>
    if x.parameterizes inLambda literal t then
      .parameter (x.nameAt t (n + (x.parameterRoots (x.sites false false e)).idxOf t))
    else x.valueOf t) false false e

/-- Parameters are numbered in the order in which they are added. -/
def Counted (x : Extractor) (start : ParameterStore) (s : Extraction) : Prop :=
  ∀ t ∈ s.roots, s.known.lookup t = some (x.nameAt t (start.length + s.roots.idxOf t))

theorem Places.counted {result : Except Error Expr} (h : x.Places site s result s')
    (hbuilt : s.Built x start) (hs : x.Counted start s) : x.Counted start s' := by
  cases h with
  | known | value | fails => exact hs
  | @new binding hp hk hb =>
    intro t ht
    have hroots : Extraction.roots ⟨s.store.add (x.newName site.root s.store) binding,
        s.known ++ [(site.root, x.newName site.root s.store)]⟩ = s.roots ++ [site.root] := by
      simp [Extraction.roots]
    rw [hroots] at ht ⊢
    rw [List.lookup_append]
    by_cases hold : t ∈ s.roots
    · rw [hs t hold, Option.some_or, List.idxOf_append_of_mem hold]
    · obtain rfl : t = site.root := by simpa [hold] using ht
      rw [hk, List.idxOf_append_of_notMem hold, newName_eq, hbuilt.length_store]
      simp

theorem placements_counted (e : Expr) (h : store.Numbered) :
    x.Counted store (x.placements e store).2 := by
  have hrun := runSites_keeps (x := x) (p := fun s => s.Built x store ∧ x.Counted store s)
    (fun hplaces hs => ⟨hplaces.built hs.1, hplaces.counted hs.1 hs.2⟩) (x.sites false false e)
    ⟨.empty h, nofun⟩
  exact hrun.2

/-- The result of an extraction whose parameters are numbered from `n` on. -/
def outcome (x : Extractor) (n : Nat) (e : Expr) : Except Error Expr :=
  match x.firstFault? (x.sites false false e) with
  | none => .ok (x.shapeFrom n e)
  | some error => .error error

/-- All that an extraction takes from the store is the number of its parameters. -/
theorem extract_fst (e : Expr) (h : store.Numbered) :
    (x.extract e store).1 = x.outcome store.length e := by
  have hcounted := placements_counted (x := x) e h
  rw [outcome]
  rcases placements_placed x e store with
    ⟨hrun, hs⟩ | ⟨before, site, after, cause, hsites, _, hb, hs⟩
  · rw [extract_eq, hrun, firstFault?_of_bound hs.bound]
    apply congrArg Except.ok
    apply replaceMaximal_congr
    intro site hsite
    cases hp : x.parameterizes site.inLambda site.literal site.root with
    | true =>
      rw [put_of_known hp (hcounted site.root (hs.mem_roots hsite hp)), hs.roots, if_pos rfl]
    | false => rw [put_of_value hp, if_neg (by simp)]
  · have hfault : x.firstFault? (x.sites false false e) = some (x.fault site.root cause) := by
      rw [hsites, firstFault?_append hs.bound hb]
    rw [hfault]
    exact (extract_error_iff e store _).mpr hfault

/-! ### What a failed extraction leaves -/

/-- An extraction fails at the first site that stands for nothing. The store then has the parameters
of the sites before it, each expression once, and nothing of the site or of those after it; it is as
it was if none of the sites before becomes a parameter. The next extraction fails just as it would
have without the failed one. With names that are numbered by their places, the store is as it was
only then, since new parameters stand behind the others, and the next extraction differs in nothing
but that its parameters are numbered on from what is left. -/
theorem extract_error_store (x : Extractor) (e : Expr) (store : ParameterStore) (error : Error)
    (h : (x.extract e store).1 = .error error) :
    ∃ before site after cause,
      x.sites false false e = before ++ site :: after ∧
      (∀ earlier ∈ before, ∃ binding, x.bindingOf earlier.root = .ok binding) ∧
      x.bindingOf site.root = .error cause ∧
      error = x.fault site.root cause ∧
      (x.extract e store).2 = (x.parameterRoots before).foldl x.record store ∧
      ((∀ earlier ∈ before, x.parameterizes earlier.inLambda earlier.literal earlier.root = false) →
        (x.extract e store).2 = store) ∧
      (∀ (y : Extractor) (e' : Expr) (error' : Error),
        (y.extract e' (x.extract e store).2).1 = .error error' ↔
          (y.extract e' store).1 = .error error') ∧
      (store.Numbered →
        store <+: (x.extract e store).2 ∧
        (x.extract e store).2.length = store.length + (x.parameterRoots before).length ∧
        ((x.extract e store).2 = store → ∀ earlier ∈ before,
          x.parameterizes earlier.inLambda earlier.literal earlier.root = false) ∧
        ∀ (y : Extractor) (e' : Expr),
          (y.extract e' store).1 = y.outcome store.length e' ∧
          (y.extract e' (x.extract e store).2).1 = y.outcome (x.extract e store).2.length e') := by
  have hafter : (x.extract e store).2 = (x.placements e store).2.store := by rw [extract_eq]
  rw [extract_eq] at h
  rw [hafter]
  rcases placements_placed x e store with
    ⟨hrun, _⟩ | ⟨before, site, after, cause, hsites, hrun, hb, hs⟩
  · rw [hrun] at h
    cases h
  · rw [hrun] at h
    refine ⟨before, site, after, cause, hsites, hs.bound, hb, (Except.error.inj h).symm, hs.store,
      ?_, ?_, ?_⟩
    · intro hnone
      rw [hs.store, parameterRoots_eq_nil_iff.mpr hnone, List.foldl_nil]
    · intro y e' error'
      rw [extract_error_iff, extract_error_iff]
    intro hstore
    have hbuilt := placements_built (x := x) e hstore
    have hlength := hbuilt.length_store
    rw [hs.roots] at hlength
    refine ⟨hbuilt.isPrefix_store, hlength, ?_, ?_⟩
    · intro hsame
      rw [hsame] at hlength
      rw [← parameterRoots_eq_nil_iff, ← List.length_eq_zero_iff]
      omega
    · exact fun y e' => ⟨extract_fst e' hstore, extract_fst e' hbuilt.numbered⟩

/-- A page of customers; where it starts and how many it has are fields of a record. -/
def pagedCustomers (start size : Int64) : Expr :=
  .take (.skip (.entityQuery "Customer") (field "start"))
    (.staticCall (.ofParts Owner.math "Abs" 1) [field "size"])
where
  field (name : String) : Expr :=
    .member (.constant (.record "Page" [("size", .int size), ("start", .int start)])) ⟨"Page", name⟩

theorem extract_error_store_pagedCustomers :
    ∃ error, (plain.extract (pagedCustomers 20 Int64.minValue) []).1 = .error error ∧
      ∃ before site after cause,
        plain.sites false false (pagedCustomers 20 Int64.minValue) = before ++ site :: after ∧
        plain.bindingOf site.root = .error cause ∧ error = plain.fault site.root cause ∧
        (plain.parameterRoots before).length = 1 ∧
        (plain.extract (pagedCustomers 20 10)
          (plain.extract (pagedCustomers 20 Int64.minValue) []).2).1 =
            plain.outcome 1 (pagedCustomers 20 10) := by
  have hfails : (plain.extract (pagedCustomers 20 Int64.minValue) []).1.isOk = false := by
    decide +kernel
  have hlength : (plain.extract (pagedCustomers 20 Int64.minValue) []).2.length = 1 := by
    decide +kernel
  cases hresult : (plain.extract (pagedCustomers 20 Int64.minValue) []).1 with
  | ok shape =>
    rw [hresult] at hfails
    contradiction
  | error error =>
    obtain ⟨before, site, after, cause, hsites, _, hb, herror, _, _, _, hnumbered⟩ :=
      extract_error_store plain (pagedCustomers 20 Int64.minValue) [] error hresult
    obtain ⟨_, hadded, _, hnext⟩ := hnumbered ParameterStore.Extracted.empty.numbered
    have hretry := (hnext plain (pagedCustomers 20 10)).2
    rw [hlength] at hadded hretry
    rw [List.length_nil, Nat.zero_add] at hadded
    exact ⟨error, rfl, before, site, after, cause, hsites, hb, herror, hadded.symm, hretry⟩

/-- The number of customers has no value, but the start of the page stays in the store, and a page
that is right has other names after it. -/
theorem extract_leaves_pageStart :
    (plain.extract (pagedCustomers 20 Int64.minValue) []).1.isOk = false ∧
    (plain.extract (pagedCustomers 20 Int64.minValue) []).2.names = ["__start_0"] ∧
    (plain.extract (pagedCustomers 20 10) []).2.names = ["__start_0", "__Abs_1"] ∧
    (plain.extract (pagedCustomers 20 10)
      (plain.extract (pagedCustomers 20 Int64.minValue) []).2).2.names =
        ["__start_0", "__start_1", "__Abs_2"] := by
  decide +kernel

end QueryTree.Extractor
