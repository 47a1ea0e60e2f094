import Mathlib.Logic.Equiv.Basic
import QueryTree.Compilation
import QueryTree.Proofs.ParameterRun
import QueryTree.Proofs.PassNodes
import QueryTree.Proofs.RecordMap

/-! Queries that differ only in the records they capture share their shape. Two extractions, one of
an expression and one of the expression with other records in place of its own, go through
corresponding sites side by side and give corresponding sites the same names. -/

namespace QueryTree

open QueryTree.Expr

/-! ### Records and mobility -/

namespace Extractor

variable {f : Record → Record}

theorem needsLiterals_mapRecords (e : Expr) : needsLiterals (e.mapRecords f) = needsLiterals e := by
  cases e <;> rfl

theorem captures_mapRecords (e : Expr) : captures (e.mapRecords f) = captures e := by
  cases e with
  | constant v => exact v.isRecord_mapRecord f
  | _ => rfl

theorem isLambda_mapRecords (e : Expr) : (e.mapRecords f).isLambda = e.isLambda := by
  cases e <;> rfl

theorem allows_mapRecords (e : Expr) :
    Policy.standard.allows (e.mapRecords f) = Policy.standard.allows e := by
  cases e <;> rfl

theorem any_captures_mapRecords (e : Expr) :
    (e.mapRecords f).nodes.any captures = e.nodes.any captures := by
  rw [nodes_mapRecords, List.any_map]
  congr 1
  funext n
  exact captures_mapRecords n

theorem usesContext_mapRecords (e : Expr) : (e.mapRecords f).usesContext = e.usesContext := by
  unfold usesContext
  rw [nodes_mapRecords, List.any_map]
  congr 1
  funext n
  cases n <;> rfl

theorem baseName?_mapRecords (e : Expr) : baseName? (e.mapRecords f) = baseName? e := by
  induction e using byChildren with
  | step e ih =>
    cases e with
    | member t m => simp only [mapRecords, baseName?, ih t (by simp [children])]
    | unary op t => simp only [mapRecords, baseName?, ih t (by simp [children])]
    | _ => rfl

theorem accessorBase_mapRecords (e : Expr) : accessorBase (e.mapRecords f) = accessorBase e := by
  unfold accessorBase
  rw [strip_mapRecords]
  cases e.strip <;> rfl

theorem mapRecords_eq_self {e : Expr} (h : e.nodes.any captures = false) : e.mapRecords f = e := by
  induction e using byChildren with
  | step e ih =>
    rw [nodes_eq, List.any_cons, Bool.or_eq_false_iff, List.any_flatMap, List.any_eq_false] at h
    by_cases hconstant : ∃ v, e = constant v
    · obtain ⟨v, rfl⟩ := hconstant
      rw [mapRecords, Value.mapRecord_of_not h.1]
    · have hchildren : e.children.map (mapRecords f) = e.children := by
        rw [List.map_congr_left fun c hc => ih c hc (by simpa using h.2 c hc), List.map_id']
      rw [mapRecords_eq_mapChildren fun v he => hconstant ⟨v, he⟩, ← withChildren_map, hchildren,
        withChildren_children]

end Extractor

/-! ### Corresponding sites -/

/-- The same place with other records. -/
def Extractor.Site.mapRecords (f : Record → Record) (site : Extractor.Site) : Extractor.Site :=
  { site with root := site.root.mapRecords f }

namespace Extractor

variable {x : Extractor} {f : Record → Record} (hpolicy : x.policy = .standard)
  {inLambda literal : Bool} {e : Expr}

section Sites

include hpolicy

theorem movable_mapRecords (e : Expr) : x.movable (e.mapRecords f) = x.movable e := by
  unfold movable
  rw [nodes_mapRecords, List.all_map]
  congr 1
  funext n
  simp only [Function.comp_apply, hpolicy, allows_mapRecords, needsLiterals_mapRecords]

theorem siteAt_mapRecords (inLambda literal : Bool) (e : Expr) :
    x.siteAt inLambda literal (e.mapRecords f) =
      (x.siteAt inLambda literal e).map (Site.mapRecords f) := by
  unfold siteAt
  rw [movable_mapRecords hpolicy]
  split <;> rfl

theorem sitesBelow_mapRecords (inLambda : Bool) (e : Expr) :
    x.sitesBelow inLambda (e.mapRecords f) =
      (x.sitesBelow inLambda e).map (Site.mapRecords f) := by
  induction e using byChildren generalizing inLambda with
  | step e ih =>
    have hmapped := movable_mapRecords (f := f) hpolicy e
    cases hm : x.movable e with
    | true =>
      rw [sitesBelow_of_movable hm, sitesBelow_of_movable (hmapped.trans hm), List.map_nil]
    | false =>
      rw [sitesBelow_of_not hm, sitesBelow_of_not (hmapped.trans hm), children_mapRecords,
        isLambda_mapRecords, needsLiterals_mapRecords, List.map_append, List.map_flatMap,
        List.map_flatMap, List.flatMap_map, List.flatMap_map]
      congr 1
      · exact List.flatMap_congr fun c hc => ih c hc _
      · exact List.flatMap_congr fun c _ => siteAt_mapRecords hpolicy _ _ c

theorem sites_mapRecords (inLambda literal : Bool) (e : Expr) :
    x.sites inLambda literal (e.mapRecords f) =
      (x.sites inLambda literal e).map (Site.mapRecords f) := by
  unfold sites
  rw [sitesBelow_mapRecords hpolicy, siteAt_mapRecords hpolicy, List.map_append]

/-- Constants always move, so a node that stays has no record to replace. -/
theorem withChildren_mapRecords (hm : x.movable e = false) {es : List Expr}
    (hlen : es.length = e.children.length) :
    (e.mapRecords f).withChildren es = e.withChildren es := by
  have hconstant : ∀ v, e ≠ constant v := by
    rintro v rfl
    have hmoves : x.movable (constant v) = true := by
      unfold movable
      rw [hpolicy]
      rfl
    rw [hmoves] at hm
    cases hm
  rw [mapRecords_eq_mapChildren hconstant, ← withChildren_map,
    withChildren_withChildren (List.length_map _) hlen]

theorem replaceMaximal_mapRecords {put put' : Bool → Bool → Expr → Expr}
    (h : ∀ site ∈ x.sites inLambda literal e,
      put' site.inLambda site.literal (site.root.mapRecords f) =
      put site.inLambda site.literal site.root) :
    x.replaceMaximal put' inLambda literal (e.mapRecords f) =
      x.replaceMaximal put inLambda literal e := by
  induction e using byChildren generalizing inLambda literal with
  | step e ih =>
    have hmapped := movable_mapRecords (f := f) hpolicy e
    cases hm : x.movable e with
    | true =>
      rw [replaceMaximal_of_movable hm, replaceMaximal_of_movable (hmapped.trans hm)]
      exact h ⟨inLambda, literal, e⟩ (by simp [sites_of_movable hm])
    | false =>
      rw [replaceMaximal_of_not hm, replaceMaximal_of_not (hmapped.trans hm), children_mapRecords,
        isLambda_mapRecords, needsLiterals_mapRecords, List.map_map,
        withChildren_mapRecords hpolicy hm (List.length_map _)]
      congr 1
      apply List.map_congr_left
      intro c hc
      apply ih c hc
      intro site hsite
      exact h site ((mem_sites_of_not hm).mpr ⟨c, hc, hsite⟩)

end Sites

theorem literal_of_mem_sites (hliteral : e.All fun n => needsLiterals n = false) {site : Site}
    (h : site ∈ x.sites inLambda false e) : site.literal = false := by
  induction e using byChildren generalizing inLambda with
  | step e ih =>
    cases hm : x.movable e with
    | true =>
      rw [sites_of_movable hm, List.mem_singleton] at h
      rw [h]
    | false =>
      obtain ⟨c, hc, hsite⟩ := (mem_sites_of_not hm).mp h
      rw [hliteral.node] at hsite
      exact ih c hc (hliteral.child hc) hsite

theorem defers_mapRecords (t : Expr) : x.defers (t.mapRecords f) = x.defers t := by
  unfold defers
  rw [usesContext_mapRecords]

theorem parameterizes_mapRecords (t : Expr) :
    x.parameterizes inLambda literal (t.mapRecords f) = x.parameterizes inLambda literal t := by
  unfold parameterizes becomesParameter
  rw [defers_mapRecords, any_captures_mapRecords]

theorem newName_mapRecords (t : Expr) {store store' : ParameterStore}
    (h : store'.length = store.length) :
    x.newName (t.mapRecords f) store' = x.newName t store := by
  unfold newName parameterName
  rw [defers_mapRecords, accessorBase_mapRecords, baseName?_mapRecords, h]

end Extractor

/-! ### Two runs side by side -/

theorem ParameterStore.names_add {store store' : ParameterStore} (h : store'.names = store.names)
    (name : String) (binding binding' : Binding) :
    (store'.add name binding').names = (store.add name binding).names := by
  unfold ParameterStore.add ParameterStore.names at *
  induction store generalizing store' with
  | nil =>
    obtain rfl := List.map_eq_nil_iff.mp h
    rfl
  | cons entry store ih =>
    obtain ⟨entry', store', rfl⟩ : ∃ entry' rest, store' = entry' :: rest := by
      cases store' with
      | nil => cases h
      | cons entry' rest => exact ⟨entry', rest, rfl⟩
    obtain ⟨hentry, hrest⟩ := List.cons.inj h
    have hentry : entry'.1 = entry.1 := hentry
    rw [upsert, upsert, hentry]
    split
    · simp only [List.map_cons, hrest]
    · simp only [List.map_cons, ih hrest]

/-- The second state gives the same names as the first, and to expressions with other records. -/
structure Extraction.Mirrors (f : Record → Record) (s s' : Extraction) : Prop where
  names : s'.store.names = s.store.names
  known : s'.known = s.known.map fun p => (p.1.mapRecords f, p.2)

namespace Extraction.Mirrors

variable {f : Record → Record} {s s' : Extraction}

theorem length (h : s.Mirrors f s') : s'.store.length = s.store.length := by
  have hlength := congrArg List.length h.names
  simpa [ParameterStore.names] using hlength

theorem lookup (h : s.Mirrors f s') (hf : Function.Injective f) (t : Expr) :
    s'.known.lookup (t.mapRecords f) = s.known.lookup t := by
  rw [h.known]
  induction s.known with
  | nil => rfl
  | cons p known ih =>
    have hsame : (t.mapRecords f == p.1.mapRecords f) = (t == p.1) := by
      rw [Bool.eq_iff_iff, beq_iff_eq, beq_iff_eq]
      exact (mapRecords_injective hf).eq_iff
    rw [List.map_cons, List.lookup_cons, List.lookup_cons, hsame, ih]

end Extraction.Mirrors

namespace Extractor

variable {x : Extractor} {f : Record → Record} (hf : Function.Injective f) {s s' : Extraction}

include hf

/-- Placements of corresponding sites that both succeed keep the states in step. -/
theorem Places.mirrors {site : Site} {e₁ e₂ : Expr} {s₁ s₂ : Extraction}
    (h₁ : x.Places site s (.ok e₁) s₁) (h₂ : x.Places (site.mapRecords f) s' (.ok e₂) s₂)
    (hs : s.Mirrors f s') : s₁.Mirrors f s₂ := by
  have hlookup : s'.known.lookup (site.mapRecords f).root = s.known.lookup site.root :=
    hs.lookup hf site.root
  have hp : x.parameterizes (site.mapRecords f).inLambda (site.mapRecords f).literal
      (site.mapRecords f).root = x.parameterizes site.inLambda site.literal site.root :=
    parameterizes_mapRecords site.root
  have hname : x.newName (site.mapRecords f).root s'.store = x.newName site.root s.store :=
    newName_mapRecords site.root hs.length
  cases h₁ with
  | known hp₁ hk₁ =>
    cases h₂ with
    | known => exact hs
    | value => exact hs
    | new _ hk₂ _ =>
      rw [hlookup, hk₁] at hk₂
      cases hk₂
  | value hp₁ hv₁ =>
    cases h₂ with
    | known => exact hs
    | value => exact hs
    | new hp₂ _ _ =>
      rw [hp, hp₁] at hp₂
      cases hp₂
  | new hp₁ hk₁ hb₁ =>
    cases h₂ with
    | known _ hk₂ =>
      rw [hlookup, hk₁] at hk₂
      cases hk₂
    | value hp₂ _ =>
      rw [hp, hp₁] at hp₂
      cases hp₂
    | new hp₂ hk₂ hb₂ =>
      constructor
      · rw [hname]
        exact ParameterStore.names_add hs.names _ _ _
      · rw [hname, hs.known, List.map_append]
        rfl

theorem runSites_mirrors {run : List Site} (hs : s.Mirrors f s')
    (h₁ : (x.runSites run s).1 = .ok ())
    (h₂ : (x.runSites (run.map (Site.mapRecords f)) s').1 = .ok ()) :
    (x.runSites run s).2.Mirrors f (x.runSites (run.map (Site.mapRecords f)) s').2 := by
  induction run generalizing s s' with
  | nil => exact hs
  | cons site rest ih =>
    have hplaces₁ := x.placeAt_places site s
    have hplaces₂ := x.placeAt_places (site.mapRecords f) s'
    rw [List.map_cons] at h₂ ⊢
    rw [runSites_cons] at h₁ h₂ ⊢
    rw [runSites_cons]
    rcases hr₁ : x.placeAt site s with ⟨error | e₁, s₁⟩
    · rw [hr₁] at h₁
      cases h₁
    rcases hr₂ : x.placeAt (site.mapRecords f) s' with ⟨error | e₂, s₂⟩
    · rw [hr₂] at h₂
      cases h₂
    rw [hr₁] at hplaces₁ h₁
    rw [hr₂] at hplaces₂ h₂
    exact ih (hplaces₁.mirrors hf hplaces₂ hs) h₁ h₂

/-- Two extractions of expressions that differ only in their records end in one shape, with one list
of names. -/
theorem extract_mapRecords (hpolicy : x.policy = .standard) (hparameterize : x.parameterize = true)
    {e shape shape' : Expr} (hliteral : e.All fun n => needsLiterals n = false)
    {store store' : ParameterStore} (hnames : store'.names = store.names)
    (h : (x.extract e store).1 = .ok shape)
    (h' : (x.extract (e.mapRecords f) store').1 = .ok shape') :
    shape' = shape ∧ (x.extract (e.mapRecords f) store').2.names = (x.extract e store).2.names := by
  obtain ⟨hrun, rfl⟩ := eq_shape_of_extract h
  obtain ⟨hrun', rfl⟩ := eq_shape_of_extract h'
  have hstart : Extraction.Mirrors f ⟨store, []⟩ ⟨store', []⟩ := ⟨hnames, rfl⟩
  have hmirrors : (x.placements e store).2.Mirrors f (x.placements (e.mapRecords f) store').2 := by
    unfold placements at hrun hrun' ⊢
    rw [sites_mapRecords hpolicy] at hrun' ⊢
    exact runSites_mirrors hf hstart hrun hrun'
  constructor
  · apply replaceMaximal_mapRecords hpolicy
    intro site hsite
    unfold put
    rw [parameterizes_mapRecords, hmirrors.lookup hf]
    cases hp : x.parameterizes site.inLambda site.literal site.root with
    | true => rfl
    | false =>
      -- what becomes a constant has captured nothing, so it has no records
      have hcaptures : site.root.nodes.any captures = false := by
        have hb := (Bool.or_eq_false_iff.mp hp).2
        rw [becomesParameter, literal_of_mem_sites hliteral hsite, hparameterize] at hb
        simpa using (Bool.or_eq_false_iff.mp hb).1
      rw [mapRecords_eq_self hcaptures]
  · rw [extract_eq, extract_eq]
    exact hmirrors.names

end Extractor

/-! ### Compilations -/

theorem Extractor.needsLiterals_rule : PassRule fun n => needsLiterals n = false where
  constant _ _ := rfl
  var _ := rfl
  unary _ _ _ := rfl
  binary _ _ _ _ := rfl
  lambda _ _ _ := rfl
  conditional _ _ _ _ := rfl
  member _ _ _ _ _ := rfl
  call _ _ _ _ _ _ _ h := h
  staticCall _ _ _ _ _ h := h
  invoke _ _ _ _ _ _ _ := rfl
  comparison _ _ _ _ _ _ _ _ _ := rfl

namespace Compiler

/-- A compilation depends on an expression only through its shape, apart from the store. -/
theorem compile_of_prepare (c : Compiler) (registry : Registry) (keyspace : Keyspace) (e e' : Expr)
    (store store' : ParameterStore) (cache : QueryCache)
    (h : (c.prepare e' store').1 = (c.prepare e store).1) :
    c.compile registry keyspace e' store' cache =
      { c.compile registry keyspace e store cache with store := (c.prepare e' store').2 } := by
  unfold compile
  rcases hp : c.prepare e store with ⟨error | shape, filled⟩ <;>
    rcases hp' : c.prepare e' store' with ⟨error' | shape', filled'⟩ <;>
    rw [hp, hp'] at h <;> cases h <;> rfl

/-- Queries that differ only in the records they capture have one shape, and their parameters have
the same names in the same order. So they are found under one key, and their compilations differ in
nothing but the values in the store. -/
theorem prepare_mapRecords (c : Compiler) (hpolicy : c.extractor.policy = .standard)
    (hparameterize : c.extractor.parameterize = true) {f : Record → Record}
    (hf : Function.Injective f) (e : Expr)
    (hliteral : ∀ n ∈ e.nodes, Extractor.needsLiterals n = false) (store store' : ParameterStore)
    (hnames : store'.names = store.names) (h : ∃ shape, (c.prepare e store).1 = .ok shape)
    (h' : ∃ shape, (c.prepare (e.mapRecords f) store').1 = .ok shape) :
    (c.prepare (e.mapRecords f) store').1 = (c.prepare e store).1 ∧
    (c.prepare (e.mapRecords f) store').2.names = (c.prepare e store).2.names ∧
    ∀ registry keyspace cache, c.compile registry keyspace (e.mapRecords f) store' cache =
      { c.compile registry keyspace e store cache with
        store := (c.prepare (e.mapRecords f) store').2 } := by
  have hboth : (c.prepare (e.mapRecords f) store').1 = (c.prepare e store).1 ∧
      (c.prepare (e.mapRecords f) store').2.names = (c.prepare e store).2.names := by
    obtain ⟨shape, h⟩ := h
    obtain ⟨shape', h'⟩ := h'
    have hkeeps := (Pass.normalize_keepsNodes c.limit).all Extractor.needsLiterals_rule hliteral
    have hnormal := Pass.normalize_mapRecords f c.limit e
    unfold prepare at h h' ⊢
    cases hrun : (Pass.normalize c.limit).run e with
    | error error =>
      rw [hrun] at h
      cases h
    | ok normal =>
      rw [hrun] at hkeeps hnormal h
      rw [hnormal] at h' ⊢
      obtain ⟨hshape, hsame⟩ :=
        Extractor.extract_mapRecords hf hpolicy hparameterize hkeeps hnames h h'
      exact ⟨by rw [h, ← hshape]; exact h', hsame⟩
  exact ⟨hboth.1, hboth.2, fun registry keyspace cache =>
    c.compile_of_prepare registry keyspace e _ store store' cache hboth.1⟩

/-- Adults of a captured country, with the age limit that the record says, and the record once more
inside an invoked lambda. -/
def adults (captured : Record) : Expr :=
  let closure := .constant (.record captured.1 captured.2)
  .staticCall (.queryable "Where" 2) [.entityQuery "Customer", .lambda ["c"]
    (.and
      (.binary .ge (.member (.var "c") ⟨"Customer", "Age"⟩) (.member closure ⟨"Closure", "limit"⟩))
      (.invoke (.lambda ["x"] (.call (.member (.var "c") ⟨"Customer", "Country"⟩) .stringStartsWith
        [.member (.var "x") ⟨"Closure", "country"⟩])) [closure]))]

def firstCapture : Record := ("Closure", [("country", .string "FR"), ("limit", .int 18)])

def secondCapture : Record := ("Closure", [("country", .string "US"), ("limit", .int 21)])

/-- A compiler with the standard settings. -/
def standardCompiler : Compiler :=
  .ofSettings (fun name => some ⟨name, []⟩) .standard 3 ⟨⟨0, 0⟩, fun _ => .empty⟩

theorem prepare_mapRecords_adults :
    (adults firstCapture).mapRecords (Equiv.swap firstCapture secondCapture) =
      adults secondCapture ∧
    (standardCompiler.prepare (adults firstCapture) []).1.isOk = true ∧
    (standardCompiler.prepare (adults secondCapture) []).1 =
      (standardCompiler.prepare (adults firstCapture) []).1 ∧
    (standardCompiler.prepare (adults secondCapture) []).2.names =
      (standardCompiler.prepare (adults firstCapture) []).2.names := by
  have hmapped : (adults firstCapture).mapRecords (Equiv.swap firstCapture secondCapture) =
      adults secondCapture := by
    decide +kernel
  have hfirst : (standardCompiler.prepare (adults firstCapture) []).1.isOk = true := by
    decide +kernel
  have hsecond : (standardCompiler.prepare (adults secondCapture) []).1.isOk = true := by
    decide +kernel
  have hexists : ∀ {r : Except Error Expr}, r.isOk = true → ∃ shape, r = .ok shape := by
    intro r hr
    cases r with
    | error error => cases hr
    | ok shape => exact ⟨shape, rfl⟩
  have hshared := prepare_mapRecords standardCompiler rfl rfl
    (Equiv.swap firstCapture secondCapture).injective (adults firstCapture)
      (by decide +kernel) [] [] rfl
    (hexists hfirst) (by rw [hmapped]; exact hexists hsecond)
  rw [hmapped] at hshared
  exact ⟨hmapped, hfirst, hshared.1, hshared.2.1⟩

end Compiler

end QueryTree
