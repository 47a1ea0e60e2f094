import Mathlib.Data.List.Induction
import QueryTree.Proofs.ClosedCompilation
import QueryTree.Proofs.SideBySideRun

/-! Histories of a compiler whose registry grows between compilations. The cache keeps the
translation of a shape from the first compilation that succeeded, and what is registered later does
not reach it. The translation is still the current one as long as the calls in the shape are read as
they were then. -/

namespace QueryTree

/-! ### Registries that read a shape alike -/

section

variable {r r' : Registry}

theorem Registry.kind?_rule (r r' : Registry) :
    Expr.PassRule fun n => r'.kind? n = r.kind? n ∧ n.Canonical where
  constant _ _ := ⟨rfl, nofun⟩
  unary _ _ _ := ⟨rfl, nofun⟩
  binary _ _ _ _ := ⟨rfl, nofun⟩
  lambda _ _ _ := ⟨rfl, nofun⟩
  conditional _ _ _ _ := ⟨rfl, nofun⟩
  member _ _ _ _ _ := ⟨rfl, nofun⟩
  call _ _ _ _ _ _ _ _ := ⟨rfl, nofun⟩
  staticCall := by
    rintro scope m args args' hlen ⟨hkind, hcanonical⟩
    refine ⟨?_, Expr.canonical_rule.staticCall scope m args args' hlen hcanonical⟩
    match args, args', hlen with
    | [], [], _ => rfl
    | _ :: _, _ :: _, _ => exact hkind
  invoke _ _ _ _ _ _ _ := ⟨rfl, nofun⟩
  var _ := ⟨rfl, nofun⟩
  comparison := by
    rintro m first second third left right mode hm ⟨-, hcanonical⟩
    rw [hcanonical m first second third rfl] at hm
    cases hm

/-- Registries agree on expressions in normal form if they read every call in them alike. -/
def Accord.ofNodes (r r' : Registry) {passes : List Pass}
    (hpasses : ∀ pass ∈ passes, pass.KeepsNodes) : Accord r r' passes where
  fit e := e.All fun n => r'.kind? n = r.kind? n ∧ n.Canonical
  source s := Expr.all_iff_children.mpr ⟨⟨rfl, nofun⟩, by simp [Expr.children]⟩
  subquery j := Expr.all_iff_children.mpr ⟨⟨rfl, nofun⟩, by simp [Expr.children]⟩
  kind? h := h.node.1
  child h c hc := h.child hc
  rebuild h hlength hes := (Registry.kind?_rule r r').all_withChildren h.node hlength hes
  bind h hv := (Registry.kind?_rule r r').all_substitute h fun binding hbinding =>
    hv binding.2 (List.of_mem_zip (mem_ofPairs hbinding)).2
  passes h := (Pass.runAll_all (Registry.kind?_rule r r') hpasses h).mono (fun _ he => he)
    fun _ _ => trivial

open Construction in
theorem Builder.build_congr {passes : List Pass} (A : Accord r r' passes) (limit : Nat) {e : Expr}
    (he : A.fit e) : build ⟨r', passes⟩ limit e = build ⟨r, passes⟩ limit e := by
  have hchain := buildChain_tracks A limit e ⟨.empty, []⟩ ⟨.empty, []⟩ he ⟨rfl, rfl, rfl⟩
  unfold Beside at hchain
  simp only [build, StateT.run]
  split at hchain
  next m d m' d' hleft hright =>
    obtain ⟨rfl, hf⟩ := hchain
    obtain ⟨added, hd, hd'⟩ := hf.models
    have harena : d'.arena = d.arena := congrArg₂ Arena.mk (hd'.trans hd.symm) hf.level.sources
    rw [hleft, hright]
    change Except.ok (⟨(d'.arena.addModel m).2, (d'.arena.addModel m).1⟩ : BuiltQuery) = _
    rw [harena]
    rfl
  next error error' hleft hright => rw [hleft, hright, hchain]
  next => exact hchain.elim

/-- What a registry says about other methods plays no part in a translation. -/
theorem Compiler.translate_congr (c : Compiler) {shape : Expr} (hshape : shape.All Expr.Canonical)
    (hkind : ∀ n ∈ shape.nodes, r'.kind? n = r.kind? n) :
    c.translate r' shape = c.translate r shape := by
  have hbuild := Builder.build_congr (Accord.ofNodes r r' (c.builder_keepsNodes r)) c.limit
    fun n hn => ⟨hkind n hn, hshape n hn⟩
  have hbuilder : (c.builder r').build c.limit shape = (c.builder r).build c.limit shape := hbuild
  unfold translate
  rw [hbuilder]

end

/-! ### Histories -/

namespace Compiler

/-- What is asked of a compiler and its registry. -/
inductive Request where
  | compile (keyspace : Keyspace) (e : Expr) (store : ParameterStore)
  | register (provider : Provider)
  | registerMethods (methods : List Signature) (kind : OperatorKind)

/-- A registry, and the cache that has been filled beside it. -/
structure Session where
  registry : Registry
  cache : QueryCache

variable (c : Compiler)

def serve (s : Session) : Request → Session
  | .compile keyspace e store =>
    { s with cache := (c.compile s.registry keyspace e store s.cache).cache }
  | .register provider => { s with registry := s.registry.register provider }
  | .registerMethods methods kind => { s with registry := s.registry.registerMethods methods kind }

/-- What a history leads to, from a registry and an empty cache. -/
def run (r : Registry) (requests : List Request) : Session :=
  requests.foldl c.serve ⟨r, .empty⟩

/-- No compilation of a shape for a mode has succeeded. -/
def Unanswered (r : Registry) (requests : List Request) (keyspace : Keyspace) (shape : Expr) :
    Prop :=
  ∀ earlier e store later, requests = earlier ++ .compile keyspace e store :: later →
    (c.prepare e store).1 = .ok shape →
    ∃ error, (c.translate (c.run r earlier).registry shape).1 = .error error

/-- After `earlier`, a compilation of a shape for a mode has succeeded for the first time, with
`query`. -/
structure FirstAnswer (r : Registry) (requests : List Request) (keyspace : Keyspace) (shape : Expr)
    (earlier : List Request) (query : TranslatedQuery) : Prop where
  asked : ∃ e store later, requests = earlier ++ .compile keyspace e store :: later ∧
    (c.prepare e store).1 = .ok shape
  answered : (c.translate (c.run r earlier).registry shape).1 = .ok query
  first : c.Unanswered r earlier keyspace shape

variable {c} {r : Registry} {requests : List Request} {request : Request} {keyspace : Keyspace}
  {shape : Expr}

theorem run_concat (c : Compiler) (r : Registry) (requests : List Request) (request : Request) :
    c.run r (requests ++ [request]) = c.serve (c.run r requests) request := by
  rw [run, List.foldl_append]
  rfl

theorem FirstAnswer.concat {earlier : List Request} {query : TranslatedQuery}
    (h : c.FirstAnswer r requests keyspace shape earlier query) (request : Request) :
    c.FirstAnswer r (requests ++ [request]) keyspace shape earlier query where
  asked := by
    obtain ⟨e, store, later, rfl, hshape⟩ := h.asked
    exact ⟨e, store, later ++ [request], by simp, hshape⟩
  answered := h.answered
  first := h.first

theorem Unanswered.concat (h : c.Unanswered r requests keyspace shape)
    (hlast : ∀ e store, request = .compile keyspace e store → (c.prepare e store).1 = .ok shape →
      ∃ error, (c.translate (c.run r requests).registry shape).1 = .error error) :
    c.Unanswered r (requests ++ [request]) keyspace shape := by
  intro earlier e store later heq hshape
  rcases List.eq_nil_or_concat later with rfl | ⟨front, last, rfl⟩
  · obtain ⟨rfl, hrequest⟩ := List.append_inj' heq rfl
    exact hlast e store (List.cons.inj hrequest).1 hshape
  · rw [List.concat_eq_append, ← List.cons_append, ← List.append_assoc] at heq
    obtain ⟨rfl, -⟩ := List.append_inj' heq rfl
    exact h earlier e store front rfl hshape

/-- A compilation whose shape is refused leaves the cache as it is. -/
theorem cache_compile_error {registry : Registry} {e : Expr} {store : ParameterStore}
    {cache : QueryCache} {error : Error} (h : (c.prepare e store).1 = .error error) :
    (c.compile registry keyspace e store cache).cache = cache := by
  unfold compile
  rcases hprepare : c.prepare e store with ⟨error | shape, store'⟩
  · rfl
  · rw [hprepare] at h
    cases h

/-- A compilation fills the cell of its own shape and mode, if that is empty, and no other cell. -/
theorem get?_compile {registry : Registry} {e : Expr} {store : ParameterStore} {cache : QueryCache}
    {space : Keyspace} {shape' : Expr} (h : (c.prepare e store).1 = .ok shape') :
    (c.compile registry space e store cache).cache.get? keyspace (c.keyOf keyspace shape) =
      if keyspace = space ∧ shape = shape' then
        (cache.get? keyspace (c.keyOf keyspace shape)).or
          ((c.translate registry shape).1.toOption.map fun query =>
            ⟨query, keyspace, c.keyOf keyspace shape⟩)
      else cache.get? keyspace (c.keyOf keyspace shape) := by
  have hkeys : (keyspace, c.keyOf keyspace shape) = (space, c.keyOf space shape') ↔
      keyspace = space ∧ shape = shape' := by
    constructor
    · intro heq
      obtain ⟨rfl, hkey⟩ := Prod.mk.inj heq
      exact ⟨rfl, congrArg QueryKey.shape hkey⟩
    · rintro ⟨rfl, rfl⟩
      rfl
  have hcache : (c.compile registry space e store cache).cache =
      (cache.getOrAdd space (c.keyOf space shape') fun cache =>
        ((c.translate registry shape').1.map fun query =>
          (⟨query, space, c.keyOf space shape'⟩ : CompiledQuery), cache)).2 := by
    unfold compile
    rcases hprepare : c.prepare e store with ⟨error | shape, store'⟩
    · rw [hprepare] at h
      cases h
    · rw [hprepare] at h
      obtain rfl := Except.ok.inj h
      rfl
  rw [hcache, Cache.get?_getOrAdd fun _ => rfl]
  simp only [hkeys]
  split
  next heq =>
    obtain ⟨rfl, rfl⟩ := heq
    cases (c.translate registry shape).1 <;> rfl
  next => rfl

/-- What the cache holds for a shape and a mode: the first answer, or nothing, if there was none. -/
def Accounted (c : Compiler) (r : Registry) (requests : List Request) (keyspace : Keyspace)
    (shape : Expr) : Prop :=
  ((c.run r requests).cache.get? keyspace (c.keyOf keyspace shape) = none ∧
      c.Unanswered r requests keyspace shape) ∨
    ∃ earlier query, (c.run r requests).cache.get? keyspace (c.keyOf keyspace shape) =
        some ⟨query, keyspace, c.keyOf keyspace shape⟩ ∧
      c.FirstAnswer r requests keyspace shape earlier query

/-- A request that leaves the cell as it is, and an empty cell only if it does not answer. -/
theorem Accounted.keep (h : c.Accounted r requests keyspace shape)
    (hsame : (c.run r (requests ++ [request])).cache.get? keyspace (c.keyOf keyspace shape) =
      (c.run r requests).cache.get? keyspace (c.keyOf keyspace shape))
    (hlast : ∀ e store, request = .compile keyspace e store → (c.prepare e store).1 = .ok shape →
      (c.run r requests).cache.get? keyspace (c.keyOf keyspace shape) = none →
      ∃ error, (c.translate (c.run r requests).registry shape).1 = .error error) :
    c.Accounted r (requests ++ [request]) keyspace shape := by
  unfold Accounted
  rw [hsame]
  rcases h with ⟨hnone, hunanswered⟩ | ⟨earlier, query, hsome, hfirst⟩
  · refine .inl ⟨hnone, hunanswered.concat fun e store hrequest hshape => ?_⟩
    exact hlast e store hrequest hshape hnone
  · exact .inr ⟨earlier, query, hsome, hfirst.concat request⟩

theorem Accounted.compile (h : c.Accounted r requests keyspace shape) (space : Keyspace) (e : Expr)
    (store : ParameterStore) :
    c.Accounted r (requests ++ [.compile space e store]) keyspace shape := by
  have hrun : (c.run r (requests ++ [.compile space e store])).cache =
      (c.compile (c.run r requests).registry space e store (c.run r requests).cache).cache := by
    rw [run_concat]
    rfl
  cases hprepare : (c.prepare e store).1 with
  | error error =>
    apply h.keep
    · rw [hrun, cache_compile_error hprepare]
    · intro e' store' hrequest hshape
      obtain ⟨-, rfl, rfl⟩ := Request.compile.inj hrequest
      exact nomatch hprepare.symm.trans hshape
  | ok shape' =>
    by_cases hmine : keyspace = space ∧ shape = shape'
    · obtain ⟨rfl, rfl⟩ := hmine
      have hcell : (c.run r (requests ++ [.compile keyspace e store])).cache.get? keyspace
          (c.keyOf keyspace shape) =
            ((c.run r requests).cache.get? keyspace (c.keyOf keyspace shape)).or
              ((c.translate (c.run r requests).registry shape).1.toOption.map fun query =>
                ⟨query, keyspace, c.keyOf keyspace shape⟩) := by
        rw [hrun, get?_compile hprepare, if_pos ⟨rfl, rfl⟩]
      rcases h with ⟨hnone, hunanswered⟩ | ⟨earlier, query, hsome, hfirst⟩
      · rw [hnone, Option.none_or] at hcell
        cases htranslate : (c.translate (c.run r requests).registry shape).1 with
        | error error =>
          rw [htranslate] at hcell
          exact .inl ⟨hcell, hunanswered.concat fun _ _ _ _ => ⟨error, htranslate⟩⟩
        | ok query =>
          rw [htranslate] at hcell
          exact .inr ⟨requests, query, hcell, ⟨e, store, [], rfl, hprepare⟩,
            htranslate, hunanswered⟩
      · rw [hsome, Option.some_or] at hcell
        exact .inr ⟨earlier, query, hcell, hfirst.concat _⟩
    · apply h.keep
      · rw [hrun, get?_compile hprepare, if_neg hmine]
      · intro e' store' hrequest hshape
        obtain ⟨rfl, rfl, rfl⟩ := Request.compile.inj hrequest
        exact absurd ⟨rfl, Except.ok.inj (hshape.symm.trans hprepare)⟩ hmine

theorem run_accounted (c : Compiler) (r : Registry) (requests : List Request) (keyspace : Keyspace)
    (shape : Expr) : c.Accounted r requests keyspace shape := by
  induction requests using List.reverseRecOn with
  | nil => exact .inl ⟨rfl, fun earlier e store later heq => by simp at heq⟩
  | append_singleton requests request ih =>
    cases request with
    | register provider =>
      apply ih.keep
      · rw [run_concat]
        rfl
      · exact fun _ _ hrequest => nomatch hrequest
    | registerMethods methods kind =>
      apply ih.keep
      · rw [run_concat]
        rfl
      · exact fun _ _ hrequest => nomatch hrequest
    | compile space e store => exact ih.compile space e store

/-- A cached query is never another one than that of the first success: whatever has been compiled
and registered before, a successful compilation answers for the execution mode of its call, with the
translation that its shape had when it was compiled with success for the first time. That is the
translation which the shape has now, if the calls in it are read as they were then. -/
theorem compile_first_translation (c : Compiler) (r : Registry) (requests : List Request)
    (keyspace : Keyspace) (e : Expr) (store : ParameterStore) {compiled : CompiledQuery}
    (hok : (c.compile (c.run r requests).registry keyspace e store
      (c.run r requests).cache).result =
      .ok compiled) :
    compiled.keyspace = keyspace ∧ ∃ shape earlier, (c.prepare e store).1 = .ok shape ∧
      c.FirstAnswer r (requests ++ [.compile keyspace e store]) keyspace shape earlier
        compiled.query ∧
      ((∀ n ∈ shape.nodes,
          (c.run r requests).registry.kind? n = (c.run r earlier).registry.kind? n) →
        (c.translate (c.run r requests).registry shape).1 = .ok compiled.query) := by
  have hresult := hok
  rw [compile_result] at hresult
  obtain ⟨shape, hshape, hanswer⟩ := bind_eq_ok.mp hresult
  simp only [answer, Cache.get?_reserve] at hanswer
  rcases c.run_accounted r requests keyspace shape with
    ⟨hnone, hunanswered⟩ | ⟨earlier, query, hsome, hfirst⟩
  · rw [hnone, Option.elim_none] at hanswer
    cases htranslate : (c.translate (c.run r requests).registry shape).1 with
    | error error =>
      rw [htranslate] at hanswer
      cases hanswer
    | ok query =>
      rw [htranslate] at hanswer
      obtain rfl := Except.ok.inj hanswer
      exact ⟨rfl, shape, requests, hshape,
        ⟨⟨e, store, [], rfl, hshape⟩, htranslate, hunanswered⟩, fun _ => htranslate⟩
  · rw [hsome, Option.elim_some] at hanswer
    obtain rfl := Except.ok.inj hanswer
    refine ⟨rfl, shape, earlier, hshape, hfirst.concat _, fun hkind => ?_⟩
    rw [c.translate_congr (prepare_canonical hshape) hkind]
    exact hfirst.answered

/-! ### A method that becomes an operator -/

def recent : Method := .ofParts "Hints" "Recent" 1

/-- Customers with recent orders. -/
def recentOrders : Expr :=
  .staticCall (.queryable "Where" 2) [.entityQuery "Customer", .lambda ["c"]
    (.staticCall recent [.member (.var "c") ⟨"Customer", "Orders"⟩])]

/-- A history in which the query is compiled and methods are registered afterwards. -/
def compiledThenRegistered (methods : List Signature) : List Request :=
  [.compile .sync recentOrders [], .registerMethods methods (.custom "Recent")]

/-- Registering another method does not touch the query: it is taken from the cache and is
current. -/
theorem compile_first_translation_unrelated :
    let s := standardCompiler.run .standard
      (compiledThenRegistered [(Method.ofParts "Hints" "Stale" 1).signature])
    ∃ shape compiled, (standardCompiler.prepare recentOrders []).1 = .ok shape ∧
      (standardCompiler.compile s.registry .sync recentOrders [] s.cache).result = .ok compiled ∧
      (standardCompiler.translate s.registry shape).1 = .ok compiled.query := by
  intro s
  let requests := compiledThenRegistered [(Method.ofParts "Hints" "Stale" 1).signature]
  have hbuilds : standardCompiler.buildsPlain s.registry recentOrders [] (fun _ => true) = true :=
    rfl
  obtain ⟨shape, query, -, hshape, hquery, -⟩ := translate_of_buildsPlain hbuilds
  have hcompiles : ∃ compiled,
      (standardCompiler.compile s.registry .sync recentOrders [] s.cache).result = .ok compiled :=
    compile_ok_of_translate hshape hquery
  obtain ⟨compiled, hok⟩ := hcompiles
  obtain ⟨-, shape', earlier, hshape', hfirst, hcurrent⟩ :=
    compile_first_translation standardCompiler .standard requests .sync recentOrders [] hok
  obtain rfl : shape = shape' := Except.ok.inj (hshape.symm.trans hshape')
  refine ⟨shape, compiled, hshape, hok, hcurrent ?_⟩
  have hsame : ((standardCompiler.prepare recentOrders []).1.toOption.all fun shape =>
      shape.nodes.all fun n => decide (s.registry.kind? n = Registry.standard.kind? n)) =
        true := rfl
  simp only [hshape, Except.toOption, Option.all_some, List.all_eq_true, decide_eq_true_eq] at hsame
  obtain ⟨e, store, later, heq, -⟩ := hfirst.asked
  match earlier, heq with
  | [], _ => exact hsame
  | [_], heq => simp [requests, compiledThenRegistered] at heq
  | [_, _], heq =>
    obtain ⟨rfl, rfl, -⟩ := by simpa [requests, compiledThenRegistered] using heq
    exact fun _ _ => rfl
  | _ :: _ :: _ :: rest, heq => simp [requests, compiledThenRegistered] at heq

/-- Registering the method of the query makes its calls operators, but the query stays as it was
compiled. -/
theorem compile_recentOrders_outdated :
    let s := standardCompiler.run .standard (compiledThenRegistered [recent.signature])
    ∃ shape compiled query, (standardCompiler.prepare recentOrders []).1 = .ok shape ∧
      (standardCompiler.compile s.registry .sync recentOrders [] s.cache).result = .ok compiled ∧
      (standardCompiler.translate s.registry shape).1 = .ok query ∧ compiled.query ≠ query := by
  intro s
  have hbefore : standardCompiler.buildsPlain .standard recentOrders []
      (fun built => built.arena.models.length = 1) = true := rfl
  have hafter : standardCompiler.buildsPlain s.registry recentOrders []
      (fun built => built.arena.models.length = 2) = true := rfl
  obtain ⟨shape, first, built, hshape, hfirst, halike, -, hone⟩ := translate_of_buildsPlain hbefore
  obtain ⟨shape', query, built', hshape', hquery, halike', -, htwo⟩ :=
    translate_of_buildsPlain hafter
  obtain rfl : shape = shape' := Except.ok.inj (hshape.symm.trans hshape')
  have hcell : s.cache.get? .sync (standardCompiler.keyOf .sync shape) =
      some ⟨first, .sync, standardCompiler.keyOf .sync shape⟩ := by
    have hcache :
        s.cache = (standardCompiler.compile .standard .sync recentOrders [] .empty).cache :=
      rfl
    rw [hcache, get?_compile hshape, if_pos ⟨rfl, rfl⟩, hfirst]
    rfl
  have hok : (standardCompiler.compile s.registry .sync recentOrders [] s.cache).result =
      .ok ⟨first, .sync, standardCompiler.keyOf .sync shape⟩ := by
    rw [compile_result, hshape]
    change answer _ _ _ _ _ = _
    simp only [answer, Cache.get?_reserve, hcell, Option.elim_some]
  refine ⟨shape, _, query, hshape, hok, hquery, ?_⟩
  rintro (rfl : first = query)
  have hlength : built.arena.models.length = built'.arena.models.length :=
    halike.length.trans halike'.length.symm
  rw [of_decide_eq_true hone, of_decide_eq_true htwo] at hlength
  cases hlength

end Compiler

end QueryTree
