import QueryTree.Proofs.FreshIdentifiers
import QueryTree.Proofs.MaximalExtraction
import QueryTree.Proofs.Simulation

/-! Two ways to read the session. An extraction may evaluate what depends on the session at once, or
leave it to an accessor that is evaluated when the query runs. Both fill the query with the same
values, and what the second leaves behind is the same in every session. -/

namespace QueryTree

namespace Expr

theorem usesContext_of_child {c e : Expr} (hc : c ∈ e.children) (h : c.usesContext = true) :
    e.usesContext = true := by
  rw [usesContext, List.any_eq_true] at h ⊢
  obtain ⟨n, hn, hcontext⟩ := h
  refine ⟨n, ?_, hcontext⟩
  rw [nodes_eq]
  exact List.mem_cons_of_mem _ (List.mem_flatMap.mpr ⟨c, hc, hn⟩)

end Expr

theorem Policy.allowsAll_iff {p : Policy} {e : Expr} : p.allowsAll e = true ↔
    p.allows e = true ∧ ∀ c ∈ e.children, p.allowsAll c = true := by
  simp only [allowsAll, Expr.nodes_eq e, List.all_cons, List.all_flatMap, Bool.and_eq_true,
    List.all_eq_true]

/-- The interpreter with another session, or with none. -/
def Interpreter.inSession (ip : Interpreter) (session : Option Value) : Interpreter :=
  { ip with context := session }

namespace Extractor

open Interpreter

variable {p : Policy} {ip : Interpreter} {session session' : Option Value} {t : Expr}
  {env env' : Env}

/-- An expression that may be computed early is no lambda, also under conversions. -/
theorem applyCallee_abstractContext (ht : p.allowsAll t = true) (count count' : Nat)
    (args args' : Except EvalError (List Value)) :
    (ip.inSession session').applyCallee count' args' (abstractContext t) env' =
      (ip.inSession session).applyCallee count args t env := by
  induction t using Expr.byChildren with
  | step t ih =>
    have hchild := (Policy.allowsAll_iff.mp ht).2
    cases t with
    | unary op e =>
      have he := ih e (by simp [Expr.children]) (hchild e (by simp [Expr.children]))
      cases op with
      | convert | quote => simpa only [abstractContext, applyCallee] using he
      | not | negate => simp only [abstractContext, applyCallee]
    | lambda ps b => cases (Policy.allowsAll_iff.mp ht).1
    | _ => simp only [abstractContext, applyCallee]

theorem evalAll_abstractContext {es : List Expr}
    (h : ∀ e ∈ es, (ip.inSession session').eval (abstractContext e) env' =
      (ip.inSession session).eval e env) :
    (ip.inSession session').evalAll (abstractContextAll es) env' =
      (ip.inSession session).evalAll es env := by
  induction es with
  | nil => rfl
  | cons e es ih =>
    rw [List.forall_mem_cons] at h
    simp only [abstractContextAll, evalAll, h.1, ih h.2]

/-- What may be computed early has the same value where the session is read from a variable.
Variables other than that one, and a session that is not read, do not matter. -/
theorem eval_abstractContext (ht : p.allowsAll t = true)
    (hcontext : t.usesContext = true →
      ∃ c, session = some c ∧ env'.lookup "context" = some c) :
    (ip.inSession session').eval (abstractContext t) env' = (ip.inSession session).eval t env := by
  induction t using Expr.byChildren with
  | step t ih =>
    obtain ⟨hnode, hchild⟩ := Policy.allowsAll_iff.mp ht
    have hc : ∀ c ∈ t.children, (ip.inSession session').eval (abstractContext c) env' =
        (ip.inSession session).eval c env :=
      fun c hc => ih c hc (hchild c hc) fun h => hcontext (Expr.usesContext_of_child hc h)
    cases t with
    | constant | staticMember | entityQuery | sourceRef | subQuery | parameter => rfl
    | var | lambda => cases hnode
    | context =>
      obtain ⟨c, hsession, hlookup⟩ := hcontext rfl
      simp only [abstractContext, eval, hlookup, inSession, hsession]
    | member e m =>
      simp only [abstractContext, eval, hc e (by simp [Expr.children])]
      rfl
    | call e m args =>
      have hargs : (ip.inSession session').evalAll (abstractContextAll args) env' =
          (ip.inSession session).evalAll args env :=
        evalAll_abstractContext fun a ha => hc a (by simp [Expr.children, ha])
      simp only [abstractContext, eval, hc e (by simp [Expr.children]), hargs]
      rfl
    | staticCall m args =>
      have hargs : (ip.inSession session').evalAll (abstractContextAll args) env' =
          (ip.inSession session).evalAll args env :=
        evalAll_abstractContext fun a ha => hc a ha
      simp only [abstractContext, eval, hargs]
      rfl
    | unary op e => simp only [abstractContext, eval, hc e (by simp [Expr.children])]
    | binary op l r =>
      have hl := hc l (by simp [Expr.children])
      have hr := hc r (by simp [Expr.children])
      cases op <;> simp only [abstractContext, eval, hl, hr]
    | conditional c a b =>
      simp only [abstractContext, eval, hc c (by simp [Expr.children]),
        hc a (by simp [Expr.children]), hc b (by simp [Expr.children])]
    | invoke c args =>
      have hcallee := hchild c (by simp [Expr.children])
      simp only [abstractContext, eval]
      exact applyCallee_abstractContext hcallee _ _ _ _

theorem eval_inSession (ht : p.allowsAll t = true) (h : t.usesContext = false) :
    (ip.inSession session).eval t env = (ip.inSession session').eval t env := by
  have hread : ∀ session : Option Value,
      (ip.inSession none).eval (abstractContext t) [] = (ip.inSession session).eval t env :=
    fun session => eval_abstractContext ht (by simp [h])
  rw [← hread session, ← hread session']

theorem allowsAll_of_movable {x : Extractor} (h : x.movable t = true) :
    x.policy.allowsAll t = true := by
  unfold movable at h
  unfold Policy.allowsAll
  rw [List.all_eq_true] at h ⊢
  intro n hn
  exact (Bool.and_eq_true_iff.mp (h n hn)).1

theorem evaluate_inSession (hpure : ∀ s, ip.functions.supply? s = none) (session : Option Value)
    (t : Expr) : (ip.inSession session).evaluate t = (ip.inSession session).eval t [] := by
  have hfresh : t.All fun n => (ip.inSession session).functions.supplies n = false :=
    fun n _ => FunctionTable.supplies_eq_false hpure n
  exact evaluateIn_eq_eval hfresh []

/-- An accessor that is evaluated for a session has the value that its expression has in it. -/
theorem resolveBinding_accessor (hpure : ∀ s, ip.functions.supply? s = none)
    (ht : p.allowsAll t = true) (session : Option Value) (c : Value) :
    ParameterStore.resolveBinding (ip.inSession session) c (accessorBinding t) =
      (ip.withContext c).evaluate t := by
  let accessor := Expr.invoke (.lambda ["context"] (abstractContext t)) [.constant c]
  calc ParameterStore.resolveBinding (ip.inSession session) c (accessorBinding t)
    _ = (ip.inSession session).evaluate accessor := rfl
    _ = (ip.inSession session).eval accessor [] := evaluate_inSession hpure session accessor
    _ = (ip.inSession session).eval (abstractContext t) [("context", c)] := rfl
    _ = (ip.inSession (some c)).eval t [] := eval_abstractContext ht fun _ => ⟨c, rfl, rfl⟩
    _ = (ip.withContext c).evaluate t := (evaluate_inSession hpure (some c) t).symm

end Extractor

/-! ### Resolved stores -/

namespace ParameterStore

variable {ip : Interpreter} {c : Value} {store : ParameterStore}

def ofValues (values : List (String × Value)) : ParameterStore :=
  values.map fun p => (p.1, .value p.2)

theorem value?_ofValues (values : List (String × Value)) (name : String) :
    (ofValues values).value? name = values.lookup name := by
  unfold ofValues value? get?
  induction values with
  | nil => rfl
  | cons p values ih =>
    rw [List.map_cons, List.lookup_cons, List.lookup_cons]
    cases name == p.1 with
    | true => rfl
    | false => exact ih

theorem resolve_ok_iff : (∃ values, resolve ip c store = .ok values) ↔
    ∀ entry ∈ store, ∃ v, resolveBinding ip c entry.2 = .ok v := by
  induction store with
  | nil => simp [resolve]
  | cons entry store ih =>
    rw [List.forall_mem_cons, ← ih]
    simp only [resolve, bind_eq_ok]
    constructor
    · rintro ⟨_, v, hv, values, hvalues, _⟩
      exact ⟨⟨v, hv⟩, values, hvalues⟩
    · rintro ⟨⟨v, hv⟩, values, hvalues⟩
      exact ⟨_, v, hv, values, hvalues, rfl⟩

theorem lookup_of_resolve {values : List (String × Value)} {name : String} {binding : Binding}
    (h : resolve ip c store = .ok values) (hlookup : store.lookup name = some binding) :
    ∃ v, resolveBinding ip c binding = .ok v ∧ values.lookup name = some v := by
  induction store generalizing values with
  | nil => cases hlookup
  | cons entry store ih =>
    simp only [resolve, bind_eq_ok] at h
    obtain ⟨v, hv, rest, hrest, hvalues⟩ := h
    obtain rfl := Except.ok.inj hvalues
    rw [List.lookup_cons] at hlookup ⊢
    cases hname : name == entry.1 with
    | true =>
      rw [hname] at hlookup
      obtain rfl := Option.some.inj hlookup
      exact ⟨v, hv, rfl⟩
    | false =>
      rw [hname] at hlookup
      exact ih hrest hlookup

end ParameterStore

/-! ### The two extractions -/

namespace Extractor

/-- The extractor that leaves what depends on the session to accessors, with its interpreter in some
session or in none. -/
def deferring (x : Extractor) (session : Option Value) : Extractor :=
  { x with contextAccessors := true, interpreter := x.interpreter.inSession session }

/-- The extractor that reads a session at once. -/
def within (x : Extractor) (c : Value) : Extractor :=
  { x with contextAccessors := false, interpreter := x.interpreter.withContext c }

variable {x : Extractor} {session session' : Option Value} {c : Value} {e t : Expr}

theorem movable_of_mem_maximal (h : t ∈ x.maximal e) : x.movable t = true := by
  obtain ⟨site, hsite, rfl⟩ := mem_maximal_iff.mp h
  exact movable_of_mem_sites hsite

section Pure

variable (hpure : ∀ s, x.interpreter.functions.supply? s = none)

include hpure

theorem evaluate_of_unread (session session' : Option Value) (ht : x.movable t = true)
    (h : t.usesContext = false) :
    (x.interpreter.inSession session).evaluate t =
      (x.interpreter.inSession session').evaluate t := by
  rw [evaluate_inSession hpure, evaluate_inSession hpure]
  exact eval_inSession (allowsAll_of_movable ht) h

theorem placeAt_deferring (session session' : Option Value) {site : Site}
    (ht : x.movable site.root = true) :
    (x.deferring session).placeAt site = (x.deferring session').placeAt site := by
  funext s
  unfold placeAt place
  cases h : site.root.usesContext with
  | true => rfl
  | false =>
    have hvalue : (x.deferring session).interpreter.evaluate site.root =
        (x.deferring session').interpreter.evaluate site.root :=
      evaluate_of_unread hpure session session' ht h
    rw [hvalue]
    rfl

/-- What an extraction with accessors leaves behind does not depend on a session. -/
theorem extract_deferring_eq (session session' : Option Value) (e : Expr) (store : ParameterStore) :
    (x.deferring session).extract e store = (x.deferring session').extract e store := by
  have hpolicy : (x.deferring session).policy = (x.deferring session').policy := rfl
  have hmovable : ∀ site ∈ (x.deferring session').sites false false e,
      x.movable site.root = true :=
    fun site hsite => movable_of_mem_sites (x := x.deferring session') hsite
  have hrun : (x.deferring session).placements e store =
      (x.deferring session').placements e store := by
    unfold placements
    rw [sites_of_policy hpolicy]
    apply congrFun
    apply runSites_congr
    intro site hsite
    exact placeAt_deferring hpure session session' (hmovable site hsite)
  have hshape : ∀ s, (x.deferring session).shape s e = (x.deferring session').shape s e := by
    intro s
    unfold shape
    rw [replaceMaximal_of_policy hpolicy]
    apply replaceMaximal_congr
    intro site hsite
    cases hread : site.root.usesContext with
    | true =>
      have hp : ∀ session, (x.deferring session).parameterizes site.inLambda site.literal
          site.root = true := by
        intro session
        rw [parameterizes, defers, hread]
        rfl
      unfold put
      rw [hp, hp]
      rfl
    | false =>
      have hvalue : (x.deferring session).interpreter.evaluate site.root =
          (x.deferring session').interpreter.evaluate site.root :=
        evaluate_of_unread hpure session session' (hmovable site hsite) hread
      unfold put valueOf
      rw [hvalue]
      rfl
  rw [extract_eq, extract_eq, hrun, hshape]

/-- What a deferring extraction binds an expression to resolves to its value in the session. -/
theorem resolveBinding_deferring (ht : x.movable t = true) {binding : Binding}
    (hb : (x.deferring session).bindingOf t = .ok binding) :
    ParameterStore.resolveBinding (x.interpreter.inSession session') c binding =
      (x.within c).interpreter.evaluate t := by
  cases hread : t.usesContext with
  | true =>
    have hd : (x.deferring session).defers t = true := hread
    rw [bindingOf, if_pos hd] at hb
    obtain rfl := Except.ok.inj hb
    exact resolveBinding_accessor hpure (allowsAll_of_movable ht) session' c
  | false =>
    have hd : (x.deferring session).defers t = false := hread
    have hvalue :
        (x.deferring session).interpreter.evaluate t = (x.within c).interpreter.evaluate t :=
      evaluate_of_unread hpure session (some c) ht hread
    rw [bindingOf_of_not_defers hd, hvalue] at hb
    cases hv : (x.within c).interpreter.evaluate t with
    | error cause =>
      rw [hv] at hb
      cases hb
    | ok v =>
      rw [hv] at hb
      obtain rfl := Except.ok.inj hb
      rfl

/-- A deferring extraction binds every expression that has a value in some session. -/
theorem exists_bindingOf_deferring {v : Value} (ht : x.movable t = true)
    (hv : (x.within c).interpreter.evaluate t = .ok v) :
    ∃ binding, (x.deferring session).bindingOf t = .ok binding := by
  cases hread : t.usesContext with
  | true => exact ⟨accessorBinding t, if_pos hread⟩
  | false =>
    have hvalue :
        (x.deferring session).interpreter.evaluate t = (x.within c).interpreter.evaluate t :=
      evaluate_of_unread hpure session (some c) ht hread
    have hd : (x.deferring session).defers t = false := hread
    rw [exists_bindingOf_iff hd, hvalue]
    exact ⟨v, hv⟩

/-- A deferring extraction whose store resolves finds a value for every maximal subexpression that
moves. -/
theorem evaluate_of_resolve {shape : Expr} {values : List (String × Value)}
    (hok : ((x.deferring session).extract e []).1 = .ok shape)
    (hresolve : ((x.deferring session).extract e []).2.resolve
      (x.interpreter.inSession session') c =
      .ok values)
    (ht : t ∈ (x.deferring session).maximal e) :
    ∃ v, (x.within c).interpreter.evaluate t = .ok v := by
  have hempty : ParameterStore.Numbered [] := ParameterStore.Extracted.empty.numbered
  have hmovable : x.movable t = true := movable_of_mem_maximal (x := x.deferring session) ht
  have hbinding := (extract_ok_iff e hempty).mp ⟨shape, hok⟩ t ht
  obtain ⟨hrun, _⟩ := eq_shape_of_extract hok
  obtain ⟨site, hsite, rfl⟩ := mem_maximal_iff.mp ht
  rcases put_cases hempty hrun hsite with ⟨_, name, binding, _, hb, hlookup⟩ | ⟨_, hd, _⟩
  · rw [extract_eq] at hresolve
    obtain ⟨v, hv, _⟩ := ParameterStore.lookup_of_resolve hresolve hlookup
    rw [resolveBinding_deferring hpure hmovable hb] at hv
    exact ⟨v, hv⟩
  · have hvalue : (x.deferring session).interpreter.evaluate site.root =
        (x.within c).interpreter.evaluate site.root :=
      evaluate_of_unread hpure session (some c) hmovable hd
    rw [← hvalue]
    exact (exists_bindingOf_iff hd).mp hbinding

/-- A deferring extraction succeeds and its store resolves if every maximal subexpression that moves
has a value in the session. -/
theorem exists_resolve (hvalue : ∀ t ∈ (x.deferring session).maximal e,
      ∃ v, (x.within c).interpreter.evaluate t = .ok v) :
    ∃ shape values, ((x.deferring session).extract e []).1 = .ok shape ∧
      ((x.deferring session).extract e []).2.resolve (x.interpreter.inSession session') c =
        .ok values := by
  have hempty : ParameterStore.Numbered [] := ParameterStore.Extracted.empty.numbered
  have hmovable : ∀ t ∈ (x.deferring session).maximal e, x.movable t = true :=
    fun t ht => movable_of_mem_maximal (x := x.deferring session) ht
  have hok : ∃ shape, ((x.deferring session).extract e []).1 = .ok shape := by
    rw [extract_ok_iff e hempty]
    intro t ht
    obtain ⟨v, hv⟩ := hvalue t ht
    exact exists_bindingOf_deferring hpure (hmovable t ht) hv
  have hresolve : ∃ values, ((x.deferring session).extract e []).2.resolve
      (x.interpreter.inSession session') c = .ok values := by
    rw [ParameterStore.resolve_ok_iff, extract_eq]
    intro entry hentry
    rcases (placements_built e hempty).entry hentry with hentry | ⟨t, ht, hb⟩
    · cases hentry
    · obtain ⟨site, hsite, _, rfl⟩ := exists_site_of_mem_roots ht
      have hmaximal := mem_maximal_iff.mpr ⟨site, hsite, rfl⟩
      rw [resolveBinding_deferring hpure (hmovable _ hmaximal) hb]
      exact hvalue _ hmaximal
  obtain ⟨shape, hshape⟩ := hok
  obtain ⟨values, hvalues⟩ := hresolve
  exact ⟨shape, values, hshape, hvalues⟩

/-- The shape of a deferring extraction, filled with the values of its store in a session. -/
theorem fill_of_resolve {shape : Expr} {values : List (String × Value)} {value : Expr → Value}
    (hp : ∀ name, .parameter name ∉ e.nodes)
    (hok : ((x.deferring session).extract e []).1 = .ok shape)
    (hresolve : ((x.deferring session).extract e []).2.resolve
      (x.interpreter.inSession session') c =
      .ok values)
    (hvalue : ∀ t ∈ (x.deferring session).maximal e,
      (x.within c).interpreter.evaluate t = .ok (value t)) :
    shape.fill (.ofValues values) =
      (x.deferring session).replaceMaximal (fun _ _ t => .constant (value t)) false false e := by
  have hempty : ParameterStore.Numbered [] := ParameterStore.Extracted.empty.numbered
  have hmovable : ∀ t ∈ (x.deferring session).maximal e, x.movable t = true :=
    fun t ht => movable_of_mem_maximal (x := x.deferring session) ht
  rw [extract_eq] at hresolve
  obtain ⟨hrun, rfl⟩ := eq_shape_of_extract hok
  apply fill_shape hempty hp hrun
  · intro t ht name binding hb hlookup
    obtain ⟨v, hv, hname⟩ := ParameterStore.lookup_of_resolve hresolve hlookup
    rw [resolveBinding_deferring hpure (hmovable t ht) hb, hvalue t ht] at hv
    obtain rfl := Except.ok.inj hv
    rw [ParameterStore.value?_ofValues, hname]
  · intro t ht hd
    have hsame : (x.deferring session).interpreter.evaluate t =
        (x.within c).interpreter.evaluate t :=
      evaluate_of_unread hpure session (some c) (hmovable t ht) hd
    rw [hsame, hvalue t ht]

end Pure

/-- To defer the reads of a session and to resolve them later is to read the session at once: one
succeeds exactly if the other does, and then both fill the expression with the same values. What is
deferred is the same whatever session the interpreter is in. -/
theorem resolve_deferring_iff_within (x : Extractor)
    (hpure : ∀ s, x.interpreter.functions.supply? s = none) (e : Expr)
    (hp : ∀ name, .parameter name ∉ e.nodes) (c : Value) (session session' : Option Value) :
    ((∃ shape values, ((x.deferring session).extract e []).1 = .ok shape ∧
        ((x.deferring session).extract e []).2.resolve (x.interpreter.inSession session') c =
          .ok values) ↔
      ∃ e', ((x.within c).extract e []).1 = .ok e') ∧
    (∀ shape values e', ((x.deferring session).extract e []).1 = .ok shape →
      ((x.deferring session).extract e []).2.resolve (x.interpreter.inSession session') c =
        .ok values →
      ((x.within c).extract e []).1 = .ok e' →
      shape.fill (.ofValues values) = e'.fill ((x.within c).extract e []).2) ∧
    ∀ other, (x.deferring other).extract e [] = (x.deferring session).extract e [] := by
  have hempty : ParameterStore.Numbered [] := ParameterStore.Extracted.empty.numbered
  have hdirect := extract_direct_ok_iff (x := x.within c) (e := e) rfl hempty
  have hpolicy : (x.within c).policy = (x.deferring session).policy := rfl
  simp only [mem_maximal_of_policy hpolicy] at hdirect
  refine ⟨⟨?_, ?_⟩, ?_, fun other => extract_deferring_eq hpure other session e []⟩
  · rintro ⟨shape, values, hok, hresolve⟩
    exact hdirect.mpr fun t ht => evaluate_of_resolve hpure hok hresolve ht
  · intro h
    exact exists_resolve hpure (hdirect.mp h)
  · intro shape values e' hok hresolve he'
    obtain ⟨value, hvalue⟩ := exists_values (hdirect.mp ⟨e', he'⟩)
    have hwithin : ∀ t ∈ (x.within c).maximal e,
        (x.within c).interpreter.evaluate t = .ok (value t) :=
      fun t ht => hvalue t ((mem_maximal_of_policy hpolicy).mp ht)
    rw [fill_of_resolve hpure hp hok hresolve hvalue, fill_of_extract rfl hempty hp he' hwithin]
    exact (replaceMaximal_of_policy hpolicy e).symm

/-- Orders of the tenant of the session, in its region or else in a captured one, with a rank that
has to be a literal. -/
def tenantOrders : Expr :=
  .staticCall (.queryable "Where" 2) [.entityQuery "Order", .lambda ["o"]
    (.and
      (.and
        (.eq (.member (.var "o") ⟨"Order", "Tenant"⟩) (.member .context ⟨"Session", "Tenant"⟩))
        (.eq (.member (.var "o") ⟨"Order", "Region"⟩)
          (.binary .coalesce (.member .context ⟨"Session", "Region"⟩)
            (.member (.constant (.record "Closure" [("home", .string "North")]))
              ⟨"Closure", "home"⟩))))
      (.call (.var "o") ⟨⟨"Order", "HasRank", 1⟩, [], true⟩
        [.binary .add (.constant (.int 1)) (.constant (.int 2))]))]

def tenantSession : Value := .record "Session" [("Tenant", .int 7), ("Region", .null)]

/-- An extractor whose functions are all pure. -/
def pureExtractor : Extractor := ⟨.standard, .ofFunctions .empty, true, false, false⟩

theorem resolve_deferring_iff_within_tenant :
    ∃ shape values e', ((pureExtractor.deferring none).extract tenantOrders []).1 = .ok shape ∧
      ((pureExtractor.deferring none).extract tenantOrders []).2.resolve
        (pureExtractor.interpreter.inSession none) tenantSession = .ok values ∧
      ((pureExtractor.within tenantSession).extract tenantOrders []).1 = .ok e' ∧
      shape.fill (.ofValues values) =
        e'.fill ((pureExtractor.within tenantSession).extract tenantOrders []).2 := by
  have hok : ((pureExtractor.within tenantSession).extract tenantOrders []).1.isOk = true := by
    decide +kernel
  have hp : ∀ name, .parameter name ∉ tenantOrders.nodes := by
    simp [tenantOrders, Expr.nodes, Expr.nodesOf, Expr.and, Expr.eq]
  obtain ⟨hiff, hfill, _⟩ :=
    resolve_deferring_iff_within pureExtractor (fun _ => rfl) tenantOrders hp
    tenantSession none none
  cases hdirect : ((pureExtractor.within tenantSession).extract tenantOrders []).1 with
  | error error =>
    rw [hdirect] at hok
    contradiction
  | ok e' =>
    obtain ⟨shape, values, hshape, hvalues⟩ := hiff.mpr ⟨e', hdirect⟩
    exact ⟨shape, values, e', hshape, hvalues, rfl, hfill shape values e' hshape hvalues hdirect⟩

end Extractor

end QueryTree
