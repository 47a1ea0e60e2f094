import QueryTree.Proofs.Names
import QueryTree.Proofs.Simulation

/-! Substitution and evaluation: an expression with replacements for its free variables has the
value that it has where the variables have the values of the replacements. No variable of a
replacement is captured on the way. -/

namespace QueryTree

theorem lookup_filter_not_mem {ps : List String} {x : String} (hx : x ∉ ps) (bindings : Bindings) :
    (bindings.filter (·.1 ∉ ps)).lookup x = bindings.lookup x := by
  induction bindings with
  | nil => rfl
  | cons p bindings ih =>
    by_cases hp : p.1 ∈ ps
    · have hne : (x == p.1) = false := by
        rw [beq_eq_false_iff_ne]
        rintro rfl
        exact hx hp
      rw [List.filter_cons_of_neg (by simpa using hp), List.lookup_cons, hne, ih]
    · rw [List.filter_cons_of_pos (by simpa using hp), List.lookup_cons, List.lookup_cons, ih]

theorem lookup_filter_of_mem {ps : List String} {x : String} (hx : x ∈ ps) (bindings : Bindings) :
    (bindings.filter (·.1 ∉ ps)).lookup x = none := by
  rw [List.lookup_eq_none_iff]
  intro p hp
  rw [bne_iff_ne]
  rintro rfl
  exact absurd hx (by simpa using (List.mem_filter.mp hp).2)

theorem lookup_ofPairs (pairs : List (String × Expr)) (x : String) :
    (Bindings.ofPairs pairs).lookup x = pairs.reverse.lookup x := by
  have hfold : ∀ (pairs : List (String × Expr)) (bindings : Bindings),
      (pairs.foldl (fun bindings pair => upsert pair.1 pair.2 bindings) bindings).lookup x =
        (pairs.reverse.lookup x).or (bindings.lookup x) := by
    intro pairs
    induction pairs with
    | nil => intro bindings; rfl
    | cons p pairs ih =>
      intro bindings
      obtain ⟨k, e⟩ := p
      rw [List.foldl_cons, ih, lookup_upsert, List.reverse_cons, List.lookup_append,
        Option.or_assoc]
      congr 1
      by_cases hk : x = k
      · simp [hk]
      · simp [hk, List.lookup_cons, beq_eq_false_iff_ne.mpr hk]
  rw [Bindings.ofPairs, hfold pairs [], List.lookup_nil, Option.or_none]

namespace Expr

variable {incoming ps taken : List String} {active : Bindings} {x : String}

/-! ### Renamed parameters -/

theorem length_renameParams :
    (renameParams incoming ps taken active).1.length = ps.length := by
  induction ps generalizing taken active with
  | nil => rfl
  | cons p ps ih =>
    simp only [renameParams]
    split <;> simp [ih]

/-- A parameter is kept unless a variable comes in under its name; a new name is not taken. -/
theorem mem_renameParams_params (hx : x ∈ (renameParams incoming ps taken active).1) :
    x ∈ ps ∧ x ∉ incoming ∨ x ∉ taken := by
  induction ps generalizing taken active with
  | nil => simp [renameParams] at hx
  | cons p ps ih =>
    simp only [renameParams] at hx
    split at hx
    · rcases List.mem_cons.mp hx with rfl | hx
      · exact .inr (freshName_not_mem p taken)
      · rcases ih hx with ⟨hps, hin⟩ | htaken
        · exact .inl ⟨List.mem_cons_of_mem _ hps, hin⟩
        · exact .inr fun ht => htaken (List.mem_cons_of_mem _ ht)
    next hp =>
      rcases List.mem_cons.mp hx with rfl | hx
      · exact .inl ⟨List.mem_cons_self, hp⟩
      · exact (ih hx).imp_left fun h => ⟨List.mem_cons_of_mem _ h.1, h.2⟩

theorem lookup_renameParams_of_not_mem (hx : x ∉ ps) :
    (renameParams incoming ps taken active).2.lookup x = active.lookup x := by
  induction ps generalizing taken active with
  | nil => rfl
  | cons p ps ih =>
    rw [List.mem_cons, not_or] at hx
    simp only [renameParams]
    split
    · rw [ih hx.2, lookup_upsert, if_neg hx.1]
    · exact ih hx.2

/-- A variable that stands for a parameter becomes the new parameter for the same argument. -/
theorem lookup_renameParams_of_mem (hps : ps ⊆ taken)
    (hkept : x ∉ incoming → active.lookup x = none) (hx : x ∈ ps) :
    ∃ y ∈ (renameParams incoming ps taken active).1,
      ((renameParams incoming ps taken active).2.lookup x).getD (var x) = var y ∧
      ∀ {β : Type} (vs : List β), vs.length = ps.length →
        ((renameParams incoming ps taken active).1.zip vs).reverse.lookup y =
          (ps.zip vs).reverse.lookup x := by
  induction ps generalizing taken active with
  | nil => simp at hx
  | cons p ps ih =>
    have hps' : ps ⊆ taken := fun q hq => hps (List.mem_cons_of_mem _ hq)
    by_cases hin : x ∈ ps
    · -- a later parameter of the name decides
      have hlater : ∀ {qs : List String} {q y : String}, qs.length = ps.length → y ∈ qs →
          (∀ {β : Type} (vs : List β), vs.length = ps.length →
            (qs.zip vs).reverse.lookup y = (ps.zip vs).reverse.lookup x) →
          ∀ {β : Type} (vs : List β), vs.length = (p :: ps).length →
            ((q :: qs).zip vs).reverse.lookup y = ((p :: ps).zip vs).reverse.lookup x := by
        intro qs q y hqs hy heq β vs hlen
        obtain ⟨v, vs, rfl⟩ := List.exists_cons_of_length_eq_add_one hlen
        have hlen : vs.length = ps.length := Nat.succ.inj hlen
        rw [lookup_zip_cons_of_mem (hlen.trans hqs.symm) hy, lookup_zip_cons_of_mem hlen hin]
        exact heq vs hlen
      simp only [renameParams]
      split
      next hp =>
        have hkept' : x ∉ incoming →
            (upsert p (var (freshName p taken)) active).lookup x = none := by
          intro hxin
          rw [lookup_upsert, if_neg fun heq : x = p => hxin (heq ▸ hp)]
          exact hkept hxin
        obtain ⟨y, hy, hvar, heq⟩ := ih (fun q hq => List.mem_cons_of_mem _ (hps' hq)) hkept' hin
        exact ⟨y, List.mem_cons_of_mem _ hy, hvar, hlater length_renameParams hy heq⟩
      next =>
        obtain ⟨y, hy, hvar, heq⟩ := ih hps' hkept hin
        exact ⟨y, List.mem_cons_of_mem _ hy, hvar, hlater length_renameParams hy heq⟩
    · obtain rfl := (List.mem_cons.mp hx).resolve_right hin
      have hfirst : ∀ {qs : List String} {y : String}, y ∉ qs →
          ∀ {β : Type} (vs : List β), vs.length = (x :: ps).length →
            ((y :: qs).zip vs).reverse.lookup y = ((x :: ps).zip vs).reverse.lookup x := by
        intro qs y hy β vs hlen
        obtain ⟨v, vs, rfl⟩ := List.exists_cons_of_length_eq_add_one hlen
        rw [lookup_zip_cons_self hy, lookup_zip_cons_self hin]
      simp only [renameParams]
      split
      next hp =>
        refine ⟨_, List.mem_cons_self, ?_, hfirst ?_⟩
        · rw [lookup_renameParams_of_not_mem hin, lookup_upsert, if_pos rfl, Option.getD_some]
        · intro hfresh
          rcases mem_renameParams_params hfresh with ⟨hmem, _⟩ | hmem
          · exact freshName_not_mem x taken (hps' hmem)
          · exact hmem List.mem_cons_self
      next hp =>
        refine ⟨_, List.mem_cons_self, ?_, hfirst ?_⟩
        · rw [lookup_renameParams_of_not_mem hin, hkept hp, Option.getD_none]
        · intro hmem
          rcases mem_renameParams_params hmem with ⟨hmem, _⟩ | hmem
          · exact hin hmem
          · exact hmem (hps List.mem_cons_self)

theorem not_mem_renameParams {bindings : Bindings} {y : String} (hps : x ∉ ps) (hx : x ∈ taken)
    (hin : ∀ y ∈ (bindings.filter (·.1 ∉ ps)).flatMap (·.2.freeVars), y ∈ taken)
    (hy : y ∈ ((bindings.lookup x).getD (var x)).freeVars) :
    y ∉ (renameParams ((bindings.filter (·.1 ∉ ps)).flatMap (·.2.freeVars)) ps taken active).1 := by
  intro hmem
  have hcases := mem_renameParams_params hmem
  cases hl : bindings.lookup x with
  | none =>
    obtain rfl : y = x := by simpa [hl, freeVars] using hy
    rcases hcases with ⟨h, _⟩ | h
    · exact hps h
    · exact h hx
  | some r =>
    rw [hl, Option.getD_some] at hy
    have hactive : (x, r) ∈ bindings.filter (·.1 ∉ ps) :=
      List.mem_filter.mpr ⟨mem_of_lookup hl, by simpa using hps⟩
    have hincoming : y ∈ (bindings.filter (·.1 ∉ ps)).flatMap (·.2.freeVars) :=
      List.mem_flatMap.mpr ⟨(x, r), hactive, hy⟩
    rcases hcases with ⟨_, h⟩ | h
    · exact h hincoming
    · exact h (hin y hincoming)

/-! ### Lambdas -/

theorem substitute_nil (e : Expr) : e.substitute [] = e := by
  induction e using byScopes with
  | var x => rfl
  | lambda ps b => simp [substitute]
  | node e hvar hlambda ih =>
    have hchildren : e.children.map (·.substitute []) = e.children :=
      (List.map_congr_left ih).trans (List.map_id' _)
    rw [substitute_eq_mapChildren hvar hlambda,
      ← withChildren_map, hchildren, withChildren_children]

/-- A lambda under a substitution: the new parameters stand for the old ones, other variables are
replaced in the body as outside, and no replacement has a variable that the new parameters bind. -/
structure Renames (bindings : Bindings) (ps : List String) (b : Expr) (renamed : List String)
    (inner : Bindings) : Prop where
  length : renamed.length = ps.length
  param : ∀ x ∈ ps, ∃ y ∈ renamed, (inner.lookup x).getD (var x) = var y ∧
    ∀ {β : Type} (vs : List β), vs.length = ps.length →
      (renamed.zip vs).reverse.lookup y = (ps.zip vs).reverse.lookup x
  outer : ∀ x, x ∉ ps → inner.lookup x = bindings.lookup x
  fresh : ∀ x ∈ b.freeVars, x ∉ ps →
    ∀ y ∈ ((bindings.lookup x).getD (var x)).freeVars, y ∉ renamed

theorem substitute_lambda (ps : List String) (b : Expr) (bindings : Bindings) :
    ∃ renamed inner, (lambda ps b).substitute bindings = lambda renamed (b.substitute inner) ∧
      Renames bindings ps b renamed inner := by
  simp only [substitute]
  split
  next hempty =>
    have hnone : ∀ x, x ∉ ps → bindings.lookup x = none := fun x hx => by
      rw [← lookup_filter_not_mem hx, List.isEmpty_iff.mp hempty, List.lookup_nil]
    refine ⟨ps, [], by rw [substitute_nil], rfl, ?_, ?_, ?_⟩
    · exact fun x hx => ⟨x, hx, rfl, fun _ _ => rfl⟩
    · exact fun x hx => (hnone x hx).symm
    · intro x _ hx y hy
      obtain rfl : y = x := by simpa [hnone x hx, freeVars] using hy
      exact hx
  next =>
    refine ⟨_, _, rfl, length_renameParams, ?_, ?_, ?_⟩
    · exact fun x hx => lookup_renameParams_of_mem (List.subset_append_right _ _)
        (fun _ => lookup_filter_of_mem hx bindings) hx
    · exact fun x hx => by rw [lookup_renameParams_of_not_mem hx, lookup_filter_not_mem hx]
    · intro x hb hx y hy
      refine not_mem_renameParams hx (by simp [hb]) (fun z hz => ?_) hy
      exact List.mem_append_left _ (List.mem_append_left _ hz)

/-- Whether conversions and quotes are taken off before a substitution or after it makes a
difference only where they are around a variable. -/
theorem strip_substitute (e : Expr) (bindings : Bindings) :
    (∃ x, e.strip = var x ∧
      (e.substitute bindings).strip = ((bindings.lookup x).getD (var x)).strip) ∨
    (∀ x, e.strip ≠ var x) ∧ (e.substitute bindings).strip = e.strip.substitute bindings := by
  fun_induction strip e with
  | case1 _ e ih => exact ih
  | case2 e ih => exact ih
  | case3 e hconvert hquote =>
    cases e with
    | var x => exact .inl ⟨x, rfl, rfl⟩
    | unary op e =>
      cases op with
      | convert type => exact absurd rfl (hconvert type e)
      | quote => exact absurd rfl (hquote e)
      | _ =>
        refine .inr ⟨?_, rfl⟩
        intro x hx
        cases hx
    | lambda ps b =>
      right
      constructor
      · intro x hx
        cases hx
      · simp only [substitute]
        split <;> rfl
    | _ =>
      refine .inr ⟨?_, rfl⟩
      intro x hx
      cases hx

/-- A parameter and the new one have the value of the same argument. -/
theorem Renames.lookup_extend {bindings inner : Bindings} {b : Expr} {renamed : List String}
    (h : Renames bindings ps b renamed inner) (hx : x ∈ ps) :
    ∃ y ∈ renamed, (inner.lookup x).getD (var x) = var y ∧
      ∀ (vs : List Value) (env env' : Env), vs.length = ps.length →
        ∃ w, (Env.extend ps vs env).lookup x = some w ∧
          (Env.extend renamed vs env').lookup y = some w := by
  obtain ⟨y, hy, hvar, hlookup⟩ := h.param x hx
  refine ⟨y, hy, hvar, fun vs env env' hlen => ?_⟩
  obtain ⟨w, hw⟩ := lookup_zip_of_mem hlen hx
  refine ⟨w, ?_, ?_⟩
  · rw [Env.extend, List.lookup_append, hw, Option.some_or]
  · rw [Env.extend, List.lookup_append, hlookup vs hlen, hw, Option.some_or]

end Expr

/-! ### Evaluation -/

namespace Evaluator.Simulates

variable {ip : Evaluator} {bindings : Bindings} {env env' : Env} {e b : Expr} {ps : List String}

theorem substitute (h : ∀ x ∈ e.freeVars, ∀ w, env.lookup x = some w →
      ip.eval ((bindings.lookup x).getD (.var x)) env' = .ok w) :
    Simulates ip ip env env' e (e.substitute bindings) := by
  induction e using Expr.byScopes generalizing env env' bindings with
  | var x => exact var fun w hw => h x (by simp [Expr.freeVars]) w hw
  | lambda ps b ih =>
    obtain ⟨renamed, inner, heq, hren⟩ := Expr.substitute_lambda ps b bindings
    rw [heq]
    refine lambda hren.length fun vs v hlen hv => ?_
    refine (ih fun x hx w hw => ?_).value v hv
    by_cases hps : x ∈ ps
    · obtain ⟨y, _, hvar, hlookup⟩ := hren.lookup_extend hps
      obtain ⟨u, hu, hu'⟩ := hlookup vs env env' hlen
      rw [hvar, eval_var, hu', ← hu, hw]
    · rw [Env.lookup_extend_of_not_mem hps] at hw
      rw [hren.outer x hps]
      -- a replacement keeps its value inside the lambda
      refine (weaken (.refl ip) fun y hy u hu => ?_).value w
        (h x (by simp [Expr.freeVars, hx, hps]) w hw)
      rw [Env.lookup_extend_of_not_mem (hren.fresh x hx hps y hy), hu]
  | node e hvar hlambda ih =>
    rw [Expr.substitute_eq_mapChildren hvar hlambda]
    exact mapChildren (.refl ip) hvar hlambda fun c hc =>
      ih c hc fun x hx => h x (Expr.freeVars_of_child hlambda hc hx)

end Evaluator.Simulates

end QueryTree
