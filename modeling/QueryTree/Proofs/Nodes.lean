import Mathlib.Data.List.Forall2
import QueryTree.Expr.Scope

/-! Nodes of expressions: induction over direct subexpressions, and conditions on all nodes of an
expression. -/

namespace QueryTree

theorem mem_of_lookup {α β : Type} [BEq α] [LawfulBEq α] {l : List (α × β)} {k : α} {v : β}
    (h : l.lookup k = some v) : (k, v) ∈ l := by
  induction l with
  | nil => simp at h
  | cons p l ih =>
    obtain ⟨k', v'⟩ := p
    rw [List.lookup_cons] at h
    split at h
    next hk => simp_all
    next => exact List.mem_cons_of_mem _ (ih h)

theorem bind_eq_ok {ε α β : Type} {x : Except ε α} {f : α → Except ε β} {b : β} :
    x >>= f = .ok b ↔ ∃ a, x = .ok a ∧ f a = .ok b := by
  cases x <;> simp [bind, Except.bind]

theorem exists_of_isOk {ε α : Type} {x : Except ε α} (h : x.isOk = true) : ∃ a, x = .ok a := by
  cases x with
  | error e => cases h
  | ok a => exact ⟨a, rfl⟩

theorem exists_of_toOption_map {ε α β : Type} {x : Except ε α} {f : α → β} {b : β}
    (h : x.toOption.map f = some b) : ∃ a, x = .ok a ∧ f a = b := by
  cases x with
  | error e => cases h
  | ok a => exact ⟨a, rfl, Option.some.inj h⟩

theorem map_eq_ok {ε α β : Type} {x : Except ε α} {f : α → β} {b : β} :
    x.map f = .ok b ↔ ∃ a, x = .ok a ∧ f a = b := by
  cases x <;> simp [Except.map]

theorem lookup_map {α β γ : Type} [BEq α] [LawfulBEq α] (f : α → β → γ) (l : List (α × β)) (k : α) :
    (l.map fun p => (p.1, f p.1 p.2)).lookup k = (l.lookup k).map (f k) := by
  induction l with
  | nil => rfl
  | cons p l ih =>
    rw [List.map_cons, List.lookup_cons, List.lookup_cons, ih]
    cases hk : k == p.1 with
    | true => rw [eq_of_beq hk]; rfl
    | false => rfl

theorem exists_of_forall₂ {α β : Type} {R : α → β → Prop} {as : List α} {bs : List β} {a : α}
    (h : List.Forall₂ R as bs) (ha : a ∈ as) : ∃ b ∈ bs, R a b := by
  induction h with
  | nil => cases ha
  | cons hfirst _ ih =>
    rcases List.mem_cons.mp ha with rfl | ha
    · exact ⟨_, List.mem_cons_self, hfirst⟩
    · obtain ⟨b, hb, hr⟩ := ih ha
      exact ⟨b, List.mem_cons_of_mem _ hb, hr⟩

theorem forall_mem_of_forall₂ {α β : Type} {P : β → Prop} {as : List α} {bs : List β}
    (h : List.Forall₂ (fun _ b => P b) as bs) : ∀ b ∈ bs, P b := by
  intro b hb
  obtain ⟨_, _, hP⟩ := exists_of_forall₂ h.flip hb
  exact hP

theorem mem_upsert {α β : Type} [DecidableEq α] {k : α} {v : β} {l : List (α × β)} {p : α × β}
    (h : p ∈ upsert k v l) : p ∈ l ∨ p = (k, v) := by
  induction l with
  | nil => exact .inr (by simpa [upsert] using h)
  | cons q l ih =>
    simp only [upsert] at h
    split at h
    next hk =>
      rcases List.mem_cons.mp h with h | h
      · exact .inr (by rw [h, hk])
      · exact .inl (List.mem_cons_of_mem _ h)
    next =>
      rcases List.mem_cons.mp h with h | h
      · exact .inl (h ▸ List.mem_cons_self)
      · exact (ih h).imp_left (List.mem_cons_of_mem _)

theorem mem_ofPairs {pairs : List (String × Expr)} {p : String × Expr}
    (h : p ∈ Bindings.ofPairs pairs) : p ∈ pairs := by
  have hfold : ∀ (pairs : List (String × Expr)) (bindings : Bindings),
      p ∈ pairs.foldl (fun bindings pair => upsert pair.1 pair.2 bindings) bindings →
        p ∈ bindings ∨ p ∈ pairs := by
    intro pairs
    induction pairs with
    | nil => intro bindings h; exact .inl h
    | cons q pairs ih =>
      intro bindings h
      rcases ih _ h with h | h
      · rcases mem_upsert h with h | h
        · exact .inl h
        · exact .inr (by simp [h])
      · exact .inr (List.mem_cons_of_mem _ h)
  simpa using hfold pairs [] h

end QueryTree

namespace QueryTree.Expr

/-! ### Induction over direct subexpressions -/

mutual

/-- A property that passes from the direct subexpressions to the expression holds everywhere. -/
theorem byChildren {motive : Expr → Prop}
    (step : ∀ e, (∀ c ∈ e.children, motive c) → motive e) : ∀ e, motive e
  | constant _ | parameter _ | var _ | staticMember _ | context | entityQuery _ | sourceRef _
  | subQuery _ => step _ (by simp [children])
  | member t _ | unary _ t | lambda _ t => step _ (by simpa [children] using byChildren step t)
  | call t _ args | invoke t args =>
    step _ (by simpa [children] using ⟨byChildren step t, byChildrenAll step args⟩)
  | staticCall _ args => step _ (byChildrenAll step args)
  | binary _ l r => step _ (by simpa [children] using ⟨byChildren step l, byChildren step r⟩)
  | conditional t a b =>
    step _ (by simpa [children] using ⟨byChildren step t, byChildren step a, byChildren step b⟩)

theorem byChildrenAll {motive : Expr → Prop}
    (step : ∀ e, (∀ c ∈ e.children, motive c) → motive e) : ∀ es : List Expr, ∀ e ∈ es, motive e
  | [] => by simp
  | e :: es => by simpa using ⟨byChildren step e, byChildrenAll step es⟩

end

/-- The same where a step looks at the subexpressions of the direct subexpressions too. -/
theorem byGrandchildren {motive : Expr → Prop}
    (step : ∀ e, (∀ c ∈ e.children, motive c ∧ ∀ d ∈ c.children, motive d) → motive e) (e : Expr) :
    motive e := by
  have both : motive e ∧ ∀ c ∈ e.children, motive c := by
    induction e using byChildren with
    | step e ih => exact ⟨step e ih, fun c hc => (ih c hc).1⟩
  exact both.1

/-- The same with variables and lambdas apart from the other nodes, which leave scopes alone. -/
theorem byScopes {motive : Expr → Prop} (var : ∀ x, motive (.var x))
    (lambda : ∀ ps b, motive b → motive (.lambda ps b))
    (node : ∀ e, (∀ x, e ≠ .var x) → (∀ ps b, e ≠ .lambda ps b) → (∀ c ∈ e.children, motive c) →
      motive e) (e : Expr) : motive e := by
  induction e using byChildren with
  | step e ih =>
    by_cases hvar : ∃ x, e = .var x
    · obtain ⟨x, rfl⟩ := hvar
      exact var x
    by_cases hlambda : ∃ ps b, e = .lambda ps b
    · obtain ⟨ps, b, rfl⟩ := hlambda
      exact lambda ps b (ih b (by simp [children]))
    exact node e (fun x hx => hvar ⟨x, hx⟩) (fun ps b hb => hlambda ⟨ps, b, hb⟩) ih

theorem nodesOf_eq_flatMap (es : List Expr) : nodesOf es = es.flatMap nodes := by
  induction es with
  | nil => rfl
  | cons e es ih => simp [nodesOf, ih]

theorem nodes_eq (e : Expr) : e.nodes = e :: e.children.flatMap nodes := by
  cases e <;> simp [nodes, children, nodesOf_eq_flatMap]

theorem mem_nodes_self (e : Expr) : e ∈ e.nodes := by simp [nodes_eq e]

theorem mem_nodes_of_child {e c n : Expr} (hc : c ∈ e.children) (hn : n ∈ c.nodes) :
    n ∈ e.nodes := by
  rw [nodes_eq e]
  exact List.mem_cons_of_mem _ (List.mem_flatMap.mpr ⟨c, hc, hn⟩)

theorem mem_nodes_iff {e n : Expr} : n ∈ e.nodes ↔ n = e ∨ ∃ c ∈ e.children, n ∈ c.nodes := by
  rw [nodes_eq e, List.mem_cons, List.mem_flatMap]

theorem mem_nodes_trans {e n s : Expr} (hs : s ∈ n.nodes) (hn : n ∈ e.nodes) : s ∈ e.nodes := by
  induction e using byChildren with
  | step e ih =>
    rcases mem_nodes_iff.mp hn with rfl | ⟨c, hc, hn⟩
    · exact hs
    · exact mem_nodes_of_child hc (ih c hc hn)

theorem children_withChildren {e : Expr} {es : List Expr} (h : es.length = e.children.length) :
    (e.withChildren es).children = es := by
  cases e with
  | member | unary | lambda => match es, h with | [_], _ => rfl
  | binary => match es, h with | [_, _], _ => rfl
  | conditional => match es, h with | [_, _, _], _ => rfl
  | call | invoke => match es, h with | _ :: _, _ => rfl
  | staticCall => rfl
  | _ =>
    obtain rfl := List.length_eq_zero_iff.mp h
    rfl

theorem withChildren_withChildren {e : Expr} {es fs : List Expr}
    (hes : es.length = e.children.length) (hfs : fs.length = e.children.length) :
    (e.withChildren es).withChildren fs = e.withChildren fs := by
  cases e with
  | member | unary | lambda => match es, hes, fs, hfs with | [_], _, [_], _ => rfl
  | binary => match es, hes, fs, hfs with | [_, _], _, [_, _], _ => rfl
  | conditional => match es, hes, fs, hfs with | [_, _, _], _, [_, _, _], _ => rfl
  | call | invoke => match es, hes, fs, hfs with | _ :: _, _, _ :: _, _ => rfl
  | _ => rfl

theorem freeVarsOf_eq_flatMap (es : List Expr) : freeVarsOf es = es.flatMap freeVars := by
  induction es with
  | nil => rfl
  | cons e es ih => simp [freeVarsOf, ih]

theorem substituteAll_eq_map (es : List Expr) (bindings : Bindings) :
    substituteAll es bindings = es.map (·.substitute bindings) := by
  induction es with
  | nil => rfl
  | cons e es ih => simp [substituteAll, ih]

/-! ### Substitution -/

theorem substitute_eq_mapChildren {e : Expr} (hvar : ∀ x, e ≠ var x)
    (hlambda : ∀ ps b, e ≠ lambda ps b) (bindings : Bindings) :
    e.substitute bindings = e.mapChildren (·.substitute bindings) := by
  cases e with
  | var x => exact absurd rfl (hvar x)
  | lambda ps b => exact absurd rfl (hlambda ps b)
  | _ => simp [substitute, mapChildren, substituteAll_eq_map]

/-- What a renaming hands on is either handed to it or a variable. -/
theorem mem_renameParams {incoming ps taken : List String} {active : Bindings}
    {p : String × Expr} (hp : p ∈ (renameParams incoming ps taken active).2) :
    p ∈ active ∨ ∃ name, p.2 = var name := by
  induction ps generalizing taken active with
  | nil => exact .inl hp
  | cons q qs ih =>
    simp only [renameParams] at hp
    split at hp
    · rcases ih hp with h | h
      · rcases mem_upsert h with h | h
        · exact .inl h
        · exact .inr ⟨_, congrArg Prod.snd h⟩
      · exact .inr h
    · exact ih hp

/-! ### Conditions on nodes -/

/-- The names that a node binds in its subexpressions. -/
def binds : Expr → List String
  | lambda ps _ => ps
  | _ => []

/-- A node of an expression, and the names that the lambdas around it bind, innermost first. -/
inductive Occurs : Expr → List String → Expr → Prop where
  | here (e : Expr) : Occurs e [] e
  | child {e c n : Expr} {bound : List String} (hc : c ∈ e.children) (h : Occurs c bound n) :
      Occurs e (bound ++ e.binds) n

/-- Every node of an expression satisfies a condition on it and the names in scope there. -/
def Throughout (p : List String → Expr → Prop) (scope : List String) (e : Expr) : Prop :=
  ∀ bound n, e.Occurs bound n → p (bound ++ scope) n

/-- Every node of an expression satisfies a condition. -/
def All (p : Expr → Prop) (e : Expr) : Prop := ∀ n ∈ e.nodes, p n

instance (p : Expr → Prop) [DecidablePred p] (e : Expr) : Decidable (e.All p) :=
  inferInstanceAs (Decidable (∀ n ∈ e.nodes, p n))

section

variable {p q : List String → Expr → Prop} {scope wider : List String} {e : Expr}

theorem throughout_iff_children :
    e.Throughout p scope ↔ p scope e ∧ ∀ c ∈ e.children, c.Throughout p (e.binds ++ scope) := by
  constructor
  · intro h
    refine ⟨h [] e (.here e), fun c hc bound n hn => ?_⟩
    rw [← List.append_assoc]
    exact h _ n (.child hc hn)
  · rintro ⟨hnode, hchild⟩ bound n hn
    cases hn with
    | here => exact hnode
    | child hc hn =>
      rw [List.append_assoc]
      exact hchild _ hc _ n hn

theorem Throughout.node (h : e.Throughout p scope) : p scope e := (throughout_iff_children.mp h).1

theorem Throughout.child (h : e.Throughout p scope) {c : Expr} (hc : c ∈ e.children) :
    c.Throughout p (e.binds ++ scope) :=
  (throughout_iff_children.mp h).2 c hc

theorem Throughout.mono (h : e.Throughout p scope) (hpq : ∀ scope n, p scope n → q scope n) :
    e.Throughout q scope :=
  fun bound n hn => hpq _ n (h bound n hn)

theorem throughout_and : e.Throughout (fun scope n => p scope n ∧ q scope n) scope ↔
    e.Throughout p scope ∧ e.Throughout q scope := by
  constructor
  · intro h
    exact ⟨h.mono fun _ _ hpq => hpq.1, h.mono fun _ _ hpq => hpq.2⟩
  · rintro ⟨hp, hq⟩ bound n hn
    exact ⟨hp bound n hn, hq bound n hn⟩

theorem Throughout.strip (h : e.Throughout p scope) : e.strip.Throughout p scope := by
  fun_induction Expr.strip e with
  | case1 _ e ih => exact ih (h.child (by simp [children]))
  | case2 e ih => exact ih (h.child (by simp [children]))
  | case3 e => exact h

end

section

variable {p q : Expr → Prop} {e : Expr}

theorem all_iff_children : e.All p ↔ p e ∧ ∀ c ∈ e.children, c.All p := by
  simp only [All, nodes_eq e, List.forall_mem_cons, List.forall_mem_flatMap]

theorem All.node (h : e.All p) : p e := (all_iff_children.mp h).1

theorem All.child (h : e.All p) {c : Expr} (hc : c ∈ e.children) : c.All p :=
  (all_iff_children.mp h).2 c hc

theorem All.mono (h : e.All p) (hpq : ∀ n, p n → q n) : e.All q := fun n hn => hpq n (h n hn)

theorem throughout_iff_all {scope : List String} : e.Throughout (fun _ => p) scope ↔ e.All p := by
  induction e using byChildren generalizing scope with
  | step e ih =>
    rw [throughout_iff_children, all_iff_children]
    exact and_congr_right fun _ => forall₂_congr fun c hc => ih c hc

theorem All.strip (h : e.All p) : e.strip.All p := by
  have hall : e.Throughout (fun _ => p) [] := throughout_iff_all.mpr h
  exact throughout_iff_all.mp hall.strip

theorem all_of_strip (hunary : ∀ op a, p (unary op a)) (h : e.strip.All p) : e.All p := by
  fun_induction Expr.strip e with
  | case1 type e ih => exact all_iff_children.mpr ⟨hunary _ e, by simpa [children] using ih h⟩
  | case2 e ih => exact all_iff_children.mpr ⟨hunary _ e, by simpa [children] using ih h⟩
  | case3 => exact h

end

theorem binds_withChildren {e : Expr} {es : List Expr} (h : es.length = e.children.length) :
    (e.withChildren es).binds = e.binds := by
  cases e with
  | member | unary | lambda => match es, h with | [_], _ => rfl
  | binary => match es, h with | [_, _], _ => rfl
  | conditional => match es, h with | [_, _, _], _ => rfl
  | call | invoke => match es, h with | _ :: _, _ => rfl
  | _ => rfl

theorem children_mapChildren {e : Expr} (f : Expr → Expr) :
    (e.mapChildren f).children = e.children.map f := by
  rw [← withChildren_map, children_withChildren (List.length_map f)]

theorem binds_mapChildren {e : Expr} (f : Expr → Expr) : (e.mapChildren f).binds = e.binds := by
  rw [← withChildren_map, binds_withChildren (List.length_map f)]

/-- A condition that does not look at what stands below a node. Only variables, reads, calls,
invocations and the nodes that stand for sequences may fail it. -/
structure HeadRule (p : List String → Expr → Prop) : Prop where
  constant : ∀ scope v, p scope (constant v)
  unary : ∀ scope op e, p scope (unary op e)
  binary : ∀ scope op l r, p scope (binary op l r)
  lambda : ∀ scope ps b, p scope (lambda ps b)
  conditional : ∀ scope t a b, p scope (conditional t a b)
  member : ∀ scope t t' m, p scope (member t m) → p scope (member t' m)
  call : ∀ scope t t' m args args', args'.length = args.length → p scope (call t m args) →
    p scope (call t' m args')
  staticCall : ∀ scope m args args', args'.length = args.length → p scope (staticCall m args) →
    p scope (staticCall m args')
  invoke : ∀ scope c c' args args', args'.length = args.length → p scope (invoke c args) →
    p scope (invoke c' args')

namespace HeadRule

variable {p : List String → Expr → Prop} {scope : List String} {e : Expr} (hp : HeadRule p)

include hp

theorem withChildren {es : List Expr} (he : p scope e) (hlen : es.length = e.children.length) :
    p scope (e.withChildren es) := by
  cases e with
  | member t m => match es, hlen with | [t'], _ => exact hp.member scope t t' m he
  | unary op t => match es, hlen with | [t'], _ => exact hp.unary scope op t'
  | lambda ps b => match es, hlen with | [b'], _ => exact hp.lambda scope ps b'
  | binary op l r => match es, hlen with | [l', r'], _ => exact hp.binary scope op l' r'
  | conditional t a b =>
    match es, hlen with
    | [t', a', b'], _ => exact hp.conditional scope t' a' b'
  | staticCall m args => exact hp.staticCall scope m args es hlen he
  | call t m args =>
    match es, hlen with
    | t' :: args', hlen => exact hp.call scope t t' m args args' (Nat.succ.inj hlen) he
  | invoke c args =>
    match es, hlen with
    | c' :: args', hlen => exact hp.invoke scope c c' args args' (Nat.succ.inj hlen) he
  | _ => exact he

theorem throughout_withChildren {es : List Expr} (he : p scope e)
    (hlen : es.length = e.children.length)
    (hes : ∀ c ∈ es, c.Throughout p (e.binds ++ scope)) :
    (e.withChildren es).Throughout p scope := by
  rw [throughout_iff_children, children_withChildren hlen, binds_withChildren hlen]
  exact ⟨hp.withChildren he hlen, hes⟩

theorem throughout_mapChildren {f : Expr → Expr} (h : e.Throughout p scope)
    (hf : ∀ c ∈ e.children, c.Throughout p (e.binds ++ scope) →
      (f c).Throughout p (e.binds ++ scope)) : (e.mapChildren f).Throughout p scope := by
  rw [← withChildren_map]
  apply hp.throughout_withChildren h.node (List.length_map f)
  intro c hc
  obtain ⟨d, hd, rfl⟩ := List.mem_map.mp hc
  exact hf d hd (h.child hd)

theorem and {q : List String → Expr → Prop} (hq : HeadRule q) :
    HeadRule fun scope n => p scope n ∧ q scope n where
  constant scope v := ⟨hp.constant scope v, hq.constant scope v⟩
  unary scope op e := ⟨hp.unary scope op e, hq.unary scope op e⟩
  binary scope op l r := ⟨hp.binary scope op l r, hq.binary scope op l r⟩
  lambda scope ps b := ⟨hp.lambda scope ps b, hq.lambda scope ps b⟩
  conditional scope t a b := ⟨hp.conditional scope t a b, hq.conditional scope t a b⟩
  member scope t t' m h := ⟨hp.member scope t t' m h.1, hq.member scope t t' m h.2⟩
  call scope t t' m args args' hlen h :=
    ⟨hp.call scope t t' m args args' hlen h.1, hq.call scope t t' m args args' hlen h.2⟩
  staticCall scope m args args' hlen h :=
    ⟨hp.staticCall scope m args args' hlen h.1, hq.staticCall scope m args args' hlen h.2⟩
  invoke scope c c' args args' hlen h :=
    ⟨hp.invoke scope c c' args args' hlen h.1, hq.invoke scope c c' args args' hlen h.2⟩

omit hp in
theorem ofScopes (h : ∀ scope, HeadRule fun _ => p scope) : HeadRule p where
  constant scope := (h scope).constant scope
  unary scope := (h scope).unary scope
  binary scope := (h scope).binary scope
  lambda scope := (h scope).lambda scope
  conditional scope := (h scope).conditional scope
  member scope := (h scope).member scope
  call scope := (h scope).call scope
  staticCall scope := (h scope).staticCall scope
  invoke scope := (h scope).invoke scope

theorem throughout_constant (v : Value) : (Expr.constant v).Throughout p scope := by
  rw [throughout_iff_children]
  exact ⟨hp.constant scope v, by simp [children]⟩

theorem throughout_unary {op : UnaryOp} (h : e.Throughout p scope) :
    (Expr.unary op e).Throughout p scope := by
  rw [throughout_iff_children]
  exact ⟨hp.unary scope op e, by simpa [children, binds] using h⟩

theorem throughout_binary {op : BinaryOp} {l r : Expr} (hl : l.Throughout p scope)
    (hr : r.Throughout p scope) : (Expr.binary op l r).Throughout p scope := by
  rw [throughout_iff_children]
  exact ⟨hp.binary scope op l r, by simpa [children, binds] using ⟨hl, hr⟩⟩

end HeadRule

/-- The same for a condition that scopes play no part in; it allows all variables. -/
structure NodeRule (p : Expr → Prop) : Prop extends HeadRule (fun _ => p) where
  var : ∀ name, p (var name)

namespace NodeRule

variable {p : Expr → Prop} {e : Expr} (hp : NodeRule p)

include hp

theorem all_withChildren {es : List Expr} (he : p e) (hlen : es.length = e.children.length)
    (hes : ∀ c ∈ es, c.All p) : (e.withChildren es).All p := by
  have hall : (e.withChildren es).Throughout (fun _ => p) [] :=
    hp.throughout_withChildren he hlen fun c hc => throughout_iff_all.mpr (hes c hc)
  exact throughout_iff_all.mp hall

theorem all_mapChildren {f : Expr → Expr} (h : e.All p)
    (hf : ∀ c ∈ e.children, c.All p → (f c).All p) : (e.mapChildren f).All p := by
  rw [← withChildren_map]
  apply hp.all_withChildren h.node (List.length_map f)
  intro c hc
  obtain ⟨d, hd, rfl⟩ := List.mem_map.mp hc
  exact hf d hd (h.child hd)

theorem all_var (name : String) : (Expr.var name).All p := by
  rw [all_iff_children]
  exact ⟨hp.var name, by simp [children]⟩

theorem all_lambda {ps : List String} (h : e.All p) : (Expr.lambda ps e).All p := by
  rw [all_iff_children]
  exact ⟨hp.lambda [] ps e, by simpa [children] using h⟩

/-- A substitution brings in no nodes but those of the replacements, and variables. -/
theorem all_substitute {bindings : Bindings} (h : e.All p) (hb : ∀ b ∈ bindings, b.2.All p) :
    (e.substitute bindings).All p := by
  induction e using byScopes generalizing bindings with
  | var x =>
    simp only [Expr.substitute]
    cases hl : bindings.lookup x with
    | none => exact h
    | some e => exact hb _ (mem_of_lookup hl)
  | lambda ps b ih =>
    simp only [Expr.substitute]
    split
    · exact h
    · apply hp.all_lambda
      apply ih (h.child (by simp [children]))
      intro binding hbinding
      rcases mem_renameParams hbinding with hbinding | ⟨name, hname⟩
      · exact hb binding (List.mem_filter.mp hbinding).1
      · rw [hname]
        exact hp.all_var name
  | node e hvar hlambda ih =>
    rw [substitute_eq_mapChildren hvar hlambda]
    exact hp.all_mapChildren h fun c hc hall => ih c hc hall hb

end NodeRule

end QueryTree.Expr
