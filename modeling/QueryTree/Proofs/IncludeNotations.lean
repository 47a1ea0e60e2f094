import QueryTree.Expr.Chain
import QueryTree.Proofs.OperatorRecords
import QueryTree.Proofs.SourceNames

/-! The ways to write an include. A path of navigations is given by a lambda that reads them off its
parameter, by a string with dots between the names, or in parts, each of which goes on where the one
before ended. All of them are built into one include on the model that the query had without it. -/

namespace QueryTree

/-- A name that a path with dots can carry. -/
structure NavigationName (name : String) : Prop where
  nonempty : name ≠ ""
  undotted : '.' ∉ name.toList
  /-- No blanks around it. -/
  first : name.toList.head?.any Text.isBlank = false
  last : name.toList.getLast?.any Text.isBlank = false

/-- The expression reads navigations off a variable, one after the other; it may convert what it
reads. -/
inductive Expr.Navigates (x : String) : List String → Expr → Prop where
  | item : Navigates x [] (.var x)
  | read {names : List String} {e : Expr} (h : Navigates x names e) (member : Member) :
      Navigates x (names ++ [member.name]) (.member e member)
  | convert {names : List String} {e : Expr} (h : Navigates x names e) (type : String) :
      Navigates x names (.unary (.convert type) e)
  | quote {names : List String} {e : Expr} (h : Navigates x names e) :
      Navigates x names (.unary .quote e)

/-- The second expression is the first with an include of a path. -/
inductive Registry.Includes (r : Registry) (e : Expr) : List String → Expr → Prop where
  | lambda {method : Method} {arg body : Expr} {x : String} {path : List String}
      (hkind : r.lookup method = some .includeLambda) (harg : arg.strip = .lambda [x] body)
      (hbody : body.Navigates x path) (hpath : path ≠ []) :
      Includes r e path (.staticCall method [e, arg])
  | string {method : Method} {arg : Expr} {path : List String}
      (hkind : r.lookup method = some .includeString)
      (harg : arg.strip = .constant (.string (".".intercalate path))) (hpath : path ≠ []) :
      Includes r e path (.staticCall method [e, arg])
  | further {e' arg body : Expr} {method : Method} {x : String} {front path : List String}
      (h : Includes r e front e') (hkind : r.lookup method = some .thenInclude)
      (harg : arg.strip = .lambda [x] body) (hbody : body.Navigates x path) (hpath : path ≠ []) :
      Includes r e (front ++ path) (.staticCall method [e', arg])

/-! ### Paths -/

theorem Text.dropWhile_isBlank {cs : List Char} (h : cs.head?.any isBlank = false) :
    cs.dropWhile isBlank = cs := by
  cases cs with
  | nil => rfl
  | cons c cs => exact List.dropWhile_cons_of_neg (by simpa using h)

theorem NavigationName.trim {name : String} (h : NavigationName name) : Text.trim name = name := by
  have hlast : name.toList.reverse.head?.any Text.isBlank = false := by
    rw [List.head?_reverse, h.last]
  rw [Text.trim, Text.dropWhile_isBlank h.first, Text.dropWhile_isBlank hlast, List.reverse_reverse,
    String.ofList_toList]

namespace Construction

variable {process : Expr → BuildM Expr} {m : QueryModel} {c : Construction} {method : Method}
  {arg body : Expr} {x : String} {path : List String}

theorem pathSegments_intercalate (hpath : path ≠ []) (hnames : ∀ name ∈ path, NavigationName name) :
    pathSegments (".".intercalate path) = path := by
  have hdots : ∀ cs ∈ path.map String.toList, '.' ∉ cs := by
    intro cs hcs
    obtain ⟨name, hname, rfl⟩ := List.mem_map.mp hcs
    exact (hnames name hname).undotted
  have hsplit : ((".".intercalate path).toList.splitOn '.') = path.map String.toList := by
    rw [String.toList_intercalate]
    exact List.splitOn_intercalate '.' hdots (by simpa using hpath)
  have htrim : path.map ((Text.trim ∘ String.ofList) ∘ String.toList) = path.map id := by
    apply List.map_congr_left
    intro name hname
    simp only [Function.comp, String.ofList_toList, (hnames name hname).trim, id]
  rw [pathSegments, hsplit, List.map_map, List.map_map, htrim, List.map_id]

/-- The reads of a lambda are collected from the outermost to its parameter, and come in the order
of the navigations. -/
theorem navigationFrom_of_navigates {names : List String} (h : body.Navigates x names)
    (back : List String) (hne : names ++ back ≠ []) :
    navigationFrom (some x) body back = .ok (names ++ back) := by
  induction h generalizing back with
  | item => simpa [navigationFrom] using hne
  | read h member ih =>
    rw [List.append_assoc] at hne ⊢
    exact ih (member.name :: back) hne
  | convert h type ih => exact ih back hne
  | quote h ih => exact ih back hne

theorem navigation_of_navigates (hbody : body.Navigates x path) (hpath : path ≠ []) :
    navigation method ⟨[x], body⟩ = pure path := by
  have hnames := navigationFrom_of_navigates hbody [] (by simpa using hpath)
  rw [List.append_nil] at hnames
  simp [navigation, hnames]

/-! ### Operators -/

theorem includeSource?_eq_some_iff {s : SourceId} :
    includeSource? m = some s ↔ m.select = .sourceRef s := by
  unfold includeSource?
  cases m.select with
  | sourceRef id => simp
  | _ => simp

theorem apply_includeLambda (harg : arg.strip = .lambda [x] body) (hbody : body.Navigates x path)
    (hpath : path ≠ []) (c : Construction) :
    ∃ d, apply process m ⟨method, .includeLambda, [arg]⟩ c =
        .ok (m.addOperator (.includes (includeSource? m) path), d) ∧
      d.arena.anonymous = c.arena.anonymous := by
  obtain ⟨d, hadopt, hnames⟩ := adoptParam_anonymous m ⟨[x], body⟩ c
  refine ⟨d, ?_, hnames⟩
  change includeLambda m method arg c = _
  rw [includeLambda, lambdaArg_of_strip 1 harg rfl, pure_bind,
    navigation_of_navigates hbody hpath, pure_bind, bind_of_ok hadopt]
  rfl

theorem apply_includeString (harg : arg.strip = .constant (.string (".".intercalate path)))
    (hpath : path ≠ []) (hnames : ∀ name ∈ path, NavigationName name) (c : Construction) :
    apply process m ⟨method, .includeString, [arg]⟩ c =
      .ok (m.addOperator (.includes (includeSource? m) path), c) := by
  change includeString m method arg c = _
  have hempty : "" ∉ path := fun h => (hnames "" h).nonempty rfl
  simp only [includeString, harg, pathSegments_intercalate hpath hnames, if_neg hempty]
  rfl

theorem apply_thenInclude {source : Option SourceId} {front : List String}
    (harg : arg.strip = .lambda [x] body) (hbody : body.Navigates x path) (hpath : path ≠ [])
    (c : Construction) :
    apply process (m.addOperator (.includes source front)) ⟨method, .thenInclude, [arg]⟩ c =
      .ok (m.addOperator (.includes source (front ++ path)), c) := by
  change thenInclude (m.addOperator (.includes source front)) method arg c = _
  rw [thenInclude, lambdaArg_of_strip 1 harg rfl, pure_bind,
    navigation_of_navigates hbody hpath, pure_bind]
  simp [QueryModel.addOperator, extendInclude?]
  rfl

end Construction

namespace Builder

open Construction

/-- However it is written, an include adds one operator to the model of the query that it is called
on. -/
theorem buildChain_includes (b : Builder) (limit : Nat) {e e' : Expr} {path : List String}
    {m : QueryModel} {c₀ c : Construction} (hnames : ∀ name ∈ path, NavigationName name)
    (h : b.registry.Includes e path e') (hchain : b.buildChain limit e c₀ = .ok (m, c)) :
    ∃ d, b.buildChain limit e' c₀ = .ok (m.addOperator (.includes (includeSource? m) path), d) ∧
      d.arena.anonymous = c.arena.anonymous := by
  induction h with
  | lambda hkind harg hbody hpath =>
    rw [buildChain_operator b limit hkind, bind_of_ok hchain]
    exact apply_includeLambda harg hbody hpath c
  | string hkind harg hpath =>
    rw [buildChain_operator b limit hkind, bind_of_ok hchain]
    exact ⟨c, apply_includeString harg hpath hnames c, rfl⟩
  | further _ hkind harg hbody hpath ih =>
    obtain ⟨d, hfront, hd⟩ := ih fun name hname => hnames name (List.mem_append_left _ hname)
    rw [buildChain_operator b limit hkind, bind_of_ok hfront]
    exact ⟨d, apply_thenInclude harg hbody hpath d, hd⟩

/-- The notations of an include agree. If a query builds, then so does the query with an include of
a path in any notation, and all of them are built alike up to the names of sources: the models are
those of the query, the root with one more operator, that includes the whole path on the source that
the root selects. -/
theorem build_includes_alike (b : Builder) (limit : Nat) {e : Expr} {path : List String}
    {built : BuiltQuery} (hnames : ∀ name ∈ path, NavigationName name)
    (hbuilt : b.build limit e = .ok built) :
    ∃ m source, built.arena.model? built.root = some m ∧
      (∀ s, source = some s ↔ m.select = .sourceRef s) ∧
      ∀ e', b.registry.Includes e path e' →
        ∃ built', b.build limit e' = .ok built' ∧ built'.root = built.root ∧
          built'.arena.anonymous = Arena.anonymous {
            models := built.arena.models.set built.root
              ⟨m.mainFrom, m.clauses, m.select, m.operators ++ [.includes source path]⟩
            sources := built.arena.sources } := by
  obtain ⟨m, c, hchain, rfl⟩ := build_ok_iff.mp hbuilt
  refine ⟨m, includeSource? m, by simp [Arena.model?, Arena.addModel],
    fun s => includeSource?_eq_some_iff, fun e' h => ?_⟩
  obtain ⟨d, hchain', hd⟩ := b.buildChain_includes limit hnames h hchain
  have hmodels : d.arena.models = c.arena.models := (Arena.mk.inj hd).1
  refine ⟨_, build_ok_iff.mpr ⟨_, d, hchain', rfl⟩, by rw [hmodels], ?_⟩
  rw [Arena.anonymous_addModel, hd]
  simp [Arena.addModel, Arena.anonymous, QueryModel.addOperator]

/-- The orders that are shipped to a customer, with all that the invoice of the customer shows. -/
theorem build_includes_alike_invoice :
    let b : Builder := .standard .standard 8 ⟨⟨0, 0⟩, fun _ => .empty⟩
    let e : Expr := .filtered (.entityQuery "Order")
      (.lambda ["o"] (.member (.var "o") ⟨"Order", "Shipped"⟩))
    let customer : Expr := .member (.var "o") ⟨"Order", "Customer"⟩
    let address (e : Expr) : Expr := .member (.unary (.convert "Person") e) ⟨"Person", "Address"⟩
    let country (e : Expr) : Expr := .member e ⟨"Address", "Country"⟩
    ∃ built built₁ built₂ built₃, b.build 8 e = .ok built ∧
      b.build 8 (.includeNavigation e (.lambda ["o"] (country (address customer)))) = .ok built₁ ∧
      b.build 8 (.includePath e "Customer.Address.Country") = .ok built₂ ∧
      b.build 8 (.thenInclude (.thenInclude (.includeNavigation e (.lambda ["o"] customer))
        (.lambda ["c"] (address (.var "c")))) (.lambda ["a"] (country (.var "a")))) = .ok built₃ ∧
      built₁.arena.anonymous = built₂.arena.anonymous ∧
      built₁.arena.anonymous = built₃.arena.anonymous := by
  intro b e customer address country
  have hok : (b.build 8 e).isOk = true := by decide +kernel
  obtain ⟨built, hbuilt⟩ := exists_of_isOk hok
  have hnames : ∀ name ∈ ["Customer", "Address", "Country"], NavigationName name := by
    intro name hname
    simp only [List.mem_cons, List.not_mem_nil, or_false] at hname
    rcases hname with rfl | rfl | rfl <;> constructor <;> decide +kernel
  obtain ⟨m, source, -, -, halike⟩ := b.build_includes_alike 8 hnames hbuilt
  have hcustomer : customer.Navigates "o" ["Customer"] := .read .item ⟨"Order", "Customer"⟩
  have haddress {x : String} {path : List String} {e : Expr} (h : e.Navigates x path) :
      (address e).Navigates x (path ++ ["Address"]) :=
    .read (.convert h "Person") ⟨"Person", "Address"⟩
  have hcountry {x : String} {path : List String} {e : Expr} (h : e.Navigates x path) :
      (country e).Navigates x (path ++ ["Country"]) := .read h ⟨"Address", "Country"⟩
  have hlambda {e : Expr} : b.registry.Includes e _
      (.includeNavigation e (.lambda ["o"] customer)) :=
    .lambda (by decide +kernel) rfl hcustomer (by decide)
  obtain ⟨built₁, hbuilt₁, -, h₁⟩ := halike
    (.includeNavigation e (.lambda ["o"] (country (address customer))))
    (.lambda (by decide +kernel) rfl (hcountry (haddress hcustomer)) (by decide))
  obtain ⟨built₂, hbuilt₂, -, h₂⟩ := halike (.includePath e "Customer.Address.Country")
    (.string (by decide +kernel) (by decide +kernel) (by decide))
  obtain ⟨built₃, hbuilt₃, -, h₃⟩ := halike
    (.thenInclude (.thenInclude (.includeNavigation e (.lambda ["o"] customer))
      (.lambda ["c"] (address (.var "c")))) (.lambda ["a"] (country (.var "a"))))
    (.further (.further hlambda (by decide +kernel) rfl (haddress .item) (by decide))
      (by decide +kernel)
      rfl (hcountry .item) (by decide))
  exact ⟨built, built₁, built₂, built₃, hbuilt, hbuilt₁, hbuilt₂, hbuilt₃, h₁.trans h₂.symm,
    h₁.trans h₃.symm⟩

end Builder

end QueryTree
