import Mathlib.Data.List.Induction
import QueryTree.Operator.Registry

/-! The order in which a registry asks its providers. Registering puts each provider in its place,
and what comes out is the sequence of registrations, sorted by falling priority without changing the
order of equals. Hence which provider decides on a method can be said on the sequence of
registrations alone, and so can what a further registration changes. -/

namespace QueryTree

/-! ### Providers in order -/

namespace Provider

/-- `sorted` holds the providers of `registered` by falling priority; those of one priority keep
their order. -/
structure StablySorted (registered sorted : List Provider) : Prop where
  perm : sorted.Perm registered
  falling : sorted.Pairwise fun p q => q.priority ≤ p.priority
  stable : ∀ n, sorted.filter (·.priority == n) = registered.filter (·.priority == n)

/-- Among the providers that know a method, `p` has the highest priority, and it was registered
before the others of that priority. -/
structure Decides (registered : List Provider) (m : Method) (p : Provider) : Prop where
  knows : (p.lookup m).isSome
  first : ∃ earlier later, registered = earlier ++ p :: later ∧
    (∀ q ∈ earlier, (q.lookup m).isSome → q.priority < p.priority) ∧
    ∀ q ∈ later, (q.lookup m).isSome → q.priority ≤ p.priority

variable {registered sorted : List Provider} {m : Method} {p q : Provider}

theorem decides_iff : Decides registered m p ↔
    (∀ q ∈ registered, (q.lookup m).isSome → q.priority ≤ p.priority) ∧
      registered.find? (fun q => q.priority == p.priority && (q.lookup m).isSome) = some p := by
  rw [List.find?_eq_some_iff_append]
  simp only [beq_self_eq_true, Bool.true_and, Bool.not_and, Bool.or_eq_true, Bool.not_eq_true',
    beq_eq_false_iff_ne]
  constructor
  · intro h
    obtain ⟨earlier, later, rfl, hearlier, hlater⟩ := h.first
    constructor
    · intro q hq hknows
      simp only [List.mem_append, List.mem_cons] at hq
      obtain hq | rfl | hq := hq
      · exact Nat.le_of_lt (hearlier q hq hknows)
      · exact Nat.le_refl _
      · exact hlater q hq hknows
    · refine ⟨h.knows, earlier, later, rfl, fun q hq => ?_⟩
      cases hknows : (q.lookup m).isSome with
      | false => exact .inr rfl
      | true => exact .inl (Nat.ne_of_lt (hearlier q hq hknows))
  · rintro ⟨hmax, hknows, earlier, later, hsplit, hearlier⟩
    subst hsplit
    refine ⟨hknows, earlier, later, rfl, fun q hq hq' => ?_, fun q hq => hmax q (by simp [hq])⟩
    have hle : q.priority ≤ p.priority := hmax q (by simp [hq]) hq'
    have hne : q.priority ≠ p.priority := by simpa [hq'] using hearlier q hq
    omega

theorem Decides.unique (hp : Decides registered m p) (hq : Decides registered m q) : p = q := by
  have hpq : p.priority ≤ q.priority :=
    (decides_iff.mp hq).1 p (List.mem_of_find?_eq_some (decides_iff.mp hp).2) hp.knows
  have hqp : q.priority ≤ p.priority :=
    (decides_iff.mp hp).1 q (List.mem_of_find?_eq_some (decides_iff.mp hq).2) hq.knows
  have hsame := (decides_iff.mp hp).2
  rw [show p.priority = q.priority by omega, (decides_iff.mp hq).2] at hsame
  exact (Option.some.inj hsame).symm

theorem StablySorted.decides_iff (h : StablySorted registered sorted) :
    Decides sorted m p ↔ Decides registered m p := by
  have hfind : sorted.find? (fun q => q.priority == p.priority && (q.lookup m).isSome) =
      registered.find? (fun q => q.priority == p.priority && (q.lookup m).isSome) := by
    have hsame := congrArg (List.find? fun q => (q.lookup m).isSome) (h.stable p.priority)
    simpa only [List.find?_filter, Bool.decide_and, Bool.decide_eq_true] using hsame
  rw [Provider.decides_iff, Provider.decides_iff, hfind]
  simp only [h.perm.mem_iff]

theorem StablySorted.decides_of_first (h : StablySorted registered sorted)
    {front back : List Provider} (hsplit : sorted = front ++ p :: back) (hp : (p.lookup m).isSome)
    (hfront : ∀ q ∈ front, q.lookup m = none) : Decides registered m p := by
  rw [← h.decides_iff]
  have hfalling := h.falling
  rw [hsplit, List.pairwise_append, List.pairwise_cons] at hfalling
  refine ⟨hp, front, back, hsplit, fun q hq hknows => ?_, fun q hq _ => hfalling.2.1.1 q hq⟩
  rw [hfront q hq] at hknows
  cases hknows

end Provider

namespace Registry

open Provider

variable {r : Registry} {registered ps : List Provider} {m : Method} {p : Provider}

/-- A provider comes behind all that are not of lower priority, and before the others. -/
theorem insertProvider_split (p : Provider) (h : ps.Pairwise fun p q => q.priority ≤ p.priority) :
    ∃ front back, ps = front ++ back ∧ insertProvider p ps = front ++ p :: back ∧
      (∀ q ∈ front, p.priority ≤ q.priority) ∧ ∀ q ∈ back, q.priority < p.priority := by
  induction ps with
  | nil => exact ⟨[], [], rfl, rfl, by simp, by simp⟩
  | cons q qs ih =>
    rw [List.pairwise_cons] at h
    by_cases hlt : q.priority < p.priority
    · refine ⟨[], q :: qs, rfl, if_pos hlt, by simp, fun x hx => ?_⟩
      obtain rfl | hx := List.mem_cons.mp hx
      · exact hlt
      · have hle := h.1 x hx
        omega
    · obtain ⟨front, back, rfl, hinsert, hfront, hback⟩ := ih h.2
      refine ⟨q :: front, back, rfl, ?_, fun x hx => ?_, hback⟩
      · rw [insertProvider, if_neg hlt, hinsert, List.cons_append]
      · obtain rfl | hx := List.mem_cons.mp hx
        · omega
        · exact hfront x hx

theorem stablySorted_register (h : StablySorted registered r.providers) (p : Provider) :
    StablySorted (registered ++ [p]) (r.register p).providers := by
  obtain ⟨front, back, hproviders, hinsert, hfront, hback⟩ := insertProvider_split p h.falling
  have hregister : (r.register p).providers = front ++ p :: back := hinsert
  obtain ⟨hperm, hfalling, hstable⟩ := h
  rw [hproviders] at hperm hfalling hstable
  rw [hregister]
  constructor
  · have hcons : (front ++ p :: back).Perm (p :: registered) :=
      List.perm_middle.trans (hperm.cons p)
    exact hcons.trans (List.perm_append_singleton p registered).symm
  · rw [List.pairwise_append] at hfalling ⊢
    obtain ⟨hfalling, hrest, hacross⟩ := hfalling
    refine ⟨hfalling, List.pairwise_cons.mpr ⟨fun q hq => Nat.le_of_lt (hback q hq), hrest⟩, ?_⟩
    intro q hq x hx
    obtain rfl | hx := List.mem_cons.mp hx
    · exact hfront q hq
    · exact hacross q hq x hx
  · intro n
    have hn := hstable n
    rw [List.filter_append] at hn
    rw [List.filter_append, List.filter_append, ← hn, List.append_assoc, List.filter_cons,
      List.filter_cons, List.filter_nil]
    by_cases hp : p.priority = n
    · -- what comes behind the new provider has another priority
      have hnone : back.filter (·.priority == n) = [] := by
        rw [List.filter_eq_nil_iff]
        intro q hq
        have hlt := hback q hq
        simp only [beq_iff_eq]
        omega
      simp [hnone, hp]
    · simp [hp]

theorem lookup_eq_some_iff (h : StablySorted registered r.providers) {kind : OperatorKind} :
    r.lookup m = some kind ↔ ∃ p, Decides registered m p ∧ p.lookup m = some kind := by
  have hfirst : ∀ kind, r.lookup m = some kind →
      ∃ p, Decides registered m p ∧ p.lookup m = some kind := by
    intro kind hkind
    obtain ⟨front, p, back, hsplit, hp, hfront⟩ := List.findSome?_eq_some_iff.mp hkind
    exact ⟨p, h.decides_of_first hsplit (by simp [hp]) hfront, hp⟩
  constructor
  · exact hfirst kind
  · rintro ⟨p, hdecides, hp⟩
    have hmem : p ∈ r.providers := by
      obtain ⟨earlier, later, hsplit, -⟩ := hdecides.first
      rw [h.perm.mem_iff, hsplit]
      simp
    have hknown : (r.lookup m).isSome := List.findSome?_isSome_iff.mpr ⟨p, hmem, hdecides.knows⟩
    obtain ⟨other, hother⟩ := Option.isSome_iff_exists.mp hknown
    obtain ⟨q, hq, hanswer⟩ := hfirst other hother
    rw [hother, ← hanswer, hq.unique hdecides, hp]

theorem lookup_eq_none_iff (h : StablySorted registered r.providers) :
    r.lookup m = none ↔ ∀ p ∈ registered, p.lookup m = none := by
  simp only [lookup, List.findSome?_eq_none_iff, h.perm.mem_iff]

/-- A registration changes what is said about a method if the new provider says something else and
no provider that is asked before it knows the method. -/
theorem lookup_register_ne_iff (h : StablySorted registered r.providers) :
    (r.register p).lookup m ≠ r.lookup m ↔
      (p.lookup m).isSome ∧ p.lookup m ≠ r.lookup m ∧
        ∀ q ∈ registered, p.priority ≤ q.priority → q.lookup m = none := by
  obtain ⟨front, back, hproviders, hinsert, hfront, hback⟩ := insertProvider_split p h.falling
  have hnew : (r.register p).lookup m = (front.findSome? (·.lookup m)).or
      ((p.lookup m).or (back.findSome? (·.lookup m))) := by
    have hregister : (r.register p).providers = front ++ p :: back := hinsert
    rw [lookup, hregister, List.findSome?_append, List.findSome?_cons]
    cases p.lookup m <;> rfl
  have hold : r.lookup m = (front.findSome? (·.lookup m)).or (back.findSome? (·.lookup m)) := by
    rw [lookup, hproviders, List.findSome?_append]
  -- the providers asked before the new one are those in front of it
  have hasked : (∀ q ∈ registered, p.priority ≤ q.priority → q.lookup m = none) ↔
      front.findSome? (·.lookup m) = none := by
    rw [List.findSome?_eq_none_iff]
    constructor
    · intro hnone q hq
      exact hnone q (h.perm.mem_iff.mp (by simp [hproviders, hq])) (hfront q hq)
    · intro hnone q hq hle
      rw [← h.perm.mem_iff, hproviders, List.mem_append] at hq
      obtain hq | hq := hq
      · exact hnone q hq
      · have hlt := hback q hq
        omega
  rw [hasked, hnew, hold]
  cases front.findSome? (·.lookup m) with
  | some kind => simp
  | none => cases p.lookup m <;> simp

end Registry

/-! ### Registrations and snapshots -/

/-- What can be registered: a provider, or methods for one kind. -/
inductive Registration where
  | provider (p : Provider)
  | methods (signatures : List Signature) (kind : OperatorKind)

/-- Methods are registered through a provider that knows them and no others. -/
def Registration.provided : Registration → Provider
  | provider p => p
  | methods signatures kind =>
    ⟨"signature", 100, fun m => if m.signature ∈ signatures then some kind else none⟩

namespace Registry

def accept (r : Registry) : Registration → Registry
  | .provider p => r.register p
  | .methods signatures kind => r.registerMethods signatures kind

theorem lookup_foldl_add (methods : List Signature) (kind : OperatorKind) (t : SignatureTable)
    (s : Signature) : (methods.foldl (fun t s => SignatureTable.add t s kind) t).lookup s =
      if s ∈ methods then some kind else t.lookup s := by
  induction methods generalizing t with
  | nil => simp
  | cons s' methods ih =>
    rw [List.foldl_cons, ih, SignatureTable.add, lookup_upsert]
    by_cases hs : s ∈ methods <;> simp [hs]

theorem accept_eq_register (r : Registry) (g : Registration) :
    r.accept g = r.register g.provided := by
  cases g with
  | provider p => rfl
  | methods methods kind =>
    have hlookup : (SignatureTable.provider
        (methods.foldl (fun t s => SignatureTable.add t s kind) [])).lookup =
          fun m => if m.signature ∈ methods then some kind else none := by
      funext m
      exact lookup_foldl_add methods kind [] m.signature
    show r.register _ = r.register _
    rw [Registration.provided, ← hlookup]
    rfl

inductive Request where
  | register (g : Registration)
  | snapshot

/-- A registry, with the lists of providers that were taken from it. -/
structure Session where
  registry : Registry
  snapshots : List (List Provider)

def serve (s : Session) : Request → Session
  | .register g => { s with registry := s.registry.accept g }
  | .snapshot => { s with snapshots := s.snapshots ++ [s.registry.providers] }

/-- What a history leads to, from a registry without providers. -/
def run (requests : List Request) : Session := requests.foldl serve ⟨.empty, []⟩

/-- The providers that were registered, in the order of their registrations. -/
def registered (requests : List Request) : List Provider :=
  requests.filterMap fun
    | .register g => some g.provided
    | .snapshot => none

theorem run_stablySorted (requests : List Request) :
    Provider.StablySorted (registered requests) (run requests).registry.providers := by
  induction requests using List.reverseRecOn with
  | nil => exact ⟨.nil, .nil, fun _ => rfl⟩
  | append_singleton requests request ih =>
    rw [run, List.foldl_append, registered, List.filterMap_append]
    cases request with
    | register g =>
      show Provider.StablySorted (registered requests ++ [g.provided])
        ((run requests).registry.accept g).providers
      rw [accept_eq_register]
      exact stablySorted_register ih g.provided
    | snapshot =>
      show Provider.StablySorted (registered requests ++ []) (run requests).registry.providers
      rw [List.append_nil]
      exact ih

/-- Later requests take further snapshots, and leave the earlier ones as they are. -/
theorem snapshots_foldl_serve (requests : List Request) (s : Session) :
    s.snapshots <+: (requests.foldl serve s).snapshots := by
  induction requests generalizing s with
  | nil => exact List.prefix_rfl
  | cons request requests ih =>
    have hstep : s.snapshots <+: (serve s request).snapshots := by
      cases request with
      | register g => exact List.prefix_rfl
      | snapshot => exact List.prefix_append _ _
    exact hstep.trans (ih (serve s request))

/-- After any history a registry holds the sequence of its registrations, stably sorted by falling
priority. The provider that decides on a method is the one of highest priority that knows it, the
one registered first among equals. A further registration changes the answer for a method if and
only if its provider has another answer and no provider of at least its priority knows the method. A
snapshot taken now stays the list that it is, whatever is registered later. -/
theorem run_keeps_precedence (requests : List Request) :
    Provider.StablySorted (registered requests) (run requests).registry.providers ∧
    (∀ m,
      ((run requests).registry.lookup m = none ↔ ∀ p ∈ registered requests, p.lookup m = none) ∧
      ∀ kind, (run requests).registry.lookup m = some kind ↔
        ∃ p, Provider.Decides (registered requests) m p ∧ p.lookup m = some kind) ∧
    (∀ g m, ((run requests).registry.accept g).lookup m ≠ (run requests).registry.lookup m ↔
      (g.provided.lookup m).isSome ∧ g.provided.lookup m ≠ (run requests).registry.lookup m ∧
        ∀ q ∈ registered requests, g.provided.priority ≤ q.priority → q.lookup m = none) ∧
    ∀ later, (run (requests ++ .snapshot :: later)).snapshots[(run requests).snapshots.length]? =
      some (run requests).registry.providers := by
  have hsorted := run_stablySorted requests
  refine ⟨hsorted, fun m => ⟨lookup_eq_none_iff hsorted, fun kind => lookup_eq_some_iff hsorted⟩,
    fun g m => ?_, fun later => ?_⟩
  · rw [accept_eq_register]
    exact lookup_register_ne_iff hsorted
  · have hkept := snapshots_foldl_serve later (serve (run requests) .snapshot)
    rw [run, List.foldl_append, List.foldl_cons]
    obtain ⟨taken, htaken⟩ := hkept
    show (later.foldl serve (serve (run requests) .snapshot)).snapshots[_]? = _
    rw [← htaken]
    show ((run requests).snapshots ++ [(run requests).registry.providers] ++ taken)[_]? = _
    rw [List.append_assoc, List.getElem?_append_right (Nat.le_refl _), Nat.sub_self]
    rfl

/-- Of two providers with one priority the one registered first is asked first. -/
example :
    let first : Provider := ⟨"first", 50, fun _ => some .distinct⟩
    let second : Provider := ⟨"second", 50, fun _ => some .reverse⟩
    let s := run [.register (.provider first), .snapshot, .register (.provider second)]
    s.registry.names = ["first", "second"] ∧ s.registry.lookup .tagWith = some .distinct ∧
      s.snapshots.map (·.length) = [1] := ⟨rfl, rfl, rfl⟩

end Registry

end QueryTree
