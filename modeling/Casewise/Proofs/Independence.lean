import Mathlib.Data.List.Perm.Basic
import Casewise.Proofs.History

/-!
# Casewise.Proofs.Independence -- injections that can be done in any order

An injection looks at the names that it wants, takes them, and releases the function that its tests
come from. Two injections can therefore be in each other's way in two manners: they want the same
name, or one wants the name that the other releases. The first is noticed in either order. The
second is not, since whoever comes later gets the released name and whoever comes first is
refused; so expansions are called independent when neither has a test that is named like the
function of the other.

Independent expansions are both accepted, one after the other, just if all their names are free at
the start and no name is wanted twice (`exists_inject_inject_iff`). Nothing in this condition says
which comes first, and neither does what a name is bound to afterwards (`injected_injected_comm`):
a test of either, nothing if it was the bare function of either, and else what it was before. This
is one exchange of neighbours, and every rearrangement of a list of expansions is a chain of such
exchanges (`injectAll_perm`).
-/

namespace Casewise

variable {R : Type}

/-- **Independent expansions**: neither has a test that is named like the function of the other. -/
structure Expansion.Independent (a b : Expansion R) : Prop where
  first_notMem : a.origin.name ∉ b.names
  second_notMem : b.origin.name ∉ a.names

theorem Expansion.Independent.symm {a b : Expansion R} (h : a.Independent b) : b.Independent a :=
  ⟨h.second_notMem, h.first_notMem⟩

namespace Namespace

variable {a b : Expansion R} {ns : Namespace R}

/-- Namespaces of one module that look up the same are the same. -/
theorem ext_get? {other : Namespace R} (hpath : ns.modulePath = other.modulePath)
    (h : ∀ name, ns.get? name = other.get? name) : ns = other := by
  obtain ⟨path, bindings⟩ := ns
  obtain ⟨path', bindings'⟩ := other
  obtain rfl : path = path' := hpath
  obtain rfl : bindings = bindings' := NameMap.ext_get? h
  rfl

/-! ## One injection after another -/

/-- What no test is named stays as it was, unless it was the bare function of the expansion. -/
theorem get?_injected_of_notMem (ha : a.Separate) {name : String} (hname : name ∉ a.names) :
    (ns.injected a).get? name =
      if name = a.origin.name ∧ ns.IsBare name then none else ns.get? name := by
  rw [get?_injected ha, Expansion.get?_eq_none_iff.mpr hname]
  by_cases horigin : name = a.origin.name
  · subst horigin
    rfl
  · simp [horigin]

/-- Apart from the name of its function, an injection leaves those names free that were free and
that it did not want. -/
theorem get?_injected_eq_none_iff (ha : a.Separate) {name : String}
    (horigin : name ≠ a.origin.name) :
    (ns.injected a).get? name = none ↔ name ∉ a.names ∧ ns.get? name = none := by
  by_cases hname : name ∈ a.names
  · obtain ⟨t, ht, rfl⟩ := Expansion.mem_names_iff.mp hname
    simp [get?_injected_of_mem ha ns ht, hname]
  · rw [get?_injected_of_notMem ha hname, if_neg fun h => horigin h.1]
    simp [hname]

/-- Of the names that an injection does not want, the bare functions stay, all but its own. -/
theorem isBare_injected_iff (ha : a.Separate) {name : String} (hname : name ∉ a.names) :
    (ns.injected a).IsBare name ↔ name ≠ a.origin.name ∧ ns.IsBare name := by
  constructor
  · rintro ⟨origin, horigin⟩
    rw [get?_injected_of_notMem ha hname] at horigin
    split at horigin
    · cases horigin
    · rename_i hown
      have hbare : ns.IsBare name := ⟨origin, horigin⟩
      exact ⟨fun heq => hown ⟨heq, hbare⟩, hbare⟩
  · rintro ⟨hne, origin, horigin⟩
    refine ⟨origin, ?_⟩
    rw [get?_injected_of_notMem ha hname, if_neg fun h => hne h.1]
    exact horigin

/-- What two injections leave of the names that neither wants. -/
theorem get?_injected_injected_of_notMem (ha : a.Separate) (hb : b.Separate) {name : String}
    (hnamea : name ∉ a.names) (hnameb : name ∉ b.names) :
    ((ns.injected a).injected b).get? name =
      if (name = a.origin.name ∨ name = b.origin.name) ∧ ns.IsBare name then none
      else ns.get? name := by
  rw [get?_injected_of_notMem hb hnameb]
  simp only [isBare_injected_iff ha hnamea, get?_injected_of_notMem ha hnamea]
  by_cases hbare : ns.IsBare name
  · by_cases hfirst : name = a.origin.name
    · simp [hfirst]
    · simp [hbare, hfirst]
  · simp [hbare]

/-- A test that was injected stays when another expansion does not want its name. -/
theorem get?_injected_injected_of_mem (ha : a.Separate) (hb : b.Separate) {t : TestCase R}
    (ht : t ∈ a.tests) (hname : t.name ∉ b.names) :
    ((ns.injected a).injected b).get? t.name = some (.test t) := by
  have hbound := get?_injected_of_mem ha ns ht
  have hbare : ¬ (ns.injected a).IsBare t.name := by
    rintro ⟨origin, horigin⟩
    rw [hbound] at horigin
    cases horigin
  rw [get?_injected_of_notMem hb hname, if_neg fun h => hbare h.2, hbound]

/-- **Two injections bind the same in either order**, if they want no name in common. -/
theorem injected_injected_comm (ha : a.Separate) (hb : b.Separate)
    (hdisjoint : a.names.Disjoint b.names) (ns : Namespace R) :
    (ns.injected a).injected b = (ns.injected b).injected a := by
  refine ext_get? ?_ fun name => ?_
  · rfl
  by_cases hnamea : name ∈ a.names
  · have hnameb : name ∉ b.names := hdisjoint hnamea
    obtain ⟨t, ht, rfl⟩ := Expansion.mem_names_iff.mp hnamea
    rw [get?_injected_injected_of_mem ha hb ht hnameb]
    exact (get?_injected_of_mem ha _ ht).symm
  · by_cases hnameb : name ∈ b.names
    · obtain ⟨t, ht, rfl⟩ := Expansion.mem_names_iff.mp hnameb
      rw [get?_injected_injected_of_mem hb ha ht hnamea]
      exact get?_injected_of_mem hb _ ht
    · rw [get?_injected_injected_of_notMem ha hb hnamea hnameb,
        get?_injected_injected_of_notMem hb ha hnameb hnamea]
      simp only [or_comm]

/-- What is free after an injection for an expansion that does not want the released name: what was
free before and is not wanted by both. -/
theorem free_injected_iff (ha : a.Separate) (horigin : a.origin.name ∉ b.names) :
    (∀ t ∈ b.tests, (ns.injected a).get? t.name = none) ↔
      a.names.Disjoint b.names ∧ ∀ t ∈ b.tests, ns.get? t.name = none := by
  have hfree : ∀ t ∈ b.tests, (ns.injected a).get? t.name = none ↔
      t.name ∉ a.names ∧ ns.get? t.name = none := by
    intro t ht
    apply get?_injected_eq_none_iff ha
    intro hname
    exact horigin (Expansion.mem_names_iff.mpr ⟨t, ht, hname⟩)
  constructor
  · intro h
    refine ⟨fun name hnamea hnameb => ?_, fun t ht => ((hfree t ht).mp (h t ht)).2⟩
    obtain ⟨t, ht, rfl⟩ := Expansion.mem_names_iff.mp hnameb
    exact ((hfree t ht).mp (h t ht)).1 hnamea
  · rintro ⟨hdisjoint, h⟩ t ht
    have hnameb : t.name ∈ b.names := Expansion.mem_names_iff.mpr ⟨t, ht, rfl⟩
    exact (hfree t ht).mpr ⟨fun hnamea => hdisjoint hnamea hnameb, h t ht⟩

/-- **When two independent injections are accepted**: all names are free at the start, and none is
wanted twice. -/
theorem exists_inject_inject_iff (ha : a.Separate) (hindependent : a.Independent b)
    {as bs : List String} {last : Namespace R} :
    (∃ mid, ns.inject a = (.ok as, mid) ∧ mid.inject b = (.ok bs, last)) ↔
      (∀ t ∈ a.tests, ns.get? t.name = none) ∧ (∀ t ∈ b.tests, ns.get? t.name = none) ∧
        a.names.Disjoint b.names ∧ as = a.names ∧ bs = b.names ∧
          last = (ns.injected a).injected b := by
  simp only [inject_eq_ok_iff]
  constructor
  · rintro ⟨_, ⟨hfreea, rfl, rfl⟩, hfreeb, rfl, rfl⟩
    obtain ⟨hdisjoint, hfreeb⟩ := (free_injected_iff ha hindependent.first_notMem).mp hfreeb
    exact ⟨hfreea, hfreeb, hdisjoint, rfl, rfl, rfl⟩
  · rintro ⟨hfreea, hfreeb, hdisjoint, rfl, rfl, rfl⟩
    refine ⟨_, ⟨hfreea, rfl, rfl⟩, ?_, rfl, rfl⟩
    exact (free_injected_iff ha hindependent.first_notMem).mpr ⟨hdisjoint, hfreeb⟩

/-- **Neighbours can be exchanged** when they are independent. -/
theorem exists_inject_inject_comm (ha : a.Separate) (hb : b.Separate)
    (hindependent : a.Independent b) {as bs : List String} {last : Namespace R} :
    (∃ mid, ns.inject a = (.ok as, mid) ∧ mid.inject b = (.ok bs, last)) →
      ∃ mid, ns.inject b = (.ok bs, mid) ∧ mid.inject a = (.ok as, last) := by
  rw [exists_inject_inject_iff ha hindependent, exists_inject_inject_iff hb hindependent.symm]
  rintro ⟨hfreea, hfreeb, hdisjoint, rfl, rfl, rfl⟩
  exact ⟨hfreeb, hfreea, List.disjoint_symm hdisjoint, rfl, rfl,
    injected_injected_comm ha hb hdisjoint ns⟩

/-! ## Injections in a row -/

/-- Injects expansions one after the other, up to the first that is refused. -/
def injectAll (ns : Namespace R) : List (Expansion R) → Except Problem (Namespace R)
  | [] => .ok ns
  | e :: rest =>
    match ns.inject e with
    | (.ok _, mid) => mid.injectAll rest
    | (.error p, _) => .error p

theorem injectAll_cons_eq_ok_iff {e : Expansion R} {rest : List (Expansion R)}
    {last : Namespace R} :
    ns.injectAll (e :: rest) = .ok last ↔
      ∃ names mid, ns.inject e = (.ok names, mid) ∧ mid.injectAll rest = .ok last := by
  rw [injectAll]
  obtain ⟨answer, mid⟩ := ns.inject e
  cases answer with
  | ok names => simp
  | error p => simp

/-- **Pairwise independent expansions can be injected in any order.** -/
theorem injectAll_perm {es others : List (Expansion R)} {last : Namespace R}
    (hperm : es.Perm others) (hseparate : ∀ e ∈ es, e.Separate)
    (hindependent : es.Pairwise Expansion.Independent) (h : ns.injectAll es = .ok last) :
    ns.injectAll others = .ok last := by
  induction hperm generalizing ns with
  | nil => exact h
  | cons e _ ih =>
    obtain ⟨names, mid, hmid, hrest⟩ := injectAll_cons_eq_ok_iff.mp h
    obtain ⟨_, hseparate⟩ := List.forall_mem_cons.mp hseparate
    obtain ⟨_, hindependent⟩ := List.pairwise_cons.mp hindependent
    exact injectAll_cons_eq_ok_iff.mpr ⟨names, mid, hmid, ih hseparate hindependent hrest⟩
  | swap b a rest =>
    obtain ⟨ha, hseparate⟩ := List.forall_mem_cons.mp hseparate
    obtain ⟨hb, _⟩ := List.forall_mem_cons.mp hseparate
    have hab : a.Independent b := (List.pairwise_cons.mp hindependent).1 b List.mem_cons_self
    simp only [injectAll_cons_eq_ok_iff] at h ⊢
    obtain ⟨as, mid, hmid, bs, next, hnext, hrest⟩ := h
    obtain ⟨mid', hmid', hnext'⟩ := exists_inject_inject_comm ha hb hab ⟨mid, hmid, hnext⟩
    exact ⟨bs, mid', hmid', as, next, hnext', hrest⟩
  | @trans _ between _ hfirst _ ihfirst ihsecond =>
    have hseparate' : ∀ e ∈ between, e.Separate := fun e he => hseparate e (hfirst.mem_iff.mpr he)
    have hindependent' := hindependent.perm hfirst fun hab => hab.symm
    exact ihsecond hseparate' hindependent' (ihfirst hseparate hindependent h)

end Namespace

/-- **Independent injections commute.** If two functions expand, neither expansion has a test that
is named like the other function, and a namespace accepts the one and then the other, then it
accepts them in the other order too, with the same answers, and the namespace in the end is the
same. So it is with any number of expansions that are independent in pairs, in any order. -/
theorem independent_injections_commute :
    (∀ {V W : Type} [Cell V] [Cell W] (policy policy' : ArityPolicy)
      (parameters parameters' : List String) (sets : DataSets V) (sets' : DataSets W)
      (f : TestFunction V R) (g : TestFunction W R) (a b : Expansion R),
      (expandWith policy parameters sets f).outcome = .ok a →
      (expandWith policy' parameters' sets' g).outcome = .ok b →
      f.name ∉ b.names → g.name ∉ a.names →
      ∀ (ns mid last : Namespace R) (as bs : List String),
        ns.inject a = (.ok as, mid) → mid.inject b = (.ok bs, last) →
        ∃ mid', ns.inject b = (.ok bs, mid') ∧ mid'.inject a = (.ok as, last)) ∧
    (∀ es others : List (Expansion R), (∀ e ∈ es, e.Made) → es.Pairwise Expansion.Independent →
      es.Perm others → ∀ ns last : Namespace R, ns.injectAll es = .ok last →
        ns.injectAll others = .ok last) := by
  constructor
  · intro V W _ _ policy policy' parameters parameters' sets sets' f g a b hf hg hfb hga ns mid last
      as bs hmid hlast
    have horigina : a.origin.name = f.name := congrArg Origin.name (origin_of_outcome hf)
    have horiginb : b.origin.name = g.name := congrArg Origin.name (origin_of_outcome hg)
    have hindependent : a.Independent b := ⟨horigina ▸ hfb, horiginb ▸ hga⟩
    exact Namespace.exists_inject_inject_comm (separate_of_outcome hf) (separate_of_outcome hg)
      hindependent ⟨mid, hmid, hlast⟩
  · intro es others hmade hindependent hperm ns last h
    exact Namespace.injectAll_perm hperm (fun e he => (hmade e he).separate) hindependent h

/-- What a function without arguments expands to over an empty row. -/
def loneTest (name dataSet : String) : Expansion Unit :=
  (TestFunction.nullary name).expansion [] (.emptyRow dataSet)

/-- A namespace of two bare functions, one of which continues the other. -/
def relatedFunctions : Namespace Unit :=
  (Namespace.empty "m").run
    [.defineFunction (TestFunction.nullary "test_a").origin,
      .defineFunction (TestFunction.nullary "test_a_b").origin]

theorem related_functions_commute :
    "test_a" ∉ (loneTest "test_a_b" "c").names ∧ "test_a_b" ∉ (loneTest "test_a" "c").names ∧
    ∃ mid mid' last, relatedFunctions.inject (loneTest "test_a" "c") = (.ok ["test_a_c"], mid) ∧
      mid.inject (loneTest "test_a_b" "c") = (.ok ["test_a_b_c"], last) ∧
      relatedFunctions.inject (loneTest "test_a_b" "c") = (.ok ["test_a_b_c"], mid') ∧
      mid'.inject (loneTest "test_a" "c") = (.ok ["test_a_c"], last) := by
  have hfirst : "test_a" ∉ (loneTest "test_a_b" "c").names := by decide
  have hsecond : "test_a_b" ∉ (loneTest "test_a" "c").names := by decide
  obtain ⟨mid', hmid', hlast⟩ := independent_injections_commute.1 .strict .strict [] []
    (.emptyRow "c") (.emptyRow "c") (.nullary "test_a") (.nullary "test_a_b") _ _ rfl rfl
    hfirst hsecond relatedFunctions _ _ _ _ rfl rfl
  exact ⟨hfirst, hsecond, _, mid', _, rfl, rfl, hmid', hlast⟩

/-- An expansion that wants the name of a bare function is refused before the expansion of that
function and accepted after it. -/
example :
    (relatedFunctions.injectAll [loneTest "test_a" "b", loneTest "test_a_b" "c"]).isOk = false ∧
    (relatedFunctions.injectAll [loneTest "test_a_b" "c", loneTest "test_a" "b"]).isOk = true := by
  decide

end Casewise
