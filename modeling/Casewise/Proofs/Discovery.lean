import Casewise.Proofs.History

/-!
# Casewise.Proofs.Discovery -- which tests are found, and under which names

A namespace files its bindings under names, and what it files has a name of its own: a test is
called something, and so is a function. Nothing in the type of a namespace says that the two
agree. Discovery looks at the names under which tests are filed, while whoever runs them sees what
they are called, so discovery by the start of a name means what it says only where both are the
same.

`Namespace.Filed` is that agreement. Every operation keeps it, by the steps that one operation can
take (`filed_apply`), and so does every run (`filed_run`). In a filed namespace the discovered
tests are exactly the bound ones whose own names start as asked (`Filed.mem_discoverFrom_iff`),
strictly ascending by these names (`Filed.pairwise_discoverFrom`). The entries of a namespace are
determined by what it looks up, so nothing about the way to a namespace shows in what is discovered.
-/

namespace Casewise

open Identifier

variable {R : Type}

/-! ## Bindings under their own names -/

/-- What a binding is called: the name of the test or of the function. -/
def Binding.name : Binding R → String
  | .function origin => origin.name
  | .test t => t.name

namespace Namespace

variable {ns : Namespace R}

/-- **Every binding stands under its own name.** -/
def Filed (ns : Namespace R) : Prop :=
  ∀ name binding, ns.get? name = some binding → binding.name = name

theorem filed_empty (modulePath : String) : (empty modulePath : Namespace R).Filed := by
  intro name binding h
  rw [get?_empty] at h
  cases h

theorem Filed.defineFunction (h : ns.Filed) (origin : Origin) :
    (ns.defineFunction origin).2.Filed := by
  intro name binding hbound
  rw [get?_defineFunction] at hbound
  split at hbound
  · rename_i hname
    obtain rfl := Option.some.inj hbound
    exact hname.symm
  · exact h name binding hbound

theorem Filed.defineTest (h : ns.Filed) {name : String} (hfree : ns.get? name = none)
    (run : Unit → R) : (ns.defineTest name run).2.Filed := by
  intro other binding hbound
  rw [get?_defineTest hfree] at hbound
  split at hbound
  · rename_i hname
    obtain rfl := Option.some.inj hbound
    exact hname.symm
  · exact h other binding hbound

theorem Filed.injected (h : ns.Filed) {e : Expansion R} (he : e.Separate) :
    (ns.injected e).Filed := by
  intro name binding hbound
  rw [get?_injected he] at hbound
  cases hget : e.get? name with
  | some t =>
    rw [hget] at hbound
    obtain rfl := Option.some.inj hbound
    exact (Expansion.of_get? hget).2
  | none =>
    rw [hget] at hbound
    -- what is not the released function has stayed
    have hkept : ns.get? name = some binding := by
      by_cases hbare : name = e.origin.name ∧ ns.IsBare e.origin.name
      · simp [hbare] at hbound
      · simpa [hbare] using hbound
    exact h name binding hkept

theorem Filed.remove (h : ns.Filed) (removed : String) : (ns.remove removed).2.Filed := by
  intro name binding hbound
  rw [get?_remove] at hbound
  split at hbound
  · cases hbound
  · exact h name binding hbound

/-- **Every operation keeps bindings under their own names**, whether it succeeds or fails. -/
theorem filed_apply (h : ns.Filed) (operation : Operation R) : (ns.apply operation).Filed := by
  have hstep := Operation.step_apply ns operation
  generalize ns.apply operation = next at hstep ⊢
  cases hstep with
  | defined origin => exact h.defineFunction origin
  | tested hfree => exact h.defineTest hfree _
  | injected accepted => exact h.injected accepted.separate
  | removed name => exact h.remove name
  | failed _ _ => exact h

/-- What every operation keeps, every run keeps. -/
theorem run_keeps (keeps : Namespace R → Prop)
    (hstep : ∀ ns operation, keeps ns → keeps (ns.apply operation)) (h : keeps ns)
    (operations : List (Operation R)) : keeps (ns.run operations) := by
  induction operations generalizing ns with
  | nil => exact h
  | cons operation rest ih =>
    rw [run_cons]
    exact ih (hstep ns operation h)

theorem filed_run (modulePath : String) (operations : List (Operation R)) :
    ((empty modulePath).run operations).Filed :=
  run_keeps Filed (fun _ operation h => filed_apply h operation) (filed_empty modulePath)
    operations

/-! ## What is discovered -/

/-- A discovered test is bound under a name that starts as asked. -/
theorem mem_discoverFrom_iff_exists {start : String} {t : TestCase R} :
    t ∈ ns.discoverFrom start ↔
      ∃ name, ns.get? name = some (.test t) ∧ start.toList <+: name.toList := by
  have htest : ∀ binding : Binding R, binding.test? = some t ↔ binding = .test t := by
    intro binding
    cases binding <;> simp [Binding.test?]
  have hentry : ∀ name binding, (name, binding) ∈ ns.bindings.entries ↔
      ns.get? name = some binding := fun _ _ => NameMap.mem_entries_iff
  simp only [discoverFrom, List.mem_filterMap, List.mem_filter, List.isPrefixOf_iff_prefix,
    Prod.exists, hentry, htest]
  constructor
  · rintro ⟨name, binding, ⟨hbound, hstart⟩, rfl⟩
    exact ⟨name, hbound, hstart⟩
  · rintro ⟨name, hbound, hstart⟩
    exact ⟨name, _, ⟨hbound, hstart⟩, rfl⟩

/-- **The discovered tests are the bound ones whose own names start as asked.** -/
theorem Filed.mem_discoverFrom_iff (h : ns.Filed) {start : String} {t : TestCase R} :
    t ∈ ns.discoverFrom start ↔
      ns.get? t.name = some (.test t) ∧ start.toList <+: t.name.toList := by
  rw [mem_discoverFrom_iff_exists]
  constructor
  · rintro ⟨name, hbound, hstart⟩
    have hname : t.name = name := h name (.test t) hbound
    rw [hname]
    exact ⟨hbound, hstart⟩
  · rintro ⟨hbound, hstart⟩
    exact ⟨t.name, hbound, hstart⟩

/-- **Discovered tests strictly ascend by their own names**, so none is found twice. -/
theorem Filed.pairwise_discoverFrom (h : ns.Filed) (start : String) :
    (ns.discoverFrom start).Pairwise fun a b => a.name < b.name := by
  have hname : ∀ e ∈ ns.bindings.entries, ∀ t, e.2.test? = some t → t.name = e.1 := by
    rintro ⟨name, binding⟩ hmem t htest
    have hbound : ns.get? name = some binding := NameMap.mem_entries_iff.mp hmem
    cases binding with
    | function origin => cases htest
    | test u =>
      obtain rfl := Option.some.inj htest
      exact h name (.test u) hbound
  rw [discoverFrom, List.pairwise_filterMap]
  -- the entries ascend by the names under which they are filed
  refine List.Pairwise.filter _ (List.Pairwise.imp_of_mem ?_ ns.bindings.ascending)
  intro a b ha hb hlt t ht u hu
  rw [hname a ha t ht, hname b hb u hu]
  exact hlt

/-- What is discovered depends on nothing but what names are bound to. -/
theorem discoverFrom_congr {other : Namespace R} (h : ∀ name, ns.get? name = other.get? name)
    (start : String) : ns.discoverFrom start = other.discoverFrom start := by
  have hbindings : ns.bindings = other.bindings := NameMap.ext_get? h
  rw [discoverFrom, discoverFrom, hbindings]

/-- The names are those that are bound. -/
theorem mem_names_iff {name : String} :
    name ∈ ns.names ↔ ∃ binding, ns.get? name = some binding := by
  show name ∈ ns.bindings.names ↔ _
  rw [NameMap.mem_names_iff, NameMap.contains_iff]
  rfl

/-- **A namespace whose names and discovered tests are what they seem.** -/
structure Orderly (ns : Namespace R) : Prop where
  /-- Every binding stands under its own name. -/
  filed : ∀ name binding, ns.get? name = some binding → binding.name = name
  mem_names : ∀ name, name ∈ ns.names ↔ ∃ binding, ns.get? name = some binding
  names_ascend : ns.names.Pairwise Precedes
  length_names : ns.names.length = ns.size
  /-- Discovery finds the bound tests whose own names start as asked, and no bare function. -/
  mem_discovered : ∀ start t, t ∈ ns.discoverFrom start ↔
    ns.get? t.name = some (.test t) ∧ start.toList <+: t.name.toList
  discovered_ascend : ∀ start, (ns.discoverFrom start).Pairwise fun a b => Precedes a.name b.name

theorem Filed.orderly (h : ns.Filed) : ns.Orderly where
  filed := h
  mem_names _ := mem_names_iff
  names_ascend := by
    have hascend : ns.names.Pairwise (· < ·) := ns.bindings.names_pairwise
    exact hascend.imp precedes_iff.mpr
  length_names := List.length_map _
  mem_discovered _ _ := h.mem_discoverFrom_iff
  discovered_ascend start := (h.pairwise_discoverFrom start).imp precedes_iff.mpr

end Namespace

/-- **Reachable namespaces are orderly.** After any run on an empty namespace every binding stands
under its own name, the bound names strictly ascend, and what is discovered by the start of a name
is every bound test whose own name starts so, once and in order. It is the same after any other run
that binds the same names to the same things. -/
theorem reachable_discovery (modulePath : String) (operations : List (Operation R)) :
    ((Namespace.empty modulePath).run operations).Orderly ∧
    ∀ (otherPath : String) (others : List (Operation R)),
      (∀ name, ((Namespace.empty modulePath).run operations).get? name =
        ((Namespace.empty otherPath).run others).get? name) →
      ∀ start, ((Namespace.empty modulePath).run operations).discoverFrom start =
        ((Namespace.empty otherPath).run others).discoverFrom start := by
  constructor
  · exact (Namespace.filed_run modulePath operations).orderly
  · intro otherPath others hsame start
    exact Namespace.discoverFrom_congr hsame start

/-- Names ascend by code points, so a capital stands before the small letters; the bare function is
passed over although its name starts as asked. -/
example :
    (((Namespace.empty "m" : Namespace Bool).run
      [.defineTest "test_b" fun _ => true, .defineTest "helper" fun _ => true,
        .defineFunction ⟨"test_a", "m", none⟩, .defineTest "test_B" fun _ => true]).discoverFrom
          "test_").map TestCase.name = ["test_B", "test_b"] := rfl

end Casewise
