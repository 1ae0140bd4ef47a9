import Mathlib.Data.List.Nodup
import Mathlib.Data.List.Perm.Basic
import Casewise.Proofs.Expansion
import Casewise.Proofs.Reading

/-!
# Casewise.Proofs.Lookup -- what a function finds under the names of its arguments

A data set lists its values or names them, and the two kinds are bound through different
containers: values are paired with parameters in order, names and values pass through a map that
puts them in the order of the names. A function that looks its arguments up does not see which of
the two it was, and this module says why. Arguments that never bind a name twice are looked up like
a set of pairs (`Arguments.get?_eq_some_iff`), so a rearrangement cannot be told from the original
(`Arguments.get?_eq_of_perm`); and what a row binds never repeats a name, because the parameters
differ on the one side and the names of a map do on the other (`Row.nodup_names_arguments`).

The order is all that remains of the difference. It can be seen in a listing, and by a function
that goes through its arguments one by one, so `positional_named_agree` speaks of functions that
read their arguments by name only.
-/

namespace Casewise

open Identifier

/-! ## Looking up where no name is repeated -/

/-- Where no name is repeated, the first value under a name is the only one. -/
theorem Entries.get?_eq_some_iff {α : Type} {entries : List (String × α)} {name : String} {a : α}
    (hnodup : (entries.map Prod.fst).Nodup) :
    Entries.get? name entries = some a ↔ (name, a) ∈ entries := by
  refine ⟨Entries.mem_of_get?, ?_⟩
  induction entries with
  | nil => intro hmem; cases hmem
  | cons head rest ih =>
    obtain ⟨key, b⟩ := head
    obtain ⟨hkey, hrest⟩ := List.nodup_cons.mp hnodup
    intro hmem
    rw [Entries.get?]
    rcases List.mem_cons.mp hmem with heq | hlater
    · obtain ⟨rfl, rfl⟩ := Prod.mk.inj heq
      exact if_pos rfl
    · have hname : name ∈ rest.map Prod.fst := List.mem_map_of_mem hlater
      have hne : name ≠ key := fun heq => hkey (heq ▸ hname)
      rw [if_neg hne]
      exact ih hrest hlater

/-- A map that is read from members of distinct names holds them, in some order. -/
theorem NameMap.entries_ofList_perm {α : Type} {members : List (String × α)}
    (hnodup : (members.map Prod.fst).Nodup) : (NameMap.ofList members).entries.Perm members := by
  have hentries : (NameMap.ofList members).entries.Nodup :=
    List.Nodup.of_map Prod.fst (NameMap.ofList members).names_nodup
  apply (List.perm_ext_iff_of_nodup hentries (List.Nodup.of_map Prod.fst hnodup)).mpr
  rintro ⟨name, a⟩
  rw [NameMap.mem_entries_iff, NameMap.get?_ofList_eq_some_iff, lastMember_iff_mem hnodup]

/-- Pairing names with values leaves names in order and may leave some out. -/
theorem map_fst_zip_sublist {α β : Type} (names : List α) (values : List β) :
    ((names.zip values).map Prod.fst).Sublist names := by
  induction names generalizing values with
  | nil => simp
  | cons name names ih =>
    cases values with
    | nil => simp
    | cons value values => exact (ih values).cons_cons name

section Arguments

variable {V : Type}

namespace Arguments

variable {a b : Arguments V}

theorem get?_eq_some_iff (hnodup : a.names.Nodup) {name : String} {v : V} :
    a.get? name = some v ↔ (name, v) ∈ a.entries :=
  Entries.get?_eq_some_iff hnodup

/-- **Rearranged arguments look up the same**, where no name is repeated. -/
theorem get?_eq_of_perm (hperm : a.entries.Perm b.entries) (hnodup : a.names.Nodup)
    (name : String) : a.get? name = b.get? name := by
  have hnodup' : b.names.Nodup := (hperm.map Prod.fst).nodup hnodup
  apply Option.ext
  intro v
  rw [get?_eq_some_iff hnodup, get?_eq_some_iff hnodup', hperm.mem_iff]

end Arguments

/-- **What a row binds never repeats a name.** -/
theorem Row.nodup_names_arguments {parameters : List String} (hnodup : parameters.Nodup)
    (row : Row V) : (row.arguments parameters).names.Nodup := by
  cases row with
  | positional values => exact (map_fst_zip_sublist parameters values).nodup hnodup
  | named values => exact values.names_nodup

/-- A row that names the parameters in whatever order fits them. -/
theorem Row.named_fits {policy : ArityPolicy} {parameters permuted : List String}
    {values : NameMap V} (hnames : values.names.Perm parameters)
    (hperm : permuted.Perm parameters) : (Row.named values).Fits policy permuted := by
  intro name hname
  have hmem : name ∈ permuted := hperm.mem_iff.mpr (hnames.mem_iff.mp hname)
  exact (mayName_of_ne_nil (List.ne_nil_of_mem hmem)).mpr hmem

end Arguments

/-! ## One row of two kinds -/

/-- **A function that reads its arguments by name only** does the same with arguments that look up
the same. -/
def TestFunction.ReadsByName {V R : Type} (f : TestFunction V R) : Prop :=
  ∀ a b : Arguments V, (∀ name, a.get? name = b.get? name) → f.body a = f.body b

section Rows

variable {V R : Type} [Cell V] {policy : ArityPolicy} {parameters : List String}

/-- **What a data set brings to a function**: its row is bound to these arguments, and over this
data set alone the function expands into the one test of them. -/
structure TestFunction.Takes (f : TestFunction V R) (policy : ArityPolicy)
    (parameters : List String) (dataSet : String) (row : Row V) (arguments : Arguments V) :
    Prop where
  bound : (bindRow policy f.name dataSet parameters row).outcome = .ok arguments
  expanded : (expandWith policy parameters ⟨[(dataSet, row)]⟩ f).outcome =
    .ok ⟨f.origin, [f.instantiate dataSet arguments]⟩

theorem TestFunction.takes_of_fits {f : TestFunction V R} {dataSet : String} {row : Row V}
    (hfunction : IsIdentifier f.name) (hdataSet : IsFragment dataSet)
    (hparameters : ∀ p ∈ parameters, IsIdentifier p) (hnodup : parameters.Nodup)
    (hfits : row.Fits policy parameters) :
    f.Takes policy parameters dataSet row (row.arguments parameters) where
  bound := outcome_bindRow_eq_ok_iff.mpr ⟨hfits, rfl⟩
  expanded := by
    have hexpandable := Expandable.singleton hfunction hparameters hnodup hdataSet hfits
    exact outcome_expandWith_eq_ok_iff.mpr ⟨hexpandable, rfl⟩

end Rows

/-- **Arguments that mean the same**: the values of the parameters, the one time in the order of the
parameters and the other time in the order of their names. -/
structure Arguments.Agree {V : Type} (parameters : List String) (values : List V)
    (listed named : Arguments V) : Prop where
  entries_listed : listed.entries = parameters.zip values
  entries_perm : named.entries.Perm listed.entries
  names_listed : listed.names = parameters
  names_ascend : named.names.Pairwise Precedes
  nodup_listed : listed.names.Nodup
  nodup_named : named.names.Nodup
  get?_eq : ∀ name, listed.get? name = named.get? name
  contains_eq : ∀ name, listed.contains name = named.contains name

theorem Arguments.agree {V : Type} {parameters : List String} {values : List V}
    (hnodup : parameters.Nodup) (hlength : values.length = parameters.length) :
    Arguments.Agree parameters values ⟨parameters.zip values⟩
      ⟨(NameMap.ofList (parameters.zip values)).entries⟩ := by
  have hnames : (parameters.zip values).map Prod.fst = parameters :=
    List.map_fst_zip (Nat.le_of_eq hlength.symm)
  have hdistinct : ((parameters.zip values).map Prod.fst).Nodup := by rw [hnames]; exact hnodup
  have hperm := NameMap.entries_ofList_perm hdistinct
  have hlookup := Arguments.get?_eq_of_perm (a := ⟨parameters.zip values⟩)
    (b := ⟨(NameMap.ofList (parameters.zip values)).entries⟩) hperm.symm hdistinct
  exact
    { entries_listed := rfl
      entries_perm := hperm
      names_listed := hnames
      names_ascend := (NameMap.names_pairwise _).imp precedes_iff.mpr
      nodup_listed := hdistinct
      nodup_named := NameMap.names_nodup _
      get?_eq := hlookup
      contains_eq := fun name => congrArg Option.isSome (hlookup name) }

/-- **Positional and named data sets mean the same.** Values in the order of the parameters, and the
same values under their names over the parameters in any order, both expand into a test, under
either policy. The two tests get the same pairs of names and values, one in the order of the
parameters and one in the order of names; so whatever is looked up is the same, and so is the result
of a function that reads its arguments by name only. In general, no test of an expansion gets a name
twice, so what it finds under a name is the one value that was bound to it. -/
theorem positional_named_agree :
    (∀ {V R : Type} [Cell V] (policy other : ArityPolicy) (f : TestFunction V R)
      (dataSet : String) (parameters permuted : List String) (values : List V),
      IsIdentifier f.name → IsFragment dataSet → (∀ p ∈ parameters, IsIdentifier p) →
      parameters.Nodup → permuted.Perm parameters → values.length = parameters.length →
      ∃ listed named : Arguments V,
        f.Takes policy parameters dataSet (.positional values) listed ∧
        f.Takes other permuted dataSet (.named (.ofList (parameters.zip values))) named ∧
        Arguments.Agree parameters values listed named ∧
        (f.ReadsByName →
          (f.instantiate dataSet listed).run () = (f.instantiate dataSet named).run ())) ∧
    (∀ {V R : Type} [Cell V] (policy : ArityPolicy) (parameters : List String) (sets : DataSets V)
      (f : TestFunction V R) (e : Expansion R),
      (expandWith policy parameters sets f).outcome = .ok e →
      ∀ t ∈ e.tests, ∃ dataSet row arguments, (dataSet, row) ∈ sets.entries ∧
        (bindRow policy f.name dataSet parameters row).outcome = .ok arguments ∧
        t = f.instantiate dataSet arguments ∧ arguments.names.Nodup ∧
        ∀ name v, arguments.get? name = some v ↔ (name, v) ∈ arguments.entries) := by
  constructor
  · intro V R _ policy other f dataSet parameters permuted values hfunction hdataSet hparameters
      hnodup hperm hlength
    have hagree := Arguments.agree hnodup hlength
    have hnames : (NameMap.ofList (parameters.zip values)).names.Perm parameters := by
      have hmap := hagree.entries_perm.map Prod.fst
      exact hmap.trans (List.Perm.of_eq hagree.names_listed)
    have hpermuted : ∀ p ∈ permuted, IsIdentifier p := fun p hp =>
      hparameters p (hperm.mem_iff.mp hp)
    refine ⟨_, _, ?_, ?_, hagree, fun hreads => hreads _ _ hagree.get?_eq⟩
    · exact TestFunction.takes_of_fits hfunction hdataSet hparameters hnodup fun _ => hlength
    · exact TestFunction.takes_of_fits hfunction hdataSet hpermuted (hperm.nodup_iff.mpr hnodup)
        (Row.named_fits hnames hperm)
  · intro V R _ policy parameters sets f e h t ht
    obtain ⟨hexpandable, rfl⟩ := outcome_expandWith_eq_ok_iff.mp h
    obtain ⟨⟨dataSet, row⟩, hset, rfl⟩ := List.mem_map.mp ht
    have hdistinct := row.nodup_names_arguments hexpandable.parameters_nodup
    refine ⟨dataSet, row, row.arguments parameters, hset, ?_, rfl, hdistinct, ?_⟩
    · exact outcome_bindRow_eq_ok_iff.mpr ⟨hexpandable.rows_fit _ hset, rfl⟩
    · intro name v
      exact Arguments.get?_eq_some_iff hdistinct

/-- A function that does not treat its two arguments alike. -/
def difference : TestFunction Int64 (Option Int64) where
  origin := ⟨"difference", "m", none⟩
  body a := do return (← a.get? "x") - (← a.get? "y")

theorem difference_readsByName : difference.ReadsByName := by
  intro a b h
  simp only [difference, h]

theorem difference_agrees :
    difference.ReadsByName ∧ ∃ listed named : Arguments Int64,
      difference.Takes .strict ["y", "x"] "0" (.positional [1, 3]) listed ∧
      difference.Takes .lenient ["x", "y"] "0" (.named (.ofList [("y", 1), ("x", 3)])) named ∧
      Arguments.Agree ["y", "x"] [1, 3] listed named ∧
      (difference.instantiate "0" listed).run () = (difference.instantiate "0" named).run () := by
  have hperm : ["x", "y"].Perm ["y", "x"] := List.Perm.swap "y" "x" []
  obtain ⟨listed, named, hlisted, hnamed, hagree, hrun⟩ := positional_named_agree.1 .strict .lenient
    difference "0" ["y", "x"] ["x", "y"] [1, 3] (by decide) (by decide) (by decide) (by decide)
    hperm rfl
  exact ⟨difference_readsByName, listed, named, hlisted, hnamed, hagree,
    hrun difference_readsByName⟩

/-- A listing shows the order in which arguments were bound. -/
example :
    ((Row.positional [1, 3] : Row Int64).arguments ["y", "x"]).render = "y=1, x=3" ∧
    ((Row.named (.ofList [("y", 1), ("x", 3)]) : Row Int64).arguments ["x", "y"]).render =
      "x=3, y=1" := by
  decide

end Casewise
