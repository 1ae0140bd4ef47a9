import Casewise.Proofs.Rows

/-!
# Casewise.Proofs.Expansion -- exactly when a function expands, and into what

`expandWith` checks names, rows and generated names one after the other and stops at the first
problem. Read as one condition, `Expandable`, the checks do not depend on their order: the
function and the parameters are identifiers, no parameter and no data set is named twice, every
data set has the name of a fragment, and every row fits. That the loop compares joined names while
the condition compares the names of the data sets makes no difference, since a joined name
determines its data set.

`outcome_expandWith_eq_ok_iff` is the exact law: the outcome is `e` just if the condition holds and
`e` is the list of tests that `TestFunction.expansion` builds without looking for problems. From
it comes what the rest of the theory uses: an expansion has distinct names, none of which is the
name of its own function (`separate_of_outcome`).
-/

namespace Casewise

open Identifier

variable {V R : Type} [Cell V]

/-! ## The tests of a function -/

namespace TestFunction

/-- The test of one data set. -/
def testOf (f : TestFunction V R) (parameters : List String) (set : String × Row V) :
    TestCase R :=
  f.instantiate set.1 (set.2.arguments parameters)

/-- **The tests of all data sets**, whether or not anything is wrong with them. -/
def expansion (f : TestFunction V R) (parameters : List String) (sets : DataSets V) :
    Expansion R :=
  ⟨f.origin, sets.entries.map (f.testOf parameters)⟩

@[simp] theorem instantiate_name (f : TestFunction V R) (dataSet : String)
    (arguments : Arguments V) :
    (f.instantiate dataSet arguments).name = generatedName f.name dataSet := rfl

end TestFunction

/-! ## The condition -/

/-- **When a function expands over data sets.** -/
structure Expandable (policy : ArityPolicy) (parameters : List String) (sets : DataSets V)
    (function : String) : Prop where
  function_valid : IsIdentifier function
  parameters_valid : ∀ p ∈ parameters, IsIdentifier p
  parameters_nodup : parameters.Nodup
  names_valid : ∀ name ∈ sets.names, IsFragment name
  names_nodup : sets.names.Nodup
  rows_fit : ∀ set ∈ sets.entries, set.2.Fits policy parameters

omit [Cell V] in
/-- Over a single data set it is enough that its name is a fragment and its row fits. -/
theorem Expandable.singleton {policy : ArityPolicy} {parameters : List String} {dataSet : String}
    {row : Row V} {function : String} (hfunction : IsIdentifier function)
    (hparameters : ∀ p ∈ parameters, IsIdentifier p) (hnodup : parameters.Nodup)
    (hdataSet : IsFragment dataSet) (hfits : row.Fits policy parameters) :
    Expandable policy parameters ⟨[(dataSet, row)]⟩ function where
  function_valid := hfunction
  parameters_valid := hparameters
  parameters_nodup := hnodup
  names_valid := List.forall_mem_singleton.mpr hdataSet
  names_nodup := List.pairwise_singleton _ dataSet
  rows_fit := List.forall_mem_singleton.mpr hfits

/-- One round of the loop over the data sets. -/
theorem outcome_expandRows_cons_eq_ok_iff {policy : ArityPolicy} {parameters : List String}
    {f : TestFunction V R} {seen : List String} {set : String × Row V}
    {rest : List (String × Row V)} {tests : List (TestCase R)} :
    (expandRows policy parameters f seen (set :: rest)).outcome = .ok tests ↔
      IsFragment set.1 ∧ set.2.Fits policy parameters ∧ generatedName f.name set.1 ∉ seen ∧
      ∃ later, (expandRows policy parameters f (generatedName f.name set.1 :: seen) rest).outcome =
          .ok later ∧ tests = f.testOf parameters set :: later := by
  obtain ⟨dataSet, row⟩ := set
  rw [expandRows, Report.outcome_check_bind_eq_ok_iff, Report.outcome_ofExcept,
    checkName_eq_ok_iff, Report.outcome_bind_eq_ok_iff]
  refine and_congr_right fun _ => ?_
  simp only [outcome_bindRow_eq_ok_iff]
  constructor
  · rintro ⟨_, ⟨hfits, rfl⟩, h⟩
    split at h
    · cases h
    · rename_i hseen
      obtain ⟨later, hlater, h⟩ := Report.outcome_bind_eq_ok_iff.mp h
      exact ⟨hfits, hseen, later, hlater, (Except.ok.inj h).symm⟩
  · rintro ⟨hfits, hseen, later, hlater, rfl⟩
    refine ⟨_, ⟨hfits, rfl⟩, ?_⟩
    rw [TestFunction.instantiate_name, if_neg hseen, Report.outcome_bind_eq_ok_iff]
    exact ⟨later, hlater, rfl⟩

/-- **The loop over the data sets.** It succeeds when each set is named by a fragment and fits,
and no generated name has been seen before; the tests are then those of the sets in order. -/
theorem outcome_expandRows_eq_ok_iff {policy : ArityPolicy} {parameters : List String}
    {f : TestFunction V R} {seen : List String} {sets : List (String × Row V)}
    {tests : List (TestCase R)} :
    (expandRows policy parameters f seen sets).outcome = .ok tests ↔
      (∀ set ∈ sets, IsFragment set.1 ∧ set.2.Fits policy parameters) ∧
      (sets.map Prod.fst).Nodup ∧ (∀ set ∈ sets, generatedName f.name set.1 ∉ seen) ∧
      tests = sets.map (f.testOf parameters) := by
  induction sets generalizing seen tests with
  | nil => simp [expandRows, eq_comm]
  | cons set rest ih =>
    rw [outcome_expandRows_cons_eq_ok_iff]
    simp only [ih, List.forall_mem_cons, List.map_cons, List.nodup_cons]
    -- the names still to come are new after this round just if they were new before it and none
    -- is the name of this set
    have hnew : (∀ other ∈ rest, generatedName f.name other.1 ∉ generatedName f.name set.1 :: seen) ↔
        set.1 ∉ rest.map Prod.fst ∧ ∀ other ∈ rest, generatedName f.name other.1 ∉ seen := by
      simp only [List.mem_cons, not_or, generatedName_right_inj, List.mem_map, not_exists, not_and]
      exact ⟨fun h => ⟨fun other ho => (h other ho).1, fun other ho => (h other ho).2⟩,
        fun h other ho => ⟨h.1 other ho, h.2 other ho⟩⟩
    rw [hnew]
    constructor
    · rintro ⟨hname, hfits, hseen, _, ⟨hrest, hnodup, ⟨hfirst, hnew⟩, rfl⟩, rfl⟩
      exact ⟨⟨⟨hname, hfits⟩, hrest⟩, ⟨hfirst, hnodup⟩, ⟨hseen, hnew⟩, rfl⟩
    · rintro ⟨⟨⟨hname, hfits⟩, hrest⟩, ⟨hfirst, hnodup⟩, ⟨hseen, hnew⟩, rfl⟩
      exact ⟨hname, hfits, hseen, _, ⟨hrest, hnodup, ⟨hfirst, hnew⟩, rfl⟩, rfl⟩

/-- The checks of names come before the loop, and a warning on the way changes no outcome. -/
theorem outcome_expandWith_eq_ok_iff_loop {policy : ArityPolicy} {parameters : List String}
    {sets : DataSets V} {f : TestFunction V R} {e : Expansion R} :
    (expandWith policy parameters sets f).outcome = .ok e ↔
      IsIdentifier f.name ∧ checkParameters [] parameters = .ok () ∧
      ∃ tests, (expandRows policy parameters f [] sets.entries).outcome = .ok tests ∧
        e = ⟨f.origin, tests⟩ := by
  unfold expandWith
  rw [Report.outcome_check_bind_eq_ok_iff, Report.outcome_ofExcept, checkName_eq_ok_iff,
    Report.outcome_check_bind_eq_ok_iff, Report.outcome_ofExcept]
  refine and_congr_right fun _ => and_congr_right fun _ => ?_
  -- with or without the warning the outcome is that of the loop
  simp only [apply_ite Report.outcome, Report.outcome_warn_bind, ite_self,
    Report.outcome_bind_eq_ok_iff, Report.outcome_pure, Except.ok.injEq, eq_comm (a := e)]

/-- **The exact law of expansion.** -/
theorem outcome_expandWith_eq_ok_iff {policy : ArityPolicy} {parameters : List String}
    {sets : DataSets V} {f : TestFunction V R} {e : Expansion R} :
    (expandWith policy parameters sets f).outcome = .ok e ↔
      Expandable policy parameters sets f.name ∧ e = f.expansion parameters sets := by
  rw [outcome_expandWith_eq_ok_iff_loop, checkParameters_eq_ok_iff]
  simp only [outcome_expandRows_eq_ok_iff]
  constructor
  · rintro ⟨hfunction, ⟨hparameters, hdistinct, _⟩, tests, ⟨hsets, hnodup, _, rfl⟩, rfl⟩
    refine ⟨⟨hfunction, hparameters, hdistinct, ?_, hnodup, fun set h => (hsets set h).2⟩, rfl⟩
    intro name hname
    obtain ⟨set, hset, rfl⟩ := List.mem_map.mp hname
    exact (hsets set hset).1
  · rintro ⟨h, rfl⟩
    refine ⟨h.function_valid, ⟨h.parameters_valid, h.parameters_nodup, fun _ _ => List.not_mem_nil⟩,
      _, ⟨fun set hset => ⟨?_, h.rows_fit set hset⟩, h.names_nodup, fun _ _ => List.not_mem_nil,
        rfl⟩, rfl⟩
    exact h.names_valid set.1 (List.mem_map.mpr ⟨set, hset, rfl⟩)

/-- A function that wants no arguments. -/
def TestFunction.nullary (name : String) : TestFunction Bool Unit := ⟨⟨name, "", none⟩, fun _ => ()⟩

/-- The data set that is enough for such a function: an empty row. -/
def DataSets.emptyRow (name : String) : DataSets Bool := ⟨[(name, .positional [])]⟩

/-- There is a test for every identifier and every fragment. -/
theorem outcome_expandWith_nullary {name dataSet : String} (hname : IsIdentifier name)
    (hdataSet : IsFragment dataSet) :
    (expandWith .strict [] (.emptyRow dataSet) (.nullary name)).outcome =
      .ok ((TestFunction.nullary name).expansion [] (.emptyRow dataSet)) := by
  have hexpandable : Expandable .strict [] (.emptyRow dataSet) name :=
    .singleton hname (List.forall_mem_nil _) List.nodup_nil hdataSet fun _ => rfl
  exact outcome_expandWith_eq_ok_iff.mpr ⟨hexpandable, rfl⟩

/-! ## What an expansion keeps apart -/

/-- **The names of an expansion** differ from each other and from the name of its function. -/
structure Expansion.Separate (e : Expansion R) : Prop where
  names_nodup : e.names.Nodup
  origin_notMem : e.origin.name ∉ e.names

theorem TestFunction.names_expansion (f : TestFunction V R) (parameters : List String)
    (sets : DataSets V) :
    (f.expansion parameters sets).names = sets.names.map (generatedName f.name) := by
  simp only [Expansion.names, expansion, DataSets.names, List.map_map]
  rfl

theorem origin_of_outcome {policy : ArityPolicy} {parameters : List String} {sets : DataSets V}
    {f : TestFunction V R} {e : Expansion R}
    (h : (expandWith policy parameters sets f).outcome = .ok e) : e.origin = f.origin := by
  rw [(outcome_expandWith_eq_ok_iff.mp h).2]
  rfl

theorem separate_of_outcome {policy : ArityPolicy} {parameters : List String}
    {sets : DataSets V} {f : TestFunction V R} {e : Expansion R}
    (h : (expandWith policy parameters sets f).outcome = .ok e) : e.Separate := by
  obtain ⟨hexpandable, rfl⟩ := outcome_expandWith_eq_ok_iff.mp h
  refine ⟨?_, ?_⟩
  · rw [TestFunction.names_expansion]
    exact List.Pairwise.map _ (fun _ _ hne heq => hne (generatedName_right_inj.mp heq))
      hexpandable.names_nodup
  · rw [TestFunction.names_expansion]
    intro hm
    obtain ⟨name, _, heq⟩ := List.mem_map.mp hm
    exact generatedName_ne_function _ _ heq

/-! ## The law, test by test -/

theorem qualify_generatedName (modulePath function dataSet : String) :
    qualify modulePath (generatedName function dataSet) =
      generatedName (qualify modulePath function) dataSet := by
  unfold qualify generatedName
  split
  · rfl
  · simp only [String.append_assoc]

/-- **A function expands exactly over data sets in order, and then into one test for each.** The
test of a data set is named after the function and the set, runs the function on what the row of
the set binds, and lists what it binds. -/
theorem expansion_exact (policy : ArityPolicy) (parameters : List String) (sets : DataSets V)
    (f : TestFunction V R) :
    ((∃ e, (expandWith policy parameters sets f).outcome = .ok e) ↔
      Expandable policy parameters sets f.origin.name) ∧
    ∀ e, (expandWith policy parameters sets f).outcome = .ok e →
      e.origin = f.origin ∧ e.tests.length = sets.entries.length ∧
      ∀ (i : Nat) (dataSet : String) (row : Row V), sets.entries[i]? = some (dataSet, row) →
        ∃ t, e.tests[i]? = some t ∧
          t.name = f.origin.name ++ "_" ++ dataSet ∧
          t.dataSet = some dataSet ∧
          t.origin = f.origin ∧
          t.qualifiedName = f.origin.qualifiedName ++ "_" ++ dataSet ∧
          t.run () = f.body (row.arguments parameters) ∧
          t.arguments = (row.arguments parameters).render := by
  constructor
  · constructor
    · rintro ⟨e, h⟩
      exact (outcome_expandWith_eq_ok_iff.mp h).1
    · intro h
      exact ⟨_, outcome_expandWith_eq_ok_iff.mpr ⟨h, rfl⟩⟩
  · intro e h
    obtain ⟨_, rfl⟩ := outcome_expandWith_eq_ok_iff.mp h
    refine ⟨rfl, List.length_map _, ?_⟩
    intro i dataSet row hset
    refine ⟨f.testOf parameters (dataSet, row), ?_, rfl, rfl, rfl, ?_, rfl, rfl⟩
    · rw [TestFunction.expansion, List.getElem?_map, hset, Option.map_some]
    · exact qualify_generatedName _ _ _

end Casewise
