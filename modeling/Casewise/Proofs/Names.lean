import Casewise.Identifier

/-!
# Casewise.Proofs.Names -- which names are usable, and what joining does to them

The rules of `Identifier` are programs: they look for the first rule that a name breaks. Here the
same names are described by their characters. An identifier starts with a letter or an underscore,
goes on with letters, digits and underscores, and is not the underscore alone; a fragment is a
text of letters, digits and underscores that is not empty. `Role.fault?_eq_none_iff` says that a
role finds no fault in a name exactly when it admits the name, and `Role.fault?_eq_some_iff` which
fault it finds in every other: no name, the lone underscore, or a character out of place.

A generated name is the name of a function, an underscore and the name of a data set. With the
function fixed it determines the data set (`generatedName_right_inj`), and it is never the name of
the function itself (`generatedName_ne_function`).
-/

namespace Casewise.Identifier

/-! ## Characters -/

/-- `A` to `Z` and `a` to `z`. -/
def IsLetter (c : Char) : Prop := ('A' ≤ c ∧ c ≤ 'Z') ∨ ('a' ≤ c ∧ c ≤ 'z')

/-- A letter or an underscore. -/
def IsInitial (c : Char) : Prop := IsLetter c ∨ c = '_'

/-- A letter, an underscore or a digit from `0` to `9`. -/
def IsWord (c : Char) : Prop := IsInitial c ∨ ('0' ≤ c ∧ c ≤ '9')

theorem isStart_iff {c : Char} : isStart c = true ↔ IsInitial c := by
  show ((decide ('A'.val ≤ c.val ∧ c.val ≤ 'Z'.val) ||
    (decide ('a'.val ≤ c.val) && decide (c.val ≤ 'z'.val))) || c == '_') = true ↔ _
  simp only [Bool.or_eq_true, Bool.and_eq_true, decide_eq_true_eq, beq_iff_eq]
  rfl

theorem isPart_iff {c : Char} : isPart c = true ↔ IsWord c := by
  show (isStart c || (decide ('0'.val ≤ c.val) && decide (c.val ≤ '9'.val))) = true ↔ _
  simp only [Bool.or_eq_true, Bool.and_eq_true, decide_eq_true_eq, isStart_iff]
  rfl

/-! ## The names that a role admits -/

/-- **An identifier**, by its characters. -/
def IsIdentifier (name : String) : Prop :=
  name ≠ "_" ∧ ∃ c rest, name.toList = c :: rest ∧ IsInitial c ∧ ∀ d ∈ rest, IsWord d

/-- **A fragment**, by its characters. -/
def IsFragment (name : String) : Prop := name ≠ "" ∧ ∀ c ∈ name.toList, IsWord c

/-- What a name has to be for its role. -/
def Role.Admits : Role → String → Prop
  | .function, name => IsIdentifier name
  | .parameter, name => IsIdentifier name
  | .dataSet, name => IsFragment name

theorem identifierFault?_eq_none_iff {name : String} :
    identifierFault? name = none ↔ IsIdentifier name := by
  have hlone : name = "_" ↔ name.toList = ['_'] := String.toList_inj.symm
  unfold identifierFault? IsIdentifier
  rw [ne_eq, hlone]
  split
  · rename_i hnil
    simp [hnil]
  · rename_i hunderscore
    simp [hunderscore]
  · rename_i c rest hne hcons
    have hrule : (isStart c && rest.all isPart) = true ↔ IsInitial c ∧ ∀ d ∈ rest, IsWord d := by
      simp only [Bool.and_eq_true, List.all_eq_true, isStart_iff, isPart_iff]
    rw [hcons]
    constructor
    · intro h
      have hchars : (isStart c && rest.all isPart) = true := by simpa using h
      exact ⟨by simpa using hne, c, rest, rfl, hrule.mp hchars⟩
    · rintro ⟨_, c', rest', heq, hchars⟩
      obtain ⟨rfl, rfl⟩ := List.cons.inj heq
      rw [if_pos (hrule.mpr hchars)]

theorem fragmentFault?_eq_none_iff {name : String} :
    fragmentFault? name = none ↔ IsFragment name := by
  have hempty : name = "" ↔ name.toList = [] := String.toList_inj.symm
  have hrule : name.toList.all isPart = true ↔ ∀ c ∈ name.toList, IsWord c := by
    simp only [List.all_eq_true, isPart_iff]
  unfold fragmentFault? IsFragment
  rw [ne_eq, hempty, ← hrule]
  cases name.toList with
  | nil => simp
  | cons c rest => simp

/-- **A role finds no fault in exactly the names that it admits.** -/
theorem Role.fault?_eq_none_iff {role : Role} {name : String} :
    role.fault? name = none ↔ role.Admits name := by
  cases role with
  | function => exact identifierFault?_eq_none_iff
  | parameter => exact identifierFault?_eq_none_iff
  | dataSet => exact fragmentFault?_eq_none_iff

/-! ## The names that a role rejects -/

/-- **Why a role rejects a name**: the first rule that the name breaks. -/
inductive Role.Rejects : Role → String → Fault → Prop
  | empty (role : Role) : Role.Rejects role "" .empty
  | loneUnderscore {role : Role} (identifier : role ≠ .dataSet) :
    Role.Rejects role "_" .loneUnderscore
  | notIdentifier {role : Role} {name : String} (identifier : role ≠ .dataSet)
    (nonempty : name ≠ "") (longer : name ≠ "_") (broken : ¬ IsIdentifier name) :
    Role.Rejects role name .notIdentifier
  | notFragment {name : String} (nonempty : name ≠ "") (broken : ¬ IsFragment name) :
    Role.Rejects .dataSet name .notFragment

theorem identifierFault?_of_not {name : String} (hempty : name ≠ "") (hlone : name ≠ "_")
    (h : ¬ IsIdentifier name) : identifierFault? name = some .notIdentifier := by
  have hfault : identifierFault? name ≠ none := fun hnone =>
    h (identifierFault?_eq_none_iff.mp hnone)
  have hnil : name.toList ≠ [] := fun heq => hempty (String.toList_inj.mp heq)
  have hunderscore : name.toList ≠ ['_'] := fun heq => hlone (String.toList_inj.mp heq)
  unfold identifierFault? at hfault ⊢
  split
  · rename_i heq
    exact absurd heq hnil
  · rename_i heq
    exact absurd heq hunderscore
  · rename_i c rest _ heq
    simp only [heq] at hfault
    rw [if_neg fun hrule => hfault (if_pos hrule)]

theorem fragmentFault?_of_not {name : String} (hempty : name ≠ "") (h : ¬ IsFragment name) :
    fragmentFault? name = some .notFragment := by
  have hfault : fragmentFault? name ≠ none := fun hnone =>
    h (fragmentFault?_eq_none_iff.mp hnone)
  have hnil : name.toList ≠ [] := fun heq => hempty (String.toList_inj.mp heq)
  unfold fragmentFault? at hfault ⊢
  cases hchars : name.toList with
  | nil => exact absurd hchars hnil
  | cons c rest =>
    simp only [hchars] at hfault
    exact if_neg fun hrule => hfault (if_pos hrule)

/-- What a role rejects, it does not admit, and the fault is the one that is found. -/
theorem Role.Rejects.fault?_eq {role : Role} {name : String} {fault : Fault}
    (h : role.Rejects name fault) : role.fault? name = some fault := by
  cases h with
  | empty => cases role <;> rfl
  | loneUnderscore hrole =>
    cases role with
    | function => rfl
    | parameter => rfl
    | dataSet => exact absurd rfl hrole
  | notIdentifier hrole hempty hlone hbroken =>
    cases role with
    | function => exact identifierFault?_of_not hempty hlone hbroken
    | parameter => exact identifierFault?_of_not hempty hlone hbroken
    | dataSet => exact absurd rfl hrole
  | notFragment hempty hbroken => exact fragmentFault?_of_not hempty hbroken

theorem Role.Rejects.not_admits {role : Role} {name : String} {fault : Fault}
    (h : role.Rejects name fault) : ¬ role.Admits name := by
  intro hadmits
  have hfault := h.fault?_eq
  rw [Role.fault?_eq_none_iff.mpr hadmits] at hfault
  cases hfault

/-- A name that a role does not admit is rejected for some reason. -/
theorem Role.exists_rejects {role : Role} {name : String} (h : ¬ role.Admits name) :
    ∃ fault, role.Rejects name fault := by
  by_cases hempty : name = ""
  · rw [hempty]
    exact ⟨_, .empty role⟩
  by_cases hrole : role = .dataSet
  · subst hrole
    exact ⟨_, .notFragment hempty h⟩
  by_cases hlone : name = "_"
  · rw [hlone]
    exact ⟨_, .loneUnderscore hrole⟩
  · have hbroken : ¬ IsIdentifier name := by
      cases role with
      | function => exact h
      | parameter => exact h
      | dataSet => exact absurd rfl hrole
    exact ⟨_, .notIdentifier hrole hempty hlone hbroken⟩

/-- **The fault that a role finds is the reason for which it rejects the name.** -/
theorem Role.fault?_eq_some_iff {role : Role} {name : String} {fault : Fault} :
    role.fault? name = some fault ↔ role.Rejects name fault := by
  refine ⟨fun hfound => ?_, Role.Rejects.fault?_eq⟩
  have hnot : ¬ role.Admits name := by
    intro hadmits
    rw [Role.fault?_eq_none_iff.mpr hadmits] at hfound
    cases hfound
  obtain ⟨reason, hreason⟩ := Role.exists_rejects hnot
  have hsame : some reason = some fault := hreason.fault?_eq.symm.trans hfound
  rw [← Option.some.inj hsame]
  exact hreason

/-- An identifier has no characters but those of words. -/
theorem IsIdentifier.isWord {name : String} (h : IsIdentifier name) {c : Char}
    (hc : c ∈ name.toList) : IsWord c := by
  obtain ⟨_, first, rest, hchars, hfirst, hrest⟩ := h
  rw [hchars] at hc
  rcases List.mem_cons.mp hc with rfl | hlater
  · exact .inl hfirst
  · exact hrest c hlater

instance (name : String) : Decidable (IsIdentifier name) :=
  decidable_of_iff (identifierFault? name = none) identifierFault?_eq_none_iff

instance (name : String) : Decidable (IsFragment name) :=
  decidable_of_iff (fragmentFault? name = none) fragmentFault?_eq_none_iff

/-! ## The order of names -/

/-- **The order of names, code point by code point**: the first difference decides, and a name
stands before all others that start with it. -/
def Precedes (a b : String) : Prop :=
  List.Lex (fun c d : Char => c.toNat < d.toNat) a.toList b.toList

theorem precedes_iff {a b : String} : Precedes a b ↔ a < b := by
  -- characters are compared by their code points
  show List.Lex (fun c d : Char => c < d) a.toList b.toList ↔ a.toList < b.toList
  exact List.lex_lt

theorem precedes_irrefl (name : String) : ¬ Precedes name name := by
  rw [precedes_iff]
  exact String.lt_irrefl name

theorem precedes_trans {a b c : String} (hab : Precedes a b) (hbc : Precedes b c) :
    Precedes a c := by
  rw [precedes_iff] at hab hbc ⊢
  exact String.lt_trans hab hbc

/-! ## Joined names -/

theorem generatedName_right_inj {function d e : String} :
    generatedName function d = generatedName function e ↔ d = e := by
  unfold generatedName
  exact String.append_right_inj _

theorem generatedName_ne_function (function dataSet : String) :
    generatedName function dataSet ≠ function := by
  intro h
  have hlength := congrArg String.length h
  simp only [generatedName, separator, String.length_append] at hlength
  have hseparator : "_".length = 1 := rfl
  omega

end Casewise.Identifier
