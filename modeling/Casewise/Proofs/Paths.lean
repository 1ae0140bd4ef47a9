import Mathlib.Data.List.Lex
import Casewise.DataFile
import Casewise.Proofs.Names

/-!
# Casewise.Proofs.Paths -- what a path leads to and where it stands

A path is a text, and what it means are its components: whether it starts at the root or here, and
then each step back and each name, without the pieces that lead nowhere. Putting a name behind a
path adds one component and changes none (`components_join`), however the path ends, and the name
is then the name of the file (`fileName?_join`).

Paths are ordered by their components and not by their characters, so `a/b` stands before `a-b`.
Below one directory the first differing name decides, whatever the path of the directory is
(`before_foldl_join`).
-/

namespace Casewise

open Identifier

namespace Path

/-! ## Pieces between slashes -/

theorem split_ne_nil (cs : List Char) : split cs ≠ [] := by
  fun_cases split cs <;> simp

/-- A character other than a slash belongs to the first piece. -/
theorem split_cons {c : Char} (hc : c ≠ '/') (cs : List Char) :
    split (c :: cs) = (split cs).modifyHead (c :: ·) := by
  rw [split.eq_3 _ _ hc]
  cases hsplit : split cs with
  | nil => exact absurd hsplit (split_ne_nil cs)
  | cons piece pieces => rfl

/-- A slash keeps the pieces on both of its sides apart. -/
theorem split_append_slash (a b : List Char) : split (a ++ '/' :: b) = split a ++ split b := by
  induction a with
  | nil => rfl
  | cons c a ih =>
    by_cases hc : c = '/'
    · subst hc
      exact congrArg ([] :: ·) ih
    · rw [List.cons_append, split_cons hc, split_cons hc, ih]
      cases hsplit : split a with
      | nil => exact absurd hsplit (split_ne_nil a)
      | cons piece pieces => rfl

/-- A text without a slash is one piece. -/
theorem split_of_notMem {cs : List Char} (h : '/' ∉ cs) : split cs = [cs] := by
  induction cs with
  | nil => rfl
  | cons c cs ih =>
    obtain ⟨hc, hcs⟩ := not_or.mp (fun hmem => h (List.mem_cons.mpr hmem))
    rw [split_cons (Ne.symm hc), ih hcs]
    rfl

/-- **A name that an entry of a directory can have**: a piece of a path that leads on. -/
def IsEntryName (name : String) : Prop :=
  name ≠ "" ∧ name ≠ "." ∧ name ≠ ".." ∧ '/' ∉ name.toList

instance (name : String) : Decidable (IsEntryName name) :=
  inferInstanceAs (Decidable (_ ∧ _))

theorem IsEntryName.isIdle_eq {name : String} (h : IsEntryName name) : isIdle name = false := by
  simp [isIdle, h.1, h.2.1]

theorem IsEntryName.pieces_eq {name : String} (h : IsEntryName name) : pieces name = [name] := by
  rw [pieces, split_of_notMem h.2.2.2, List.map_singleton, String.ofList_toList]

/-- **What joining does to the characters of a path**: the name stands behind a slash, and before
the slash stands the path, or all of it but its own last slash. -/
theorem exists_toList_join (path name : String) :
    ∃ stem, (join path name).toList = stem ++ '/' :: name.toList ∧
      (path.toList = stem ∨ path.toList = stem ++ ['/']) := by
  unfold join
  split
  · rename_i hlast
    obtain ⟨stem, hstem⟩ := List.getLast?_eq_some_iff.mp (beq_iff_eq.mp hlast)
    refine ⟨stem, ?_, .inr hstem⟩
    rw [String.toList_append, hstem, List.append_assoc]
    rfl
  · refine ⟨path.toList, ?_, .inl rfl⟩
    rw [String.toList_append, String.toList_append, List.append_assoc]
    rfl

/-- **What joining does to the pieces of a path**: the name is the last one, and before it stand
those of the path, or all of them but an empty last one. -/
theorem exists_pieces_join {name : String} (path : String) (h : IsEntryName name) :
    ∃ start, start ≠ [] ∧ pieces (join path name) = start ++ [name] ∧
      (pieces path = start ∨ pieces path = start ++ [""]) := by
  obtain ⟨stem, hjoin, hstem⟩ := exists_toList_join path name
  refine ⟨(split stem).map String.ofList, ?_, ?_, ?_⟩
  · simpa using split_ne_nil stem
  · rw [pieces, hjoin, split_append_slash, List.map_append, ← pieces, h.pieces_eq]
  · rcases hstem with hstem | hstem
    · exact .inl (by rw [pieces, hstem])
    · refine .inr ?_
      rw [pieces, hstem, split_append_slash, List.map_append]
      rfl

/-- The pieces of a path that lead somewhere. -/
def steps (path : String) : List String := (pieces path).filter fun piece => !isIdle piece

/-- A name behind a path is one more step. -/
theorem steps_join {path name : String} (h : IsEntryName name) :
    steps (join path name) = steps path ++ [name] := by
  obtain ⟨start, _, hjoin, hpath⟩ := exists_pieces_join path h
  have hstart : steps path = start.filter fun piece => !isIdle piece := by
    rcases hpath with hpath | hpath
    · rw [steps, hpath]
    · rw [steps, hpath, List.filter_append]
      exact List.append_nil _
  rw [hstart, steps, hjoin, List.filter_append]
  simp [h.isIdle_eq]

/-- The name of the file is the last step, unless that leads back. -/
theorem fileName?_of_steps {path name : String} (h : (steps path).getLast? = some name)
    (hback : name ≠ "..") : fileName? path = some name := by
  unfold fileName?
  rw [← steps, h]
  split
  · rename_i hlast
    exact absurd (Option.some.inj hlast) hback
  · rename_i hlast
    cases hlast
  · rename_i hlast
    exact hlast.symm

theorem fileName?_of_isEntryName {name : String} (h : IsEntryName name) :
    fileName? name = some name := by
  refine fileName?_of_steps ?_ h.2.2.1
  rw [steps, h.pieces_eq]
  simp [h.isIdle_eq]

/-- **The name of a file in a directory is the name of the file**, whatever the directory is. -/
theorem fileName?_join {path name : String} (h : IsEntryName name) :
    fileName? (join path name) = some name := by
  refine fileName?_of_steps ?_ h.2.2.1
  rw [steps_join h, List.getLast?_concat]

/-! ## Components -/

/-- **A component of a path.** -/
inductive Component where
  | root
  | here
  | up
  | name (text : String)
deriving Repr, DecidableEq

namespace Component

/-- What a step of a path is. -/
def ofStep (step : String) : Component := if step = ".." then .up else .name step

/-- The place of the kinds of components: the root, here, back, and names. -/
def rank : Component → Nat
  | root => 0
  | here => 1
  | up => 2
  | name _ => 3

/-- **The order of components**: by their kinds, and names among themselves code point by code
point. -/
def Before : Component → Component → Prop
  | name a, name b => Precedes a b
  | a, b => a.rank < b.rank

end Component

/-- Where a path starts, if it says so: at the root, or here. -/
def lead (path : String) : List Component :=
  if path.toList.head? = some '/' then [.root]
  else if (pieces path).head? = some "." then [.here]
  else []

/-- **The components of a path.** -/
def components (path : String) : List Component :=
  lead path ++ (steps path).map Component.ofStep

/-- **The order of paths, component by component**: the first difference decides, and a path stands
before all others that go on from it. -/
def Before (a b : String) : Prop := List.Lex Component.Before (components a) (components b)

theorem head?_toList_join {path : String} (name : String) (hpath : path ≠ "") :
    (join path name).toList.head? = path.toList.head? := by
  obtain ⟨stem, hjoin, hstem⟩ := exists_toList_join path name
  rcases hstem with hstem | hstem
  · have hne : path.toList ≠ [] := by
      simpa using hpath
    rw [hjoin, ← hstem]
    exact List.head?_append_of_ne_nil _ hne
  · rw [hjoin, hstem]
    cases stem <;> rfl

theorem lead_join {path name : String} (hpath : path ≠ "") (h : IsEntryName name) :
    lead (join path name) = lead path := by
  obtain ⟨start, hne, hjoin, hpieces⟩ := exists_pieces_join path h
  have hfirst : (pieces (join path name)).head? = (pieces path).head? := by
    rcases hpieces with hpieces | hpieces
    · rw [hjoin, hpieces, List.head?_append_of_ne_nil _ hne]
    · rw [hjoin, hpieces, List.head?_append_of_ne_nil _ hne, List.head?_append_of_ne_nil _ hne]
  rw [lead, lead, head?_toList_join name hpath, hfirst]

/-- **A name behind a path adds a component** and changes none. -/
theorem components_join {path name : String} (hpath : path ≠ "") (h : IsEntryName name) :
    components (join path name) = components path ++ [.name name] := by
  rw [components, components, lead_join hpath h, steps_join h, List.map_append, List.map_singleton,
    Component.ofStep, if_neg h.2.2.1, List.append_assoc]

theorem join_ne_empty (path name : String) : join path name ≠ "" := by
  obtain ⟨stem, hjoin, _⟩ := exists_toList_join path name
  intro hempty
  rw [hempty] at hjoin
  simp at hjoin

theorem components_foldl_join {path : String} {names : List String} (hpath : path ≠ "")
    (h : ∀ name ∈ names, IsEntryName name) :
    components (names.foldl join path) = components path ++ names.map .name := by
  induction names generalizing path with
  | nil => exact (List.append_nil _).symm
  | cons name rest ih =>
    obtain ⟨hname, hrest⟩ := List.forall_mem_cons.mp h
    rw [List.foldl_cons, ih (join_ne_empty path name) hrest, components_join hpath hname,
      List.append_assoc]
    rfl

/-- Different names lead from one directory to different places. -/
theorem foldl_join_inj {path : String} {names others : List String} (hpath : path ≠ "")
    (hnames : ∀ name ∈ names, IsEntryName name) (hothers : ∀ name ∈ others, IsEntryName name)
    (h : names.foldl join path = others.foldl join path) : names = others := by
  have hcomponents := congrArg components h
  rw [components_foldl_join hpath hnames, components_foldl_join hpath hothers] at hcomponents
  have hinjective : Function.Injective Component.name := fun _ _ => Component.name.inj
  exact List.map_injective_iff.mpr hinjective (List.append_cancel_left hcomponents)

/-! ## The order of what lies below a directory -/

/-- Lists of names are in order if they are the same, or else if the first difference decides. -/
theorem inOrder_iff {a b : List String} :
    inOrder a b = true ↔ a = b ∨ List.Lex Precedes a b := by
  induction a generalizing b with
  | nil => cases b <;> simp [inOrder]
  | cons x a ih =>
    cases b with
    | nil => simp [inOrder]
    | cons y b =>
      unfold inOrder
      by_cases hxy : x = y
      · subst hxy
        rw [if_pos rfl, ih, List.cons_lex_cons_iff]
        simp [precedes_irrefl]
      · rw [if_neg hxy, decide_eq_true_eq, ← precedes_iff, List.cons_lex_cons_iff]
        simp [hxy]

theorem inOrder_trans (a b c : List String) (hab : inOrder a b = true)
    (hbc : inOrder b c = true) : inOrder a c = true := by
  rw [inOrder_iff] at hab hbc ⊢
  rcases hab with rfl | hab
  · exact hbc
  · rcases hbc with rfl | hbc
    · exact .inr hab
    · exact .inr (List.lex_trans precedes_trans hab hbc)

theorem inOrder_total (a b : List String) : (inOrder a b || inOrder b a) = true := by
  induction a generalizing b with
  | nil => rfl
  | cons x a ih =>
    cases b with
    | nil => simp [inOrder]
    | cons y b =>
      unfold inOrder
      by_cases hxy : x = y
      · subst hxy
        rw [if_pos rfl, if_pos rfl]
        exact ih b
      · rw [if_neg hxy, if_neg (Ne.symm hxy), Bool.or_eq_true, decide_eq_true_eq, decide_eq_true_eq]
        by_cases hlt : x < y
        · exact .inl hlt
        · exact .inr (Std.lt_of_le_of_ne hlt (Ne.symm hxy))

theorem inOrder_antisymm {a b : List String} (hab : inOrder a b = true)
    (hba : inOrder b a = true) : a = b := by
  rcases inOrder_iff.mp hab with rfl | hab
  · rfl
  · rcases inOrder_iff.mp hba with rfl | hba
    · rfl
    · have hself : List.Lex Precedes a a := List.lex_trans precedes_trans hab hba
      exact absurd hself (List.lex_irrefl precedes_irrefl a)

/-- **Below one directory the first differing name decides**, whatever the path of the directory
is. -/
theorem before_foldl_join {path : String} {names others : List String} (hpath : path ≠ "")
    (hnames : ∀ name ∈ names, IsEntryName name) (hothers : ∀ name ∈ others, IsEntryName name)
    (h : List.Lex Precedes names others) :
    Before (names.foldl join path) (others.foldl join path) := by
  unfold Before
  rw [components_foldl_join hpath hnames, components_foldl_join hpath hothers]
  apply List.Lex.append_left
  clear hnames hothers
  induction h with
  | nil => exact .nil
  | cons _ ih => exact .cons ih
  | rel hlt => exact .rel hlt

/-! ## Extensions -/

/-- A text is cut at its first dot just if it starts with what has no dot, and a dot behind it. -/
theorem cut_at_dot_iff {cs start rest : List Char} :
    cs.takeWhile (· != '.') = start ∧ cs.dropWhile (· != '.') = '.' :: rest ↔
      '.' ∉ start ∧ cs = start ++ '.' :: rest := by
  constructor
  · rintro ⟨rfl, hrest⟩
    refine ⟨?_, ?_⟩
    · intro hmem
      have hkept := List.all_takeWhile (p := (· != '.')) (l := cs)
      simpa using List.all_eq_true.mp hkept _ hmem
    · rw [← hrest, List.takeWhile_append_dropWhile]
  · rintro ⟨hstart, rfl⟩
    have hpass : ∀ c ∈ start, (c != '.') = true := by
      intro c hc
      rw [bne_iff_ne]
      rintro rfl
      exact hstart hc
    rw [List.takeWhile_append_of_pos hpass, List.dropWhile_append_of_pos hpass]
    simp

/-- **The extension of a name** is what stands behind its last dot, where something stands before
that dot. -/
theorem extension?_eq_some_iff {name ending : String} :
    extension? name = some ending ↔
      '.' ∉ ending.toList ∧ ∃ stem, stem ≠ "" ∧ name = stem ++ "." ++ ending := by
  have hname : ∀ stem : String, name = stem ++ "." ++ ending ↔
      name.toList.reverse = ending.toList.reverse ++ '.' :: stem.toList.reverse := by
    intro stem
    rw [← String.toList_inj, ← List.reverse_inj]
    simp
  have hcut : extension? name = some ending ↔ ∃ c rest,
      name.toList.reverse.takeWhile (· != '.') = ending.toList.reverse ∧
        name.toList.reverse.dropWhile (· != '.') = '.' :: c :: rest := by
    unfold extension?
    dsimp only
    split
    · rename_i c rest hdrop
      rw [Option.some.injEq, ← String.toList_inj, String.toList_ofList, List.reverse_eq_iff]
      simp [hdrop]
    · rename_i hno
      simp only [reduceCtorEq, false_iff, not_exists, not_and]
      intro c rest _ hdrop
      exact hno c rest hdrop
  simp only [hcut, cut_at_dot_iff, hname, List.mem_reverse]
  constructor
  · rintro ⟨c, rest, hending, hreverse⟩
    refine ⟨hending, String.ofList (c :: rest).reverse, ?_, ?_⟩
    · simp
    · simpa using hreverse
  · rintro ⟨hending, stem, hstem, hreverse⟩
    have hsome : stem.toList.reverse ≠ [] := by
      simpa using hstem
    obtain ⟨c, rest, hcons⟩ := List.exists_cons_of_ne_nil hsome
    exact ⟨c, rest, hending, by rw [hreverse, hcons]⟩

end Path
end Casewise
