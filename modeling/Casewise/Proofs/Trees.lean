import Mathlib.Data.List.Induction
import Mathlib.Data.List.Nodup
import Mathlib.Data.List.Perm.Basic
import Casewise.FileTree
import Casewise.Proofs.Paths

/-!
# Casewise.Proofs.Trees -- what a file tree holds

A tree holds another one behind a list of names if the names lead from entry to entry to it.
Walking a tree finds what the tree holds and is a file, whatever stands around it
(`mem_files_iff`), and finds it once, provided that no directory has two entries of one name
(`WellFormed.nodup_files`). In which order a directory lists its entries makes no difference to
what is found, only to when (`Relisted.files_perm`).

Following a path through a tree comes to the same: where a directory is found under a path, each
entry of it is found under the path with the name of the entry joined to it (`find?_join`).
-/

namespace Casewise

namespace FileTree

/-- **Induction on trees**: a directory has a property as soon as every entry has it. -/
@[elab_as_elim]
theorem induction {motive : FileTree → Prop} (file : ∀ content, motive (.file content))
    (directory : ∀ entries, (∀ e ∈ entries, motive e.2) → motive (.directory entries))
    (tree : FileTree) : motive tree :=
  @FileTree.rec motive (fun entries => ∀ e ∈ entries, motive e.2) (fun e => motive e.2)
    file directory
    (fun _ h => absurd h List.not_mem_nil)
    (fun _ _ he hrest => List.forall_mem_cons.mpr ⟨he, hrest⟩)
    (fun _ _ ht => ht) tree

/-! ## Holding -/

/-- **What a tree holds**: itself, and behind the name of an entry what that entry holds. -/
inductive Holds : FileTree → List String → FileTree → Prop
  | here (tree : FileTree) : Holds tree [] tree
  | inside {entries : List (String × FileTree)} {name : String} {names : List String}
    {inner tree : FileTree} (entry : (name, inner) ∈ entries) (held : Holds inner names tree) :
    Holds (.directory entries) (name :: names) tree

variable {tree other : FileTree} {names : List String} {entries : List (String × FileTree)}

/-! ## Walking -/

theorem filesOf_eq (entries : List (String × FileTree)) :
    filesOf entries = entries.flatMap fun e => (files e.2).map fun f => (e.1 :: f.1, f.2) := by
  induction entries with
  | nil => rfl
  | cons e rest ih => rw [filesOf, ih, List.flatMap_cons]

theorem files_directory (entries : List (String × FileTree)) :
    files (.directory entries) =
      entries.flatMap fun e => (files e.2).map fun f => (e.1 :: f.1, f.2) := by
  rw [files, filesOf_eq]

/-- **Walking finds every file that the tree holds**, and nothing else. -/
theorem mem_files_iff :
    (names, other) ∈ files tree ↔ Holds tree names other ∧ ∃ content, other = .file content := by
  induction tree using FileTree.induction generalizing names with
  | file content =>
    rw [files, List.mem_singleton, Prod.mk.injEq]
    constructor
    · rintro ⟨rfl, rfl⟩
      exact ⟨.here _, content, rfl⟩
    · rintro ⟨held, _⟩
      cases held
      exact ⟨rfl, rfl⟩
  | directory entries ih =>
    rw [files_directory, List.mem_flatMap]
    constructor
    · rintro ⟨⟨name, inner⟩, entry, hmem⟩
      obtain ⟨⟨rest, found⟩, hfound, heq⟩ := List.mem_map.mp hmem
      obtain ⟨rfl, rfl⟩ := Prod.mk.inj heq
      obtain ⟨held, hfile⟩ := (ih _ entry).mp hfound
      exact ⟨.inside entry held, hfile⟩
    · rintro ⟨held, hfile⟩
      cases held with
      | here =>
        obtain ⟨content, hcontent⟩ := hfile
        cases hcontent
      | @inside _ name rest inner _ entry held =>
        exact ⟨_, entry, List.mem_map_of_mem ((ih _ entry).mpr ⟨held, hfile⟩)⟩

/-! ## Well-formed trees -/

/-- **A tree that can be on disk**: each directory names its entries as a path can, and no two of
them alike. -/
inductive WellFormed : FileTree → Prop
  | file (content : Option ByteArray) : WellFormed (.file content)
  | directory {entries : List (String × FileTree)} (distinct : (entries.map Prod.fst).Nodup)
    (named : ∀ e ∈ entries, Path.IsEntryName e.1) (inner : ∀ e ∈ entries, WellFormed e.2) :
    WellFormed (.directory entries)

/-- What a well-formed tree holds, it holds behind names that a path can have. -/
theorem WellFormed.isEntryName (h : WellFormed tree) (held : Holds tree names other) :
    ∀ name ∈ names, Path.IsEntryName name := by
  induction held with
  | here => exact fun _ hname => absurd hname List.not_mem_nil
  | inside entry held ih =>
    cases h with
    | directory distinct named inner =>
      exact List.forall_mem_cons.mpr ⟨named _ entry, ih (inner _ entry)⟩

theorem map_fst_files_directory (entries : List (String × FileTree)) :
    (files (.directory entries)).map Prod.fst =
      entries.flatMap fun e => ((files e.2).map Prod.fst).map (e.1 :: ·) := by
  rw [files_directory, List.map_flatMap]
  simp only [List.map_map]
  rfl

/-- **Walking finds nothing twice.** -/
theorem WellFormed.nodup_files (h : WellFormed tree) : ((files tree).map Prod.fst).Nodup := by
  induction tree using FileTree.induction with
  | file content => exact List.nodup_singleton _
  | directory entries ih =>
    cases h with
    | directory distinct named inner =>
      rw [map_fst_files_directory, List.nodup_flatMap]
      refine ⟨fun e he => (ih e he (inner e he)).map List.cons_injective, ?_⟩
      -- what lies behind different entries differs in the first name
      apply (List.pairwise_map.mp distinct).imp
      intro a b hne names ha hb
      obtain ⟨_, _, rfl⟩ := List.mem_map.mp ha
      obtain ⟨_, _, heq⟩ := List.mem_map.mp hb
      exact hne (List.cons.inj heq).1.symm

/-! ## Other listings of the same tree -/

/-- **One tree listed in two ways**: they differ in the order of entries, in any number of
directories. -/
inductive Relisted : FileTree → FileTree → Prop
  | refl (tree : FileTree) : Relisted tree tree
  | perm {entries others : List (String × FileTree)} (h : entries.Perm others) :
    Relisted (.directory entries) (.directory others)
  | inside {before after : List (String × FileTree)} {name : String} {inner other : FileTree}
    (h : Relisted inner other) :
    Relisted (.directory (before ++ (name, inner) :: after))
      (.directory (before ++ (name, other) :: after))
  | trans {a b c : FileTree} (hab : Relisted a b) (hbc : Relisted b c) : Relisted a c

/-- **The order of entries makes no difference to what is found.** -/
theorem Relisted.files_perm (h : Relisted tree other) : (files tree).Perm (files other) := by
  induction h with
  | refl => exact .refl _
  | perm h =>
    rw [files_directory, files_directory]
    exact h.flatMap_right _
  | inside h ih =>
    rw [files_directory, files_directory, List.flatMap_append, List.flatMap_append,
      List.flatMap_cons, List.flatMap_cons]
    exact (List.Perm.append_right _ (ih.map _)).append_left _
  | trans _ _ ihab ihbc => exact ihab.trans ihbc

/-- Listed in another way, a directory is still a directory and a file the same file. -/
theorem Relisted.cases_directory (h : Relisted tree other) :
    tree = other ∨ ∃ entries others, tree = .directory entries ∧ other = .directory others := by
  induction h with
  | refl => exact .inl rfl
  | perm h => exact .inr ⟨_, _, rfl, rfl⟩
  | inside h => exact .inr ⟨_, _, rfl, rfl⟩
  | trans _ _ ihab ihbc =>
    rcases ihab with rfl | ⟨entries, others, rfl, rfl⟩
    · exact ihbc
    · rcases ihbc with rfl | ⟨_, last, _, rfl⟩
      · exact .inr ⟨entries, others, rfl, rfl⟩
      · exact .inr ⟨entries, last, rfl, rfl⟩

/-! ## Following paths -/

/-- The way that pieces lead through a tree, given from its end. -/
def way? (tree : FileTree) (pieces : List String) : Option (List FileTree) :=
  pieces.foldlM (fun way piece => step? piece way) [tree]

theorem way?_concat (tree : FileTree) (pieces : List String) (piece : String) :
    tree.way? (pieces ++ [piece]) = (tree.way? pieces).bind (step? piece) := by
  simp [way?, List.foldlM_append]

theorem find?_eq_some_iff {path : String} :
    tree.find? path = some other ↔ path ≠ "" ∧ path.toList.head? ≠ some '/' ∧
      ∃ around, tree.way? (Path.pieces path) = some (other :: around) := by
  unfold find?
  by_cases hpath : path = ""
  · subst hpath
    simp
  · by_cases hroot : path.toList.head? = some '/'
    · simp [hroot]
    · rw [if_neg (by simp [hpath, hroot])]
      show ((tree.way? (Path.pieces path)).bind List.head?) = some other ↔ _
      simp only [Option.bind_eq_some_iff, List.head?_eq_some_iff, ne_eq, hpath, hroot,
        not_false_eq_true, true_and]
      constructor
      · rintro ⟨way, hway, around, rfl⟩
        exact ⟨around, hway⟩
      · rintro ⟨around, hway⟩
        exact ⟨_, hway, around, rfl⟩

/-- **One step from a directory**: nowhere, back, or to an entry. -/
theorem step?_directory (piece : String) (entries : List (String × FileTree))
    (around : List FileTree) :
    step? piece (.directory entries :: around) =
      if Path.isIdle piece then some (.directory entries :: around)
      else if piece = ".." then (if around.isEmpty then none else some around)
      else (entries.lookup piece).map (· :: .directory entries :: around) := by
  show (if Path.isIdle piece then some (.directory entries :: around)
    else if piece == ".." then (if around.isEmpty then none else some around)
    else entries.lookup piece >>= fun inner => some (inner :: .directory entries :: around)) = _
  rw [Option.map_eq_bind]
  simp only [beq_iff_eq]
  rfl

/-- Only in a directory a step can be taken. -/
theorem exists_directory_of_step? {piece : String} {way next : List FileTree}
    (h : step? piece way = some next) : ∃ entries around, way = .directory entries :: around := by
  cases way with
  | nil => cases h
  | cons here around =>
    cases here with
    | file content => cases h
    | directory entries => exact ⟨entries, around, rfl⟩

/-- An empty piece leads nowhere. -/
theorem eq_of_step?_empty {way next : List FileTree} (h : step? "" way = some next) :
    next = way := by
  obtain ⟨entries, around, rfl⟩ := exists_directory_of_step? h
  rw [step?_directory] at h
  exact (Option.some.inj h).symm

theorem step?_of_isEntryName {name : String} (h : Path.IsEntryName name) (around : List FileTree) :
    step? name (.directory entries :: around) =
      (entries.lookup name).map (· :: .directory entries :: around) := by
  rw [step?_directory, h.isIdle_eq, if_neg Bool.false_ne_true, if_neg h.2.2.1]

/-- **Behind the path of a directory stand its entries.** -/
theorem find?_join {path name : String} (h : tree.find? path = some (.directory entries))
    (hname : Path.IsEntryName name) : tree.find? (Path.join path name) = entries.lookup name := by
  obtain ⟨hpath, hroot, around, hway⟩ := find?_eq_some_iff.mp h
  obtain ⟨start, _, hjoin, hpieces⟩ := Path.exists_pieces_join path hname
  have hstart : tree.way? start = some (.directory entries :: around) := by
    rcases hpieces with hpieces | hpieces
    · rw [← hpieces]
      exact hway
    · -- the empty piece behind the last slash has led nowhere
      rw [hpieces, way?_concat] at hway
      obtain ⟨way, hstart, hidle⟩ := Option.bind_eq_some_iff.mp hway
      rw [eq_of_step?_empty hidle]
      exact hstart
  have hjoined : tree.way? (Path.pieces (Path.join path name)) =
      (entries.lookup name).map (· :: .directory entries :: around) := by
    rw [hjoin, way?_concat, hstart]
    exact step?_of_isEntryName hname around
  apply Option.ext
  intro found
  rw [find?_eq_some_iff, Path.head?_toList_join name hpath, hjoined]
  simp [Path.join_ne_empty, hroot]

/-- Where no two entries have one name, each of them is found by its name. -/
theorem lookup_eq_some_iff {name : String} {inner : FileTree}
    (distinct : (entries.map Prod.fst).Nodup) :
    entries.lookup name = some inner ↔ (name, inner) ∈ entries := by
  rw [List.lookup_eq_some_iff]
  constructor
  · rintro ⟨before, after, rfl, _⟩
    exact List.mem_append_right _ List.mem_cons_self
  · intro entry
    obtain ⟨before, after, rfl⟩ := List.append_of_mem entry
    refine ⟨before, after, rfl, ?_⟩
    intro other hother
    rw [bne_iff_ne]
    rintro rfl
    rw [List.map_append, List.map_cons, List.nodup_append] at distinct
    exact distinct.2.2 _ (List.mem_map_of_mem hother) _ List.mem_cons_self rfl

/-- A step in a well-formed tree leads to one. -/
theorem wellFormed_of_step? {piece : String} {way next : List FileTree}
    (hway : ∀ t ∈ way, WellFormed t) (h : step? piece way = some next) :
    ∀ t ∈ next, WellFormed t := by
  obtain ⟨entries, around, rfl⟩ := exists_directory_of_step? h
  obtain ⟨hhere, haround⟩ := List.forall_mem_cons.mp hway
  rw [step?_directory] at h
  split at h
  · obtain rfl := Option.some.inj h
    exact hway
  · split at h
    · split at h
      · cases h
      · obtain rfl := Option.some.inj h
        exact haround
    · obtain ⟨inner, hlookup, rfl⟩ := Option.map_eq_some_iff.mp h
      cases hhere with
      | directory distinct named hinner =>
        exact List.forall_mem_cons.mpr ⟨hinner _ ((lookup_eq_some_iff distinct).mp hlookup), hway⟩

/-- Every tree on a way through a well-formed tree is well formed. -/
theorem WellFormed.of_way? {pieces : List String} {way : List FileTree}
    (hformed : WellFormed tree) (h : tree.way? pieces = some way) : ∀ t ∈ way, WellFormed t := by
  induction pieces using List.reverseRecOn generalizing way with
  | nil =>
    obtain rfl := Option.some.inj h
    exact List.forall_mem_singleton.mpr hformed
  | append_singleton pieces piece ih =>
    rw [way?_concat] at h
    obtain ⟨before, hbefore, hstep⟩ := Option.bind_eq_some_iff.mp h
    exact wellFormed_of_step? (ih hbefore) hstep

/-- **What is found in a well-formed tree is well formed.** -/
theorem WellFormed.of_find? {path : String} (hformed : WellFormed tree)
    (h : tree.find? path = some other) : WellFormed other := by
  obtain ⟨_, _, around, hway⟩ := find?_eq_some_iff.mp h
  exact hformed.of_way? hway other List.mem_cons_self

end FileTree

end Casewise
