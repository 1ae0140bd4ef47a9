import Mathlib.Data.List.Perm.Basic
import Casewise.CommandLine
import Casewise.Proofs.Trees

/-!
# Casewise.Proofs.DataFiles -- which files are checked, and in which order

A path that leads to no directory stands for itself. A directory stands for the data files below
it: every file whose name is a stem and one of three endings, found by walking, each once, in the
order of the paths. The order in which a directory lists its entries is lost in the sorting
(`dataFiles_of_relisted`).

The walk asks for the format of a name and loading asks for the format of a path. The last step of
a path that was walked to is the name that was asked about, so the two ask the same, and no file
that was found below a directory is refused for its format (`load_ne_unsupportedFormat`).
-/

namespace Casewise

open Identifier FileTree

/-! ## Names of data files -/

/-- **The name of a data file**: a stem that is not empty, a dot, and one of three endings. -/
def IsDataName (name : String) : Prop :=
  ∃ stem ending, stem ≠ "" ∧ ending ∈ ["json", "yaml", "yml"] ∧ name = stem ++ "." ++ ending

namespace Format

theorem exists_ofExtension?_iff {ending : String} :
    (∃ format, ofExtension? ending = some format) ↔ ending ∈ ["json", "yaml", "yml"] := by
  unfold ofExtension?
  split <;> simp_all

/-- A name has a format just if it is the name of a data file. -/
theorem exists_format_iff {name : String} :
    (∃ format, (Path.extension? name).bind ofExtension? = some format) ↔ IsDataName name := by
  simp only [Option.bind_eq_some_iff, Path.extension?_eq_some_iff]
  constructor
  · rintro ⟨format, ending, ⟨_, stem, hstem, hname⟩, hformat⟩
    exact ⟨stem, ending, hstem, exists_ofExtension?_iff.mp ⟨format, hformat⟩, hname⟩
  · rintro ⟨stem, ending, hstem, hending, hname⟩
    obtain ⟨format, hformat⟩ := exists_ofExtension?_iff.mpr hending
    have hdotless : '.' ∉ ending.toList := by
      simp only [List.mem_cons, List.not_mem_nil, or_false] at hending
      rcases hending with rfl | rfl | rfl <;> decide
    exact ⟨format, ending, ⟨hdotless, stem, hstem, hname⟩, hformat⟩

/-- A path has a format if the file that it leads to is called like a data file. -/
theorem exists_ofPath_iff {path name : String} (h : Path.fileName? path = some name) :
    (∃ format, ofPath path = .ok format) ↔ IsDataName name := by
  rw [← exists_format_iff, ofPath, h, Option.bind_some]
  cases (Path.extension? name).bind ofExtension? <;> simp

/-- A text that does not fit is refused for what it holds. -/
theorem parse_ne_unsupportedFormat {α : Type} [Loadable α] (format : Format)
    (origin text other : String) :
    (format.parse origin text : Except Problem α) ≠ .error (.unsupportedFormat other) := by
  unfold parse
  split
  · nofun
  · cases format <;> simp [invalid]

end Format

namespace CommandLine

open Casewise.Path

/-- **What the walk asks for** is that the last name is that of a data file. -/
theorem isDataFile_concat_iff {names : List String} {name : String} (h : IsEntryName name) :
    isDataFile (names ++ [name]) = true ↔ IsDataName name := by
  have hformat : isDataFile (names ++ [name]) = true ↔
      ∃ format, Format.ofPath name = .ok format := by
    unfold isDataFile
    rw [List.getLast?_concat, Option.getD_some]
    cases Format.ofPath name <;> simp
  rw [hformat, Format.exists_ofPath_iff (fileName?_of_isEntryName h)]

theorem isDataFile_nil : isDataFile [] = false := rfl

/-! ## The data files below a directory -/

variable {tree other : FileTree} {entries : List (String × FileTree)}

theorem mem_dataFiles_iff {f : List String × FileTree} :
    f ∈ dataFiles tree ↔ f ∈ tree.files ∧ isDataFile f.1 = true := by
  unfold dataFiles
  rw [List.mem_mergeSort, List.mem_filter]

/-- **What is found below a directory**: the files that it holds and that are called like data
files. -/
theorem mem_dataFiles_iff_holds (h : WellFormed tree) {f : List String × FileTree} :
    f ∈ dataFiles tree ↔ ∃ names name content,
      Holds tree (names ++ [name]) (.file content) ∧ IsDataName name ∧
        f = (names ++ [name], .file content) := by
  obtain ⟨path, found⟩ := f
  rw [mem_dataFiles_iff, mem_files_iff]
  constructor
  · rintro ⟨⟨held, content, rfl⟩, hdata⟩
    rcases List.eq_nil_or_concat path with rfl | ⟨names, name, rfl⟩
    · rw [isDataFile_nil] at hdata
      cases hdata
    · rw [List.concat_eq_append] at held hdata ⊢
      have hname := h.isEntryName held name (by simp)
      exact ⟨names, name, content, held, (isDataFile_concat_iff hname).mp hdata, rfl⟩
  · rintro ⟨names, name, content, held, hdata, heq⟩
    obtain ⟨rfl, rfl⟩ := Prod.mk.inj heq
    have hname := h.isEntryName held name (by simp)
    exact ⟨⟨held, content, rfl⟩, (isDataFile_concat_iff hname).mpr hdata⟩

/-- No file is found twice. -/
theorem nodup_dataFiles (h : WellFormed tree) : ((dataFiles tree).map Prod.fst).Nodup := by
  apply ((List.mergeSort_perm _ _).map Prod.fst).nodup_iff.mpr
  exact h.nodup_files.sublist (List.filter_sublist.map Prod.fst)

/-- The files are in the order of their names. -/
theorem pairwise_inOrder_dataFiles (tree : FileTree) :
    (dataFiles tree).Pairwise fun a b => inOrder a.1 b.1 = true :=
  List.pairwise_mergeSort (fun a b c => inOrder_trans a.1 b.1 c.1)
    (fun a b => inOrder_total a.1 b.1) _

/-- **The files ascend by the names that lead to them**, the outermost one first. -/
theorem pairwise_dataFiles (h : WellFormed tree) :
    (dataFiles tree).Pairwise fun a b => List.Lex Precedes a.1 b.1 := by
  have hdistinct := List.pairwise_map.mp (nodup_dataFiles h)
  apply (pairwise_inOrder_dataFiles tree).imp₂ _ hdistinct
  intro a b horder hne
  exact (inOrder_iff.mp horder).resolve_left hne

/-- **There is one order in which the files can be listed.** -/
theorem dataFiles_eq_of_perm (h : WellFormed tree) {found : List (List String × FileTree)}
    (hperm : found.Perm (tree.files.filter fun f => isDataFile f.1))
    (horder : found.Pairwise fun a b => inOrder a.1 b.1 = true) : dataFiles tree = found := by
  have hsame : (dataFiles tree).Perm found := (List.mergeSort_perm _ _).trans hperm.symm
  refine List.Perm.eq_of_pairwise ?_ (pairwise_inOrder_dataFiles tree) horder hsame
  intro a b ha hb hab hba
  exact List.inj_on_of_nodup_map (nodup_dataFiles h) ha (hsame.mem_iff.mpr hb)
    (inOrder_antisymm hab hba)

/-- **In which order the entries of directories are listed makes no difference.** -/
theorem dataFiles_of_relisted (h : WellFormed tree) (hlisted : Relisted tree other) :
    dataFiles other = dataFiles tree := by
  have hfiltered := hlisted.files_perm.filter fun f => isDataFile f.1
  refine (dataFiles_eq_of_perm h ?_ (pairwise_inOrder_dataFiles other)).symm
  exact (List.mergeSort_perm _ _).trans hfiltered.symm

/-! ## What paths stand for -/

/-- **What can be found on disk**: trees that are well formed; and the empty path leads to no
directory. -/
structure OnDisk (files : Files) : Prop where
  wellFormed : ∀ {path tree}, files path = some tree → tree.WellFormed
  nowhere : ∀ entries, files "" ≠ some (.directory entries)

theorem onDisk_find? (h : WellFormed tree) : OnDisk tree.find? where
  wellFormed hfound := h.of_find? hfound
  nowhere _ hfound := (find?_eq_some_iff.mp hfound).1 rfl

/-- A file below a directory, under the path of the directory with the names joined to it. -/
def candidateBelow (path : String) (f : List String × FileTree) : Candidate :=
  ⟨f.1.foldl join path, some f.2⟩

/-- **What one path stands for**: itself, if it leads to no directory; or else exactly the data
files that the directory holds, each once, ascending by the components of their paths. -/
inductive StandsFor (files : Files) (path : String) : List Candidate → Prop
  | itself (found : ∀ entries, files path ≠ some (.directory entries)) :
    StandsFor files path [⟨path, files path⟩]
  | below {entries : List (String × FileTree)} {candidates : List Candidate}
    (found : files path = some (.directory entries))
    (exact : ∀ c, c ∈ candidates ↔ ∃ names name content,
      Holds (.directory entries) (names ++ [name]) (.file content) ∧ IsDataName name ∧
        c = candidateBelow path (names ++ [name], .file content))
    (once : (candidates.map Candidate.path).Nodup)
    (ascending : (candidates.map Candidate.path).Pairwise Path.Before) :
    StandsFor files path candidates

variable {files : Files} {path : String}

theorem isEntryName_of_mem_dataFiles (h : WellFormed tree) {f : List String × FileTree}
    (hf : f ∈ dataFiles tree) : ∀ name ∈ f.1, IsEntryName name :=
  h.isEntryName (mem_files_iff.mp (mem_dataFiles_iff.mp hf).1).1

/-- Joined to the path of a directory, the names of its files still differ and still ascend. -/
theorem pairwise_candidateBelow (h : WellFormed tree) (hpath : path ≠ "") :
    ((dataFiles tree).map (candidateBelow path)).Pairwise fun a b =>
      a.path ≠ b.path ∧ Path.Before a.path b.path := by
  have hdistinct := List.pairwise_map.mp (nodup_dataFiles h)
  apply List.pairwise_map.mpr
  apply ((pairwise_dataFiles h).and hdistinct).imp_of_mem
  intro a b ha hb ⟨horder, hne⟩
  have hanames := isEntryName_of_mem_dataFiles h ha
  have hbnames := isEntryName_of_mem_dataFiles h hb
  refine ⟨fun heq => hne (foldl_join_inj hpath hanames hbnames heq), ?_⟩
  exact before_foldl_join hpath hanames hbnames horder

/-- **A path stands for its candidates.** -/
theorem standsFor_candidates (h : OnDisk files) (path : String) :
    StandsFor files path (candidates files path) := by
  by_cases hdirectory : ∃ entries, files path = some (.directory entries)
  · obtain ⟨entries, hfound⟩ := hdirectory
    have hformed : (FileTree.directory entries).WellFormed := h.wellFormed hfound
    have hpath : path ≠ "" := by
      rintro rfl
      exact h.nowhere entries hfound
    rw [candidates_of_directory hfound]
    have hpairwise := pairwise_candidateBelow hformed hpath
    refine .below hfound ?_ ?_ ?_
    · intro c
      rw [List.mem_map]
      constructor
      · rintro ⟨f, hf, rfl⟩
        obtain ⟨names, name, content, held, hdata, rfl⟩ := (mem_dataFiles_iff_holds hformed).mp hf
        exact ⟨names, name, content, held, hdata, rfl⟩
      · rintro ⟨names, name, content, held, hdata, rfl⟩
        exact ⟨_, (mem_dataFiles_iff_holds hformed).mpr ⟨names, name, content, held, hdata, rfl⟩,
          rfl⟩
    · exact List.pairwise_map.mpr (hpairwise.imp And.left)
    · exact List.pairwise_map.mpr (hpairwise.imp And.right)
  · have hnone : ∀ entries, files path ≠ some (.directory entries) :=
      fun entries hfound => hdirectory ⟨entries, hfound⟩
    rw [candidates_of_not_directory hnone]
    exact .itself hnone

/-- Directories that are listed in another way have the same candidates. -/
theorem candidates_of_relisted {others : Files} (h : OnDisk files)
    (hlisted : Option.Rel Relisted (files path) (others path)) :
    candidates others path = candidates files path := by
  generalize hfound : files path = found at hlisted
  generalize hother : others path = other at hlisted
  have hsame : found = other → candidates others path = candidates files path := by
    intro heq
    unfold candidates
    rw [hfound, hother, heq]
  cases hlisted with
  | none => exact hsame rfl
  | some hlisted =>
    rcases hlisted.cases_directory with rfl | ⟨entries, otherEntries, rfl, rfl⟩
    · exact hsame rfl
    · rw [candidates_of_directory hfound, candidates_of_directory hother,
        dataFiles_of_relisted (h.wellFormed hfound) hlisted]

/-! ## Loading what was found -/

/-- What has a format can be refused only for what it holds. -/
theorem loadFound_ne_unsupportedFormat {α : Type} [Loadable α] {format : Format}
    (h : Format.ofPath path = .ok format) (found : Option FileTree) (other : String) :
    (loadFound path found : Except Problem α) ≠ .error (.unsupportedFormat other) := by
  unfold loadFound
  rw [h]
  cases found.bind FileTree.text? with
  | none => nofun
  | some text => exact format.parse_ne_unsupportedFormat path text other

/-- **What is discovered below a directory has a format.** -/
theorem exists_format_of_mem_candidates (h : OnDisk files)
    (hfound : files path = some (.directory entries)) {c : Candidate}
    (hc : c ∈ candidates files path) : ∃ format, Format.ofPath c.path = .ok format := by
  have hformed : (FileTree.directory entries).WellFormed := h.wellFormed hfound
  rw [candidates_of_directory hfound] at hc
  obtain ⟨f, hf, rfl⟩ := List.mem_map.mp hc
  obtain ⟨names, name, content, held, hdata, rfl⟩ := (mem_dataFiles_iff_holds hformed).mp hf
  have hname : IsEntryName name := hformed.isEntryName held name (by simp)
  -- the name that the walk has asked about is the last step of the path
  have hlast : fileName? (candidateBelow path (names ++ [name], .file content)).path =
      some name := by
    show fileName? ((names ++ [name]).foldl join path) = some name
    rw [List.foldl_concat, fileName?_join hname]
  exact (Format.exists_ofPath_iff hlast).mpr hdata

/-- **No file below a directory is refused for its format**, whatever is then found at its path. -/
theorem load_ne_unsupportedFormat {α : Type} [Loadable α] (h : OnDisk files)
    (hfound : files path = some (.directory entries)) {c : Candidate}
    (hc : c ∈ candidates files path) (others : Files) (other : String) :
    (load others c.path : Except Problem α) ≠ .error (.unsupportedFormat other) := by
  obtain ⟨format, hformat⟩ := exists_format_of_mem_candidates h hfound hc
  exact loadFound_ne_unsupportedFormat hformat (others _) other

/-! ## All paths -/

/-- **Discovery is exact and ordered**: what is discovered are the candidates of one path after the
other, whatever order the directories list their entries in, and none that was found below a
directory is refused for its format. -/
structure ExactDiscovery (files : Files) (paths : List String) : Prop where
  exact : ∃ blocks, paths.flatMap (candidates files) = blocks.flatten ∧
    List.Forall₂ (StandsFor files) paths blocks
  relisted : ∀ others : Files,
    (∀ path ∈ paths, Option.Rel Relisted (files path) (others path)) →
      paths.flatMap (candidates others) = paths.flatMap (candidates files)
  supported : ∀ path ∈ paths, (∃ entries, files path = some (.directory entries)) →
    ∀ c ∈ candidates files path, ∀ (others : Files) (other : String),
      (load others c.path : Except Problem (Suite Value)) ≠ .error (.unsupportedFormat other)

/-- **Discovery is exact and ordered on every disk.** -/
theorem exact_discovery (files : Files) (h : OnDisk files) (paths : List String) :
    ExactDiscovery files paths where
  exact := by
    refine ⟨paths.map (candidates files), List.flatMap_def, ?_⟩
    apply List.forall₂_map_right_iff.mpr
    exact List.forall₂_same.mpr fun path _ => standsFor_candidates h path
  relisted := by
    intro others hlisted
    rw [List.flatMap_def, List.flatMap_def]
    refine congrArg List.flatten (List.map_congr_left fun path hpath => ?_)
    exact candidates_of_relisted h (hlisted path hpath)
  supported := by
    rintro path _ ⟨entries, hfound⟩ c hc others other
    exact load_ne_unsupportedFormat h hfound hc others other

/-- A directory with two data files, in an order that is not that of their characters, and with
entries that are none. One of the data files cannot be read, which the walk does not ask. -/
def suites : FileTree :=
  .directory
    [("a-b.json", .file none), (".json", .file (some ⟨#[]⟩)),
      ("a", .directory [("b.yml", .file (some ⟨#[]⟩))]), ("x.json", .directory []),
      ("notes.txt", .file (some ⟨#[]⟩))]

theorem wellFormed_suites : suites.WellFormed := by
  refine .directory (by decide) (by decide) ?_
  have hinner : (FileTree.directory [("b.yml", .file (some ⟨#[]⟩))]).WellFormed :=
    .directory (by decide) (by decide) (List.forall_mem_singleton.mpr (.file _))
  have hempty : (FileTree.directory []).WellFormed :=
    .directory (by decide) (by decide) (fun _ h => absurd h List.not_mem_nil)
  simp [WellFormed.file, hinner, hempty]

/-- **What is discovered by three paths**: of the directory the two data files, in the order of
their components; of the others themselves, whether there is such a file or not. -/
theorem exact_discovery_suites :
    OnDisk suites.find? ∧ ExactDiscovery suites.find? ["notes.txt", "./", "none.toml"] ∧
      (["notes.txt", "./", "none.toml"].flatMap (candidates suites.find?)).map Candidate.path =
        ["notes.txt", "./a/b.yml", "./a-b.json", "none.toml"] := by
  have hdisk : OnDisk suites.find? := onDisk_find? wellFormed_suites
  refine ⟨hdisk, exact_discovery suites.find? hdisk _, ?_⟩
  have hsorted : dataFiles suites =
      [(["a", "b.yml"], .file (some ⟨#[]⟩)), (["a-b.json"], .file none)] := by
    refine dataFiles_eq_of_perm wellFormed_suites (List.Perm.swap _ _ _) ?_
    decide
  have hdirectory : candidates suites.find? "./" = (dataFiles suites).map (candidateBelow "./") :=
    candidates_of_directory rfl
  rw [List.flatMap_cons, List.flatMap_cons, hdirectory, hsorted]
  rfl

end CommandLine

end Casewise
