import Casewise.Proofs.Commands
import Casewise.Proofs.DataFiles

/-!
# Casewise.Proofs.Checking -- every file is judged on its own

Checking goes through the discovered files one after the other, and what it says of a file is its
verdict: the number of names that its suite binds, or the problem that it could not be built for.
A verdict asks about one file alone, and a bad file ends nothing. So what a check prints and
reports is read off the list of verdicts (`judgesEach_checkAll`), and it went well if all of them
are good.

Runs that follow each other form a monoid (`Run.append_assoc`, `Run.append_printing_nil`), and
checking takes concatenation to it (`checkAll_append`): a check of more paths is one check after
the other.

Where the disk is consistent, a file that was found by walking is the one that is found under its
path, and its verdict is that of loading it from there (`verdict_eq_judge`). The walk asks for names
alone, so it also finds files that cannot be read, and these fail like any others
(`verdict_of_not_text`).
-/

namespace Casewise

open Text

namespace CommandLine

/-! ## Verdicts -/

/-- **What becomes of a suite that was loaded or not**: the number of names that it binds, or the
problem. -/
def judge (loaded : Except Problem (Suite Value)) : Except Problem Nat :=
  (loaded.bind fun suite => suite.build.outcome).map Namespace.size

namespace Candidate

/-- **The verdict on one file.** -/
def verdict (c : Candidate) : Except Problem Nat := judge (loadFound c.path c.found)

/-- The problem of a file that fails. -/
def problem? (c : Candidate) : Option Problem :=
  match c.verdict with
  | .ok _ => none
  | .error p => some p

theorem problem?_eq_none_iff {c : Candidate} :
    c.problem? = none ↔ ∃ count, c.verdict = .ok count := by
  unfold problem?
  cases c.verdict <;> simp

theorem verdict_eq (c : Candidate) :
    c.verdict = (buildFile c.path c.found).outcome.map Namespace.size := by
  have hbuild : (buildFile c.path c.found).outcome =
      (loadFound c.path c.found : Except Problem (Suite Value)).bind fun s => s.build.outcome := by
    unfold buildFile
    cases (loadFound c.path c.found : Except Problem (Suite Value)) <;> rfl
  rw [verdict, judge, hbuild]

end Candidate

/-- The line of a status as it is printed without colours. -/
def statusText (path : String) : Except Problem Nat → String
  | .ok count => path ++ ": ok (" ++ toString count ++ " test(s))\n"
  | .error _ => path ++ ": FAILED\n"

theorem render_statusLine (path : String) (verdict : Except Problem Nat) :
    Styled.chars false (Listing.statusLine path verdict) = (statusText path verdict).toList := by
  rw [Styled.chars_false]
  cases verdict with
  | ok count => simp [Listing.statusLine, statusText, Span.plain]
  | error p => simp [Listing.statusLine, statusText, Span.plain]

/-- **Checking a file says its verdict**, and reports its problem if it has one. -/
theorem checkFile_eq (c : Candidate) :
    checkFile c = ⟨if c.problem?.isSome then 1 else 0, Listing.statusLine c.path c.verdict,
      c.problem?.toList, (buildFile c.path c.found).warnings⟩ := by
  have hverdict := c.verdict_eq
  cases hbuilt : (buildFile c.path c.found).outcome with
  | ok ns =>
    rw [hbuilt] at hverdict
    rw [Candidate.problem?, hverdict]
    exact checkFile_of_ok hbuilt
  | error p =>
    rw [hbuilt] at hverdict
    rw [Candidate.problem?, hverdict]
    exact checkFile_of_error hbuilt

/-! ## One run after the other -/

namespace Run

theorem append_nil_printing (r : Run) : Run.append r (.printing []) = r := by
  simp [append, printing]

theorem append_assoc (a b c : Run) : (a.append b).append c = a.append (b.append c) := by
  simp [append, Nat.max_assoc]

/-- What went before stands before all that follows. -/
theorem foldl_append (start : Run) (runs : List Run) :
    runs.foldl append start = start.append (runs.foldl append (.printing [])) := by
  induction runs generalizing start with
  | nil => exact (append_nil_printing start).symm
  | cons r rest ih =>
    rw [List.foldl_cons, ih, List.foldl_cons, ih (append (.printing []) r), append_printing_nil,
      append_assoc]

theorem status_append_eq_zero_iff {a b : Run} :
    (a.append b).status = 0 ↔ a.status = 0 ∧ b.status = 0 := by
  show max a.status b.status = 0 ↔ _
  omega

end Run

/-- **Checks files** one after the other. -/
def checkAll (found : List Candidate) : Run :=
  (found.map checkFile).foldl Run.append (.printing [])

theorem checkAll_cons (c : Candidate) (rest : List Candidate) :
    checkAll (c :: rest) = (checkFile c).append (checkAll rest) := by
  rw [checkAll, List.map_cons, List.foldl_cons, Run.append_printing_nil, Run.foldl_append]
  rfl

/-- **Checking more files is one check after the other.** -/
theorem checkAll_append (a b : List Candidate) :
    checkAll (a ++ b) = (checkAll a).append (checkAll b) := by
  rw [checkAll, List.map_append, List.foldl_append, Run.foldl_append]
  rfl

/-- **Every file is judged on its own**: there is one entry for each file, in order, and it says
the verdict on that file; the problems are those of the files that fail; and the status is bad just
if there are any. -/
structure JudgesEach (found : List Candidate) (run : Run) : Prop where
  output : run.output = found.flatMap fun c => Listing.statusLine c.path c.verdict
  text : run.output.render false = String.join (found.map fun c => statusText c.path c.verdict)
  problems : run.problems = found.filterMap Candidate.problem?
  good : run.status = 0 ↔ ∀ c ∈ found, ∃ count, c.verdict = .ok count
  bad : run.status ≠ 0 → run.status = 1

theorem output_checkAll (found : List Candidate) :
    (checkAll found).output = found.flatMap fun c => Listing.statusLine c.path c.verdict := by
  induction found with
  | nil => rfl
  | cons c rest ih =>
    rw [checkAll_cons, checkFile_eq, List.flatMap_cons, ← ih]
    rfl

theorem problems_checkAll (found : List Candidate) :
    (checkAll found).problems = found.filterMap Candidate.problem? := by
  induction found with
  | nil => rfl
  | cons c rest ih =>
    rw [checkAll_cons, checkFile_eq, List.filterMap_cons, ← ih]
    cases c.problem? <;> rfl

theorem status_checkAll (found : List Candidate) :
    (checkAll found).status = if (found.filterMap Candidate.problem?).isEmpty then 0 else 1 := by
  induction found with
  | nil => rfl
  | cons c rest ih =>
    rw [checkAll_cons, checkFile_eq, List.filterMap_cons]
    show max _ (checkAll rest).status = _
    rw [ih]
    cases c.problem? with
    | none => simp
    | some p => cases (rest.filterMap Candidate.problem?) <;> simp

theorem judgesEach_checkAll (found : List Candidate) : JudgesEach found (checkAll found) := by
  refine ⟨output_checkAll found, ?_, problems_checkAll found, ?_, ?_⟩
  · rw [output_checkAll, Styled.render, ← String.toList_inj, String.toList_ofList,
      String.toList_join, List.flatMap_map, Styled.chars, List.flatMap_assoc]
    exact List.flatMap_congr fun c _ => render_statusLine c.path c.verdict
  · have hnone : (found.filterMap Candidate.problem?).isEmpty = true ↔
        ∀ c ∈ found, c.problem? = none := by
      rw [List.isEmpty_iff, List.filterMap_eq_nil_iff]
    simp only [← Candidate.problem?_eq_none_iff]
    rw [status_checkAll, ← hnone]
    split <;> simp_all
  · rw [status_checkAll]
    split
    · exact fun h => absurd rfl h
    · exact fun _ => rfl

/-! ## The file under a path -/

/-- **A consistent disk**: an entry of a directory is found under the path of the directory with
the name of the entry joined to it. -/
def Consistent (files : Files) : Prop :=
  ∀ path entries name inner, files path = some (.directory entries) → (name, inner) ∈ entries →
    files (Path.join path name) = some inner

theorem consistent_find? {tree : FileTree} (h : tree.WellFormed) : Consistent tree.find? := by
  intro path entries name inner hfound entry
  have hformed : (FileTree.directory entries).WellFormed := h.of_find? hfound
  cases hformed with
  | directory distinct named _ =>
    rw [FileTree.find?_join hfound (named _ entry)]
    exact (FileTree.lookup_eq_some_iff distinct).mpr entry

variable {files : Files}

/-- What a directory holds is found behind its path. -/
theorem Consistent.foldl_join (h : Consistent files) {tree held : FileTree} {names : List String}
    (hheld : tree.Holds names held) {path : String} (hfound : files path = some tree) :
    files (names.foldl Path.join path) = some held := by
  induction hheld generalizing path with
  | here => exact hfound
  | inside entry _ ih => exact ih (h _ _ _ _ hfound entry)

/-- **On a consistent disk a file is what is found under its path**, however it was discovered. -/
theorem Consistent.found_eq (h : Consistent files) {path : String} {c : Candidate}
    (hc : c ∈ candidates files path) : c.found = files c.path := by
  by_cases hdirectory : ∃ entries, files path = some (.directory entries)
  · obtain ⟨entries, hfound⟩ := hdirectory
    rw [candidates_of_directory hfound] at hc
    obtain ⟨f, hf, rfl⟩ := List.mem_map.mp hc
    obtain ⟨held, _⟩ := FileTree.mem_files_iff.mp (mem_dataFiles_iff.mp hf).1
    exact (h.foldl_join held hfound).symm
  · rw [candidates_of_not_directory fun entries hfound => hdirectory ⟨entries, hfound⟩] at hc
    obtain rfl := List.mem_singleton.mp hc
    rfl

theorem verdict_eq_judge (h : Consistent files) {paths : List String} {c : Candidate}
    (hc : c ∈ paths.flatMap (candidates files)) : c.verdict = judge (load files c.path) := by
  obtain ⟨path, _, hmem⟩ := List.mem_flatMap.mp hc
  rw [Candidate.verdict, h.found_eq hmem]
  rfl

/-- **A file that is found by walking and holds no text fails for that**, whether it cannot be read
or its bytes are not well formed. -/
theorem verdict_of_not_text (h : OnDisk files) {path : String}
    {entries : List (String × FileTree)} (hfound : files path = some (.directory entries))
    {c : Candidate} (hc : c ∈ candidates files path)
    (hcontent : c.found.bind FileTree.text? = none) :
    c.verdict = .error (.unreadableFile c.path) := by
  -- its name has been asked about before, so its format is not what it fails for
  obtain ⟨format, hformat⟩ := exists_format_of_mem_candidates h hfound hc
  rw [Candidate.verdict, loadFound, hformat]
  simp only [hcontent]
  rfl

/-! ## Checking paths -/

/-- **What a check of two lists of paths comes to** next to the checks of either. -/
structure Concatenates (a b both : Run) : Prop where
  output : ∀ coloured,
    both.output.render coloured = a.output.render coloured ++ b.output.render coloured
  codes : both.problems.map Problem.code =
    a.problems.map Problem.code ++ b.problems.map Problem.code
  status : both.status = 0 ↔ a.status = 0 ∧ b.status = 0

theorem Run.concatenates_append (a b : Run) : Concatenates a b (a.append b) where
  output coloured := by
    show String.ofList (Styled.chars coloured (a.output ++ b.output)) = _
    rw [Styled.chars_append, String.ofList_append]
    rfl
  codes := List.map_append
  status := Run.status_append_eq_zero_iff

/-- **A check judges every file on its own.** Whatever is found, it says its verdict on each
discovered file, in the order of discovery, and goes well just if all of them are good; so a check
of two lists of paths is the check of the first and then that of the second. On a consistent disk
the verdict on a file is that of loading and building what is found under its path. -/
theorem check_judges_each (files : Files) :
    (∀ paths : List String,
      JudgesEach (paths.flatMap (candidates files)) (checkPaths files paths)) ∧
    (∀ a b : List String,
      Concatenates (checkPaths files a) (checkPaths files b) (checkPaths files (a ++ b))) ∧
    (Consistent files → ∀ paths : List String, ∀ c ∈ paths.flatMap (candidates files),
      c.verdict = judge (load files c.path)) := by
  refine ⟨fun paths => judgesEach_checkAll _, ?_, fun h paths c hc => verdict_eq_judge h hc⟩
  intro a b
  have happend : checkPaths files (a ++ b) = (checkPaths files a).append (checkPaths files b) := by
    show checkAll ((a ++ b).flatMap (candidates files)) = _
    rw [List.flatMap_append, checkAll_append]
    rfl
  rw [happend]
  exact Run.concatenates_append _ _

/-- In a directory and beside it: what is walked to is judged by what is found under its path. -/
theorem suites_judged_each :
    Consistent suites.find? ∧
    JudgesEach (["./", "none.toml"].flatMap (candidates suites.find?))
      (checkPaths suites.find? ["./", "none.toml"]) ∧
    ∀ c ∈ ["./", "none.toml"].flatMap (candidates suites.find?),
      c.verdict = judge (load suites.find? c.path) := by
  have hconsistent : Consistent suites.find? := consistent_find? wellFormed_suites
  obtain ⟨heach, _, halone⟩ := check_judges_each suites.find?
  exact ⟨hconsistent, heach _, halone hconsistent _⟩

/-- Neither of the bad files stops the check, and the good one between them does not make up for
them. The first is there and cannot be read, the last is not there. -/
example :
    let files : Files := fun path =>
      if path = "t.json" then some (.file none)
      else if path = "s.json" then some (.file (some "\x7b\"module\": \"m\"\x7d".toUTF8))
      else none
    let checked := checkPaths files ["t.json", "s.json", "u.toml"]
    checked.output.render false =
        "t.json: FAILED\ns.json: ok (0 test(s))\nu.toml: FAILED\n" ∧
      checked.problems = [.unreadableFile "t.json", .unsupportedFormat "u.toml"] ∧
      checked.status = 1 := by
  decide +kernel

end CommandLine

end Casewise
