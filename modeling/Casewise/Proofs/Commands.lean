import Casewise.CommandLine
import Casewise.Proofs.Building
import Casewise.Proofs.Discovery
import Casewise.Proofs.IndentedText
import Casewise.Proofs.RoundTrip

/-!
# Casewise.Proofs.Commands -- listing a suite and checking it agree

Two commands build the suite of a file. One lists the tests that are discovered in what was built,
line by line or as JSON; the other says how many names are bound there. Both count, and they count
different things: a bare function has a name and is not discovered.

They still come to the same number, because of what building leaves behind. Every function that is
added takes its name over as a bare function, and injecting its tests releases the name again, even
if there are no tests and whatever had the name before (`Suite.noneBare_addFunction`). So a suite
that builds binds tests alone, and where nothing is bare there are as many names as tests
(`NoneBare.size_eq`). The rest of `commands_agree` is about what is printed: the last line of the
listing, and the list that its JSON is read back as.
-/

namespace Casewise

open Text

variable {V R : Type}

/-! ## Nothing is left bare -/

namespace Namespace

/-- **A namespace of tests**: no name is bound to a bare function. -/
def NoneBare (ns : Namespace R) : Prop := ∀ name, ¬ ns.IsBare name

theorem noneBare_empty (modulePath : String) : (empty modulePath : Namespace R).NoneBare := by
  rintro name ⟨origin, hbound⟩
  rw [get?_empty] at hbound
  cases hbound

/-- Every name starts with nothing, so discovery from nothing drops no test. -/
theorem discoverFrom_empty (ns : Namespace R) :
    ns.discoverFrom "" = ns.bindings.entries.filterMap fun e => e.2.test? := by
  have hall : ns.bindings.entries.filter (fun e => "".toList.isPrefixOf e.1.toList) =
      ns.bindings.entries := List.filter_eq_self.mpr fun _ _ => rfl
  rw [discoverFrom, hall]

/-- **Where nothing is bare there are as many names as tests.** -/
theorem NoneBare.size_eq {ns : Namespace R} (h : ns.NoneBare) :
    ns.size = (ns.discoverFrom "").length := by
  have htest : ∀ e ∈ ns.bindings.entries, ∃ t, e.2.test? = some t := by
    rintro ⟨name, binding⟩ hmem
    have hbound : ns.get? name = some binding := NameMap.mem_entries_iff.mp hmem
    cases binding with
    | test t => exact ⟨t, rfl⟩
    | function origin => exact absurd ⟨origin, hbound⟩ (h name)
  rw [discoverFrom_empty, List.length_filterMap_eq_countP]
  refine (List.countP_eq_length.mpr ?_).symm
  intro e he
  obtain ⟨t, ht⟩ := htest e he
  rw [ht]
  rfl

end Namespace

namespace Suite

variable [Cell V] {module : String} {ns next final : Namespace Unit} {f : FunctionEntry V}
  {functions : List (FunctionEntry V)}

/-- Adding a function leaves nothing bare: its own name is free again, whatever had it. -/
theorem noneBare_addFunction (h : ns.NoneBare)
    (hadd : (addFunction module ns f).outcome = .ok next) : next.NoneBare := by
  obtain ⟨e, hexpand, _, rfl⟩ := outcome_addFunction_eq_ok_iff.mp hadd
  rintro name ⟨origin, hbound⟩
  rw [get?_added hexpand] at hbound
  -- what is bound now is a test of the function, or it was bound before under another name
  cases hget : e.get? name with
  | some t =>
    rw [hget] at hbound
    cases hbound
  | none =>
    rw [hget] at hbound
    by_cases hname : name = f.name
    · rw [if_pos hname] at hbound
      cases hbound
    · rw [if_neg hname] at hbound
      exact h name ⟨origin, hbound⟩

theorem noneBare_addFunctions (h : ns.NoneBare)
    (hadd : (addFunctions module ns functions).outcome = .ok final) : final.NoneBare := by
  induction functions generalizing ns with
  | nil =>
    obtain rfl := Except.ok.inj hadd
    exact h
  | cons f rest ih =>
    obtain ⟨next, hfirst, hrest⟩ := outcome_addFunctions_cons_eq_ok_iff.mp hadd
    exact ih (noneBare_addFunction h hfirst) hrest

/-- **What a suite builds binds tests alone.** -/
theorem noneBare_of_build {s : Suite V} (h : s.build.outcome = .ok ns) : ns.NoneBare :=
  noneBare_addFunctions (Namespace.noneBare_empty s.module) h

end Suite

/-! ## What is listed -/

/-- **The last line of a text**, at whose end the text ends. -/
def LastLine (text line : String) : Prop :=
  '\n' ∉ line.toList ∧
    ∃ before, text.toList = before ++ (line.toList ++ ['\n']) ∧
      ∀ c, before.getLast? = some c → c = '\n'

namespace TestCase

variable (t : TestCase R)

theorem getLast?_chars_line (coloured : Bool) :
    (Styled.chars coloured t.line).getLast? = some '\n' := by
  have hend : Styled.chars coloured [.plain ("  " ++ t.arguments ++ "\n")] =
      ("  " ++ t.arguments).toList ++ ['\n'] := by
    simp [Styled.chars, Span.chars, Span.plain]
  rw [line, Styled.chars_append, hend, ← List.append_assoc, List.getLast?_concat]

/-- There are no numbers in what a JSON listing tells about a test. -/
theorem isIntegral_datum : t.datum.isIntegral = true := by
  rw [datum, Datum.isIntegral_table_iff]
  cases t.dataSet with
  | none => simp [Datum.isIntegral]
  | some dataSet => simp

theorem depth_datum_le : t.datum.depth ≤ 1 := by
  rw [datum, Datum.depth_table_le_iff]
  cases t.dataSet with
  | none => simp [Datum.depth]
  | some dataSet => simp

end TestCase

namespace Listing

variable (tests : List (TestCase R)) (coloured : Bool)

/-- **The last line of a listing counts the tests**, in colours or without. -/
theorem lastLine_ofTests :
    LastLine ((ofTests tests).render coloured)
      (toString tests.length ++ " test(s) generated") := by
  refine ⟨?_, Styled.chars coloured (tests.flatMap TestCase.line), ?_, ?_⟩
  · intro hmem
    rw [String.toList_append, List.mem_append, Nat.toString_eq_ofList_toDigits,
      String.toList_ofList] at hmem
    rcases hmem with hdigit | htext
    · exact absurd (Nat.isDigit_of_mem_toDigits (by decide) (by decide) hdigit) (by decide)
    · exact absurd htext (by decide)
  · rw [Styled.render, String.toList_ofList, ofTests, Styled.chars_append]
    simp [Styled.chars, Span.chars, Span.plain]
  · intro c hlast
    -- what stands before is nothing, or ends with the line of the last test
    rcases List.eq_nil_or_concat tests with rfl | ⟨front, last, rfl⟩
    · cases hlast
    · rw [List.concat_eq_append, List.flatMap_append, List.flatMap_singleton, Styled.chars_append,
        List.getLast?_append, last.getLast?_chars_line] at hlast
      exact (Option.some.inj hlast).symm

/-- **A JSON listing is read back**: a list that tells about one test after the other. -/
theorem parse?_jsonOfTests :
    Json.parse? ((jsonOfTests tests).render coloured) =
      some (.list (tests.map TestCase.datum)) := by
  have hrender : (jsonOfTests tests).render coloured =
      String.ofList (Json.writeIndented 0 (.list (tests.map TestCase.datum))) ++ "\n" := by
    simp [jsonOfTests, Styled.render, Styled.chars, Span.chars, Span.plain]
  have hdepth : (Datum.list (tests.map TestCase.datum)).depth ≤ 2 := by
    rw [Datum.depth_list_le_iff, List.forall_mem_map]
    exact ⟨by decide, fun t _ => t.depth_datum_le⟩
  rw [hrender]
  refine Json.parse?_writeIndented ?_ (Nat.le_trans hdepth (by decide))
  rw [Datum.isIntegral_list_iff, List.forall_mem_map]
  exact fun t _ => t.isIntegral_datum

end Listing

namespace CommandLine

/-! ## Command lines -/

/-- An argument that does not start with a dash is a word. -/
theorem pieces_cons_of_word {word : String} (h : word.toList.head? ≠ some '-')
    (rest : List String) : pieces (word :: rest) = .word word :: pieces rest := by
  have hword : Piece.ofArgument word = [.word word] := by
    unfold Piece.ofArgument
    -- a switch of either kind would start with a dash
    split
    · rename_i heq
      rw [heq] at h
      exact absurd rfl h
    · rename_i heq
      rw [heq] at h
      exact absurd rfl h
    · rfl
  have hmark : word ≠ "--" := by
    rintro rfl
    exact h rfl
  rw [pieces, hword, List.singleton_append]
  exact hmark

section Lines

variable {path : String} (hne : path ≠ "") (hdash : path.toList.head? ≠ some '-')

include hne hdash

theorem parse?_expand : parse? ["expand", path] = some ⟨false, .expand path false⟩ := by
  have hpieces : pieces ["expand", path] = [.word "expand", .word path] := by
    rw [pieces_cons_of_word (by decide), pieces_cons_of_word hdash, pieces]
  rw [parse?, hpieces]
  simp [parsePieces?, parseExpand?, Invocation.orVerbose, hne]

/-- The switch may stand before the path or after it. -/
theorem parse?_expand_json {line : List String}
    (hline : line ∈ [["expand", path, "--json"], ["expand", "--json", path]]) :
    parse? line = some ⟨false, .expand path true⟩ := by
  have hswitch : ∀ rest, pieces ("--json" :: rest) = .switch .json :: pieces rest := fun _ => rfl
  simp only [List.mem_cons, List.not_mem_nil, or_false] at hline
  rcases hline with rfl | rfl
  · have hpieces : pieces ["expand", path, "--json"] =
        [.word "expand", .word path, .switch .json] := by
      rw [pieces_cons_of_word (by decide), pieces_cons_of_word hdash, hswitch, pieces]
    rw [parse?, hpieces]
    simp [parsePieces?, parseExpand?, Invocation.orVerbose, hne]
  · have hpieces : pieces ["expand", "--json", path] =
        [.word "expand", .switch .json, .word path] := by
      rw [pieces_cons_of_word (by decide), hswitch, pieces_cons_of_word hdash, pieces]
    rw [parse?, hpieces]
    simp [parsePieces?, parseExpand?, Invocation.orVerbose, hne]

theorem parse?_check : parse? ["check", path] = some ⟨false, .check [path]⟩ := by
  have hpieces : pieces ["check", path] = [.word "check", .word path] := by
    rw [pieces_cons_of_word (by decide), pieces_cons_of_word hdash, pieces]
  rw [parse?, hpieces]
  simp [parsePieces?, parseCheck?, Invocation.orVerbose, hne]

end Lines

/-! ## Runs -/

/-- A run after one that did nothing. -/
theorem Run.append_printing_nil (r : Run) : Run.append (.printing []) r = r := by
  simp [append, printing]

/-- Checking what is not a directory checks that file alone. -/
theorem checkPaths_singleton {files : Files} {path : String}
    (hfile : ∀ entries, files path ≠ some (.directory entries)) :
    checkPaths files [path] = checkFile ⟨path, files path⟩ := by
  rw [checkPaths, List.flatMap_singleton, candidates_of_not_directory hfile]
  exact Run.append_printing_nil _

section Building

variable {files : Files} {path : String} {found : Option FileTree} {ns : Namespace Unit}
  {problem : Problem}

/-- What was built of a file binds tests alone. -/
theorem noneBare_of_buildFile (h : (buildFile path found).outcome = .ok ns) : ns.NoneBare := by
  obtain ⟨suite, _, hbuilt⟩ := Report.outcome_bind_eq_ok_iff.mp h
  exact Suite.noneBare_of_build hbuilt

theorem expandFile_of_ok (h : (buildFile path (files path)).outcome = .ok ns) (json : Bool) :
    expandFile files path json =
      ⟨0, if json then Listing.jsonOfTests (ns.discoverFrom "") else
        Listing.ofTests (ns.discoverFrom ""), [], (buildFile path (files path)).warnings⟩ := by
  unfold expandFile
  simp only [h]

theorem expandFile_of_error (h : (buildFile path (files path)).outcome = .error problem)
    (json : Bool) :
    expandFile files path json = ⟨1, [], [problem], (buildFile path (files path)).warnings⟩ := by
  unfold expandFile
  simp only [h]

theorem checkFile_of_ok (h : (buildFile path found).outcome = .ok ns) :
    checkFile ⟨path, found⟩ =
      ⟨0, Listing.statusLine path (.ok ns.size), [], (buildFile path found).warnings⟩ := by
  unfold checkFile
  simp only [h]

theorem checkFile_of_error (h : (buildFile path found).outcome = .error problem) :
    checkFile ⟨path, found⟩ =
      ⟨1, Listing.statusLine path (.error problem), [problem],
        (buildFile path found).warnings⟩ := by
  unfold checkFile
  simp only [h]

end Building

/-! ## Agreement -/

/-- **Two listings and a check of a file agree.** -/
structure Agree (path : String) (expanded listed checked : Run) : Prop where
  /-- All go well or none does. -/
  status : (expanded.status = 0 ↔ checked.status = 0) ∧ (listed.status = 0 ↔ checked.status = 0)
  /-- If they fail they report the same one problem, and nothing is listed. -/
  failure : checked.status ≠ 0 → ∃ problem, checked.problems = [problem] ∧
    (expanded.problems = [problem] ∧ expanded.output = []) ∧
    listed.problems = [problem] ∧ listed.output = []
  /-- If they go well they count the same. -/
  success : checked.status = 0 → ∃ count : Nat,
    checked.output = [.plain (path ++ ": "), ⟨some ⟨.green, true⟩, "ok"⟩,
      .plain (" (" ++ toString count ++ " test(s))\n")] ∧
    ∀ coloured,
      LastLine (expanded.output.render coloured) (toString count ++ " test(s) generated") ∧
      ∃ items, Json.parse? (listed.output.render coloured) = some (.list items) ∧
        items.length = count

/-- The commands agree on whatever is found at a path. -/
theorem agree_files (files : Files) (path : String) :
    Agree path (expandFile files path false) (expandFile files path true)
      (checkFile ⟨path, files path⟩) := by
  cases hbuilt : (buildFile path (files path)).outcome with
  | error problem =>
    rw [expandFile_of_error hbuilt, expandFile_of_error hbuilt, checkFile_of_error hbuilt]
    exact ⟨⟨Iff.rfl, Iff.rfl⟩, fun _ => ⟨problem, rfl, ⟨rfl, rfl⟩, rfl, rfl⟩,
      fun hstatus => absurd hstatus Nat.one_ne_zero⟩
  | ok ns =>
    have hcount : ns.size = (ns.discoverFrom "").length := (noneBare_of_buildFile hbuilt).size_eq
    rw [expandFile_of_ok hbuilt, expandFile_of_ok hbuilt, checkFile_of_ok hbuilt, hcount]
    refine ⟨⟨Iff.rfl, Iff.rfl⟩, fun hstatus => absurd rfl hstatus, fun _ => ?_⟩
    refine ⟨(ns.discoverFrom "").length, rfl, fun coloured => ⟨?_, ?_⟩⟩
    · exact Listing.lastLine_ofTests (ns.discoverFrom "") coloured
    · exact ⟨_, Listing.parse?_jsonOfTests (ns.discoverFrom "") coloured, List.length_map _⟩

/-- **The two commands agree on every file.** -/
theorem commands_agree (files : Files) (path : String) (hne : path ≠ "")
    (hdash : path.toList.head? ≠ some '-')
    (hfile : ∀ entries, files path ≠ some (.directory entries)) :
    (∀ line ∈ [["expand", path, "--json"], ["expand", "--json", path]],
      Agree path (run files ["expand", path]) (run files line) (run files ["check", path])) ∧
    ∀ (V : Type) [Cell V] (s : Suite V) (ns : Namespace Unit),
      s.build.outcome = .ok ns → ∀ name, ¬ ns.IsBare name := by
  refine ⟨?_, fun V _ s ns hbuilt => Suite.noneBare_of_build hbuilt⟩
  intro line hline
  have hexpand : run files ["expand", path] = expandFile files path false := by
    rw [run, parse?_expand hne hdash]
    rfl
  have hlist : run files line = expandFile files path true := by
    rw [run, parse?_expand_json hne hdash hline]
    rfl
  have hcheck : run files ["check", path] = checkFile ⟨path, files path⟩ := by
    rw [run, parse?_check hne hdash]
    exact checkPaths_singleton hfile
  rw [hexpand, hlist, hcheck]
  exact agree_files files path

/-- What a file holds whose bytes are those of a text is read from the text. -/
theorem loadFound_toUTF8 {α : Type} [Loadable α] {path : String} {format : Format}
    (hformat : Format.ofPath path = .ok format) (text : String) :
    loadFound path (some (.file (some text.toUTF8))) =
      (format.parse path text : Except Problem α) := by
  have htext : FileTree.text? (.file (some text.toUTF8)) = some text :=
    dif_pos text.isValidUTF8
  rw [loadFound, hformat]
  simp only [Option.bind_some, htext]
  rfl

/-- Two functions, the second named like the first test of the first and without data sets: it
takes the name over and leaves nothing under it. -/
def takenOver : Suite Value where
  module := "m"
  functions :=
    [⟨"f", none, ["x"],
      ⟨[("a", .positional [default]), ("b", .positional [⟨.int 2, rfl⟩])]⟩, false⟩,
      ⟨"f_a", none, [], ⟨[]⟩, false⟩]

/-- Nothing but a file that holds this suite. -/
def takenOverFile : Files := fun path =>
  if path = "s.json" then some (.file (some (Json.textOf takenOver.write).toUTF8)) else none

theorem outcome_buildFile_takenOver :
    (buildFile "s.json" (takenOverFile "s.json")).outcome = takenOver.build.outcome := by
  have hintegral : ∀ v ∈ takenOver.cells, v.datum.isIntegral = true := by decide
  have hparse : Format.json.parse "s.json" (Json.textOf takenOver.write) = .ok takenOver :=
    parse_json_textOf (Suite.read?_write Cell.kept_value takenOver)
      (Suite.isIntegral_write_iff.mpr hintegral) (by decide) "s.json"
  have hload : (Report.ofExcept (loadFound "s.json" (takenOverFile "s.json"))).outcome =
      .ok takenOver := by
    rw [Report.outcome_ofExcept, ← hparse]
    exact loadFound_toUTF8 (by decide) _
  rw [buildFile, Report.outcome_bind_of_ok hload]

/-- One test of the suite is left, and it is counted as one by either command; a file that is not
there fails under either. -/
theorem takenOver_commands_agree :
    (∀ entries, takenOverFile "s.json" ≠ some (.directory entries)) ∧
    Agree "s.json" (run takenOverFile ["expand", "s.json"])
      (run takenOverFile ["expand", "--json", "s.json"])
      (run takenOverFile ["check", "s.json"]) ∧
    (run takenOverFile ["check", "s.json"]).output = Listing.statusLine "s.json" (.ok 1) ∧
    (∀ entries, takenOverFile "t.json" ≠ some (.directory entries)) ∧
    Agree "t.json" (run takenOverFile ["expand", "t.json"])
      (run takenOverFile ["expand", "t.json", "--json"])
      (run takenOverFile ["check", "t.json"]) ∧
    (run takenOverFile ["check", "t.json"]).problems = [.unreadableFile "t.json"] := by
  have hfile : ∀ entries, takenOverFile "s.json" ≠ some (.directory entries) := by
    intro entries hfound
    cases hfound
  have hmissing : ∀ entries, takenOverFile "t.json" ≠ some (.directory entries) := by
    intro entries hfound
    cases hfound
  have hagree := (commands_agree takenOverFile "s.json" (by decide) (by decide) hfile).1
  have hfails := (commands_agree takenOverFile "t.json" (by decide) (by decide) hmissing).1
  refine ⟨hfile, hagree _ (.tail _ List.mem_cons_self), ?_, hmissing,
    hfails _ List.mem_cons_self, rfl⟩
  obtain ⟨ns, hbuilt, hsize⟩ : ∃ ns, takenOver.build.outcome = .ok ns ∧ ns.size = 1 :=
    ⟨_, rfl, rfl⟩
  rw [run, parse?_check (by decide) (by decide)]
  show (checkPaths takenOverFile ["s.json"]).output = _
  rw [checkPaths_singleton hfile, checkFile_of_ok (outcome_buildFile_takenOver.trans hbuilt), hsize]

end CommandLine

end Casewise
