import Casewise.Proofs.Commands
import Casewise.Proofs.Printable

/-!
# Casewise.Proofs.Listings -- three listings of the same tests

The tests of a suite are listed in three forms: line by line, the same in colours, and as JSON.
Each form is written for a reader of its own, and none of them is written with the others in mind.
`Suite.Listings` says that they carry the same data: there is one list of functions, data sets and
arguments from which the lines and the JSON can both be told, and it has an entry for each name
that the suite binds.

That a text has as many lines as were written takes something of what stands on the lines. The
names are identifiers and fragments, since every test that is found was generated
(`Suite.generated_of_addFunctions`), and arguments are printable whatever they hold. Only the path
of the module is not checked by anyone. That colours can be taken away again takes the same: what
is no control is no part of a colour sequence (`Styled.withoutColours_render`).
-/

namespace Casewise

open Text Identifier

/-! ## Colours taken away -/

namespace Text

/-- A digit or a semicolon: what stands in a colour sequence before the letter that ends it. -/
def isCode (c : Char) : Bool := c.isDigit || c == ';'

/-- **The length of the colour sequence that a text starts with**: an escape, a bracket, any codes
and an `m`. It is zero if the text starts with none. -/
def sequenceLength : List Char → Nat
  | '\x1b' :: '[' :: rest =>
    match rest.dropWhile isCode with
    | 'm' :: _ => (rest.takeWhile isCode).length + 3
    | _ => 0
  | _ => 0

/-- A text without its colour sequences, the first `passed` characters being passed over. -/
def bareChars : Nat → List Char → List Char
  | _, [] => []
  | passed + 1, _ :: rest => bareChars passed rest
  | 0, c :: rest =>
    match sequenceLength (c :: rest) with
    | 0 => c :: bareChars 0 rest
    | passed + 1 => bareChars passed rest

/-- **A text without its colour sequences.** -/
def withoutColours (text : String) : String := String.ofList (bareChars 0 text.toList)

theorem bareChars_length_append (cs rest : List Char) :
    bareChars cs.length (cs ++ rest) = bareChars 0 rest := by
  induction cs with
  | nil => rfl
  | cons c cs ih => exact ih

theorem sequenceLength_control {code : List Char} (h : code.all isCode = true)
    (rest : List Char) : sequenceLength (control code ++ rest) = (control code).length := by
  rw [List.all_eq_true] at h
  have htext : control code ++ rest = '\x1b' :: '[' :: (code ++ 'm' :: rest) := by
    simp [control]
  have hm : isCode 'm' = false := by decide
  have hdrop : (code ++ 'm' :: rest).dropWhile isCode = 'm' :: rest := by
    rw [List.dropWhile_append_of_pos h, List.dropWhile_cons_of_neg (by simp [hm])]
  have htake : (code ++ 'm' :: rest).takeWhile isCode = code := by
    rw [List.takeWhile_append_of_pos h, List.takeWhile_cons_of_neg (by simp [hm]),
      List.append_nil]
  rw [htext]
  simp only [sequenceLength, hdrop, htake]
  simp [control]

/-- A colour sequence is left out. -/
theorem bareChars_control {code : List Char} (h : code.all isCode = true)
    (rest : List Char) : bareChars 0 (control code ++ rest) = bareChars 0 rest := by
  have hlength := sequenceLength_control h rest
  rw [control, List.cons_append] at hlength ⊢
  rw [bareChars, hlength]
  exact bareChars_length_append _ rest

/-- What holds no escape is kept. -/
theorem bareChars_append {cs : List Char} (h : '\x1b' ∉ cs) (rest : List Char) :
    bareChars 0 (cs ++ rest) = cs ++ bareChars 0 rest := by
  induction cs with
  | nil => rfl
  | cons c cs ih =>
    obtain ⟨hc, hcs⟩ := List.ne_and_not_mem_of_not_mem_cons h
    -- no colour sequence starts without an escape
    have hlength : sequenceLength (c :: (cs ++ rest)) = 0 := by
      unfold sequenceLength
      split
      · rename_i heq
        exact absurd (List.cons.inj heq).1 hc.symm
      · rfl
    rw [List.cons_append, bareChars, hlength, List.cons_append, ih hcs]

theorem Style.bareChars_opening (style : Style) (rest : List Char) :
    bareChars 0 (style.opening ++ rest) = bareChars 0 rest := by
  have hcolour : bareChars 0 (style.colour.sequence ++ rest) = bareChars 0 rest := by
    cases style.colour <;> exact bareChars_control (by decide) rest
  rw [opening, reset, List.append_assoc, List.append_assoc, bareChars_control (by decide)]
  split
  · rw [bareChars_control (by decide), hcolour]
  · exact hcolour

/-- Of a span its text is left. -/
theorem Span.bareChars_chars {span : Span} (h : '\x1b' ∉ span.text.toList) (rest : List Char) :
    bareChars 0 (span.chars true ++ rest) = span.chars false ++ bareChars 0 rest := by
  unfold chars
  cases span.style with
  | none => exact bareChars_append h rest
  | some style =>
    simp only [if_true, List.append_assoc]
    rw [style.bareChars_opening, bareChars_append h, Style.reset, bareChars_control (by decide)]
    rfl

/-- **Without its colours a coloured text is the plain one**, if nobody has written an escape into
it. -/
theorem Styled.withoutColours_render {spans : Styled}
    (h : ∀ span ∈ spans, '\x1b' ∉ span.text.toList) :
    withoutColours (spans.render true) = spans.render false := by
  have hchars : bareChars 0 (Styled.chars true spans) = Styled.chars false spans := by
    induction spans with
    | nil => rfl
    | cons span spans ih =>
      obtain ⟨hspan, hlater⟩ := List.forall_mem_cons.mp h
      rw [Styled.chars, Styled.chars, List.flatMap_cons, List.flatMap_cons,
        Span.bareChars_chars hspan]
      exact congrArg _ (ih hlater)
  rw [withoutColours, Styled.render, Styled.render, String.toList_ofList, hchars]

/-! ## Lines -/

/-- The first line of a text ends at the first line break. -/
theorem splitOn_line {line : List Char} (h : '\n' ∉ line) (rest : List Char) :
    (line ++ '\n' :: rest).splitOn '\n' = line :: rest.splitOn '\n' := by
  have hline : line.splitOnP (fun c => c == '\n') = [line] := by
    refine List.splitOnP_eq_singleton fun c hc => ?_
    exact beq_eq_false_iff_ne.mpr fun heq => h (heq ▸ hc)
  have hsplit := @List.splitOnP_append_cons _ (fun c => c == '\n') line rest '\n'
    (beq_self_eq_true '\n')
  rw [List.splitOn, hsplit, hline]
  rfl

/-- **A text of lines is split into these lines**, with nothing behind the last one. -/
theorem splitOn_lines {lines : List (List Char)} (h : ∀ line ∈ lines, '\n' ∉ line) :
    (lines.flatMap fun line => line ++ ['\n']).splitOn '\n' = lines ++ [[]] := by
  induction lines with
  | nil => rfl
  | cons line lines ih =>
    obtain ⟨hline, hlater⟩ := List.forall_mem_cons.mp h
    rw [List.flatMap_cons, List.append_assoc, List.singleton_append, splitOn_line hline, ih hlater]
    rfl

end Text

/-! ## What is built was generated -/

namespace Namespace

variable {R : Type} {ns : Namespace R}

/-- In a namespace of tests the names are those of the tests that are found. -/
theorem NoneBare.names_eq (h : ns.NoneBare) (hfiled : ns.Filed) :
    ns.names = (ns.discoverFrom "").map TestCase.name := by
  have hname : ∀ e ∈ ns.bindings.entries, (e.2.test?).map TestCase.name = some e.1 := by
    rintro ⟨name, binding⟩ hmem
    have hbound : ns.get? name = some binding := NameMap.mem_entries_iff.mp hmem
    cases binding with
    | test t => exact congrArg some (hfiled name (.test t) hbound)
    | function origin => exact absurd ⟨origin, hbound⟩ (h name)
  rw [discoverFrom_empty, List.map_filterMap, List.filterMap_congr hname]
  exact (congrFun List.filterMap_eq_map ns.bindings.entries).symm

end Namespace

namespace Suite

variable {V : Type} [Cell V] {module name : String} {ns next final : Namespace Unit}
  {f : FunctionEntry V} {functions : List (FunctionEntry V)} {t : TestCase Unit}

/-- **A test of a function**, as the function expands by itself. -/
def Generates (module : String) (f : FunctionEntry V) (t : TestCase Unit) : Prop :=
  ∃ e, (f.expand module).outcome = .ok e ∧ t ∈ e.tests

/-- A test that is bound after a function is added is one of its tests, or it was bound before. -/
theorem generated_of_addFunction (hadd : (addFunction module ns f).outcome = .ok next)
    (hbound : next.get? name = some (.test t)) :
    Generates module f t ∨ ns.get? name = some (.test t) := by
  obtain ⟨e, hexpand, _, rfl⟩ := outcome_addFunction_eq_ok_iff.mp hadd
  rw [get?_added hexpand] at hbound
  cases hget : e.get? name with
  | some u =>
    rw [hget] at hbound
    obtain rfl := Binding.test.inj (Option.some.inj hbound)
    exact .inl ⟨e, hexpand, (Expansion.of_get? hget).1⟩
  | none =>
    rw [hget] at hbound
    -- the name of the function itself is free again
    by_cases hname : name = f.name
    · rw [if_pos hname] at hbound
      cases hbound
    · rw [if_neg hname] at hbound
      exact .inr hbound

/-- A test that is bound after functions are added is a test of one of them, or it was bound
before. -/
theorem generated_of_addFunctions (hadd : (addFunctions module ns functions).outcome = .ok final)
    (hbound : final.get? name = some (.test t)) :
    (∃ f ∈ functions, Generates module f t) ∨ ns.get? name = some (.test t) := by
  induction functions generalizing ns with
  | nil =>
    obtain rfl := Except.ok.inj hadd
    exact .inr hbound
  | cons f rest ih =>
    obtain ⟨next, hfirst, hrest⟩ := outcome_addFunctions_cons_eq_ok_iff.mp hadd
    rcases ih hrest with ⟨g, hg, ht⟩ | hbefore
    · exact .inl ⟨g, List.mem_cons_of_mem f hg, ht⟩
    · rcases generated_of_addFunction hfirst hbefore with ht | hstart
      · exact .inl ⟨f, List.mem_cons_self, ht⟩
      · exact .inr hstart

/-- **Every test that is found was generated.** -/
theorem exists_generates_of_build {s : Suite V} (hbuilt : s.build.outcome = .ok ns)
    (ht : t ∈ ns.discoverFrom "") : ∃ f ∈ s.functions, Generates s.module f t := by
  obtain ⟨name, hbound, _⟩ := Namespace.mem_discoverFrom_iff_exists.mp ht
  rcases generated_of_addFunctions hbuilt hbound with hgenerated | hbefore
  · exact hgenerated
  · rw [Namespace.get?_empty] at hbefore
    cases hbefore

/-- Adding a function keeps bindings under their own names. -/
theorem filed_addFunction (h : ns.Filed) (hadd : (addFunction module ns f).outcome = .ok next) :
    next.Filed := by
  obtain ⟨e, hexpand, _, rfl⟩ := outcome_addFunction_eq_ok_iff.mp hadd
  exact (h.defineFunction _).injected (FunctionEntry.separate_of_expand hexpand)

theorem filed_addFunctions (h : ns.Filed)
    (hadd : (addFunctions module ns functions).outcome = .ok final) : final.Filed := by
  induction functions generalizing ns with
  | nil =>
    obtain rfl := Except.ok.inj hadd
    exact h
  | cons f rest ih =>
    obtain ⟨next, hfirst, hrest⟩ := outcome_addFunctions_cons_eq_ok_iff.mp hadd
    exact ih (filed_addFunction h hfirst) hrest

end Suite

/-! ## What is listed of a test -/

/-- **What a listing tells of a test.** -/
structure Listed where
  function : String
  dataSet : String
  arguments : String

namespace Listed

variable (module : String) (l : Listed)

def name : String := l.function ++ "_" ++ l.dataSet

def qualifiedName : String := qualify module l.name

/-- The line of a test. -/
def line : String := l.qualifiedName module ++ "  [" ++ l.dataSet ++ "]  " ++ l.arguments

/-- The entry of a test in a JSON listing. -/
def datum : Datum :=
  .table
    [("name", .text l.name), ("qualified_name", .text (l.qualifiedName module)),
      ("function", .text l.function), ("data_set", .text l.dataSet),
      ("arguments", .text l.arguments)]

/-- **A test is what is listed of it**: it is named after its function and its data set. -/
structure Tells (t : TestCase Unit) : Prop where
  name : t.name = l.name
  function : t.origin.name = l.function
  modulePath : t.origin.modulePath = module
  dataSet : t.dataSet = some l.dataSet
  arguments : t.arguments = l.arguments

/-- **Where an entry comes from**: a data set of a function of the suite. -/
def ComesFrom (s : Suite Value) : Prop :=
  ∃ f ∈ s.functions, ∃ set ∈ f.dataSets.entries, l.function = f.name ∧ l.dataSet = set.1 ∧
    l.arguments = (set.2.arguments f.parameters).render

/-- An entry none of whose parts breaks a line. -/
structure Clean : Prop where
  function : Printable l.function.toList
  dataSet : Printable l.dataSet.toList
  arguments : Printable l.arguments.toList

variable {module l}

theorem Clean.printable_qualifiedName (h : l.Clean) (hmodule : Printable module.toList) :
    Printable (l.qualifiedName module).toList := by
  have hname : Printable l.name.toList := by
    simp [name, h.function, h.dataSet, isControl]
  unfold qualifiedName qualify
  split
  · exact hname
  · simp [hmodule, hname, isControl]

theorem Clean.printable_line (h : l.Clean) (hmodule : Printable module.toList) :
    Printable (l.line module).toList := by
  simp [line, h.printable_qualifiedName hmodule, h.dataSet, h.arguments, isControl]

section Tests

variable {t : TestCase Unit}

theorem Tells.qualifiedName_eq (h : l.Tells module t) :
    t.qualifiedName = l.qualifiedName module := by
  rw [TestCase.qualifiedName, h.modulePath, h.name, qualifiedName]

/-- Without colours the line of a test is the line of its entry. -/
theorem Tells.chars_line (h : l.Tells module t) :
    Styled.chars false t.line = (l.line module).toList ++ ['\n'] := by
  rw [Styled.chars_false, TestCase.line, h.dataSet, h.qualifiedName_eq, h.arguments, line]
  simp [Span.plain]

theorem Tells.datum_eq (h : l.Tells module t) : t.datum = l.datum module := by
  rw [TestCase.datum, h.dataSet, h.qualifiedName_eq, h.arguments, h.name, h.function, datum]
  rfl

/-- Nothing in the line of a test is taken for the start of a colour sequence. -/
theorem Tells.escape_notMem (h : l.Tells module t) (hclean : l.Clean)
    (hmodule : Printable module.toList) : ∀ span ∈ t.line, '\x1b' ∉ span.text.toList := by
  have hescape : isControl '\x1b' = true := by decide
  have hqualified := (hclean.printable_qualifiedName hmodule).notMem hescape
  have hdataSet := hclean.dataSet.notMem hescape
  have harguments := hclean.arguments.notMem hescape
  rw [TestCase.line, h.dataSet, h.qualifiedName_eq, h.arguments]
  simp [Span.plain, hqualified, hdataSet, harguments]

end Tests

end Listed

/-- What a listing tells of a test. -/
def TestCase.listed (t : TestCase Unit) : Listed :=
  ⟨t.origin.name, t.dataSet.getD "", t.arguments⟩

namespace Listing

variable {module : String} {tests : List (TestCase Unit)}

/-- The line that counts tests. -/
def countLine (count : Nat) : String := toString count ++ " test(s) generated"

theorem printable_countLine (count : Nat) : Printable (countLine count).toList := by
  rw [countLine, Nat.toString_eq_ofList_toDigits, String.toList_append, String.toList_ofList,
    printable_append_iff]
  exact ⟨printable_toDigits count, by decide⟩

/-- Without colours a listing is made of the lines of its entries and the line that counts them. -/
theorem chars_ofTests (h : ∀ t ∈ tests, t.listed.Tells module t) :
    Styled.chars false (ofTests tests) =
      (((tests.map TestCase.listed).map (Listed.line module) ++
        [countLine tests.length]).map String.toList).flatMap fun line => line ++ ['\n'] := by
  have hlines : Styled.chars false (tests.flatMap TestCase.line) =
      tests.flatMap fun t => (t.listed.line module).toList ++ ['\n'] := by
    rw [Styled.chars, List.flatMap_assoc]
    exact List.flatMap_congr fun t ht => (h t ht).chars_line
  have hcount : Styled.chars false [.plain (toString tests.length ++ " test(s) generated\n")] =
      (countLine tests.length).toList ++ ['\n'] := by
    simp [Styled.chars, Span.chars, Span.plain, countLine]
  rw [ofTests, Styled.chars_append, hlines, hcount]
  simp only [List.map_append, List.map_map, List.flatMap_append, List.flatMap_map,
    List.map_cons, List.map_nil, List.flatMap_singleton, Function.comp_apply]

/-- **A listing has one line for each of its entries and one that counts them.** -/
theorem splitOn_ofTests (h : ∀ t ∈ tests, t.listed.Tells module t)
    (hclean : ∀ t ∈ tests, t.listed.Clean) (hmodule : Printable module.toList) :
    ((ofTests tests).render false).toList.splitOn '\n' =
      ((tests.map TestCase.listed).map (Listed.line module) ++
        [countLine tests.length, ""]).map String.toList := by
  have hbreak : isControl '\n' = true := by decide
  have hlines : ∀ line ∈ ((tests.map TestCase.listed).map (Listed.line module) ++
      [countLine tests.length]).map String.toList, '\n' ∉ line := by
    rw [List.forall_mem_map, List.forall_mem_append, List.forall_mem_map, List.forall_mem_map,
      List.forall_mem_singleton]
    refine ⟨fun t ht => ?_, (printable_countLine _).notMem hbreak⟩
    exact ((hclean t ht).printable_line hmodule).notMem hbreak
  rw [Styled.render, String.toList_ofList, chars_ofTests h, splitOn_lines hlines]
  simp

/-- The JSON listing is read back as one entry after the other. -/
theorem parse?_jsonOfTests_eq (h : ∀ t ∈ tests, t.listed.Tells module t) (coloured : Bool) :
    Json.parse? ((jsonOfTests tests).render coloured) =
      some (.list ((tests.map TestCase.listed).map (Listed.datum module))) := by
  have hdata : tests.map TestCase.datum =
      (tests.map TestCase.listed).map (Listed.datum module) := by
    rw [List.map_map]
    exact List.map_congr_left fun t ht => (h t ht).datum_eq
  rw [parse?_jsonOfTests, hdata]

/-- **Without its colours a coloured listing is the plain one.** -/
theorem withoutColours_ofTests (h : ∀ t ∈ tests, t.listed.Tells module t)
    (hclean : ∀ t ∈ tests, t.listed.Clean) (hmodule : Printable module.toList) :
    withoutColours ((ofTests tests).render true) = (ofTests tests).render false := by
  refine Styled.withoutColours_render fun span hspan => ?_
  rcases List.mem_append.mp hspan with hline | hcount
  · obtain ⟨t, ht, hmem⟩ := List.mem_flatMap.mp hline
    exact (h t ht).escape_notMem (hclean t ht) hmodule span hmem
  · obtain rfl := List.mem_singleton.mp hcount
    have hescape : isControl '\x1b' = true := by decide
    simp [Span.plain, (printable_toDigits tests.length).notMem hescape]

end Listing

/-- What a listing tells of the tests that are found. -/
def Namespace.listed (ns : Namespace Unit) : List Listed :=
  (ns.discoverFrom "").map TestCase.listed

namespace Suite

variable {s : Suite Value} {f : FunctionEntry Value} {t : TestCase Unit}

/-- **A generated test is what is listed of it**: its entry is clean and comes from a data set of its
function. -/
theorem listed_of_generates (hf : f ∈ s.functions) (h : Generates s.module f t) :
    t.listed.Tells s.module t ∧ t.listed.Clean ∧ t.listed.ComesFrom s := by
  obtain ⟨e, hexpand, ht⟩ := h
  obtain ⟨hexpandable, rfl⟩ := FunctionEntry.outcome_expand_eq_ok_iff.mp hexpand
  obtain ⟨set, hset, rfl⟩ := List.mem_map.mp ht
  refine ⟨⟨rfl, rfl, rfl, rfl, rfl⟩, ⟨?_, ?_, ?_⟩, f, hf, set, hset, rfl, rfl, rfl⟩
  · exact hexpandable.function_valid.printable
  · exact (hexpandable.names_valid set.1 (List.mem_map_of_mem hset)).printable
  · have hnames := Row.isIdentifier_of_mem_names hexpandable.parameters_valid
      (hexpandable.rows_fit set hset)
    show Printable (String.ofList _).toList
    rw [String.toList_ofList]
    exact Arguments.printable_renderChars fun name hname => (hnames name hname).printable

/-- **The listings of a suite carry the same data.** There is one entry for each name that the suite
binds, in order, and each entry is that of a data set. The lines tell the entries and so does the
JSON, and colours are all that the coloured lines add. -/
structure Listings (s : Suite Value) (ns : Namespace Unit) : Prop where
  tells : ∀ t ∈ ns.discoverFrom "", t.listed.Tells s.module t
  comesFrom : ∀ l ∈ ns.listed, l.ComesFrom s
  names : ns.listed.map Listed.name = ns.names
  ascend : ns.listed.Pairwise fun a b => Precedes a.name b.name
  /-- No argument text holds a line break or any other control. -/
  arguments : ∀ l ∈ ns.listed, Printable l.arguments.toList
  /-- One line for each entry, the line that counts them, and nothing behind it. -/
  plain : ((Listing.ofTests (ns.discoverFrom "")).render false).toList.splitOn '\n' =
    (ns.listed.map (Listed.line s.module) ++
      [Listing.countLine ns.listed.length, ""]).map String.toList
  json : ∀ coloured,
    Json.parse? ((Listing.jsonOfTests (ns.discoverFrom "")).render coloured) =
      some (.list (ns.listed.map (Listed.datum s.module)))
  coloured : withoutColours ((Listing.ofTests (ns.discoverFrom "")).render true) =
    (Listing.ofTests (ns.discoverFrom "")).render false
  /-- This is what is printed wherever the suite is found in a file. -/
  printed : ∀ (files : Files) (path : String), loadFound path (files path) = .ok s →
    ∀ json, ((CommandLine.Command.expand path json).run files).status = 0 ∧
      ((CommandLine.Command.expand path json).run files).output =
        if json then Listing.jsonOfTests (ns.discoverFrom "")
        else Listing.ofTests (ns.discoverFrom "")

/-- **Every suite that builds is listed faithfully**, if only the path of its module does not break
the lines. -/
theorem listings_faithful (s : Suite Value) (ns : Namespace Unit)
    (hbuilt : s.build.outcome = .ok ns) (hmodule : Printable s.module.toList) : s.Listings ns := by
  have hfiled : ns.Filed := filed_addFunctions (Namespace.filed_empty s.module) hbuilt
  have hlisted : ∀ t ∈ ns.discoverFrom "",
      t.listed.Tells s.module t ∧ t.listed.Clean ∧ t.listed.ComesFrom s := by
    intro t ht
    obtain ⟨f, hf, hgenerates⟩ := exists_generates_of_build hbuilt ht
    exact listed_of_generates hf hgenerates
  have htells : ∀ t ∈ ns.discoverFrom "", t.listed.Tells s.module t :=
    fun t ht => (hlisted t ht).1
  have hclean : ∀ t ∈ ns.discoverFrom "", t.listed.Clean := fun t ht => (hlisted t ht).2.1
  have hnames : ns.listed.map Listed.name = (ns.discoverFrom "").map TestCase.name := by
    rw [Namespace.listed, List.map_map]
    exact List.map_congr_left fun t ht => (htells t ht).name.symm
  have hlength : ns.listed.length = (ns.discoverFrom "").length := List.length_map _
  have hascend : (ns.listed.map Listed.name).Pairwise Precedes := by
    rw [hnames, List.pairwise_map]
    exact (hfiled.pairwise_discoverFrom "").imp precedes_iff.mpr
  have hprinted : ∀ (files : Files) (path : String), loadFound path (files path) = .ok s →
      ∀ json, CommandLine.expandFile files path json =
        ⟨0, if json then Listing.jsonOfTests (ns.discoverFrom "") else
          Listing.ofTests (ns.discoverFrom ""), [],
          (CommandLine.buildFile path (files path)).warnings⟩ := by
    intro files path hload json
    have hbuild : (CommandLine.buildFile path (files path)).outcome = .ok ns := by
      rw [CommandLine.buildFile, Report.outcome_bind_of_ok hload, hbuilt]
    exact CommandLine.expandFile_of_ok hbuild json
  exact {
    tells := htells
    comesFrom := List.forall_mem_map.mpr fun t ht => (hlisted t ht).2.2
    names := by rw [hnames, (noneBare_of_build hbuilt).names_eq hfiled]
    ascend := List.pairwise_map.mp hascend
    arguments := List.forall_mem_map.mpr fun t ht => (hclean t ht).arguments
    plain := by
      rw [hlength]
      exact Listing.splitOn_ofTests htells hclean hmodule
    json := fun coloured => Listing.parse?_jsonOfTests_eq htells coloured
    coloured := Listing.withoutColours_ofTests htells hclean hmodule
    printed := fun files path hload json => by
      rw [CommandLine.Command.run, hprinted files path hload json]
      exact ⟨rfl, rfl⟩ }

/-- A text that breaks the line and turns what follows red, and a member of such a name. -/
def noisy : Suite Value where
  module := "m"
  functions :=
    [⟨"f", none, ["x"],
      ⟨[("b", .positional [⟨.text "\n\x1b[31m", rfl⟩]),
        ("a", .named ⟨[("x", ⟨.table [("\n", .null)], by decide⟩)], by decide⟩)]⟩, false⟩]

/-- Two tests are listed on two lines in the order of their names, and nothing of the noise is
heard. -/
theorem noisy_listings :
    ∃ ns, noisy.build.outcome = .ok ns ∧ Printable noisy.module.toList ∧ noisy.Listings ns ∧
      (Listing.ofTests (ns.discoverFrom "")).render false =
        "m::f_a  [a]  x=Object \x7b\"\\n\": Null\x7d\n" ++
        "m::f_b  [b]  x=String(\"\\n\\u\x7b1b\x7d[31m\")\n" ++
        "2 test(s) generated\n" :=
  ⟨_, rfl, by decide, listings_faithful noisy _ rfl (by decide), rfl⟩

end Suite

end Casewise
