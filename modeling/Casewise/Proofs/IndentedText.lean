import Casewise.Proofs.JsonText

/-!
# Casewise.Proofs.IndentedText -- JSON over several lines is read back

The writer sets a datum on one line or over several lines, two columns deeper at each level. The
reader passes over blanks between the pieces of the notation, so it makes no difference to it:
`parse?_writeIndented` reads a datum back from its lines, under the conditions of `parse?_textOf`.

A datum that is neither a list nor a table is written in the same characters either way, and
`ReadsBack` has already said how these are read. What is new are the gaps: a line break and a margin
before each part and before the closing bracket, and one blank after the colon of a member. Between
brackets every part after the first is a comma, a gap and the part (`bracketed_cons`), and so the
induction runs along the parts.
-/

namespace Casewise

namespace Json

/-! ## Gaps -/

/-- **A gap between parts**: a line break and the margin of the next line. -/
def gap (level : Nat) : List Char := '\n' :: margin level

theorem skip_gap (level : Nat) (cs : List Char) : skip (gap level ++ cs) = skip cs := by
  refine List.dropWhile_append_of_pos ?_
  intro c hc
  rcases List.mem_cons.mp hc with rfl | hmargin
  · rfl
  · obtain rfl := List.eq_of_mem_replicate hmargin
    rfl

theorem delimited_gap (level : Nat) (cs : List Char) : Delimited (gap level ++ cs) :=
  .lineBreak (margin level ++ cs)

theorem StartsDatum.skip_gap_eq {cs : List Char} (h : StartsDatum cs) (level : Nat) :
    skip (gap level ++ cs) = cs := by
  rw [skip_gap, h.skip_eq]

/-- The parts after the first one, each after a comma on a line of its own. -/
def further (level : Nat) (parts : List (List Char)) : List Char :=
  parts.flatMap fun part => ',' :: (gap level ++ part)

@[simp] theorem further_nil (level : Nat) : further level [] = [] := rfl

theorem further_cons (level : Nat) (part : List Char) (parts : List (List Char)) :
    further level (part :: parts) = ',' :: (gap level ++ (part ++ further level parts)) := by
  rw [further, List.flatMap_cons, List.cons_append, List.append_assoc, further]

theorem intercalate_eq_further (level : Nat) (part : List Char) (parts : List (List Char)) :
    '\n' :: List.intercalate [',', '\n'] ((part :: parts).map (margin level ++ ·)) =
      gap level ++ (part ++ further level parts) := by
  induction parts generalizing part with
  | nil => simp [gap]
  | cons next parts ih =>
    have hnext := ih next
    rw [List.map_cons] at hnext
    rw [List.map_cons, List.map_cons, List.intercalate_cons_cons, further_cons, ← hnext]
    simp [gap]

/-- **Parts between brackets**, from the opening one to the closing one. -/
theorem bracketed_cons (level : Nat) (opening closing : Char) (part : List Char)
    (parts : List (List Char)) :
    bracketed level opening closing (part :: parts) =
      opening :: (gap (level + 1) ++
        (part ++ (further (level + 1) parts ++ (gap level ++ [closing])))) := by
  have hlines := intercalate_eq_further (level + 1) part parts
  show opening :: '\n' :: (_ ++ (gap level ++ [closing])) = _
  rw [← List.cons_append, hlines]
  simp only [List.append_assoc]

/-! ## Parts one after the other -/

theorem indentedItems_eq_map (level : Nat) (items : List Datum) :
    indentedItems level items = items.map (writeIndented level) := by
  induction items with
  | nil => rfl
  | cons d items ih => rw [indentedItems, ih, List.map_cons]

/-- The part of a member: its name, a colon and a blank, and its datum. -/
def memberPart (level : Nat) (m : String × Datum) : List Char :=
  writeText m.1 ++ [':', ' '] ++ writeIndented level m.2

theorem indentedMembers_eq_map (level : Nat) (members : List (String × Datum)) :
    indentedMembers level members = members.map (memberPart level) := by
  induction members with
  | nil => rfl
  | cons m members ih => rw [indentedMembers, ih, List.map_cons, memberPart]

/-- **A datum is read back** from its lines when `room` more lists and tables may be opened,
whatever delimiter follows. -/
structure ReadsLines (room level : Nat) (d : Datum) : Prop where
  start : StartsDatum (writeIndented level d)
  value : ∀ {fuel : Nat} {rest : List Char}, (writeIndented level d).length ≤ fuel →
    Delimited rest → value? fuel room (writeIndented level d ++ rest) = some (d, rest)

variable {room level : Nat}

/-- An item is the last one if the bracket stands on the next line. -/
theorem items?_last_line (outer : Nat) {fuel : Nat} {d : Datum} (h : ReadsLines room level d)
    (hfuel : (writeIndented level d).length ≤ fuel) (rest : List Char) :
    items? (fuel + 1) room (writeIndented level d ++ (gap outer ++ ']' :: rest)) =
      some ([d], rest) := by
  rw [items?, h.value hfuel (delimited_gap outer _)]
  simp only [skip_gap]
  rfl

/-- An item with a comma after it comes before the items on the lines that follow. -/
theorem items?_next_line {fuel : Nat} {d : Datum} (h : ReadsLines room level d)
    (hfuel : (writeIndented level d).length ≤ fuel) {more rest : List Char} {items : List Datum}
    (hstart : StartsDatum more) (hmore : items? fuel room more = some (items, rest)) :
    items? (fuel + 1) room (writeIndented level d ++ ',' :: (gap level ++ more)) =
      some (d :: items, rest) := by
  rw [items?, h.value hfuel (.comma _)]
  show (items? fuel room (skip (gap level ++ more))).map _ = _
  rw [hstart.skip_gap_eq, hmore]
  rfl

/-- The items of a list are read back from their lines if each of them is. -/
theorem items?_lines (outer : Nat) {d : Datum} {items : List Datum} (hd : ReadsLines room level d)
    (h : ∀ e ∈ items, ReadsLines room level e) {fuel : Nat}
    (hfuel : (writeIndented level d ++
      further level (items.map (writeIndented level))).length < fuel) (rest : List Char) :
    items? fuel room (writeIndented level d ++
      (further level (items.map (writeIndented level)) ++ (gap outer ++ ']' :: rest))) =
      some (d :: items, rest) := by
  -- along the items: the comma after each is paid for by one unit of fuel
  induction items generalizing d fuel with
  | nil =>
    obtain ⟨fuel, rfl⟩ : ∃ k, fuel = k + 1 := ⟨fuel - 1, by omega⟩
    rw [List.map_nil, further_nil, List.append_nil] at hfuel
    exact items?_last_line outer hd (by omega) rest
  | cons e items ih =>
    obtain ⟨fuel, rfl⟩ : ∃ k, fuel = k + 1 := ⟨fuel - 1, by omega⟩
    obtain ⟨he, hitems⟩ := List.forall_mem_cons.mp h
    rw [List.map_cons, further_cons] at hfuel ⊢
    simp only [List.length_append, List.length_cons] at hfuel
    have hmore := ih he hitems
      (show (writeIndented level e ++
        further level (items.map (writeIndented level))).length < fuel by
          rw [List.length_append]
          omega)
    simp only [List.cons_append, List.append_assoc] at hmore ⊢
    exact items?_next_line hd (by omega) (he.start.append _) hmore

theorem memberPart_append (level : Nat) (m : String × Datum) (more : List Char) :
    memberPart level m ++ more =
      '"' :: (m.1.toList.flatMap escape ++
        '"' :: ':' :: ' ' :: (writeIndented level m.2 ++ more)) := by
  simp [memberPart, writeText]

theorem startsDatum_memberPart (level : Nat) (m : String × Datum) (more : List Char) :
    StartsDatum (memberPart level m ++ more) :=
  ⟨_, _, memberPart_append level m more, rfl, by decide⟩

theorem skip_blank (cs : List Char) : skip (' ' :: cs) = skip cs := rfl

/-- A member is the last one if the brace stands on the next line. -/
theorem members?_last_line (outer : Nat) {fuel : Nat} {m : String × Datum}
    (h : ReadsLines room level m.2) (hfuel : (writeIndented level m.2).length ≤ fuel)
    (rest : List Char) :
    members? (fuel + 1) room (memberPart level m ++ (gap outer ++ '\x7d' :: rest)) =
      some (some [m], rest) := by
  rw [memberPart_append, members?, text?_escape]
  simp only [skip_colon, skip_blank, (h.start.append _).skip_eq,
    h.value hfuel (delimited_gap outer _), skip_gap]
  rfl

/-- A member with a comma after it comes before the members on the lines that follow. -/
theorem members?_next_line {fuel : Nat} {m : String × Datum} (h : ReadsLines room level m.2)
    (hfuel : (writeIndented level m.2).length ≤ fuel) {more rest : List Char}
    {members : List (String × Datum)} (hstart : StartsDatum more)
    (hmore : members? fuel room more = some (some members, rest)) :
    members? (fuel + 1) room (memberPart level m ++ ',' :: (gap level ++ more)) =
      some (some (m :: members), rest) := by
  rw [memberPart_append, members?, text?_escape]
  simp only [skip_colon, skip_blank, (h.start.append _).skip_eq, h.value hfuel (.comma _)]
  show (members? fuel room (skip (gap level ++ more))).map _ = _
  rw [hstart.skip_gap_eq, hmore]
  rfl

/-- The members of a table are read back from their lines if each of them is. -/
theorem members?_lines (outer : Nat) {m : String × Datum} {members : List (String × Datum)}
    (hm : ReadsLines room level m.2) (h : ∀ n ∈ members, ReadsLines room level n.2) {fuel : Nat}
    (hfuel : (memberPart level m ++
      further level (members.map (memberPart level))).length < fuel) (rest : List Char) :
    members? fuel room (memberPart level m ++
      (further level (members.map (memberPart level)) ++ (gap outer ++ '\x7d' :: rest))) =
      some (some (m :: members), rest) := by
  -- a datum takes no more fuel than its part has characters
  have hshorter : ∀ m : String × Datum,
      (writeIndented level m.2).length ≤ (memberPart level m).length := by
    intro m
    rw [memberPart, List.length_append]
    omega
  have hlength := hshorter m
  induction members generalizing m fuel with
  | nil =>
    obtain ⟨fuel, rfl⟩ : ∃ k, fuel = k + 1 := ⟨fuel - 1, by omega⟩
    rw [List.map_nil, further_nil, List.append_nil] at hfuel
    exact members?_last_line outer hm (by omega) rest
  | cons n members ih =>
    obtain ⟨fuel, rfl⟩ : ∃ k, fuel = k + 1 := ⟨fuel - 1, by omega⟩
    obtain ⟨hn, hmembers⟩ := List.forall_mem_cons.mp h
    rw [List.map_cons, further_cons] at hfuel ⊢
    simp only [List.length_append, List.length_cons] at hfuel
    have hmore := ih hn hmembers
      (show (memberPart level n ++ further level (members.map (memberPart level))).length < fuel by
          rw [List.length_append]
          omega) (hshorter n)
    simp only [List.cons_append, List.append_assoc] at hmore ⊢
    exact members?_next_line hm (by omega) (startsDatum_memberPart level n _) hmore

/-! ## Data -/

/-- A gap after the opening bracket makes no difference. -/
theorem value?_list_gap (fuel room level : Nat) (cs : List Char) :
    value? (fuel + 1) room ('[' :: (gap level ++ cs)) = value? (fuel + 1) room ('[' :: cs) := by
  rw [value?, value?, skip_gap]

theorem value?_table_gap (fuel room level : Nat) (cs : List Char) :
    value? (fuel + 1) room ('\x7b' :: (gap level ++ cs)) =
      value? (fuel + 1) room ('\x7b' :: cs) := by
  rw [value?, value?, skip_gap]

namespace ReadsLines

/-- What is written in the same characters either way is read back either way. -/
theorem of_readsBack {d : Datum} (h : ReadsBack room d) (hsame : writeIndented level d = write d) :
    ReadsLines room level d := by
  refine ⟨?_, ?_⟩
  · rw [hsame]
    exact h.start
  · rw [hsame]
    exact h.value

/-- What starts with a bracket is read back if what is behind the bracket is read on as much fuel
as it has characters. -/
theorem of_bracket {d : Datum} {bracket : Char} {inner : List Char}
    (hwrite : writeIndented level d = bracket :: inner)
    (hbracket : isBlank bracket = false ∧ bracket ≠ ']')
    (hinner : ∀ {fuel : Nat} (rest : List Char), inner.length ≤ fuel →
      value? (fuel + 1) room (bracket :: (inner ++ rest)) = some (d, rest)) :
    ReadsLines room level d := by
  refine ⟨⟨bracket, inner, hwrite, hbracket⟩, ?_⟩
  intro fuel rest hfuel _
  rw [hwrite] at hfuel ⊢
  obtain ⟨fuel, rfl⟩ : ∃ k, fuel = k + 1 := by
    rw [List.length_cons] at hfuel
    exact ⟨fuel - 1, by omega⟩
  exact hinner rest (Nat.le_of_succ_le_succ hfuel)

/-- A list is read back if there is room for it and each of its items is. -/
theorem list {items : List Datum} (hroom : 0 < room)
    (h : ∀ d ∈ items, ReadsLines (room - 1) (level + 1) d) :
    ReadsLines room level (.list items) := by
  cases items with
  | nil => exact of_readsBack (.list hroom fun _ hd => absurd hd List.not_mem_nil) rfl
  | cons d items =>
    obtain ⟨hd, hitems⟩ := List.forall_mem_cons.mp h
    have hwrite : writeIndented level (.list (d :: items)) =
        '[' :: (gap (level + 1) ++ (writeIndented (level + 1) d ++
          (further (level + 1) (items.map (writeIndented (level + 1))) ++
            (gap level ++ [']'])))) := by
      rw [writeIndented, indentedItems_eq_map, List.map_cons, bracketed_cons]
    refine of_bracket hwrite (by decide) fun {fuel} rest hfuel => ?_
    have hlength : (writeIndented (level + 1) d ++
        further (level + 1) (items.map (writeIndented (level + 1)))).length < fuel := by
      simp only [List.length_append, List.length_cons] at hfuel ⊢
      omega
    -- behind the gap the items start, for which one list less may be opened
    have hread := items?_lines level hd hitems hlength rest
    simp only [List.append_assoc, List.cons_append, List.nil_append]
    rw [value?_list_gap, value?_list (hd.start.append _), hread]
    exact congrArg (fun d => some (d, rest)) (if_neg (Nat.ne_of_gt hroom))

/-- A table is read back if there is room for it and each of its members is. -/
theorem table {members : List (String × Datum)} (hroom : 0 < room)
    (h : ∀ m ∈ members, ReadsLines (room - 1) (level + 1) m.2) :
    ReadsLines room level (.table members) := by
  cases members with
  | nil => exact of_readsBack (.table hroom fun _ hm => absurd hm List.not_mem_nil) rfl
  | cons m members =>
    obtain ⟨hm, hmembers⟩ := List.forall_mem_cons.mp h
    have hwrite : writeIndented level (.table (m :: members)) =
        '\x7b' :: (gap (level + 1) ++ (memberPart (level + 1) m ++
          (further (level + 1) (members.map (memberPart (level + 1))) ++
            (gap level ++ ['\x7d'])))) := by
      rw [writeIndented, indentedMembers_eq_map, List.map_cons, bracketed_cons]
    refine of_bracket hwrite (by decide) fun {fuel} rest hfuel => ?_
    have hlength : (memberPart (level + 1) m ++
        further (level + 1) (members.map (memberPart (level + 1)))).length < fuel := by
      simp only [List.length_append, List.length_cons] at hfuel ⊢
      omega
    have hread := members?_lines level hm hmembers hlength rest
    simp only [List.append_assoc, List.cons_append, List.nil_append]
    rw [value?_table_gap]
    rw [memberPart_append] at hread ⊢
    rw [value?_table, hread]
    exact congrArg (fun d => some (d, rest)) (if_neg (Nat.ne_of_gt hroom))

end ReadsLines

/-- **Data of integers are read back from their lines**, if there is room for their nesting. -/
theorem readsLines {d : Datum} (hintegral : d.isIntegral = true) (hdepth : d.depth ≤ room) :
    ReadsLines room level d := by
  induction d using Datum.induction generalizing room level with
  | list items ih =>
    obtain ⟨hroom, hitems⟩ := Datum.depth_list_le_iff.mp hdepth
    rw [Datum.isIntegral_list_iff] at hintegral
    exact .list hroom fun d hd => ih d hd (hintegral d hd) (hitems d hd)
  | table members ih =>
    obtain ⟨hroom, hmembers⟩ := Datum.depth_table_le_iff.mp hdepth
    rw [Datum.isIntegral_table_iff] at hintegral
    exact .table hroom fun m hm => ih m hm (hintegral m hm) (hmembers m hm)
  | null | truth | int | real | text | unreadable =>
    exact .of_readsBack (readsBack hintegral hdepth) rfl

/-- **What is written over several lines is read back**, with the line break after the last one. -/
theorem parse?_writeIndented {d : Datum} (hintegral : d.isIntegral = true)
    (hdepth : d.depth ≤ depthLimit) :
    parse? (String.ofList (writeIndented 0 d) ++ "\n") = some d := by
  have hd : ReadsLines depthLimit 0 d := readsLines hintegral hdepth
  have hchars : (String.ofList (writeIndented 0 d) ++ "\n").toList =
      writeIndented 0 d ++ ['\n'] := by
    rw [String.toList_append, String.toList_ofList]
    rfl
  -- the line break ends the datum, and nothing but a blank is left behind it
  have hvalue : value? (2 * (writeIndented 0 d ++ ['\n']).length + 2) depthLimit
      (writeIndented 0 d ++ ['\n']) = some (d, ['\n']) := by
    refine hd.value ?_ (.lineBreak [])
    rw [List.length_append]
    omega
  rw [parse?, hchars, parseChars?, (hd.start.append _).skip_eq, hvalue]
  rfl

end Json

end Casewise
