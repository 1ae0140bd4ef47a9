import Casewise.Json.Reader
import Casewise.Json.Writer

/-!
# Casewise.Proofs.JsonText -- what is written as JSON is read back

The writer and the reader of JSON text are two programs that share no code, and `parse?_textOf`
says that the second undoes the first: a datum of integers that is not nested too deep is read
back from its text as it was, every name and text in it with every character.

The argument follows the notation. A numeral is as long as its digits, so it takes a delimiter to
see where it ends (`Delimited`); all other notation shows its own end. Each escape is read as one
character whatever follows. From there the induction is on the datum (`Datum.induction`): a list or
a table is read back as soon as each part of it is.
-/

namespace Casewise

namespace Datum

/-! ## Data all the way down -/

/-- **Induction on data**: a list or a table has a property as soon as everything in it has. -/
@[elab_as_elim]
theorem induction {motive : Datum → Prop} (null : motive .null)
    (truth : ∀ b, motive (.truth b)) (int : ∀ i, motive (.int i)) (real : ∀ x, motive (.real x))
    (text : ∀ s, motive (.text s))
    (list : ∀ items, (∀ d ∈ items, motive d) → motive (.list items))
    (table : ∀ members, (∀ m ∈ members, motive m.2) → motive (.table members))
    (unreadable : motive .unreadable) (d : Datum) : motive d :=
  @Datum.rec motive (fun items => ∀ d ∈ items, motive d)
    (fun members => ∀ m ∈ members, motive m.2) (fun m => motive m.2)
    null truth int real text list table unreadable
    (fun _ h => absurd h List.not_mem_nil)
    (fun _ _ hd hrest => List.forall_mem_cons.mpr ⟨hd, hrest⟩)
    (fun _ h => absurd h List.not_mem_nil)
    (fun _ _ hm hrest => List.forall_mem_cons.mpr ⟨hm, hrest⟩)
    (fun _ _ hd => hd) d

mutual

/-- **Whether all numbers in a datum are integers**, words that is, and nothing in it is
unreadable. -/
def isIntegral : Datum → Bool
  | .null | .truth _ | .text _ => true
  | .int i => isWord i
  | .real _ | .unreadable => false
  | .list items => areIntegral items
  | .table members => haveIntegral members

def areIntegral : List Datum → Bool
  | [] => true
  | d :: rest => isIntegral d && areIntegral rest

def haveIntegral : List (String × Datum) → Bool
  | [] => true
  | (_, d) :: rest => isIntegral d && haveIntegral rest

end

mutual

/-- **How many lists and tables stand inside one another** at the deepest place. -/
def depth : Datum → Nat
  | .list items => depthOfItems items + 1
  | .table members => depthOfMembers members + 1
  | _ => 0

def depthOfItems : List Datum → Nat
  | [] => 0
  | d :: rest => max (depth d) (depthOfItems rest)

def depthOfMembers : List (String × Datum) → Nat
  | [] => 0
  | (_, d) :: rest => max (depth d) (depthOfMembers rest)

end

@[simp] theorem isIntegral_truth (b : Bool) : isIntegral (.truth b) = true := rfl

@[simp] theorem isIntegral_text (s : String) : isIntegral (.text s) = true := rfl

@[simp] theorem depth_truth (b : Bool) : depth (.truth b) = 0 := rfl

@[simp] theorem depth_text (s : String) : depth (.text s) = 0 := rfl

theorem isIntegral_list_iff {items : List Datum} :
    isIntegral (.list items) = true ↔ ∀ d ∈ items, isIntegral d = true := by
  show areIntegral items = true ↔ _
  induction items with
  | nil => simp [areIntegral]
  | cons d rest ih => rw [areIntegral, Bool.and_eq_true, ih, List.forall_mem_cons]

theorem isIntegral_table_iff {members : List (String × Datum)} :
    isIntegral (.table members) = true ↔ ∀ m ∈ members, isIntegral m.2 = true := by
  show haveIntegral members = true ↔ _
  induction members with
  | nil => simp [haveIntegral]
  | cons m rest ih => rw [haveIntegral, Bool.and_eq_true, ih, List.forall_mem_cons]

theorem depth_list_le_iff {items : List Datum} {n : Nat} :
    depth (.list items) ≤ n ↔ 0 < n ∧ ∀ d ∈ items, depth d ≤ n - 1 := by
  have hitems : ∀ m, depthOfItems items ≤ m ↔ ∀ d ∈ items, depth d ≤ m := by
    intro m
    induction items with
    | nil => simp [depthOfItems]
    | cons d rest ih => rw [depthOfItems, Nat.max_le, ih, List.forall_mem_cons]
  rw [depth, ← hitems]
  omega

theorem depth_table_le_iff {members : List (String × Datum)} {n : Nat} :
    depth (.table members) ≤ n ↔ 0 < n ∧ ∀ m ∈ members, depth m.2 ≤ n - 1 := by
  have hmembers : ∀ k, depthOfMembers members ≤ k ↔ ∀ m ∈ members, depth m.2 ≤ k := by
    intro k
    induction members with
    | nil => simp [depthOfMembers]
    | cons m rest ih => rw [depthOfMembers, Nat.max_le, ih, List.forall_mem_cons]
  rw [depth, ← hmembers]
  omega

end Datum

namespace Json

/-! ## Where a datum starts and ends -/

/-- **What may follow a datum**: nothing, or the comma, bracket or line break that ends it. -/
inductive Delimited : List Char → Prop where
  | nothing : Delimited []
  | comma (rest : List Char) : Delimited (',' :: rest)
  | lineBreak (rest : List Char) : Delimited ('\n' :: rest)
  | bracket (rest : List Char) : Delimited (']' :: rest)
  | brace (rest : List Char) : Delimited ('\x7d' :: rest)

/-- **What a datum can start with**: neither a blank nor the bracket that would end a list. -/
def StartsDatum (cs : List Char) : Prop :=
  ∃ c tail, cs = c :: tail ∧ isBlank c = false ∧ c ≠ ']'

theorem StartsDatum.append {cs : List Char} (h : StartsDatum cs) (rest : List Char) :
    StartsDatum (cs ++ rest) := by
  obtain ⟨c, tail, rfl, hc⟩ := h
  exact ⟨c, tail ++ rest, rfl, hc⟩

theorem StartsDatum.skip_eq {cs : List Char} (h : StartsDatum cs) : skip cs = cs := by
  obtain ⟨c, tail, rfl, hblank, _⟩ := h
  exact List.dropWhile_cons_of_neg (by simp [hblank])

/-! ## Numerals -/

theorem digits_append {ds rest : List Char} (hds : ∀ c ∈ ds, c.isDigit = true)
    (hrest : Delimited rest) : digits (ds ++ rest) = (ds.map digitValue, rest) := by
  have hend : rest.takeWhile Char.isDigit = [] ∧ rest.dropWhile Char.isDigit = rest := by
    cases hrest <;> exact ⟨rfl, rfl⟩
  rw [digits, List.takeWhile_append_of_pos hds, List.dropWhile_append_of_pos hds, hend.1, hend.2,
    List.append_nil]

theorem ofDigits_toDigits (n : Nat) : ofDigits ((Nat.toDigits 10 n).map digitValue) = n := by
  have hfold : ofDigits ((Nat.toDigits 10 n).map digitValue) =
      Nat.ofDigitChars 10 (Nat.toDigits 10 n) 0 := by
    rw [ofDigits, List.foldl_map, Nat.ofDigitChars_eq_foldl]
    rfl
  rw [hfold, Nat.ofDigitChars_ten_toDigits]

theorem toDigits_eq_cons (n : Nat) :
    ∃ c rest, Nat.toDigits 10 n = c :: rest ∧ c.isDigit = true := by
  have hdigit : ∀ c ∈ Nat.toDigits 10 n, c.isDigit = true :=
    fun c hc => Nat.isDigit_of_mem_toDigits (by decide) (by decide) hc
  cases hcons : Nat.toDigits 10 n with
  | nil => exact absurd hcons Nat.toDigits_ne_nil
  | cons c rest => exact ⟨c, rest, rfl, hdigit c (hcons ▸ List.mem_cons_self)⟩

/-- The digits of a number start with a zero only if that is all. -/
theorem toDigits_eq_zero_or (n : Nat) :
    Nat.toDigits 10 n = ['0'] ∨
      ∃ c rest, Nat.toDigits 10 n = c :: rest ∧ digitValue c ≠ 0 := by
  induction n using Nat.strongRecOn with
  | ind n ih =>
    by_cases hlt : n < 10
    · rw [Nat.toDigits_of_lt_base hlt]
      by_cases hzero : n = 0
      · exact .inl (by rw [hzero]; rfl)
      · refine .inr ⟨n.digitChar, [], rfl, ?_⟩
        rw [digitValue, show '0'.toNat = 48 from rfl, Nat.toNat_digitChar_sub_48_of_lt_ten hlt]
        exact hzero
    · have hsplit : Nat.toDigits 10 n = Nat.toDigits 10 (n / 10) ++ [(n % 10).digitChar] :=
        Nat.toDigits_of_base_le (by decide) (by omega)
      rcases ih (n / 10) (by omega) with hfront | ⟨c, rest, hfront, hc⟩
      · -- the number in front of the last digit is zero only for a single digit
        have hzero : ofDigits ((Nat.toDigits 10 (n / 10)).map digitValue) = 0 := by
          rw [hfront]
          rfl
        rw [ofDigits_toDigits] at hzero
        omega
      · exact .inr ⟨c, rest ++ [(n % 10).digitChar], by rw [hsplit, hfront]; rfl, hc⟩

namespace Numeral

theorem whole?_toDigits {n : Nat} {rest : List Char} (hrest : Delimited rest) :
    whole? (Nat.toDigits 10 n ++ rest) = some ((Nat.toDigits 10 n).map digitValue, rest) := by
  rw [whole?, digits_append (fun _ => Nat.isDigit_of_mem_toDigits (by decide) (by decide)) hrest]
  rcases toDigits_eq_zero_or n with hzero | ⟨c, cs, hcons, hc⟩
  · rw [hzero]
    rfl
  · obtain ⟨k, hk⟩ := Nat.exists_eq_succ_of_ne_zero hc
    rw [hcons, List.map_cons, hk]
    rfl

/-- **An integer is read as a numeral** that has its sign and its digits. -/
theorem read?_writeInt {i : Int} {rest : List Char} (hrest : Delimited rest) :
    read? (writeInt i ++ rest) =
      some (⟨decide (i < 0), (Nat.toDigits 10 i.natAbs).map digitValue, [], none⟩, rest) := by
  have hend : fraction? rest = some ([], rest) ∧ exponent? rest = some (none, rest) := by
    cases hrest <;> exact ⟨rfl, rfl⟩
  rw [writeInt, List.append_assoc]
  by_cases hneg : i < 0
  · rw [if_pos hneg]
    simp only [read?, List.cons_append, List.nil_append, whole?_toDigits hrest]
    simp [hend, hneg]
  · -- the first digit is no sign
    have hminus : ∀ tail, Nat.toDigits 10 i.natAbs ++ rest ≠ '-' :: tail := by
      intro tail heq
      obtain ⟨c, cs, hcons, hc⟩ := toDigits_eq_cons i.natAbs
      rw [hcons] at heq
      obtain ⟨rfl, _⟩ := List.cons.inj heq
      exact absurd hc (by decide)
    rw [if_neg hneg, List.nil_append, read?]
    · simp [whole?_toDigits hrest, hend, hneg]
    · exact hminus

/-- The numeral of a word denotes the word. -/
theorem datum_of_isWord {i : Int} (h : Datum.isWord i = true) :
    datum ⟨decide (i < 0), (Nat.toDigits 10 i.natAbs).map digitValue, [], none⟩ = .int i := by
  simp only [Datum.isWord, Bool.and_eq_true, decide_eq_true_eq] at h
  have hplain : ¬(([] : List Nat) ≠ [] ∨ (none : Option Int).isSome = true) := by simp
  simp only [datum, ofDigits_toDigits, if_neg hplain]
  by_cases hneg : i < 0
  · have hsize : 0 < i.natAbs ∧ i.natAbs ≤ 0x8000000000000000 := by omega
    have hvalue : -(i.natAbs : Int) = i := by omega
    rw [if_pos (decide_eq_true hneg), if_pos hsize, hvalue]
  · have hsize : i.natAbs < 0x10000000000000000 := by omega
    have hvalue : (i.natAbs : Int) = i := by omega
    have hpositive : ¬decide (i < 0) = true := by rw [decide_eq_true_iff]; exact hneg
    rw [if_neg hpositive, if_pos hsize, hvalue]

end Numeral

/-! ## Texts -/

theorem hexDigit?_digitChar {n : Nat} (h : n < 16) : hexDigit? n.digitChar = some n := by
  have hall : ∀ k : Fin 16, hexDigit? (Nat.digitChar k) = some k.val := by decide
  exact hall ⟨n, h⟩

/-- Four hexadecimal digits are read back as the code that they were written for. -/
theorem pieces?_fourDigits {n : Nat} (h : n < 0x10000) (tail : List Char) :
    pieces? ('\\' :: 'u' :: (fourDigits n ++ tail)) =
      (pieces? tail).map fun (ps, rest) => (.ofCode n :: ps, rest) := by
  have hcode : code? (n / 4096 % 16).digitChar (n / 256 % 16).digitChar (n / 16 % 16).digitChar
      (n % 16).digitChar = some n := by
    have hvalue :
        (n / 4096 % 16 * 16 + n / 256 % 16) * 256 + (n / 16 % 16 * 16 + n % 16) = n := by omega
    simp [code?, hexDigit?_digitChar, Nat.mod_lt, hvalue]
  show pieces? ('\\' :: 'u' :: (n / 4096 % 16).digitChar :: (n / 256 % 16).digitChar ::
    (n / 16 % 16).digitChar :: (n % 16).digitChar :: tail) = _
  rw [pieces?, hcode]
  cases pieces? tail <;> rfl

/-- The characters with a short escape are read back from it. -/
theorem pieces?_shortEscape {c letter : Char} (h : shortEscapes.lookup c = some letter)
    (tail : List Char) :
    pieces? ('\\' :: letter :: tail) =
      (pieces? tail).map fun (ps, rest) => (.char c :: ps, rest) := by
  have hmem : (c, letter) ∈ shortEscapes := by
    obtain ⟨before, after, hsplit, _⟩ := List.lookup_eq_some_iff.mp h
    rw [hsplit]
    exact List.mem_append_right _ List.mem_cons_self
  have hletter : unescape? letter = some c ∧ letter ≠ 'u' := by
    have hall : ∀ e ∈ shortEscapes, unescape? e.2 = some e.1 ∧ e.2 ≠ 'u' := by decide
    exact hall _ hmem
  rw [pieces?, hletter.1]
  · cases pieces? tail <;> rfl
  · rintro a b c d rest heq _
    exact hletter.2 heq

/-- **Each character is read back from how it is written**, whatever follows. -/
theorem pieces?_escape (c : Char) (tail : List Char) :
    pieces? (escape c ++ tail) = (pieces? tail).map fun (ps, rest) => (.char c :: ps, rest) := by
  -- a short escape, four digits, or the character as it is
  rw [escape]
  split
  · rename_i letter hlookup
    exact pieces?_shortEscape hlookup tail
  · rename_i hlookup
    split
    · rename_i hcontrol
      -- control characters are far below the codes that are halves of pairs
      have hpiece : Piece.ofCode c.toNat = .char c := by
        have hbelow : ¬(0xD800 ≤ c.toNat ∧ c.toNat < 0xE000) := by omega
        rw [Piece.ofCode, if_neg hbelow, Char.ofNat_toNat]
      rw [← hpiece]
      exact pieces?_fourDigits (by omega) tail
    · rename_i hcontrol
      have hplain : c ≠ '"' ∧ c ≠ '\\' := by
        have hnone := List.lookup_eq_none_iff.mp hlookup
        constructor <;> rintro rfl
        · exact absurd (hnone ('"', '"') (by decide)) (by decide)
        · exact absurd (hnone ('\\', '\\') (by decide)) (by decide)
      rw [List.singleton_append, pieces?]
      · rw [if_neg hcontrol]
        cases pieces? tail <;> rfl
      · exact hplain.1
      · rintro _ _ _ _ _ heq _
        exact hplain.2 heq
      · rintro _ _ heq _
        exact hplain.2 heq

theorem pieces?_flatMap_escape (cs rest : List Char) :
    pieces? (cs.flatMap escape ++ '"' :: rest) = some (cs.map .char, rest) := by
  induction cs with
  | nil => rfl
  | cons c cs ih =>
    rw [List.flatMap_cons, List.append_assoc, pieces?_escape, ih]
    rfl

theorem join?_map_char (cs : List Char) : join? (cs.map .char) = some cs := by
  induction cs with
  | nil => rfl
  | cons c cs ih => rw [List.map_cons, join?, ih, Option.map_some]

/-- **A text is read back** after its opening quote, whatever follows its closing one. -/
theorem text?_escape (s : String) (rest : List Char) :
    text? (s.toList.flatMap escape ++ '"' :: rest) = some (some s, rest) := by
  rw [text?, pieces?_flatMap_escape]
  show some (Option.map String.ofList (join? (s.toList.map .char)), rest) = _
  rw [join?_map_char, Option.map_some, String.ofList_toList]

/-! ## Lists and tables -/

theorem commaJoin_singleton (part : List Char) : commaJoin [part] = part :=
  List.intercalate_singleton

theorem commaJoin_cons_cons (part next : List Char) (parts : List (List Char)) :
    commaJoin (part :: next :: parts) = part ++ ',' :: commaJoin (next :: parts) := by
  rw [commaJoin, List.intercalate_cons_cons, List.append_assoc]
  rfl

theorem exists_commaJoin_eq_append (part : List Char) (parts : List (List Char)) :
    ∃ tail, commaJoin (part :: parts) = part ++ tail := by
  cases parts with
  | nil => exact ⟨[], by rw [commaJoin_singleton, List.append_nil]⟩
  | cons next parts => exact ⟨_, commaJoin_cons_cons part next parts⟩

/-- **A datum is read back** from its text when `room` more lists and tables may be opened,
whatever delimiter follows. -/
structure ReadsBack (room : Nat) (d : Datum) : Prop where
  start : StartsDatum (write d)
  value : ∀ {fuel : Nat} {rest : List Char}, (write d).length ≤ fuel → Delimited rest →
    value? fuel room (write d ++ rest) = some (d, rest)

theorem ReadsBack.start_items {room : Nat} {d : Datum} (h : ReadsBack room d)
    (items : List Datum) : StartsDatum (commaJoin (writeItems (d :: items))) := by
  obtain ⟨tail, htail⟩ := exists_commaJoin_eq_append (write d) (writeItems items)
  rw [writeItems, htail]
  exact h.start.append tail

/-- An item is the last one if the bracket follows. -/
theorem items?_last {room fuel : Nat} {d : Datum} (h : ReadsBack room d)
    (hfuel : (write d).length ≤ fuel) (rest : List Char) :
    items? (fuel + 1) room (write d ++ ']' :: rest) = some ([d], rest) := by
  rw [items?, h.value hfuel (.bracket rest)]
  rfl

/-- An item with a comma after it comes before the items that follow. -/
theorem items?_next {room fuel : Nat} {d : Datum} (h : ReadsBack room d)
    (hfuel : (write d).length ≤ fuel) {more rest : List Char} {items : List Datum}
    (hstart : StartsDatum more) (hmore : items? fuel room more = some (items, rest)) :
    items? (fuel + 1) room (write d ++ ',' :: more) = some (d :: items, rest) := by
  rw [items?, h.value hfuel (.comma more)]
  show (items? fuel room (skip more)).map _ = _
  rw [hstart.skip_eq, hmore]
  rfl

/-- The items of a list are read back if each of them is. -/
theorem items?_writeItems {room : Nat} {items : List Datum} (hne : items ≠ [])
    (h : ∀ d ∈ items, ReadsBack room d) {fuel : Nat}
    (hfuel : (commaJoin (writeItems items)).length < fuel) (rest : List Char) :
    items? fuel room (commaJoin (writeItems items) ++ ']' :: rest) = some (items, rest) := by
  -- along the items: the comma after each is paid for by one unit of fuel
  induction items generalizing fuel with
  | nil => exact absurd rfl hne
  | cons d items ih =>
    obtain ⟨fuel, rfl⟩ : ∃ k, fuel = k + 1 := ⟨fuel - 1, by omega⟩
    have hd := h d List.mem_cons_self
    cases items with
    | nil =>
      simp only [writeItems, commaJoin_singleton] at hfuel ⊢
      exact items?_last hd (by omega) rest
    | cons e items =>
      have hsplit : commaJoin (writeItems (d :: e :: items)) =
          write d ++ ',' :: commaJoin (writeItems (e :: items)) := by
        rw [writeItems, writeItems, commaJoin_cons_cons]
      rw [hsplit, List.length_append, List.length_cons] at hfuel
      have hstart := (h e (.tail _ List.mem_cons_self)).start_items items
      have hmore := ih (List.cons_ne_nil _ _) (fun x hx => h x (.tail _ hx))
        (show (commaJoin (writeItems (e :: items))).length < fuel by omega)
      rw [hsplit, List.append_assoc]
      exact items?_next hd (by omega) (hstart.append _) hmore

theorem exists_writeMembers_eq_cons (m : String × Datum) (members : List (String × Datum)) :
    ∃ tail, commaJoin (writeMembers (m :: members)) = '"' :: tail := by
  obtain ⟨tail, htail⟩ :=
    exists_commaJoin_eq_append (writeText m.1 ++ ':' :: write m.2) (writeMembers members)
  exact ⟨_, htail⟩

theorem writeMember_append (name : String) (d : Datum) (more : List Char) :
    writeText name ++ ':' :: write d ++ more =
      '"' :: (name.toList.flatMap escape ++ '"' :: ':' :: (write d ++ more)) := by
  simp [writeText]

theorem skip_colon (rest : List Char) : skip (':' :: rest) = ':' :: rest := rfl

/-- A member is the last one if the brace follows. -/
theorem members?_last {room fuel : Nat} (name : String) {d : Datum} (h : ReadsBack room d)
    (hfuel : (write d).length ≤ fuel) (rest : List Char) :
    members? (fuel + 1) room (writeText name ++ ':' :: write d ++ '\x7d' :: rest) =
      some (some [(name, d)], rest) := by
  rw [writeMember_append, members?, text?_escape]
  simp only [skip_colon, (h.start.append _).skip_eq, h.value hfuel (.brace rest)]
  rfl

/-- A member with a comma after it comes before the members that follow. -/
theorem members?_next {room fuel : Nat} (name : String) {d : Datum} (h : ReadsBack room d)
    (hfuel : (write d).length ≤ fuel) {more rest : List Char} {members : List (String × Datum)}
    (hstart : StartsDatum more) (hmore : members? fuel room more = some (some members, rest)) :
    members? (fuel + 1) room (writeText name ++ ':' :: write d ++ ',' :: more) =
      some (some ((name, d) :: members), rest) := by
  rw [writeMember_append, members?, text?_escape]
  simp only [skip_colon, (h.start.append _).skip_eq, h.value hfuel (.comma more)]
  show (members? fuel room (skip more)).map _ = _
  rw [hstart.skip_eq, hmore]
  rfl

/-- The members of a table are read back if each of them is. -/
theorem members?_writeMembers {room : Nat} {members : List (String × Datum)} (hne : members ≠ [])
    (h : ∀ m ∈ members, ReadsBack room m.2) {fuel : Nat}
    (hfuel : (commaJoin (writeMembers members)).length < fuel) (rest : List Char) :
    members? fuel room (commaJoin (writeMembers members) ++ '\x7d' :: rest) =
      some (some members, rest) := by
  induction members generalizing fuel with
  | nil => exact absurd rfl hne
  | cons m members ih =>
    obtain ⟨fuel, rfl⟩ : ∃ k, fuel = k + 1 := ⟨fuel - 1, by omega⟩
    obtain ⟨name, d⟩ := m
    have hd : ReadsBack room d := h _ List.mem_cons_self
    cases members with
    | nil =>
      simp only [writeMembers, commaJoin_singleton, List.length_append, List.length_cons] at hfuel ⊢
      exact members?_last name hd (by omega) rest
    | cons next members =>
      have hsplit : commaJoin (writeMembers ((name, d) :: next :: members)) =
          writeText name ++ ':' :: write d ++
            ',' :: commaJoin (writeMembers (next :: members)) := by
        rw [writeMembers, writeMembers, commaJoin_cons_cons]
      rw [hsplit] at hfuel
      simp only [List.length_append, List.length_cons] at hfuel
      obtain ⟨tail, htail⟩ := exists_writeMembers_eq_cons next members
      have hstart : StartsDatum (commaJoin (writeMembers (next :: members))) :=
        ⟨_, tail, htail, rfl, by decide⟩
      have hmore := ih (List.cons_ne_nil _ _) (fun x hx => h x (.tail _ hx))
        (show (commaJoin (writeMembers (next :: members))).length < fuel by omega)
      rw [hsplit, List.append_assoc]
      exact members?_next name hd (by omega) (hstart.append _) hmore

/-! ## Data -/

theorem writeInt_eq_cons (i : Int) :
    ∃ c tail, writeInt i = c :: tail ∧ (c = '-' ∨ c.isDigit = true) := by
  by_cases hneg : i < 0
  · exact ⟨'-', Nat.toDigits 10 i.natAbs, by rw [writeInt, if_pos hneg]; rfl, .inl rfl⟩
  · obtain ⟨c, tail, hcons, hc⟩ := toDigits_eq_cons i.natAbs
    exact ⟨c, tail, by rw [writeInt, if_neg hneg, hcons]; rfl, .inr hc⟩

/-- What starts a numeral starts no other datum, and neither ends a list nor is blank. -/
theorem not_mem_of_numeral {c : Char} (h : c = '-' ∨ c.isDigit = true) :
    c ∉ ['n', 't', 'f', '"', '[', '\x7b', ']', ' ', '\t', '\n', '\r'] := by
  intro hmem
  have hothers : ['n', 't', 'f', '"', '[', '\x7b', ']', ' ', '\t', '\n', '\r'].all
      (fun x => x != '-' && !x.isDigit) = true := rfl
  have hc := List.all_eq_true.mp hothers c hmem
  rcases h with rfl | hdigit
  · exact absurd hc (by decide)
  · simp [hdigit] at hc

theorem startsDatum_numeral {c : Char} (h : c = '-' ∨ c.isDigit = true) (tail : List Char) :
    StartsDatum (c :: tail) := by
  have hother := not_mem_of_numeral h
  simp only [List.mem_cons, not_or] at hother
  refine ⟨c, tail, rfl, ?_, by simp [hother]⟩
  simp [isBlank, hother]

theorem value?_numeral {fuel room : Nat} {c : Char} (hc : c = '-' ∨ c.isDigit = true)
    (tail : List Char) :
    value? (fuel + 1) room (c :: tail) =
      (Numeral.read? (c :: tail)).map fun (n, rest) => (n.datum, rest) := by
  have hother := not_mem_of_numeral hc
  rw [value?]
  all_goals
    intro rest heq
    obtain ⟨rfl, _⟩ := List.cons.inj heq
    exact hother (by decide)

/-- A list with something in it is read item by item. -/
theorem value?_list {fuel room : Nat} {cs : List Char} (h : StartsDatum cs) :
    value? (fuel + 1) room ('[' :: cs) =
      (items? fuel (room - 1) cs).map fun (ds, rest) => (nested room (.list ds), rest) := by
  have hskip := h.skip_eq
  obtain ⟨c, tail, rfl, _, hc⟩ := h
  rw [value?, hskip]
  split
  · rename_i heq
    exact absurd (List.cons.inj heq).1 hc
  · rfl

/-- A table with something in it is read member by member. -/
theorem value?_table {fuel room : Nat} {tail : List Char} :
    value? (fuel + 1) room ('\x7b' :: '"' :: tail) =
      (members? fuel (room - 1) ('"' :: tail)).map fun (ms, rest) =>
        (nested room (tableOf ms), rest) := by
  rw [value?, StartsDatum.skip_eq ⟨_, tail, rfl, rfl, by decide⟩]
  rfl

namespace ReadsBack

variable {room : Nat}

/-- Nothing is read on no fuel, but nothing is written in no characters either. -/
theorem of_succ {d : Datum} (start : StartsDatum (write d))
    (value : ∀ {fuel : Nat} {rest : List Char}, (write d).length ≤ fuel + 1 → Delimited rest →
      value? (fuel + 1) room (write d ++ rest) = some (d, rest)) : ReadsBack room d := by
  refine ⟨start, ?_⟩
  intro fuel rest hfuel hrest
  obtain ⟨c, tail, hcons, _⟩ := start
  obtain ⟨fuel, rfl⟩ : ∃ k, fuel = k + 1 := by
    rw [hcons, List.length_cons] at hfuel
    exact ⟨fuel - 1, by omega⟩
  exact value hfuel hrest

theorem null : ReadsBack room .null :=
  of_succ ⟨_, _, rfl, rfl, by decide⟩ fun _ _ => rfl

theorem truth (b : Bool) : ReadsBack room (.truth b) := by
  cases b
  · exact of_succ ⟨_, _, rfl, rfl, by decide⟩ fun _ _ => rfl
  · exact of_succ ⟨_, _, rfl, rfl, by decide⟩ fun _ _ => rfl

theorem int {i : Int} (h : Datum.isWord i = true) : ReadsBack room (.int i) := by
  obtain ⟨c, tail, hcons, hc⟩ := writeInt_eq_cons i
  refine of_succ (by rw [write, hcons]; exact startsDatum_numeral hc tail) ?_
  intro fuel rest _ hrest
  show value? (fuel + 1) room (writeInt i ++ rest) = _
  rw [hcons, List.cons_append, value?_numeral hc, ← List.cons_append, ← hcons,
    Numeral.read?_writeInt hrest]
  exact congrArg (fun d => some (d, rest)) (Numeral.datum_of_isWord h)

theorem text (s : String) : ReadsBack room (.text s) := by
  refine of_succ ⟨_, _, rfl, rfl, by decide⟩ ?_
  intro fuel rest _ _
  have hwrite : write (.text s) ++ rest = '"' :: (s.toList.flatMap escape ++ '"' :: rest) := by
    simp [write, writeText]
  rw [hwrite, value?, text?_escape]
  rfl

/-- A list is read back if there is room for it and each of its items is. -/
theorem list {items : List Datum} (hroom : 0 < room)
    (h : ∀ d ∈ items, ReadsBack (room - 1) d) : ReadsBack room (.list items) := by
  refine of_succ ⟨_, _, rfl, rfl, by decide⟩ ?_
  intro fuel rest hfuel _
  have hnested : nested room (.list items) = .list items := if_neg (Nat.ne_of_gt hroom)
  have hwrite : write (.list items) ++ rest =
      '[' :: (commaJoin (writeItems items) ++ ']' :: rest) := by
    simp [write]
  have hlength : (commaJoin (writeItems items)).length < fuel := by
    simp only [write, List.length_cons, List.length_append] at hfuel
    omega
  rw [hwrite]
  cases items with
  | nil => exact congrArg (fun d => some (d, rest)) hnested
  | cons d items =>
    have hstart := (h d List.mem_cons_self).start_items items
    rw [value?_list (hstart.append _), items?_writeItems (List.cons_ne_nil d items) h hlength]
    exact congrArg (fun d => some (d, rest)) hnested

/-- A table is read back if there is room for it and each of its members is. -/
theorem table {members : List (String × Datum)} (hroom : 0 < room)
    (h : ∀ m ∈ members, ReadsBack (room - 1) m.2) : ReadsBack room (.table members) := by
  refine of_succ ⟨_, _, rfl, rfl, by decide⟩ ?_
  intro fuel rest hfuel _
  have hnested : nested room (.table members) = .table members := if_neg (Nat.ne_of_gt hroom)
  have hwrite : write (.table members) ++ rest =
      '\x7b' :: (commaJoin (writeMembers members) ++ '\x7d' :: rest) := by
    simp [write]
  have hlength : (commaJoin (writeMembers members)).length < fuel := by
    simp only [write, List.length_cons, List.length_append] at hfuel
    omega
  rw [hwrite]
  cases members with
  | nil => exact congrArg (fun d => some (d, rest)) hnested
  | cons m members =>
    obtain ⟨tail, htail⟩ := exists_writeMembers_eq_cons m members
    have hmembers := members?_writeMembers (List.cons_ne_nil m members) h hlength rest
    rw [htail] at hmembers ⊢
    rw [List.cons_append, value?_table, ← List.cons_append, hmembers]
    exact congrArg (fun d => some (d, rest)) hnested

end ReadsBack

/-- **Data of integers are read back from their text**, if there is room for their nesting. -/
theorem readsBack {d : Datum} (hintegral : d.isIntegral = true) {room : Nat}
    (hdepth : d.depth ≤ room) : ReadsBack room d := by
  induction d using Datum.induction generalizing room with
  | null => exact .null
  | truth b => exact .truth b
  | int i => exact .int hintegral
  | real x => cases hintegral
  | text s => exact .text s
  | list items ih =>
    obtain ⟨hroom, hitems⟩ := Datum.depth_list_le_iff.mp hdepth
    rw [Datum.isIntegral_list_iff] at hintegral
    exact .list hroom fun d hd => ih d hd (hintegral d hd) (hitems d hd)
  | table members ih =>
    obtain ⟨hroom, hmembers⟩ := Datum.depth_table_le_iff.mp hdepth
    rw [Datum.isIntegral_table_iff] at hintegral
    exact .table hroom fun m hm => ih m hm (hintegral m hm) (hmembers m hm)
  | unreadable => cases hintegral

/-- **What is written as JSON is read back**, if its numbers are integers and it is not nested
deeper than the reader goes. -/
theorem parse?_textOf {d : Datum} (hintegral : d.isIntegral = true)
    (hdepth : d.depth ≤ depthLimit) : parse? (textOf d) = some d := by
  have hd : ReadsBack depthLimit d := readsBack hintegral hdepth
  -- the reader has fuel to spare
  have hvalue : value? (2 * (write d).length + 2) depthLimit (write d ++ []) = some (d, []) :=
    hd.value (by omega) .nothing
  rw [List.append_nil] at hvalue
  rw [parse?, textOf, String.toList_ofList, parseChars?, hd.start.skip_eq, hvalue]
  rfl

end Json

end Casewise
