import Mathlib.Data.List.Basic
import Casewise.Listing
import Casewise.Proofs.JsonText
import Casewise.Proofs.Names

/-!
# Casewise.Proofs.Rendering -- the arguments can be told from their rendering

A listing shows of each argument its name, an equals sign and its value, with a comma and a blank
between one argument and the next. All of these characters can also stand in a value: a text may be
`", y="`, and so may the name of a member somewhere inside it. It still takes nothing but the
rendering to tell the arguments, and this module says why.

The argument is that each piece of the notation shows its own end. An escape is not the start of
another one, and none of them starts with a quote, so a quoted text ends at its first bare quote
(`quote_append_inj`). A number ends where a stop follows, a comma or a closing bracket; everything
else ends by itself. `Told` is the property that is carried through the induction on data: what
is shown of a value, with a stop or nothing behind it, is shown of no other value and ends nowhere
else. Parts with commas between them are told one after the other (`commaJoin_append_inj`), in a
list, in a table, and in the rendering itself. Reals are left out: what is shown of them is left to
the choice of digits.
-/

namespace Casewise

namespace Text

/-! ## Digits and escapes -/

theorem digitChar_inj {m n : Nat} (hm : m < 16) (hn : n < 16)
    (h : Nat.digitChar m = Nat.digitChar n) : m = n := by
  have hall : ∀ i j : Fin 16, Nat.digitChar i = Nat.digitChar j → i = j := by decide
  exact congrArg Fin.val (hall ⟨m, hm⟩ ⟨n, hn⟩ h)

/-- **The digits of a number tell the number**, in any base up to sixteen. -/
theorem toDigits_inj {base m n : Nat} (hbase : 1 < base) (hbase' : base ≤ 16)
    (h : Nat.toDigits base m = Nat.toDigits base n) : m = n := by
  have hlong : ∀ {k}, base ≤ k →
      Nat.toDigits base k = Nat.toDigits base (k / base) ++ [(k % base).digitChar] :=
    fun hk => Nat.toDigits_of_base_le hbase hk
  have hmod : ∀ k, k % base < 16 := fun k =>
    Nat.lt_of_lt_of_le (Nat.mod_lt k (by omega)) hbase'
  induction m using Nat.strongRecOn generalizing n with
  | ind m ih =>
    rcases Nat.lt_or_ge m base with hm | hm <;> rcases Nat.lt_or_ge n base with hn | hn
    · rw [Nat.toDigits_of_lt_base hm, Nat.toDigits_of_lt_base hn] at h
      exact digitChar_inj (by omega) (by omega) (List.cons.inj h).1
    · rw [Nat.toDigits_of_lt_base hm, hlong hn] at h
      exact absurd (List.singleton_eq_append_iff.mp h) (by simp [Nat.toDigits_ne_nil])
    · rw [Nat.toDigits_of_lt_base hn, hlong hm] at h
      exact absurd (List.append_eq_singleton_iff.mp h) (by simp [Nat.toDigits_ne_nil])
    · -- the last digits are the same, and so are the numbers in front of them
      rw [hlong hm, hlong hn] at h
      obtain ⟨hfront, hlast⟩ := List.append_inj' h rfl
      have hquotient := ih (m / base) (Nat.div_lt_self (by omega) hbase) hfront
      have hremainder := digitChar_inj (hmod m) (hmod n) (List.cons.inj hlast).1
      rw [← Nat.div_add_mod m base, ← Nat.div_add_mod n base, hquotient, hremainder]

/-- **The three ways to escape a character.** -/
inductive Escaped : Char → List Char → Prop where
  | short {c letter : Char} (mem : (c, letter) ∈ shortEscapes) : Escaped c ['\\', letter]
  | code (c : Char) : Escaped c (escapeCode c)
  | plain {c : Char} (quote : c ≠ '"') (backslash : c ≠ '\\') : Escaped c [c]

theorem escaped_escape (c : Char) : Escaped c (escape c) := by
  unfold escape
  split
  · rename_i letter hlookup
    obtain ⟨before, after, hsplit, _⟩ := List.lookup_eq_some_iff.mp hlookup
    refine .short ?_
    rw [hsplit]
    exact List.mem_append_right _ List.mem_cons_self
  · rename_i hlookup
    have hnone := List.lookup_eq_none_iff.mp hlookup
    split
    · exact .code c
    · refine .plain ?_ ?_
      · rintro rfl
        exact absurd (hnone ('"', '"') (by decide)) (by decide)
      · rintro rfl
        exact absurd (hnone ('\\', '\\') (by decide)) (by decide)

/-- The letters of the short escapes differ, and none of them starts a code. -/
theorem shortEscapes_letters :
    (∀ e ∈ shortEscapes, ∀ f ∈ shortEscapes, e.2 = f.2 → e.1 = f.1) ∧
      ∀ e ∈ shortEscapes, e.2 ≠ 'u' := by
  decide

theorem ne_of_mem_toDigits {n : Nat} {c d : Char} (hd : ∀ k < 16, Nat.digitChar k ≠ d)
    (hc : c ∈ Nat.toDigits 16 n) : c ≠ d := by
  induction n using Nat.strongRecOn with
  | ind n ih =>
    by_cases hlt : n < 16
    · rw [Nat.toDigits_of_lt_base hlt, List.mem_singleton] at hc
      exact hc ▸ hd n hlt
    · rw [Nat.toDigits_of_base_le (by decide) (by omega), List.mem_append,
        List.mem_singleton] at hc
      rcases hc with hfront | hlast
      · exact ih (n / 16) (by omega) hfront
      · exact hlast ▸ hd (n % 16) (by omega)

/-- **Two texts end at the same place** if each goes on as long as its characters are of a kind and
neither is followed by one of that kind. -/
theorem append_inj_of_span {kind : Char → Bool} {xs ys r s : List Char}
    (hxs : ∀ c ∈ xs, kind c = true) (hys : ∀ c ∈ ys, kind c = true)
    (hr : ∀ c ∈ r.head?, kind c = false) (hs : ∀ c ∈ s.head?, kind c = false)
    (h : xs ++ r = ys ++ s) : xs = ys ∧ r = s := by
  have hend : ∀ {t : List Char}, (∀ c ∈ t.head?, kind c = false) → t.takeWhile kind = [] := by
    intro t ht
    cases t with
    | nil => rfl
    | cons c t => exact List.takeWhile_cons_of_neg (by simp [ht c rfl])
  have htaken := congrArg (List.takeWhile kind) h
  rw [List.takeWhile_append_of_pos hxs, List.takeWhile_append_of_pos hys, hend hr, hend hs,
    List.append_nil, List.append_nil] at htaken
  subst htaken
  exact ⟨rfl, List.append_cancel_left h⟩

/-- A code ends at its brace. -/
theorem escapeCode_append_inj {c d : Char} {r s : List Char}
    (h : escapeCode c ++ r = escapeCode d ++ s) : c = d ∧ r = s := by
  have hdigits : ∀ n, ∀ x ∈ Nat.toDigits 16 n, (x != '\x7d') = true := fun n x hx =>
    bne_iff_ne.mpr (ne_of_mem_toDigits (by decide) hx)
  simp only [escapeCode, List.cons_append, List.append_assoc, List.nil_append, List.cons.injEq,
    true_and] at h
  obtain ⟨hcode, hrest⟩ := append_inj_of_span (hdigits _) (hdigits _)
    (by simp) (by simp) h
  exact ⟨Char.toNat_inj.mp (toDigits_inj (by decide) (by decide) hcode), (List.cons.inj hrest).2⟩

/-- **No escape is the start of another one**: a character is told from how it is escaped, whatever
follows. -/
theorem escape_append_inj {c d : Char} {r s : List Char} (h : escape c ++ r = escape d ++ s) :
    c = d ∧ r = s := by
  have hc := escaped_escape c
  have hd := escaped_escape d
  generalize escape c = xs at hc h
  generalize escape d = ys at hd h
  obtain ⟨hletters, hnoCode⟩ := shortEscapes_letters
  cases hc with
  | short hmem =>
    cases hd with
    | short hmem' =>
      simp only [List.cons_append, List.nil_append, List.cons.injEq, true_and] at h
      exact ⟨hletters _ hmem _ hmem' h.1, h.2⟩
    | code => exact absurd (List.cons.inj (List.cons.inj h).2).1 (hnoCode _ hmem)
    | plain _ hbackslash => exact absurd (List.cons.inj h).1.symm hbackslash
  | code =>
    cases hd with
    | short hmem' => exact absurd (List.cons.inj (List.cons.inj h).2).1.symm (hnoCode _ hmem')
    | code => exact escapeCode_append_inj h
    | plain _ hbackslash => exact absurd (List.cons.inj h).1.symm hbackslash
  | plain _ hbackslash =>
    cases hd with
    | short => exact absurd (List.cons.inj h).1 hbackslash
    | code => exact absurd (List.cons.inj h).1 hbackslash
    | plain => exact List.cons.inj h

/-- An escape is not empty and does not start like the end of a quoted text. -/
theorem escape_append_ne (c : Char) (r s : List Char) : escape c ++ r ≠ '"' :: s := by
  have hc := escaped_escape c
  generalize escape c = xs at hc
  intro h
  cases hc with
  | short => cases h
  | code => cases h
  | plain hquote => exact hquote (List.cons.inj h).1

/-- **A quoted text shows its own end**: it is told from what it is quoted as, whatever follows. -/
theorem quote_append_inj {xs ys r s : List Char} (h : quote xs ++ r = quote ys ++ s) :
    xs = ys ∧ r = s := by
  simp only [quote, List.cons_append, List.append_assoc, List.nil_append, List.cons.injEq,
    true_and] at h
  induction xs generalizing ys with
  | nil =>
    cases ys with
    | nil => exact ⟨rfl, (List.cons.inj h).2⟩
    | cons d ys =>
      rw [List.flatMap_cons, List.append_assoc] at h
      exact absurd h.symm (escape_append_ne d _ _)
  | cons c xs ih =>
    cases ys with
    | nil =>
      rw [List.flatMap_cons, List.append_assoc] at h
      exact absurd h (escape_append_ne c _ _)
    | cons d ys =>
      rw [List.flatMap_cons, List.flatMap_cons, List.append_assoc, List.append_assoc] at h
      obtain ⟨rfl, hrest⟩ := escape_append_inj h
      obtain ⟨rfl, hend⟩ := ih hrest
      exact ⟨rfl, hend⟩

/-! ## Parts that are told from what is shown of them -/

/-- What ends a value that is shown inside another one. -/
def closers : List Char := [')', ']', '\x7d']

/-- What may follow a value where it is shown: a comma, a closing bracket, or nothing at all. -/
def stops : List Char := ',' :: closers

/-- **What comes after a value.** -/
def Stopped (rest : List Char) : Prop := ∀ c ∈ rest.head?, c ∈ stops

/-- **What comes after the last of several values.** -/
def Closed (rest : List Char) : Prop := ∀ c ∈ rest.head?, c ∈ closers

theorem stopped_comma (rest : List Char) : Stopped (',' :: rest) := by
  simp [Stopped, stops]

theorem Closed.stopped {rest : List Char} (h : Closed rest) : Stopped rest :=
  fun c hc => List.mem_cons_of_mem _ (h c hc)

theorem closed_cons {c : Char} (h : c ∈ closers) (rest : List Char) : Closed (c :: rest) := by
  intro d hd
  obtain rfl := Option.some.inj hd
  exact h

theorem Closed.ne_comma {rest : List Char} (h : Closed rest) (after : List Char) :
    rest ≠ ',' :: after := by
  rintro rfl
  exact absurd (h ',' rfl) (by decide)

section Parts

variable {α : Type} (text : α → List Char) (among : α → Prop)

/-- **A thing is told from what is shown of it** among others: where it is shown, none of the others
is, and it ends nowhere else. -/
structure Told (a : α) : Prop where
  append_inj : ∀ {b : α} {r s : List Char}, among b → Stopped r → Stopped s →
    text a ++ r = text b ++ s → a = b ∧ r = s

/-- What is shown of a thing starts like neither a comma nor a bracket that closes. -/
def Starts (a : α) : Prop := ∃ c tail, text a = c :: tail ∧ c ∉ stops

variable {text among}

theorem Starts.append_ne {a : α} (h : Starts text a) (more : List Char) {rest : List Char}
    (hrest : Closed rest) : text a ++ more ≠ rest := by
  obtain ⟨c, tail, htext, hc⟩ := h
  rintro rfl
  rw [htext] at hrest
  exact hc (hrest.stopped c rfl)

/-- The parts after the first one, each after a comma and a blank. -/
def further (text : α → List Char) (parts : List α) : List Char :=
  parts.flatMap fun a => ',' :: ' ' :: text a

theorem commaJoin_map_cons (a : α) (parts : List α) :
    Outline.commaJoin ((a :: parts).map text) = text a ++ further text parts := by
  induction parts generalizing a with
  | nil => simp [Outline.commaJoin, further]
  | cons b parts ih =>
    rw [List.map_cons, List.map_cons, Outline.commaJoin, List.intercalate_cons_cons,
      ← List.map_cons, ← Outline.commaJoin, ih b]
    simp [further]

theorem stopped_further (parts : List α) {rest : List Char} (hrest : Closed rest) :
    Stopped (further text parts ++ rest) := by
  cases parts with
  | nil => exact hrest.stopped
  | cons a parts => exact stopped_comma _

/-- Behind the first part: each further one is told, and so is where the last one ends. -/
theorem further_append_inj {as bs : List α} {r s : List Char}
    (has : ∀ a ∈ as, Told text among a) (hbs : ∀ b ∈ bs, among b) (hr : Closed r) (hs : Closed s)
    (h : further text as ++ r = further text bs ++ s) : as = bs ∧ r = s := by
  induction as generalizing bs with
  | nil =>
    cases bs with
    | nil => exact ⟨rfl, h⟩
    | cons b bs => exact absurd h (hr.ne_comma _)
  | cons a as ih =>
    cases bs with
    | nil => exact absurd h.symm (hs.ne_comma _)
    | cons b bs =>
      obtain ⟨ha, hlater⟩ := List.forall_mem_cons.mp has
      obtain ⟨hb, hothers⟩ := List.forall_mem_cons.mp hbs
      simp only [further, List.flatMap_cons, List.cons_append, List.append_assoc,
        List.cons.injEq, true_and] at h
      obtain ⟨rfl, hrest⟩ := ha.append_inj hb (stopped_further as hr) (stopped_further bs hs) h
      obtain ⟨rfl, hend⟩ := ih hlater hothers hrest
      exact ⟨rfl, hend⟩

/-- **Parts with commas between them are told one by one**, up to what closes them. -/
theorem commaJoin_append_inj {as bs : List α} {r s : List Char}
    (has : ∀ a ∈ as, Told text among a) (hbs : ∀ b ∈ bs, among b)
    (hstarts : ∀ a, among a → Starts text a) (hamong : ∀ a ∈ as, among a)
    (hr : Closed r) (hs : Closed s)
    (h : Outline.commaJoin (as.map text) ++ r = Outline.commaJoin (bs.map text) ++ s) :
    as = bs ∧ r = s := by
  cases as with
  | nil =>
    cases bs with
    | nil => exact ⟨rfl, h⟩
    | cons b bs =>
      rw [commaJoin_map_cons, List.append_assoc] at h
      exact absurd h.symm ((hstarts b (hbs b List.mem_cons_self)).append_ne _ hr)
  | cons a as =>
    cases bs with
    | nil =>
      rw [commaJoin_map_cons, List.append_assoc] at h
      exact absurd h ((hstarts a (hamong a List.mem_cons_self)).append_ne _ hs)
    | cons b bs =>
      obtain ⟨ha, hlater⟩ := List.forall_mem_cons.mp has
      obtain ⟨hb, hothers⟩ := List.forall_mem_cons.mp hbs
      rw [commaJoin_map_cons, commaJoin_map_cons, List.append_assoc, List.append_assoc] at h
      obtain ⟨rfl, hrest⟩ := ha.append_inj hb (stopped_further as hr) (stopped_further bs hs) h
      obtain ⟨rfl, hend⟩ := further_append_inj hlater hothers hr hs hrest
      exact ⟨rfl, hend⟩

end Parts

end Text

open Text

/-! ## Numbers -/

namespace Json

/-- A digit or the sign of a numeral. -/
def isNumeral (c : Char) : Bool := c.isDigit || c == '-'

theorem isNumeral_of_mem_writeInt {i : Int} {c : Char} (h : c ∈ writeInt i) :
    isNumeral c = true := by
  have hdigits : ∀ c ∈ Nat.toDigits 10 i.natAbs, isNumeral c = true := by
    intro c hc
    have hdigit : c.isDigit = true := Nat.isDigit_of_mem_toDigits (by decide) (by decide) hc
    rw [isNumeral, hdigit, Bool.true_or]
  rw [writeInt] at h
  rcases List.mem_append.mp h with hsign | hdigit
  · split at hsign
    · obtain rfl := List.mem_singleton.mp hsign
      rfl
    · cases hsign
  · exact hdigits c hdigit

theorem writeInt_inj {i j : Int} (h : writeInt i = writeInt j) : i = j := by
  -- the digits of a number do not start with a sign
  have hsign : ∀ m n : Nat, '-' :: Nat.toDigits 10 m ≠ Nat.toDigits 10 n := by
    intro m n heq
    obtain ⟨c, tail, hcons, hc⟩ := toDigits_eq_cons n
    rw [hcons] at heq
    obtain ⟨rfl, _⟩ := List.cons.inj heq
    exact absurd hc (by decide)
  have hsize : ∀ {m n : Nat}, Nat.toDigits 10 m = Nat.toDigits 10 n → m = n :=
    toDigits_inj (by decide) (by decide)
  by_cases hi : i < 0 <;> by_cases hj : j < 0
  · rw [writeInt, writeInt, if_pos hi, if_pos hj] at h
    have := hsize (List.cons.inj h).2
    omega
  · rw [writeInt, writeInt, if_pos hi, if_neg hj] at h
    exact absurd h (hsign _ _)
  · rw [writeInt, writeInt, if_neg hi, if_pos hj] at h
    exact absurd h.symm (hsign _ _)
  · rw [writeInt, writeInt, if_neg hi, if_neg hj] at h
    have := hsize h
    omega

/-- **A number is told where a stop follows it.** -/
theorem writeInt_append_inj {i j : Int} {r s : List Char} (hr : Stopped r) (hs : Stopped s)
    (h : writeInt i ++ r = writeInt j ++ s) : i = j ∧ r = s := by
  have hstops : ∀ c ∈ stops, isNumeral c = false := by simp [stops, closers, isNumeral]
  obtain ⟨hnumber, hrest⟩ := append_inj_of_span (fun _ => isNumeral_of_mem_writeInt)
    (fun _ => isNumeral_of_mem_writeInt) (fun c hc => hstops c (hr c hc))
    (fun c hc => hstops c (hs c hc)) h
  exact ⟨writeInt_inj hnumber, hrest⟩

end Json

/-! ## Data -/

namespace Datum

/-- What is shown of a datum, on one line. -/
def shown (d : Datum) : List Char := d.outline.oneLine

/-- What is shown of a member of a table. -/
def shownMember (m : String × Datum) : List Char :=
  quote m.1.toList ++ [':', ' '] ++ shown m.2

theorem shown_null : shown .null = ['N', 'u', 'l', 'l'] := rfl

theorem shown_truth (b : Bool) :
    shown (.truth b) =
      'B' :: 'o' :: 'o' :: 'l' :: '(' :: ((if b then "true" else "false").toList ++ [')']) := by
  cases b <;> rfl

theorem shown_int (i : Int) :
    shown (.int i) = 'N' :: 'u' :: 'm' :: 'b' :: 'e' :: 'r' :: '(' ::
      (Json.writeInt i ++ [')']) := rfl

theorem shown_text (s : String) :
    shown (.text s) = 'S' :: 't' :: 'r' :: 'i' :: 'n' :: 'g' :: '(' ::
      (quote s.toList ++ [')']) := rfl

theorem shown_list (items : List Datum) :
    shown (.list items) = 'A' :: 'r' :: 'r' :: 'a' :: 'y' :: ' ' :: '[' ::
      (Outline.commaJoin (items.map shown) ++ [']']) := by
  have hitems : Outline.oneLineItems (outlineItems items) = items.map shown := by
    rw [outlineItems_eq_map, Outline.oneLineItems_eq_map, List.map_map]
    rfl
  rw [← hitems]
  rfl

theorem shown_table (members : List (String × Datum)) :
    shown (.table members) = 'O' :: 'b' :: 'j' :: 'e' :: 'c' :: 't' :: ' ' :: '\x7b' ::
      (Outline.commaJoin (members.map shownMember) ++ ['\x7d']) := by
  have hmembers : Outline.oneLineEntries (outlineMembers members) = members.map shownMember := by
    rw [outlineMembers_eq_map, Outline.oneLineEntries_eq_map, List.map_map]
    rfl
  rw [← hmembers]
  rfl

/-- What is shown of a datum starts with a letter. -/
theorem starts_shown {d : Datum} : Starts shown d := by
  cases d with
  | truth b => exact ⟨_, _, shown_truth b, by decide⟩
  | list items => exact ⟨_, _, shown_list items, by decide⟩
  | table members => exact ⟨_, _, shown_table members, by decide⟩
  | null | int | real | text | unreadable => exact ⟨_, _, rfl, by decide⟩

theorem starts_shownMember {m : String × Datum} : Starts shownMember m :=
  ⟨_, _, rfl, by decide⟩

/-- A datum all of whose numbers are integers. -/
def Integral (d : Datum) : Prop := d.isIntegral = true

/-- A member is told if its datum is: its name is quoted. -/
theorem told_member {m : String × Datum} (h : Told shown Integral m.2) :
    Told shownMember (fun m => Integral m.2) m := by
  refine ⟨fun {n r s} hn hr hs heq => ?_⟩
  simp only [shownMember, List.append_assoc] at heq
  obtain ⟨hname, hvalue⟩ := quote_append_inj heq
  simp only [List.cons_append, List.nil_append, List.cons.injEq, true_and] at hvalue
  obtain ⟨hdatum, hrest⟩ := h.append_inj hn hr hs hvalue
  exact ⟨Prod.ext (String.toList_inj.mp hname) hdatum, hrest⟩

theorem told_null : Told shown Integral .null := by
  refine ⟨fun {e r s} he _ _ h => ?_⟩
  rw [shown_null] at h
  cases e with
  | null => exact ⟨rfl, List.append_cancel_left h⟩
  | real | unreadable => cases he
  | _ => simp [shown_truth, shown_int, shown_text, shown_list, shown_table] at h

theorem told_truth (b : Bool) : Told shown Integral (.truth b) := by
  refine ⟨fun {e r s} he _ _ h => ?_⟩
  rw [shown_truth] at h
  cases e with
  | truth c =>
    rw [shown_truth] at h
    cases b <;> cases c
    · exact ⟨rfl, List.append_cancel_left h⟩
    · cases h
    · cases h
    · exact ⟨rfl, List.append_cancel_left h⟩
  | real | unreadable => cases he
  | _ => simp [shown_null, shown_int, shown_text, shown_list, shown_table] at h

theorem told_int (i : Int) : Told shown Integral (.int i) := by
  refine ⟨fun {e r s} he _ _ h => ?_⟩
  rw [shown_int] at h
  cases e with
  | int j =>
    simp only [shown_int, List.cons_append, List.append_assoc, List.nil_append, List.cons.injEq,
      true_and] at h
    obtain ⟨rfl, hrest⟩ := Json.writeInt_append_inj (closed_cons (by decide) r).stopped
      (closed_cons (by decide) s).stopped h
    exact ⟨rfl, (List.cons.inj hrest).2⟩
  | real | unreadable => cases he
  | _ => simp [shown_null, shown_truth, shown_text, shown_list, shown_table] at h

theorem told_text (t : String) : Told shown Integral (.text t) := by
  refine ⟨fun {e r s} he _ _ h => ?_⟩
  rw [shown_text] at h
  cases e with
  | text u =>
    simp only [shown_text, List.cons_append, List.append_assoc, List.nil_append, List.cons.injEq,
      true_and] at h
    obtain ⟨hchars, hrest⟩ := quote_append_inj h
    exact ⟨congrArg text (String.toList_inj.mp hchars), (List.cons.inj hrest).2⟩
  | real | unreadable => cases he
  | _ => simp [shown_null, shown_truth, shown_int, shown_list, shown_table] at h

theorem told_list {items : List Datum} (hitems : ∀ d ∈ items, Integral d)
    (h : ∀ d ∈ items, Told shown Integral d) : Told shown Integral (.list items) := by
  refine ⟨fun {e r s} he _ _ heq => ?_⟩
  rw [shown_list] at heq
  cases e with
  | list others =>
    simp only [shown_list, List.cons_append, List.append_assoc, List.nil_append, List.cons.injEq,
      true_and] at heq
    obtain ⟨rfl, hrest⟩ := commaJoin_append_inj h (isIntegral_list_iff.mp he)
      (fun _ _ => starts_shown) hitems (closed_cons (by decide) r) (closed_cons (by decide) s) heq
    exact ⟨rfl, (List.cons.inj hrest).2⟩
  | real | unreadable => cases he
  | _ => simp [shown_null, shown_truth, shown_int, shown_text, shown_table] at heq

theorem told_table {members : List (String × Datum)} (hmembers : ∀ m ∈ members, Integral m.2)
    (h : ∀ m ∈ members, Told shown Integral m.2) : Told shown Integral (.table members) := by
  refine ⟨fun {e r s} he _ _ heq => ?_⟩
  rw [shown_table] at heq
  cases e with
  | table others =>
    simp only [shown_table, List.cons_append, List.append_assoc, List.nil_append, List.cons.injEq,
      true_and] at heq
    obtain ⟨rfl, hrest⟩ := commaJoin_append_inj (fun m hm => told_member (h m hm))
      (isIntegral_table_iff.mp he) (fun _ _ => starts_shownMember) hmembers
      (closed_cons (by decide) r) (closed_cons (by decide) s) heq
    exact ⟨rfl, (List.cons.inj hrest).2⟩
  | real | unreadable => cases he
  | _ => simp [shown_null, shown_truth, shown_int, shown_text, shown_list] at heq

/-- **Data of integers are told from what is shown of them.** -/
theorem told {d : Datum} (hd : d.Integral) : Told shown Integral d := by
  induction d using Datum.induction with
  | null => exact told_null
  | truth b => exact told_truth b
  | int i => exact told_int i
  | real x => cases hd
  | text t => exact told_text t
  | list items ih =>
    have hitems := isIntegral_list_iff.mp hd
    exact told_list hitems fun e he => ih e he (hitems e he)
  | table members ih =>
    have hmembers := isIntegral_table_iff.mp hd
    exact told_table hmembers fun m hm => ih m hm (hmembers m hm)
  | unreadable => cases hd

end Datum

/-! ## Cells -/

namespace Cell

variable {V : Type} [Cell V]

/-- What is shown of a cell, on one line. -/
def shown (v : V) : List Char := (outline v).oneLine

theorem told_int64 (i : Int64) : Told shown (fun _ : Int64 => True) i := by
  refine ⟨fun {j r s} _ hr hs h => ?_⟩
  have hwritten : Json.writeInt i.toInt ++ r = Json.writeInt j.toInt ++ s := h
  obtain ⟨hnumber, hrest⟩ := Json.writeInt_append_inj hr hs hwritten
  exact ⟨Int64.toInt_inj.mp hnumber, hrest⟩

theorem told_bool (b : Bool) : Told shown (fun _ : Bool => True) b := by
  refine ⟨fun {c r s} _ _ _ h => ?_⟩
  cases b <;> cases c
  · exact ⟨rfl, List.append_cancel_left h⟩
  · cases h
  · cases h
  · exact ⟨rfl, List.append_cancel_left h⟩

theorem told_string (t : String) : Told shown (fun _ : String => True) t := by
  refine ⟨fun {u r s} _ _ _ h => ?_⟩
  have hquoted : quote t.toList ++ r = quote u.toList ++ s := h
  obtain ⟨hchars, hrest⟩ := quote_append_inj hquoted
  exact ⟨String.toList_inj.mp hchars, hrest⟩

/-- A cell that may be missing is told if the cell is. -/
theorem told_option (h : ∀ v : V, Told shown (fun _ => True) v) (o : Option V) :
    Told shown (fun _ : Option V => True) o := by
  have hnone : shown (none : Option V) = ['N', 'o', 'n', 'e'] := rfl
  have hsome : ∀ v : V, shown (some v) = 'S' :: 'o' :: 'm' :: 'e' :: '(' :: (shown v ++ [')']) := by
    intro v
    rw [← Json.commaJoin_singleton (shown v)]
    rfl
  refine ⟨fun {p r s} _ _ _ heq => ?_⟩
  cases o with
  | none =>
    cases p with
    | none => exact ⟨rfl, List.append_cancel_left heq⟩
    | some w => simp [hnone, hsome] at heq
  | some v =>
    cases p with
    | none => simp [hnone, hsome] at heq
    | some w =>
      simp only [hsome, List.cons_append, List.append_assoc, List.nil_append, List.cons.injEq,
        true_and] at heq
      obtain ⟨rfl, hrest⟩ := (h v).append_inj trivial (closed_cons (by decide) r).stopped
        (closed_cons (by decide) s).stopped heq
      exact ⟨rfl, (List.cons.inj hrest).2⟩

theorem told_value (v : Value) (hv : v.datum.Integral) :
    Told shown (fun v : Value => v.datum.Integral) v := by
  refine ⟨fun {w r s} hw hr hs h => ?_⟩
  obtain ⟨hdatum, hrest⟩ := (Datum.told hv).append_inj hw hr hs h
  obtain ⟨d, _⟩ := v
  obtain ⟨e, _⟩ := w
  obtain rfl : d = e := hdatum
  exact ⟨rfl, hrest⟩

end Cell

/-! ## Arguments -/

namespace Arguments

variable {V : Type} [Cell V] {among : V → Prop}

open Identifier

/-- An entry that may be told: its name is an identifier, and its value is among those that are
told. -/
def MayTell (among : V → Prop) (e : String × V) : Prop := IsIdentifier e.1 ∧ among e.2

omit [Cell V] in
theorem ne_equals_of_mem {name : String} (h : IsIdentifier name) :
    ∀ c ∈ name.toList, (c != '=') = true := by
  intro c hc
  refine bne_iff_ne.mpr ?_
  rintro rfl
  exact absurd (isPart_iff.mpr (h.isWord hc)) (by decide)

theorem starts_renderEntry {e : String × V} (h : IsIdentifier e.1) : Starts renderEntry e := by
  obtain ⟨_, c, rest, hchars, hc, _⟩ := id h
  refine ⟨c, rest ++ '=' :: (Cell.outline e.2).oneLine, ?_, ?_⟩
  · rw [renderEntry, hchars, List.cons_append]
  · intro hstop
    have hstops : ∀ c ∈ stops, ¬ isStart c = true := by simp [stops, closers, isStart]
    exact hstops c hstop (isStart_iff.mpr hc)

/-- An entry is told if its value is: its name ends at the equals sign. -/
theorem told_entry (htold : ∀ v, among v → Told Cell.shown among v) {e : String × V}
    (he : MayTell among e) : Told renderEntry (MayTell among) e := by
  refine ⟨fun {f r s} hf hr hs h => ?_⟩
  simp only [renderEntry, List.append_assoc, List.cons_append] at h
  obtain ⟨hname, hvalue⟩ := append_inj_of_span (ne_equals_of_mem he.1) (ne_equals_of_mem hf.1)
    (by simp) (by simp) h
  obtain ⟨hcell, hrest⟩ := (htold e.2 he.2).append_inj hf.2 hr hs (List.cons.inj hvalue).2
  exact ⟨Prod.ext (String.toList_inj.mp hname) hcell, hrest⟩

/-- **Arguments are told from their rendering**, if their names are identifiers and the values are
told from what is shown of them. -/
theorem render_eq_iff (htold : ∀ v, among v → Told Cell.shown among v) {a b : Arguments V}
    (ha : ∀ e ∈ a.entries, MayTell among e) (hb : ∀ e ∈ b.entries, MayTell among e) :
    a.render = b.render ↔ a.entries = b.entries := by
  constructor
  · intro h
    have hchars : a.renderChars = b.renderChars := String.ofList_injective h
    have happend : Outline.commaJoin (a.entries.map renderEntry) ++ [] =
        Outline.commaJoin (b.entries.map renderEntry) ++ [] := by
      rw [List.append_nil, List.append_nil]
      exact hchars
    have hclosed : Closed [] := fun c hc => absurd hc (by simp)
    exact (commaJoin_append_inj (fun e he => told_entry htold (ha e he)) hb
      (fun e he => starts_renderEntry he.1) ha hclosed hclosed happend).1
  · intro h
    rw [render, renderChars, h]
    rfl

/-- In a line of a listing the arguments stand behind what does not depend on them. -/
theorem render_line_eq_iff {R : Type} {a b : Arguments V} (f : TestFunction V R)
    (dataSet : String) (coloured : Bool) :
    (f.instantiate dataSet a).line.render coloured =
        (f.instantiate dataSet b).line.render coloured ↔ a.render = b.render := by
  have hline : ∀ c : Arguments V, Styled.chars coloured (f.instantiate dataSet c).line =
      Styled.chars coloured
        [⟨some ⟨.green, true⟩, qualify f.origin.modulePath (generatedName f.name dataSet)⟩,
          ⟨some ⟨.yellow, false⟩, "  [" ++ dataSet ++ "]"⟩, .plain "  "] ++
        (c.render.toList ++ ['\n']) := by
    intro c
    simp [TestCase.line, TestFunction.instantiate, TestCase.qualifiedName, Styled.chars,
      Span.chars, Span.plain]
  rw [Styled.render, Styled.render, hline, hline, String.ofList_inj, List.append_cancel_left_eq,
    List.append_cancel_right_eq, String.toList_inj]

/-- **Two sets of arguments that can be told apart** from how they are listed: by their rendering,
and by the line of a test that is run on them. -/
structure ToldApart (a b : Arguments V) : Prop where
  render : a.render = b.render ↔ a.entries = b.entries
  line : ∀ (R : Type) (f : TestFunction V R) (dataSet : String) (coloured : Bool),
    (f.instantiate dataSet a).line.render coloured =
      (f.instantiate dataSet b).line.render coloured ↔ a.entries = b.entries

theorem toldApart (htold : ∀ v, among v → Told Cell.shown among v) {a b : Arguments V}
    (ha : ∀ e ∈ a.entries, MayTell among e) (hb : ∀ e ∈ b.entries, MayTell among e) :
    ToldApart a b where
  render := render_eq_iff htold ha hb
  line _ f dataSet coloured :=
    (render_line_eq_iff f dataSet coloured).trans (render_eq_iff htold ha hb)

/-- Where all values are told, it is enough that the names are identifiers. -/
theorem toldApart_of_names (htold : ∀ v : V, Told Cell.shown (fun _ => True) v) {a b : Arguments V}
    (ha : ∀ name ∈ a.names, IsIdentifier name) (hb : ∀ name ∈ b.names, IsIdentifier name) :
    ToldApart a b :=
  toldApart (fun v _ => htold v) (fun e he => ⟨ha e.1 (List.mem_map_of_mem he), trivial⟩)
    fun e he => ⟨hb e.1 (List.mem_map_of_mem he), trivial⟩

/-- **A rendering loses nothing.** Arguments whose names are identifiers have the same rendering
just if they are the same names and values in the same order, and it is the same with the line that
is listed of a test, in colours or without. Words, truth values, texts and cells that may be missing
can be of any kind, and values of open type may hold anything but reals, to any depth. -/
theorem rendering_loses_nothing :
    (∀ a b : Arguments Int64, (∀ name ∈ a.names, IsIdentifier name) →
      (∀ name ∈ b.names, IsIdentifier name) → ToldApart a b) ∧
    (∀ a b : Arguments Bool, (∀ name ∈ a.names, IsIdentifier name) →
      (∀ name ∈ b.names, IsIdentifier name) → ToldApart a b) ∧
    (∀ a b : Arguments (Option Int64), (∀ name ∈ a.names, IsIdentifier name) →
      (∀ name ∈ b.names, IsIdentifier name) → ToldApart a b) ∧
    (∀ a b : Arguments String, (∀ name ∈ a.names, IsIdentifier name) →
      (∀ name ∈ b.names, IsIdentifier name) → ToldApart a b) ∧
    ∀ a b : Arguments Value, (∀ name ∈ a.names, IsIdentifier name) →
      (∀ name ∈ b.names, IsIdentifier name) →
      (∀ e ∈ a.entries, e.2.datum.isIntegral = true) →
      (∀ e ∈ b.entries, e.2.datum.isIntegral = true) → ToldApart a b := by
  refine ⟨?_, ?_, ?_, ?_, ?_⟩
  · exact fun a b => toldApart_of_names Cell.told_int64
  · exact fun a b => toldApart_of_names Cell.told_bool
  · exact fun a b => toldApart_of_names (Cell.told_option Cell.told_int64)
  · exact fun a b => toldApart_of_names Cell.told_string
  · intro a b ha hb hintegral hintegral'
    refine toldApart Cell.told_value ?_ ?_
    · exact fun e he => ⟨ha e.1 (List.mem_map_of_mem he), hintegral e he⟩
    · exact fun e he => ⟨hb e.1 (List.mem_map_of_mem he), hintegral' e he⟩

/-- One argument that reads like the end of one text and the start of another. -/
def oneText : Arguments String := ⟨[("x", "\", y=\"")]⟩

/-- Two arguments without any text. -/
def twoTexts : Arguments String := ⟨[("x", ""), ("y", "")]⟩

/-- A list of one text that reads like the end of an item and the start of another. -/
def oneItem : Arguments Value := ⟨[("x", ⟨.list [.text "\"), String(\""], rfl⟩)]⟩

/-- A list of two items without any text. -/
def twoItems : Arguments Value := ⟨[("x", ⟨.list [.text "", .text ""], rfl⟩)]⟩

/-- No text passes for two, neither among the arguments nor inside a value. -/
theorem one_text_not_two :
    ((∀ name ∈ oneText.names, IsIdentifier name) ∧ (∀ name ∈ twoTexts.names, IsIdentifier name) ∧
      ToldApart oneText twoTexts ∧ oneText.render ≠ twoTexts.render) ∧
    (∀ name ∈ oneItem.names, IsIdentifier name) ∧ (∀ name ∈ twoItems.names, IsIdentifier name) ∧
      (∀ e ∈ oneItem.entries, e.2.datum.isIntegral = true) ∧
      (∀ e ∈ twoItems.entries, e.2.datum.isIntegral = true) ∧
      ToldApart oneItem twoItems ∧ oneItem.render ≠ twoItems.render := by
  obtain ⟨-, -, -, htexts, hvalues⟩ := rendering_loses_nothing
  have htext : ToldApart oneText twoTexts := htexts _ _ (by decide) (by decide)
  have hitem : ToldApart oneItem twoItems :=
    hvalues _ _ (by decide) (by decide) (by decide) (by decide)
  refine ⟨⟨by decide, by decide, htext, fun h => ?_⟩, by decide, by decide, by decide, by decide,
    hitem, fun h => ?_⟩
  · have hentries := congrArg List.length (htext.render.mp h)
    cases hentries
  · have hdata := congrArg (List.map fun e => e.2.datum) (hitem.render.mp h)
    simp [oneItem, twoItems] at hdata

end Arguments

end Casewise
