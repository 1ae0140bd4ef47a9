import Casewise.Text.Invisible

/-!
# Casewise.Text.Quoted -- a text between quotes, each character told apart

`quote` writes a text on one line between double quotes. A few characters have a short escape
(`shortEscapes`), and every other character that does not show as itself (`isInvisible`) is written
by its code point in hexadecimal: `\u` and the digits between braces. A single quote stands as it
is.

Nothing that `quote` writes is a control, so a quoted text never breaks a line
(`not_isControl_of_mem_quote`).
-/

namespace Casewise.Text

/-- The code point of `c` in lower case hexadecimal, braced, after `\u`. -/
def escapeCode (c : Char) : List Char :=
  '\\' :: 'u' :: '\x7b' :: (Nat.toDigits 16 c.toNat ++ ['\x7d'])

/-- The characters with a short escape, and the letter that stands for each. -/
def shortEscapes : List (Char × Char) :=
  [('\x00', '0'), ('\t', 't'), ('\n', 'n'), ('\r', 'r'), ('"', '"'), ('\\', '\\')]

/-- How one character is written between quotes. -/
def escape (c : Char) : List Char :=
  match shortEscapes.lookup c with
  | some letter => ['\\', letter]
  | none => if isInvisible c then escapeCode c else [c]

/-- **The quoted form of a text.** -/
def quote (cs : List Char) : List Char := '"' :: (cs.flatMap escape ++ ['"'])

/-! ## What a quoted text holds -/

theorem not_isControl_of_mem_toDigits {n : Nat} {c : Char} (h : c ∈ Nat.toDigits 16 n) :
    isControl c = false := by
  have key : ∀ d < 16, isControl (Nat.digitChar d) = false := by decide
  induction n using Nat.strongRecOn generalizing c with
  | _ n ih =>
    by_cases hn : n < 16
    · rw [Nat.toDigits_of_lt_base hn, List.mem_singleton] at h
      exact h ▸ key n hn
    · rw [Nat.toDigits_of_base_le (by decide) (Nat.le_of_not_lt hn), List.mem_append,
        List.mem_singleton] at h
      rcases h with h | h
      · exact ih (n / 16) (Nat.div_lt_self (by omega) (by decide)) h
      · exact h ▸ key (n % 16) (Nat.mod_lt _ (by decide))

theorem not_isControl_of_mem_escape {c d : Char} (h : d ∈ escape c) : isControl d = false := by
  unfold escape at h
  split at h
  · rename_i letter hletter
    have hmem : (c, letter) ∈ shortEscapes := by
      obtain ⟨before, after, heq, -⟩ := List.lookup_eq_some_iff.mp hletter
      exact heq ▸ List.mem_append_right before List.mem_cons_self
    have key : ∀ e ∈ shortEscapes, isControl e.2 = false := by decide
    simp only [List.mem_cons, List.not_mem_nil, or_false] at h
    rcases h with rfl | rfl
    · decide
    · exact key _ hmem
  · split at h
    · simp only [escapeCode, List.mem_cons, List.mem_append, List.not_mem_nil, or_false] at h
      rcases h with rfl | rfl | rfl | h | rfl
      · decide
      · decide
      · decide
      · exact not_isControl_of_mem_toDigits h
      · decide
    · rename_i hvisible
      obtain rfl := List.mem_singleton.mp h
      cases hc : isControl d with
      | false => rfl
      | true => exact absurd (isInvisible_of_isControl hc) hvisible

/-- A quoted text holds no control, a line break least of all. -/
theorem not_isControl_of_mem_quote {cs : List Char} {d : Char} (h : d ∈ quote cs) :
    isControl d = false := by
  simp only [quote, List.mem_cons, List.mem_append, List.mem_flatMap, List.not_mem_nil,
    or_false] at h
  rcases h with rfl | ⟨c, _, h⟩ | rfl
  · decide
  · exact not_isControl_of_mem_escape h
  · decide

end Casewise.Text
