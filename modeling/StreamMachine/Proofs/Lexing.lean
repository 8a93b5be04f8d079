import Mathlib.Data.List.Basic
import StreamMachine.Json.Token

/-! Tokens of a text, without fuel, and what becomes of the strings and the numbers that are written:
each comes to one token that is read back as what was written, with whatever stands behind it left. -/
namespace StreamMachine.Json

/-! ### Strings -/

/-- The three ways of writing a character. -/
inductive Written (c : Char) : List Char → Prop
  | plain (quote : c ≠ '"') (backslash : c ≠ '\\') (printable : ¬c.toNat < 0x20) : Written c [c]
  | short (letter : Char) (unit : letter ≠ 'u') (means : simpleEscape? letter = some c) :
      Written c ['\\', letter]
  | unit (a b d e : Char) (control : c.toNat < 0x20) (means : hexUnit? a b d e = some c.toNat) :
      Written c ['\\', 'u', a, b, d, e]

/-- Control characters take two digits. -/
theorem hexDigits_of_control : ∀ n < 0x20,
    hexDigits n 4 = ['0', '0', Nat.digitChar (n / 16), Nat.digitChar (n % 16)] ∧
      hexUnit? '0' '0' (Nat.digitChar (n / 16)) (Nat.digitChar (n % 16)) = some n := by
  decide

theorem written_escape (c : Char) : Written c (escape c) := by
  unfold escape
  split
  case h_8 quote backslash _ _ _ _ _ =>
    split
    next control =>
      obtain ⟨digits, means⟩ := hexDigits_of_control c.toNat control
      rw [digits]
      exact .unit _ _ _ _ control means
    next printable => exact .plain quote backslash printable
  all_goals exact .short _ (by decide) rfl

theorem skipString_escape (c : Char) (rest : List Char) :
    skipString (escape c ++ rest) = skipString rest := by
  have written := written_escape c
  generalize escape c = text at written
  cases written with
  | plain quote backslash printable => simp [skipString, backslash, printable]
  | short letter unit means => simp [skipString, unit, means]
  | unit a b d e control means => simp [skipString, means]

theorem readChars_escape (c : Char) (rest : List Char) :
    readChars none (escape c ++ rest) = consChar c (readChars none rest) := by
  have written := written_escape c
  generalize escape c = text at written
  cases written with
  | plain quote backslash printable => simp [readChars, backslash, printable]
  | short letter unit means => simp [readChars, unit, means]
  | unit a b d e control means =>
    have low : isLowSurrogate c.toNat = false := by simp [isLowSurrogate]; omega
    have high : isHighSurrogate c.toNat = false := by simp [isHighSurrogate]; omega
    simp [readChars, means, low, high]

variable {rest : List Char}

theorem skipString_written (cs : List Char) :
    skipString (cs.flatMap escape ++ '"' :: rest) = .ok rest := by
  induction cs with
  | nil => simp [skipString]
  | cons c cs ih => rw [List.flatMap_cons, List.append_assoc, skipString_escape, ih]

theorem readChars_written (cs : List Char) :
    readChars none (cs.flatMap escape ++ '"' :: rest) = .ok (cs, rest) := by
  induction cs with
  | nil => simp [readChars]
  | cons c cs ih =>
    rw [List.flatMap_cons, List.append_assoc, readChars_escape, ih]
    rfl

theorem readString_written (s : String) :
    readString (s.toList.flatMap escape ++ '"' :: rest) = .ok (s, rest) := by
  rw [readString, readChars_written]
  exact congrArg (fun s => Except.ok (s, rest)) String.ofList_toList

/-! ### Numbers -/

/-- Texts that cannot be taken for more of a number. -/
def Delimited : List Char → Prop
  | [] => True
  | c :: _ => c.isDigit = false ∧ c ≠ '.' ∧ c ≠ 'e' ∧ c ≠ 'E'

theorem startsWithDigit_of_delimited (h : Delimited rest) : startsWithDigit rest = false := by
  cases rest with
  | nil => rfl
  | cons c rest => exact h.1

theorem takeFraction_of_delimited (h : Delimited rest) : takeFraction rest = .ok (none, rest) := by
  cases rest with
  | nil => rfl
  | cons c rest => simp [takeFraction, h.2.1]

theorem takeExponent_of_delimited (h : Delimited rest) : takeExponent rest = .ok (none, rest) := by
  cases rest with
  | nil => rfl
  | cons c rest => simp [takeExponent, h.2.2.1, h.2.2.2]

/-- A decimal has a digit, and no decimal but that of zero starts with a zero. -/
theorem toDigits_eq_cons (n : Nat) : ∃ c cs, Nat.toDigits 10 n = c :: cs ∧
    (∀ d ∈ c :: cs, d.isDigit = true) ∧ (c = '0' → n = 0) := by
  have head : ∃ c cs, Nat.toDigits 10 n = c :: cs ∧ (c = '0' → n = 0) := by
    induction n using Nat.strongRecOn with
    | ind n ih =>
      by_cases small : n < 10
      · have zero : ∀ n < 10, Nat.digitChar n = '0' → n = 0 := by decide
        exact ⟨_, [], Nat.toDigits_of_lt_base small, zero n small⟩
      · obtain ⟨c, cs, digits, zero⟩ := ih (n / 10) (by omega)
        rw [Nat.toDigits_of_base_le (by decide) (by omega), digits]
        exact ⟨c, cs ++ [_], rfl, fun same => by have := zero same; omega⟩
  obtain ⟨c, cs, digits, zero⟩ := head
  exact ⟨c, cs, digits,
    fun d hd => Nat.isDigit_of_mem_toDigits (by decide) (by decide) (digits ▸ hd), zero⟩

theorem takeWhole_toDigits (n : Nat) (h : Delimited rest) :
    takeWhole (Nat.toDigits 10 n ++ rest) = .ok (Nat.toDigits 10 n, rest) := by
  by_cases zero : n = 0
  · simp [zero, takeWhole, startsWithDigit_of_delimited h]
  · obtain ⟨c, cs, digits, all, head⟩ := toDigits_eq_cons n
    have stop : rest.takeWhile Char.isDigit = [] ∧ rest.dropWhile Char.isDigit = rest := by
      cases rest with
      | nil => exact ⟨rfl, rfl⟩
      | cons d rest => simp [h.1]
    have starts : startsWithDigit (c :: cs ++ rest) = true := all c List.mem_cons_self
    rw [digits, takeWhole]
    · rw [if_pos starts, List.takeWhile_append_of_pos all, List.dropWhile_append_of_pos all, stop.1,
        stop.2, List.append_nil]
    · intro _ same
      exact zero (head (List.cons.inj same).1)

theorem le_ofDigitChars (cs : List Char) (n : Nat) : n ≤ Nat.ofDigitChars 10 cs n := by
  induction cs generalizing n with
  | nil => exact Nat.le_refl n
  | cons c cs ih =>
    rw [Nat.ofDigitChars_cons]
    exact Nat.le_trans (by omega) (ih _)

theorem digit_step (n : Nat) (c : Char) :
    n * 10 + digitValue c = 10 * n + (c.toNat - '0'.toNat) := by
  rw [Nat.mul_comm]
  rfl

theorem accumulate_eq {cs : List Char} {n : Nat}
    (fits : Nat.ofDigitChars 10 cs n < significandBound) :
    accumulate n cs = (Nat.ofDigitChars 10 cs n, []) := by
  induction cs generalizing n with
  | nil => rfl
  | cons c cs ih =>
    rw [Nat.ofDigitChars_cons] at fits ⊢
    have first := Nat.lt_of_le_of_lt (le_ofDigitChars cs _) fits
    rw [accumulate, digit_step]
    simp only [first, if_true]
    exact ih fits

theorem takeNumber_toDigits (n : Nat) (h : Delimited rest) :
    takeNumber (Nat.toDigits 10 n ++ rest) = .ok (⟨false, Nat.toDigits 10 n, none, none⟩, rest) := by
  obtain ⟨c, cs, digits, all, -⟩ := toDigits_eq_cons n
  have digit := all c List.mem_cons_self
  have unsigned : c ≠ '-' := by
    rintro rfl
    cases digit
  have whole := takeWhole_toDigits n h
  rw [digits, List.cons_append] at whole ⊢
  simp [takeNumber, unsigned, whole, takeFraction_of_delimited h, takeExponent_of_delimited h, bind,
    Except.bind, pure, Except.pure]

theorem readNumber_toDigits {n : Nat} (fits : n < significandBound) (h : Delimited rest) :
    readNumber (Nat.toDigits 10 n ++ rest) = .ok (.integer n, rest) := by
  have value : accumulate 0 (Nat.toDigits 10 n) = (n, []) := by
    rw [accumulate_eq] <;> rw [Nat.ofDigitChars_ten_toDigits]
    exact fits
  rw [readNumber, takeNumber_toDigits n h]
  simp [Lexeme.value, value, bind, Except.bind, pure, Except.pure]

theorem skipNumber_toDigits (n : Nat) (h : Delimited rest) :
    skipNumber (Nat.toDigits 10 n ++ rest) = .ok rest := by
  rw [skipNumber, takeNumber_toDigits n h]

/-! ### Tokens -/

theorem length_skipString {cs : List Char} (h : skipString cs = .ok rest) :
    rest.length < cs.length := by
  fun_induction skipString cs with
  | case2 rest' =>
    cases h
    exact Nat.lt_succ_self _
  | case4 a b c d rest' means ih =>
    have := ih h
    simp only [List.length_cons]
    omega
  | case7 e rest' _ _ means ih =>
    have := ih h
    simp only [List.length_cons]
    omega
  | case10 c rest' _ _ _ _ _ _ ih => exact Nat.lt_succ_of_lt (ih h)
  | _ => cases h

theorem length_dropWhile_le (p : Char → Bool) (cs : List Char) :
    (cs.dropWhile p).length ≤ cs.length :=
  (List.dropWhile_suffix p).length_le

theorem length_takeWhole {cs whole : List Char} (h : takeWhole cs = .ok (whole, rest)) :
    rest.length < cs.length := by
  unfold takeWhole at h
  split at h
  · split at h <;> cases h
    simp
  · split at h <;> cases h
    next starts =>
      cases cs with
      | nil => cases starts
      | cons c cs =>
        have digit : c.isDigit = true := starts
        have := length_dropWhile_le Char.isDigit cs
        simp [digit]
        omega

theorem length_takeFraction {cs : List Char} {fraction : Option (List Char)}
    (h : takeFraction cs = .ok (fraction, rest)) : rest.length ≤ cs.length := by
  unfold takeFraction at h
  split at h
  next cs =>
    split at h <;> cases h
    exact Nat.le_succ_of_le (length_dropWhile_le _ _)
  · cases h
    exact Nat.le_refl _

theorem length_takeSign (cs : List Char) : (takeSign cs).2.length ≤ cs.length := by
  unfold takeSign
  split <;> simp

theorem length_takeExponent {cs : List Char} {exponent : Option (Bool × List Char)}
    (h : takeExponent cs = .ok (exponent, rest)) : rest.length ≤ cs.length := by
  unfold takeExponent at h
  split at h
  case h_3 =>
    cases h
    exact Nat.le_refl _
  all_goals
    dsimp only at h
    split at h <;> cases h
    exact Nat.le_succ_of_le (Nat.le_trans (length_dropWhile_le _ _) (length_takeSign _))

theorem length_takeNumber {cs : List Char} {x : Lexeme} (h : takeNumber cs = .ok (x, rest)) :
    rest.length < cs.length := by
  unfold takeNumber at h
  dsimp only at h
  simp only [bind, Except.bind, pure, Except.pure] at h
  split at h
  · cases h
  next _ whole =>
    split at h
    · cases h
    next _ fraction =>
      split at h
      · cases h
      next _ exponent =>
        cases h
        calc
          _ ≤ _ := length_takeExponent exponent
          _ ≤ _ := length_takeFraction fraction
          _ < _ := length_takeWhole whole
          _ ≤ cs.length := by split <;> simp

theorem length_skipNumber {cs : List Char} (h : skipNumber cs = .ok rest) :
    rest.length < cs.length := by
  unfold skipNumber at h
  split at h <;> cases h
  next found => exact length_takeNumber found

theorem length_restOr {n : Nat} {skipped : Except Fault (List Char)}
    (h : ∀ rest, skipped = .ok rest → rest.length ≤ n) : (restOr skipped).length ≤ n := by
  cases skipped with
  | error fault => exact Nat.zero_le n
  | ok rest => exact h rest rfl

theorem length_takeWord {letters cs : List Char} (h : takeWord letters cs = .ok rest) :
    rest.length ≤ cs.length := by
  fun_induction takeWord letters cs with
  | case1 =>
    cases h
    exact Nat.le_refl _
  | case3 l ls cs ih => exact Nat.le_succ_of_le (ih h)
  | _ => cases h

theorem length_wordToken (token : Token) (letters cs : List Char) :
    (wordToken token letters cs).2.length ≤ cs.length := by
  unfold wordToken
  split
  next found => exact length_takeWord found
  · exact Nat.zero_le _

theorem length_nextToken (c : Char) (cs : List Char) : (nextToken c cs).2.length ≤ cs.length := by
  unfold nextToken
  split
  case h_10 => exact length_restOr fun rest found => Nat.le_of_lt (length_skipString found)
  all_goals try first | exact Nat.le_refl _ | exact length_wordToken ..
  split
  · exact length_restOr fun rest found => Nat.le_of_lt_succ (length_skipNumber found)
  · exact Nat.le_refl _

/-- All tokens of a text. -/
def lex (cs : List Char) : List Token := tokensFrom cs.length cs

theorem tokensFrom_eq_of_le {cs : List Char} {fuel other : Nat} (enough : cs.length ≤ fuel)
    (enough' : cs.length ≤ other) : tokensFrom fuel cs = tokensFrom other cs := by
  induction fuel generalizing cs other with
  | zero =>
    obtain rfl := List.length_eq_zero_iff.1 (Nat.le_zero.1 enough)
    cases other <;> rfl
  | succ fuel ih =>
    cases other with
    | zero =>
      obtain rfl := List.length_eq_zero_iff.1 (Nat.le_zero.1 enough')
      rfl
    | succ other =>
      have spaces := length_dropWhile_le isSpace cs
      simp only [tokensFrom]
      split
      · rfl
      next c rest found =>
        rw [found, List.length_cons] at spaces
        have shorter := length_nextToken c rest
        exact congrArg _ (ih (by omega) (by omega))

/-- A token is taken off the front of a text. -/
theorem lex_cons {c : Char} (mark : isSpace c = false) (cs : List Char) :
    lex (c :: cs) = (nextToken c cs).1 :: lex (nextToken c cs).2 := by
  have shorter := length_nextToken c cs
  rw [lex, List.length_cons, tokensFrom, List.dropWhile_cons_of_neg (by simp [mark])]
  exact congrArg _ (tokensFrom_eq_of_le shorter (Nat.le_refl _))

theorem lex_writeString (s : String) (rest : List Char) :
    lex (writeString s ++ rest) = .string (s.toList.flatMap escape ++ '"' :: rest) :: lex rest := by
  have skip : skipString (s.toList.flatMap escape ++ '"' :: rest) = .ok rest := skipString_written _
  simp [writeString, lex_cons, isSpace, nextToken, skip, restOr]

theorem nextToken_of_digit {c : Char} (digit : c.isDigit = true) (cs : List Char) :
    nextToken c cs = (.number (c :: cs), restOr (skipNumber (c :: cs))) := by
  unfold nextToken
  split
  case h_11 => simp [digit]
  all_goals exact absurd digit (by decide)

theorem isSpace_of_digit {c : Char} (digit : c.isDigit = true) : isSpace c = false := by
  rw [Bool.eq_false_iff]
  simp only [isSpace, ne_eq, Bool.or_eq_true, beq_iff_eq]
  rintro (((rfl | rfl) | rfl) | rfl) <;> exact absurd digit (by decide)

theorem lex_toDigits (n : Nat) (h : Delimited rest) :
    lex (Nat.toDigits 10 n ++ rest) = .number (Nat.toDigits 10 n ++ rest) :: lex rest := by
  obtain ⟨c, cs, digits, all, -⟩ := toDigits_eq_cons n
  have digit := all c List.mem_cons_self
  have skip := skipNumber_toDigits n h
  rw [digits, List.cons_append] at skip ⊢
  rw [lex_cons (isSpace_of_digit digit), nextToken_of_digit digit, skip]
  rfl

end StreamMachine.Json
