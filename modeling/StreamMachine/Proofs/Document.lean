import StreamMachine.Proofs.Reading

/-! JSON documents as trees whose strings and numbers are kept as they are spelled, the texts of such
a tree with any blanks between its parts, and the tokens that a text of it comes to. -/
namespace StreamMachine.Json

section Successes

variable {ε α β : Type}

@[simp] theorem toOption_ok (a : α) : (Except.ok a : Except ε α).toOption = some a := rfl

@[simp] theorem toOption_pure (a : α) : (pure a : Except ε α).toOption = some a := rfl

@[simp] theorem toOption_error (e : ε) : (Except.error e : Except ε α).toOption = none := rfl

@[simp] theorem toOption_throw (e : ε) : (throw e : Except ε α).toOption = none := rfl

@[simp] theorem toOption_map (f : α → β) (x : Except ε α) :
    (x.map f).toOption = x.toOption.map f := by
  cases x <;> rfl

@[simp] theorem toOption_fmap (f : α → β) (x : Except ε α) :
    (f <$> x).toOption = x.toOption.map f := by
  cases x <;> rfl

@[simp] theorem toOption_bind (x : Except ε α) (f : α → Except ε β) :
    (x >>= f).toOption = x.toOption.bind fun a => (f a).toOption := by
  cases x <;> rfl

theorem toOption_eq_some {x : Except ε α} {a : α} : x.toOption = some a ↔ x = .ok a := by
  cases x <;> simp

end Successes

/-! ### Strings -/

/-- One way of spelling a character, or half of one, inside a string. -/
inductive Glyph where
  | plain (c : Char)
  | short (letter : Char)
  | unit (a b d e : Char)
  deriving DecidableEq, Repr

namespace Glyph

def text : Glyph → List Char
  | plain c => [c]
  | short letter => ['\\', letter]
  | unit a b d e => ['\\', 'u', a, b, d, e]

def Valid : Glyph → Prop
  | plain c => c ≠ '"' ∧ c ≠ '\\' ∧ ¬c.toNat < 0x20
  | short letter => (simpleEscape? letter).isSome
  | unit a b d e => (hexUnit? a b d e).isSome

instance : DecidablePred Valid
  | plain c => inferInstanceAs (Decidable (c ≠ '"' ∧ c ≠ '\\' ∧ ¬c.toNat < 0x20))
  | short letter => inferInstanceAs (Decidable ((simpleEscape? letter).isSome))
  | unit a b d e => inferInstanceAs (Decidable ((hexUnit? a b d e).isSome))

end Glyph

/-- The characters that a string spells, given the first half of one that was spelled in front.
Halves that stand alone spell nothing. -/
def spelledFrom? : Option Nat → List Glyph → Option (List Char)
  | none, [] => some []
  | some _, [] => none
  | none, .plain c :: glyphs => (spelledFrom? none glyphs).map (c :: ·)
  | none, .short letter :: glyphs => do
    let c ← simpleEscape? letter
    (spelledFrom? none glyphs).map (c :: ·)
  | none, .unit a b d e :: glyphs => do
    let unit ← hexUnit? a b d e
    if isLowSurrogate unit then none
    else if isHighSurrogate unit then spelledFrom? (some unit) glyphs
    else (spelledFrom? none glyphs).map (Char.ofNat unit :: ·)
  | some high, .unit a b d e :: glyphs => do
    let low ← hexUnit? a b d e
    if isLowSurrogate low then (spelledFrom? none glyphs).map (joinSurrogates high low :: ·)
    else none
  | some _, _ :: _ => none

def spelled? (glyphs : List Glyph) : Option String :=
  (spelledFrom? none glyphs).map String.ofList

def quoted (glyphs : List Glyph) : List Char := '"' :: (glyphs.flatMap Glyph.text ++ ['"'])

variable {glyphs : List Glyph} {rest : List Char}

@[simp] theorem toOption_consChar (c : Char) (r : Except Fault (List Char × List Char)) :
    (consChar c r).toOption = r.toOption.map fun r => (c :: r.1, r.2) := by
  cases r <;> rfl

theorem skipString_quoted (valid : ∀ glyph ∈ glyphs, glyph.Valid) (rest : List Char) :
    skipString (glyphs.flatMap Glyph.text ++ '"' :: rest) = .ok rest := by
  induction glyphs with
  | nil => simp [skipString]
  | cons glyph glyphs ih =>
    obtain ⟨first, more⟩ := List.forall_mem_cons.1 valid
    specialize ih more
    cases glyph with
    | plain c =>
      obtain ⟨quote, backslash, printable⟩ := first
      simp [Glyph.text, skipString, backslash, printable, ih]
    | short letter =>
      have unit : letter ≠ 'u' := by
        rintro rfl
        cases first
      have escape : (simpleEscape? letter).isSome := first
      simp [Glyph.text, skipString, unit, escape, ih]
    | unit a b d e =>
      have unit : (hexUnit? a b d e).isSome := first
      simp [Glyph.text, skipString, unit, ih]

theorem readChars_quoted (valid : ∀ glyph ∈ glyphs, glyph.Valid) (half : Option Nat)
    (rest : List Char) :
    (readChars half (glyphs.flatMap Glyph.text ++ '"' :: rest)).toOption =
      (spelledFrom? half glyphs).map (·, rest) := by
  induction glyphs generalizing half with
  | nil => cases half <;> simp [readChars, spelledFrom?]
  | cons glyph glyphs ih =>
    obtain ⟨first, more⟩ := List.forall_mem_cons.1 valid
    specialize ih more
    cases glyph with
    | plain c =>
      obtain ⟨quote, backslash, printable⟩ := first
      cases half with
      | none =>
        simp [Glyph.text, readChars, backslash, printable, ih, spelledFrom?, Function.comp_def]
      | some high => simp [Glyph.text, readChars, backslash, spelledFrom?]
    | short letter =>
      have unit : letter ≠ 'u' := by
        rintro rfl
        cases first
      obtain ⟨c, means⟩ := Option.isSome_iff_exists.1 first
      cases half with
      | none => simp [Glyph.text, readChars, unit, means, ih, spelledFrom?, Function.comp_def]
      | some high => simp [Glyph.text, readChars, unit, spelledFrom?]
    | unit a b d e =>
      obtain ⟨unit, means⟩ := Option.isSome_iff_exists.1 first
      cases half with
      | none =>
        cases low : isLowSurrogate unit <;> cases high : isHighSurrogate unit <;>
          simp [Glyph.text, readChars, means, ih, spelledFrom?, low, high, Function.comp_def]
      | some high =>
        cases low : isLowSurrogate unit <;>
          simp [Glyph.text, readChars, means, ih, spelledFrom?, low, Function.comp_def]

/-- What the token of a string keeps is enough to pass over it and to read it. -/
theorem readString_quoted (valid : ∀ glyph ∈ glyphs, glyph.Valid) (rest : List Char) :
    (readString (glyphs.flatMap Glyph.text ++ '"' :: rest)).toOption.map Prod.fst =
      spelled? glyphs := by
  simp [readString, readChars_quoted valid, spelled?, Function.comp_def]

/-! ### Numbers -/

structure Exponent where
  /-- An `e` of either case. -/
  mark : Char
  /-- Whether the sign, if there is one, is a minus. -/
  sign : Option Bool
  digits : List Char
  deriving DecidableEq, Repr

/-- A number as it is spelled. -/
structure Numeral where
  negative : Bool := false
  whole : List Char
  fraction : Option (List Char) := none
  exponent : Option Exponent := none
  deriving DecidableEq, Repr

def Digits (cs : List Char) : Prop := cs ≠ [] ∧ ∀ c ∈ cs, c.isDigit = true

-- The characters in the list are gone through, not all that there are.
instance (cs : List Char) : Decidable (Digits cs) :=
  have : Decidable (∀ c ∈ cs, c.isDigit = true) := List.decidableBAll _ _
  inferInstanceAs (Decidable (cs ≠ [] ∧ ∀ c ∈ cs, c.isDigit = true))

namespace Exponent

def signText : Option Bool → List Char
  | none => []
  | some false => ['+']
  | some true => ['-']

def text (x : Exponent) : List Char := x.mark :: (signText x.sign ++ x.digits)

structure Valid (x : Exponent) : Prop where
  mark : x.mark = 'e' ∨ x.mark = 'E'
  digits : Digits x.digits

end Exponent

namespace Numeral

def fractionText : Option (List Char) → List Char
  | none => []
  | some digits => '.' :: digits

def exponentText : Option Exponent → List Char
  | none => []
  | some exponent => exponent.text

def text (x : Numeral) : List Char :=
  (if x.negative then ['-'] else []) ++
    (x.whole ++ (fractionText x.fraction ++ exponentText x.exponent))

/-- Only a zero starts with a zero, and digits stand wherever they are announced. -/
structure Valid (x : Numeral) : Prop where
  whole : Digits x.whole
  zero : x.whole.head? = some '0' → x.whole = ['0']
  fraction : ∀ digits ∈ x.fraction, Digits digits
  exponent : ∀ exponent ∈ x.exponent, exponent.Valid

/-- What is left of the spelling once the number is split. -/
def lexeme (x : Numeral) : Lexeme :=
  ⟨x.negative, x.whole, x.fraction, x.exponent.map fun e => (e.sign == some true, e.digits)⟩

end Numeral

theorem span_digits {cs : List Char} (digits : ∀ c ∈ cs, c.isDigit = true)
    (stop : startsWithDigit rest = false) :
    (cs ++ rest).takeWhile Char.isDigit = cs ∧ (cs ++ rest).dropWhile Char.isDigit = rest := by
  have none : rest.takeWhile Char.isDigit = [] ∧ rest.dropWhile Char.isDigit = rest := by
    cases rest with
    | nil => exact ⟨rfl, rfl⟩
    | cons c rest =>
      have : c.isDigit = false := stop
      simp [this]
  rw [List.takeWhile_append_of_pos digits, List.dropWhile_append_of_pos digits, none.1, none.2]
  exact ⟨List.append_nil cs, rfl⟩

theorem Digits.starts {cs : List Char} (h : Digits cs) (rest : List Char) :
    startsWithDigit (cs ++ rest) = true := by
  cases cs with
  | nil => exact absurd rfl h.1
  | cons c cs => exact h.2 c List.mem_cons_self

theorem takeWhole_append {whole : List Char} (digits : Digits whole)
    (zero : whole.head? = some '0' → whole = ['0']) (stop : startsWithDigit rest = false) :
    takeWhole (whole ++ rest) = .ok (whole, rest) := by
  by_cases head : whole.head? = some '0'
  · simp [zero head, takeWhole, stop]
  · rw [takeWhole]
    · simp only [digits.starts rest, if_true, span_digits digits.2 stop]
    · intro cs same
      cases whole with
      | nil => exact digits.1 rfl
      | cons c whole => exact head (congrArg some (List.cons.inj same).1)

/-- Digits do not start with a sign, nor with what stands in front of a fraction or an exponent. -/
theorem head_of_startsWithDigit {c : Char} {cs : List Char}
    (starts : startsWithDigit (c :: cs) = true) : c ≠ '+' ∧ c ≠ '-' := by
  constructor <;> rintro rfl <;> cases starts

theorem takeSign_append (sign : Option Bool) {cs : List Char} (starts : startsWithDigit cs = true) :
    takeSign (Exponent.signText sign ++ cs) = (sign == some true, cs) := by
  rcases sign with _ | _ | _
  · cases cs with
    | nil => cases starts
    | cons c cs =>
      obtain ⟨plus, minus⟩ := head_of_startsWithDigit starts
      simp [Exponent.signText, takeSign, plus, minus]
  all_goals rfl

theorem takeExponent_append {exponent : Option Exponent} (valid : ∀ e ∈ exponent, e.Valid)
    (h : Delimited rest) :
    takeExponent (Numeral.exponentText exponent ++ rest) =
      .ok (exponent.map fun e => (e.sign == some true, e.digits), rest) := by
  cases exponent with
  | none => exact takeExponent_of_delimited h
  | some exponent =>
    obtain ⟨mark, sign, digits⟩ := exponent
    obtain ⟨letter, all⟩ := valid _ rfl
    have starts := all.starts rest
    have signed := takeSign_append sign starts
    have spans := span_digits all.2 (startsWithDigit_of_delimited h)
    dsimp only at letter starts signed spans
    rcases letter with rfl | rfl <;>
      simp [Numeral.exponentText, Exponent.text, takeExponent, signed, starts, spans]

/-- Behind its whole part a number goes on without a digit. -/
theorem startsWithDigit_exponentText {exponent : Option Exponent}
    (valid : ∀ e ∈ exponent, e.Valid) (h : Delimited rest) :
    startsWithDigit (Numeral.exponentText exponent ++ rest) = false := by
  cases exponent with
  | none => exact startsWithDigit_of_delimited h
  | some exponent =>
    obtain ⟨mark, sign, digits⟩ := exponent
    rcases (valid _ rfl).mark with rfl | rfl <;> rfl

theorem takeFraction_append {fraction : Option (List Char)} {exponent : Option Exponent}
    (digits : ∀ digits ∈ fraction, Digits digits) (valid : ∀ e ∈ exponent, e.Valid)
    (h : Delimited rest) :
    takeFraction (Numeral.fractionText fraction ++ (Numeral.exponentText exponent ++ rest)) =
      .ok (fraction, Numeral.exponentText exponent ++ rest) := by
  have stop := startsWithDigit_exponentText valid h
  cases fraction with
  | some fraction =>
    have all := digits fraction rfl
    simp [Numeral.fractionText, takeFraction, all.starts, span_digits all.2 stop]
  | none =>
    cases exponent with
    | none => exact takeFraction_of_delimited h
    | some exponent =>
      obtain ⟨mark, sign, digits⟩ := exponent
      rcases (valid _ rfl).mark with rfl | rfl <;> rfl

theorem takeNumber_text {x : Numeral} (valid : x.Valid) (h : Delimited rest) :
    takeNumber (x.text ++ rest) = .ok (x.lexeme, rest) := by
  obtain ⟨negative, whole, fraction, exponent⟩ := x
  have stop : startsWithDigit (Numeral.fractionText fraction ++
      (Numeral.exponentText exponent ++ rest)) = false := by
    cases fraction with
    | none => exact startsWithDigit_exponentText valid.exponent h
    | some fraction => rfl
  have wholes := takeWhole_append valid.whole valid.zero stop
  have fractions := takeFraction_append valid.fraction valid.exponent h
  have exponents := takeExponent_append valid.exponent h
  cases negative with
  | true =>
    simp [Numeral.text, takeNumber, wholes, fractions, exponents, Numeral.lexeme, bind, Except.bind,
      pure, Except.pure]
  | false =>
    cases whole with
    | nil => exact absurd rfl valid.whole.1
    | cons c whole =>
      have unsigned := (head_of_startsWithDigit (valid.whole.starts rest)).2
      rw [List.cons_append] at wholes
      simp [Numeral.text, takeNumber, unsigned, wholes, fractions, exponents, Numeral.lexeme, bind,
        Except.bind, pure, Except.pure]

theorem skipNumber_text {x : Numeral} (valid : x.Valid) (h : Delimited rest) :
    skipNumber (x.text ++ rest) = .ok rest := by
  rw [skipNumber, takeNumber_text valid h]

/-- A number starts with a digit or with a minus sign. -/
theorem lex_number {x : Numeral} (valid : x.Valid) (h : Delimited rest) :
    lex (x.text ++ rest) = .number (x.text ++ rest) :: lex rest := by
  have skip := skipNumber_text valid h
  obtain ⟨c, cs, found, token, mark⟩ : ∃ c cs, x.text ++ rest = c :: cs ∧
      nextToken c cs = (.number (c :: cs), restOr (skipNumber (c :: cs))) ∧ isSpace c = false := by
    obtain ⟨negative, whole, fraction, exponent⟩ := x
    cases negative with
    | true => exact ⟨'-', _, rfl, rfl, rfl⟩
    | false =>
      cases whole with
      | nil => exact absurd rfl valid.whole.1
      | cons c whole =>
        have digit := valid.whole.2 c List.mem_cons_self
        exact ⟨c, _, rfl, nextToken_of_digit digit _, isSpace_of_digit digit⟩
  rw [found] at skip ⊢
  rw [lex_cons mark, token, skip]
  rfl

/-! ### Documents -/

inductive Value where
  | null
  | bool (value : Bool)
  | number (numeral : Numeral)
  | string (glyphs : List Glyph)
  | list (items : List Value)
  | object (entries : List (List Glyph × Value))

/-- What a text is a text of: a value, or what stands between the brackets of one that is not
empty. -/
inductive Phrase where
  | value (v : Value)
  | elements (items : List Value)
  | members (entries : List (List Glyph × Value))

def Blank (cs : List Char) : Prop := ∀ c ∈ cs, isSpace c = true

instance (cs : List Char) : Decidable (Blank cs) :=
  List.decidableBAll (isSpace · = true) cs

/-- The texts of a document. -/
inductive Writes : Phrase → List Char → Prop
  | before {v : Value} {spaces text : List Char} (blank : Blank spaces)
      (value : Writes (.value v) text) : Writes (.value v) (spaces ++ text)
  | behind {v : Value} {text spaces : List Char} (value : Writes (.value v) text)
      (blank : Blank spaces) : Writes (.value v) (text ++ spaces)
  | null : Writes (.value .null) ['n', 'u', 'l', 'l']
  | bool (b : Bool) : Writes (.value (.bool b))
      (if b then ['t', 'r', 'u', 'e'] else ['f', 'a', 'l', 's', 'e'])
  | number {x : Numeral} (valid : x.Valid) : Writes (.value (.number x)) x.text
  | string {glyphs : List Glyph} (valid : ∀ glyph ∈ glyphs, glyph.Valid) :
      Writes (.value (.string glyphs)) (quoted glyphs)
  | emptyList {spaces : List Char} (blank : Blank spaces) :
      Writes (.value (.list [])) ('[' :: (spaces ++ [']']))
  | list {items : List Value} {text : List Char} (elements : Writes (.elements items) text) :
      Writes (.value (.list items)) ('[' :: (text ++ [']']))
  | emptyObject {spaces : List Char} (blank : Blank spaces) :
      Writes (.value (.object [])) ('\x7b' :: (spaces ++ ['\x7d']))
  | object {entries : List (List Glyph × Value)} {text : List Char}
      (members : Writes (.members entries) text) :
      Writes (.value (.object entries)) ('\x7b' :: (text ++ ['\x7d']))
  | lastElement {v : Value} {text : List Char} (value : Writes (.value v) text) :
      Writes (.elements [v]) text
  | element {v : Value} {items : List Value} {text more : List Char}
      (value : Writes (.value v) text) (elements : Writes (.elements items) more) :
      Writes (.elements (v :: items)) (text ++ ',' :: more)
  | lastMember {key : List Glyph} {v : Value} {name text : List Char}
      (string : Writes (.value (.string key)) name) (value : Writes (.value v) text) :
      Writes (.members [(key, v)]) (name ++ ':' :: text)
  | member {key : List Glyph} {v : Value} {entries : List (List Glyph × Value)}
      {name text more : List Char} (string : Writes (.value (.string key)) name)
      (value : Writes (.value v) text) (members : Writes (.members entries) more) :
      Writes (.members ((key, v) :: entries)) (name ++ ':' :: (text ++ ',' :: more))

/-- The tokens of a document, with those that follow them. Between brackets each part stands behind
a comma, the first one too. -/
inductive Lexed : Phrase → List Token → List Token → Prop
  | null {rest : List Token} : Lexed (.value .null) (.null :: rest) rest
  | bool {b : Bool} {rest : List Token} : Lexed (.value (.bool b)) (.bool b :: rest) rest
  | number {x : Numeral} {text after : List Char} {rest : List Token}
      (split : takeNumber text = .ok (x.lexeme, after)) :
      Lexed (.value (.number x)) (.number text :: rest) rest
  | string {glyphs : List Glyph} {text after : List Char} {rest : List Token}
      (read : (readString text).toOption.map Prod.fst = spelled? glyphs)
      (skip : skipString text = .ok after) :
      Lexed (.value (.string glyphs)) (.string text :: rest) rest
  | emptyList {rest : List Token} :
      Lexed (.value (.list [])) (.opening .list :: .closing .list :: rest) rest
  | list {items : List Value} {tokens rest : List Token}
      (elements : Lexed (.elements items) (.comma :: tokens) (.closing .list :: rest)) :
      Lexed (.value (.list items)) (.opening .list :: tokens) rest
  | emptyObject {rest : List Token} :
      Lexed (.value (.object [])) (.opening .object :: .closing .object :: rest) rest
  | object {entries : List (List Glyph × Value)} {tokens rest : List Token}
      (members : Lexed (.members entries) (.comma :: tokens) (.closing .object :: rest)) :
      Lexed (.value (.object entries)) (.opening .object :: tokens) rest
  | noElements {rest : List Token} : Lexed (.elements []) rest rest
  | element {v : Value} {items : List Value} {tokens more rest : List Token}
      (value : Lexed (.value v) tokens more) (elements : Lexed (.elements items) more rest) :
      Lexed (.elements (v :: items)) (.comma :: tokens) rest
  | noMembers {rest : List Token} : Lexed (.members []) rest rest
  | member {key : List Glyph} {v : Value} {entries : List (List Glyph × Value)}
      {name tokens more rest : List Token}
      (string : Lexed (.value (.string key)) name (.colon :: tokens))
      (value : Lexed (.value v) tokens more) (members : Lexed (.members entries) more rest) :
      Lexed (.members ((key, v) :: entries)) (.comma :: name) rest

/-- What stands in front of the tokens of a text. -/
def Phrase.lead : Phrase → List Token → List Token
  | value _, tokens => tokens
  | elements _, tokens | members _, tokens => .comma :: tokens

theorem lex_blank {spaces : List Char} (blank : Blank spaces) (cs : List Char) :
    lex (spaces ++ cs) = lex cs := by
  have drop : (spaces ++ cs).dropWhile isSpace = cs.dropWhile isSpace :=
    List.dropWhile_append_of_pos blank
  cases spaces with
  | nil => rfl
  | cons c spaces =>
    have same : lex (c :: spaces ++ cs) = tokensFrom (spaces ++ cs).length.succ cs := by
      rw [lex, List.cons_append, List.length_cons, tokensFrom, tokensFrom, ← List.cons_append, drop]
    rw [same]
    exact tokensFrom_eq_of_le (by simp only [List.length_append]; omega) (Nat.le_refl _)

theorem delimited_blank {spaces : List Char} (blank : Blank spaces) (h : Delimited rest) :
    Delimited (spaces ++ rest) := by
  cases spaces with
  | nil => exact h
  | cons c spaces =>
    have space : isSpace c = true := blank c List.mem_cons_self
    simp only [isSpace, Bool.or_eq_true, beq_iff_eq] at space
    rcases space with ((rfl | rfl) | rfl) | rfl <;> exact ⟨rfl, by decide, by decide, by decide⟩

theorem delimited_separator (rest : List Char) :
    Delimited (',' :: rest) ∧ Delimited (':' :: rest) := by
  simp [Delimited]

theorem delimited_closing (rest : List Char) :
    Delimited (']' :: rest) ∧ Delimited ('\x7d' :: rest) := by
  simp [Delimited]

theorem lex_quoted (valid : ∀ glyph ∈ glyphs, glyph.Valid) (rest : List Char) :
    lex (quoted glyphs ++ rest) =
      .string (glyphs.flatMap Glyph.text ++ '"' :: rest) :: lex rest := by
  simp [quoted, lex_cons, isSpace, nextToken, skipString_quoted valid, restOr]

/-- A text comes to the tokens of its document, whatever stands behind it that is not more of a
number. -/
theorem Writes.lexed {phrase : Phrase} {text : List Char} (writes : Writes phrase text)
    {rest : List Char} (h : Delimited rest) :
    Lexed phrase (phrase.lead (lex (text ++ rest))) (lex rest) := by
  -- What stands behind a part differs from that behind the whole, and decides where a number in it
  -- ends; so `rest` varies.
  induction writes generalizing rest with
  | before blank value ih =>
    rw [List.append_assoc, lex_blank blank]
    exact ih h
  | behind value blank ih =>
    rw [List.append_assoc, ← lex_blank blank rest]
    exact ih (delimited_blank blank h)
  | null =>
    have token : lex ('n' :: 'u' :: 'l' :: 'l' :: rest) = .null :: lex rest := lex_cons rfl _
    exact token ▸ .null
  | bool b =>
    have yes : lex ('t' :: 'r' :: 'u' :: 'e' :: rest) = .bool true :: lex rest := lex_cons rfl _
    have no : lex ('f' :: 'a' :: 'l' :: 's' :: 'e' :: rest) = .bool false :: lex rest :=
      lex_cons rfl _
    cases b
    · exact no ▸ .bool
    · exact yes ▸ .bool
  | number valid => exact lex_number valid h ▸ .number (takeNumber_text valid h)
  | string valid =>
    exact lex_quoted valid rest ▸
      .string (readString_quoted valid rest) (skipString_quoted valid rest)
  | emptyList blank =>
    have tokens := lex_blank blank (']' :: rest)
    rw [(lex_closing rest).1] at tokens
    simp only [Phrase.lead, List.cons_append, List.append_assoc, List.nil_append, lex_opening, tokens]
    exact .emptyList
  | list elements ih =>
    have inside := ih (delimited_closing rest).1
    rw [(lex_closing rest).1] at inside
    simp only [Phrase.lead, List.cons_append, List.append_assoc, List.nil_append, lex_opening]
    exact .list inside
  | emptyObject blank =>
    have tokens := lex_blank blank ('\x7d' :: rest)
    rw [(lex_closing rest).2] at tokens
    simp only [Phrase.lead, List.cons_append, List.append_assoc, List.nil_append, lex_opening, tokens]
    exact .emptyObject
  | object members ih =>
    have inside := ih (delimited_closing rest).2
    rw [(lex_closing rest).2] at inside
    simp only [Phrase.lead, List.cons_append, List.append_assoc, List.nil_append, lex_opening]
    exact .object inside
  | lastElement value ih => exact .element (ih h) .noElements
  | @element v items text more value elements first others =>
    have before := first (delimited_separator (more ++ rest)).1
    rw [lex_comma] at before
    rw [List.append_assoc, List.cons_append]
    exact .element before (others h)
  | @lastMember key v name text string value name' value' =>
    have before := name' (delimited_separator (text ++ rest)).2
    rw [lex_colon] at before
    rw [List.append_assoc, List.cons_append]
    exact .member before (value' h) .noMembers
  | @member key v entries name text more string value members name' value' others =>
    have before := name' (delimited_separator (text ++ ',' :: (more ++ rest))).2
    have between := value' (delimited_separator (more ++ rest)).1
    rw [lex_colon] at before
    rw [lex_comma] at between
    rw [List.append_assoc, List.cons_append, List.append_assoc, List.cons_append]
    exact .member before between (others h)

end StreamMachine.Json
