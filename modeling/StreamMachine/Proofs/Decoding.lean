import StreamMachine.Proofs.Document

/-! What decoders make of a document, stated of its tree: a decoder follows a reader of trees if it
takes from the tokens of every document what the reader takes from the tree, and leaves the tokens
behind it. -/
namespace StreamMachine.Json

/-! ### Passing over a document -/

def Phrase.size : Phrase → Nat
  | value _ => 1
  | elements items => items.length
  | members entries => entries.length

theorem Lexed.length {phrase : Phrase} {tokens rest : List Token} (lexed : Lexed phrase tokens rest) :
    phrase.size + rest.length ≤ tokens.length := by
  induction lexed with
  | _ => simp_all only [Phrase.size, List.length_cons, List.length_nil]; omega

theorem Lexed.opens {v : Value} {tokens rest : List Token} (lexed : Lexed (.value v) tokens rest) :
    ∃ token more, tokens = token :: more ∧ token.Opens := by
  cases lexed <;> exact ⟨_, _, rfl, trivial⟩

theorem Lexed.elementsFront {items : List Value} {tokens rest : List Token} {b : Bracket}
    (lexed : Lexed (.elements items) (.comma :: tokens) (.closing b :: rest)) :
    ∃ token more, tokens = token :: more ∧ token.Opens := by
  cases lexed with
  | element value _ => exact value.opens

theorem Lexed.membersFront {entries : List (List Glyph × Value)} {tokens rest : List Token}
    {b : Bracket} (lexed : Lexed (.members entries) (.comma :: tokens) (.closing b :: rest)) :
    ∃ text more, tokens = .string text :: more := by
  cases lexed with
  | member key _ _ => cases key with
    | string _ _ => exact ⟨_, _, rfl⟩

/-- Brackets that are open around a phrase, given those around its value. -/
def Phrase.inside : Phrase → List Bracket → List Bracket
  | value _, outer => outer
  | elements _, outer => .list :: outer
  | members _, outer => .object :: outer

def Phrase.awaited : Phrase → Awaited
  | value _ => .value
  | elements _ | members _ => .next

theorem skipFrom_cons {open_ : List Bracket} {awaited : Awaited}
    (more : ¬(open_ = [] ∧ awaited = .next)) (token : Token) (rest : List Token) :
    skipFrom open_ awaited (token :: rest) =
      (advanceSkip open_ awaited token).bind fun next => skipFrom next.1 next.2 rest := by
  rw [skipFrom, if_neg more]
  rfl

/-- Directly behind an opening bracket stands what may stand behind a comma. -/
theorem skipFrom_first {outer : List Bracket} {token : Token} (opens : token.Opens)
    (rest : List Token) :
    skipFrom (.list :: outer) .first (token :: rest) =
      skipFrom (.list :: outer) .next (.comma :: token :: rest) := by
  have inside : token ≠ .closing .list := by
    rintro rfl
    exact opens
  simp [skipFrom_cons, advanceSkip, Bracket.item, inside, Except.bind]

theorem skipFrom_firstKey {outer : List Bracket} (text : List Char) (rest : List Token) :
    skipFrom (.object :: outer) .first (.string text :: rest) =
      skipFrom (.object :: outer) .next (.comma :: .string text :: rest) := by
  simp [skipFrom_cons, advanceSkip, Bracket.item, Except.bind]

theorem Lexed.skip {phrase : Phrase} {tokens rest : List Token} (lexed : Lexed phrase tokens rest)
    (outer : List Bracket) :
    skipFrom (phrase.inside outer) phrase.awaited tokens =
      skipFrom (phrase.inside outer) .next rest := by
  -- The parts of a list or an object are passed over with one bracket more open.
  induction lexed generalizing outer with
  | null | bool =>
    simp [Phrase.inside, Phrase.awaited, skipFrom_cons, advanceSkip, startValue, Token.skipFault?,
      Except.bind]
  | number split =>
    simp [Phrase.inside, Phrase.awaited, skipFrom_cons, advanceSkip, startValue, Token.skipFault?,
      skipNumber, split, Except.bind]
  | string read skip =>
    simp [Phrase.inside, Phrase.awaited, skipFrom_cons, advanceSkip, startValue, Token.skipFault?,
      skip, Except.bind]
  | emptyList | emptyObject =>
    simp [Phrase.inside, Phrase.awaited, skipFrom_cons, advanceSkip, startValue, Except.bind]
  | list elements ih =>
    obtain ⟨token, more, rfl, opens⟩ := elements.elementsFront
    have inside := ih outer
    rw [Phrase.inside, Phrase.awaited, ← skipFrom_first opens] at inside
    simpa [Phrase.inside, Phrase.awaited, skipFrom_cons, advanceSkip, startValue, Except.bind]
      using inside
  | object members ih =>
    obtain ⟨text, more, rfl⟩ := members.membersFront
    have inside := ih outer
    rw [Phrase.inside, Phrase.awaited, ← skipFrom_firstKey text] at inside
    simpa [Phrase.inside, Phrase.awaited, skipFrom_cons, advanceSkip, startValue, Except.bind]
      using inside
  | noElements | noMembers => rfl
  | element value elements first others =>
    refine Eq.trans ?_ (others outer)
    simpa [Phrase.inside, Phrase.awaited, skipFrom_cons, advanceSkip, Bracket.item, Except.bind]
      using first (.list :: outer)
  | member key value members _ between others =>
    refine Eq.trans ?_ (others outer)
    cases key with
    | string read skip =>
      simpa [Phrase.inside, Phrase.awaited, skipFrom_cons, advanceSkip, Bracket.item, startKey,
        Token.skipFault?, skip, Except.bind] using between (.object :: outer)

theorem Lexed.skipValue {v : Value} {tokens rest : List Token}
    (lexed : Lexed (.value v) tokens rest) :
    skipValue tokens = .ok rest := by
  have skip : skipFrom [] .value tokens = skipFrom [] .next rest := lexed.skip []
  rw [Json.skipValue, skip]
  cases rest <;> rfl

/-! ### Strings, words and numbers -/

variable {α β : Type}

/-- The decoder takes from the tokens of every document what the reader takes from its tree. -/
def Decodes (decoder : Decoder α) (reader : Value → Option α) : Prop :=
  ∀ ⦃v : Value⦄ ⦃tokens rest : List Token⦄, Lexed (.value v) tokens rest →
    (decoder tokens).toOption = (reader v).map (·, rest)

namespace Value

def text? : Value → Option String
  | .string glyphs => spelled? glyphs
  | _ => none

def flag? : Value → Option Bool
  | .bool b => some b
  | _ => none

/-- A number without sign, fraction and exponent that is below the bound. -/
def natural? (bound : Nat) : Value → Option Nat
  | .number x =>
    let n := Nat.ofDigitChars 10 x.whole 0
    if x.negative = false ∧ x.fraction = none ∧ x.exponent = none ∧ n < bound then some n else none
  | _ => none

def orNull? (reader : Value → Option α) : Value → Option (Option α)
  | .null => some none
  | v => (reader v).map some

def list? (reader : Value → Option α) : Value → Option (List α)
  | .list items => items.mapM reader
  | _ => none

end Value

theorem Decodes.into {decoder : Decoder α} {reader : Value → Option α}
    (decodes : Decodes decoder reader) (update : α → β) :
    Decodes (decoder.into update) fun v => (reader v).map update := by
  intro v tokens rest lexed
  simp [Decoder.into, decodes lexed, Function.comp_def]

theorem Decodes.congr {decoder : Decoder α} {reader other : Value → Option α}
    (decodes : Decodes decoder reader) (same : ∀ v, reader v = other v) : Decodes decoder other := by
  intro v tokens rest lexed
  rw [decodes lexed, same]

/-- A text of a document is read whole as the reader says. -/
theorem Decodes.decodeText {decoder : Decoder α} {reader : Value → Option α}
    (decodes : Decodes decoder reader) {v : Value} {text : List Char}
    (writes : Writes (.value v) text) :
    (Json.decodeText decoder (String.ofList text)).toOption = reader v := by
  have lexed : Lexed (.value v) (lex text) [] := by
    have lexed : Lexed (.value v) (lex (text ++ [])) (lex []) := writes.lexed trivial
    rwa [List.append_nil] at lexed
  have whole : tokens (String.ofList text) = lex text := by
    rw [tokens, String.toList_ofList]
    rfl
  cases read : reader v <;> simp [Json.decodeText, whole, decodes lexed, read]

theorem decodes_string : Decodes decodeString Value.text? := by
  intro v tokens rest lexed
  cases lexed with
  | @string glyphs text _ _ read _ =>
    rw [Value.text?, ← read]
    simp [decodeString, Function.comp_def]
  | _ => rfl

theorem decodes_bool : Decodes decodeBool Value.flag? := by
  intro v tokens rest lexed
  cases lexed <;> rfl

theorem decodes_option {decoder : Decoder α} {reader : Value → Option α}
    (decodes : Decodes decoder reader) :
    Decodes (decodeOption decoder) (Value.orNull? reader) := by
  intro v tokens rest lexed
  have inner := decodes lexed
  cases lexed with
  | null => rfl
  | _ => simp [decodeOption, inner, Value.orNull?, Function.comp_def]

theorem eq_ofDigitChars_of_accumulate {cs : List Char} {n m : Nat}
    (all : accumulate n cs = (m, [])) : m = Nat.ofDigitChars 10 cs n := by
  induction cs generalizing n with
  | nil => exact (congrArg Prod.fst all).symm
  | cons c cs ih =>
    rw [accumulate, digit_step] at all
    rw [Nat.ofDigitChars_cons]
    split at all
    · exact ih all
    · cases all

theorem exists_float_of_scaled {scaled : Except Fault Float} {signed : Float → Float} {x : Number}
    (h : (do pure (.float (signed (← scaled)))) = Except.ok x) : ∃ value, x = .float value := by
  cases scaled with
  | error fault => cases h
  | ok value => exact ⟨signed value, (Except.ok.inj h).symm⟩

/-- What has a fraction or an exponent, or does not fit, is a float. -/
theorem exists_float_of_floatValue {negative : Bool} {significand : Nat} {shift : Int}
    {exponent : Option (Bool × List Char)} {x : Number}
    (h : floatValue negative significand shift exponent = .ok x) : ∃ value, x = .float value := by
  unfold floatValue at h
  dsimp only at h
  split at h
  · exact exists_float_of_scaled h
  · split at h
    · exact exists_float_of_scaled h
    · split at h
      · cases h
      · exact ⟨_, (Except.ok.inj h).symm⟩

/-- A number that is read as an integer has neither fraction nor exponent, and without a sign it is
what its digits say. -/
theorem Lexeme.eq_of_integer {x : Lexeme} {n : Int} (h : x.value = .ok (.integer n)) :
    x.fraction = none ∧ x.exponent = none ∧
      if x.negative then n < 0 else n = Nat.ofDigitChars 10 x.whole 0 := by
  obtain ⟨negative, whole, fraction, exponent⟩ := x
  have float {negative significand shift exponent} :
      floatValue negative significand shift exponent ≠ .ok (.integer n) := fun same => by
    obtain ⟨value, other⟩ := exists_float_of_floatValue same
    cases other
  rcases digits : accumulate 0 whole with ⟨kept, excess⟩
  unfold value at h
  simp only [digits] at h
  split at h
  · exact absurd h float
  · split at h
    next plain =>
      obtain ⟨all, bare⟩ : excess = [] ∧ exponent = none := by simpa using plain
      subst all bare
      have same := eq_ofDigitChars_of_accumulate digits
      refine ⟨rfl, rfl, ?_⟩
      cases negative with
      | false =>
        cases h
        exact congrArg Nat.cast same
      | true =>
        simp only [Bool.not_true, Bool.false_eq_true, if_false] at h
        split at h
        next positive =>
          cases h
          simp only [Bool.and_eq_true, decide_eq_true_eq] at positive
          simp only [if_true]
          omega
        · cases h
    · exact absurd h float

theorem Lexeme.value_of_fits {whole : List Char}
    (fits : Nat.ofDigitChars 10 whole 0 < significandBound) :
    Lexeme.value ⟨false, whole, none, none⟩ = .ok (.integer (Nat.ofDigitChars 10 whole 0)) := by
  simp [Lexeme.value, accumulate_eq fits]

/-- The value of a number that is read as an integer. -/
def Number.integer? : Number → Option Int
  | .integer n => some n
  | .float _ => none

theorem decodes_nat {bound : Nat} (type : String) (small : bound ≤ significandBound) :
    Decodes (decodeNat bound type) (Value.natural? bound) := by
  intro v tokens rest lexed
  cases lexed with
  | @number x text after _ split =>
    have number : (decodeNat bound type (.number text :: rest)).toOption =
        (x.lexeme.value.toOption.bind Number.integer?).bind fun n =>
          if 0 ≤ n ∧ n < bound then some (n.toNat, rest) else none := by
      rcases value : x.lexeme.value with fault | n | n
      · simp [decodeNat, readNumber, split, value, bind, Except.bind]
      · simp only [decodeNat, readNumber, split, value, bind, Except.bind, pure, Except.pure,
          toOption_ok, Option.bind_some, Number.integer?]
        split <;> rfl
      · simp [decodeNat, readNumber, split, value, bind, Except.bind, Number.integer?]
        rfl
    rw [number]
    obtain ⟨negative, whole, fraction, exponent⟩ := x
    by_cases fits : negative = false ∧ fraction = none ∧ exponent = none ∧
        Nat.ofDigitChars 10 whole 0 < bound
    · obtain ⟨rfl, rfl, rfl, below⟩ := fits
      have value := Lexeme.value_of_fits (Nat.lt_of_lt_of_le below small)
      simp [Numeral.lexeme, value, Value.natural?, below, Number.integer?]
    · simp only [Value.natural?, if_neg fits, Option.map_none, Option.bind_eq_none_iff,
        Option.bind_eq_some_iff]
      rintro n ⟨n | x, value, read⟩
      · cases read
        have digits := Lexeme.eq_of_integer (toOption_eq_some.1 value)
        simp only [Numeral.lexeme, Option.map_eq_none_iff] at digits
        obtain ⟨rfl, rfl, same⟩ := digits
        refine if_neg fun range => ?_
        cases negative with
        | true =>
          simp only [if_true] at same
          omega
        | false =>
          simp only [Bool.false_eq_true, if_false] at same
          exact fits ⟨rfl, rfl, rfl, by omega⟩
      · cases read
  | _ => rfl

/-! ### Lists -/

variable {decoder : Decoder α} {reader : Value → Option α}

/-- The first element is read as if it stood behind a comma. -/
theorem elements_first {token : Token} (opens : token.Opens) (fuel : Nat) (rest : List Token) :
    elements decoder true (fuel + 1) (token :: rest) =
      elements decoder false (fuel + 1) (.comma :: token :: rest) := by
  rw [elements, elements, (nextElement_open opens).1, (nextElement_open opens).2]

theorem Decodes.elements (decodes : Decodes decoder reader) {items : List Value}
    {tokens rest : List Token} (lexed : Lexed (.elements items) tokens (.closing .list :: rest))
    {fuel : Nat} (enough : items.length < fuel) :
    (elements decoder false fuel tokens).toOption =
      (items.mapM reader).map (·, .closing .list :: rest) := by
  induction items generalizing tokens fuel with
  | nil =>
    obtain ⟨fuel, rfl⟩ := Nat.exists_eq_succ_of_ne_zero (Nat.ne_of_gt enough)
    cases lexed
    rfl
  | cons v items ih =>
    obtain ⟨fuel, rfl⟩ := Nat.exists_eq_succ_of_ne_zero (Nat.ne_zero_of_lt enough)
    cases lexed with
    | element value others =>
      obtain ⟨token, more, rfl, opens⟩ := value.opens
      have first := decodes value
      have tail := ih others (Nat.lt_of_succ_lt_succ enough)
      rw [Json.elements, (nextElement_open opens).2, List.mapM_cons]
      cases read : reader v with
      | none => simp [first, read]
      | some a => cases all : items.mapM reader <;> simp [first, read, tail, all]

theorem Decodes.list (decodes : Decodes decoder reader) :
    Decodes (decodeList decoder) (Value.list? reader) := by
  intro v tokens rest lexed
  cases lexed with
  | emptyList => rfl
  | @list items tokens _ inside =>
    obtain ⟨token, more, rfl, opens⟩ := inside.elementsFront
    have length := inside.length
    simp only [Phrase.size, List.length_cons] at length
    have enough : items.length < more.length + 1 + 1 := by omega
    have all := decodes.elements inside enough
    rw [← elements_first opens] at all
    cases read : items.mapM reader <;> simp [decodeList, Value.list?, all, read, closeList]
  | _ => rfl

end StreamMachine.Json
