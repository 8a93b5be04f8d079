import StreamMachine.Config.Json
import StreamMachine.Proofs.Lexing

/-! Texts that a decoder reads: strings, decimals and words, lists of such texts, and objects with a
field at a time. What stands behind such a text is left as it is. -/
namespace StreamMachine.Json

open MachineConfig (commaSeparated)

/-- Tokens that a value starts with. -/
def Token.Opens : Token → Prop
  | .opening _ | .null | .bool _ | .number _ | .string _ => True
  | _ => False

/-- Text that is read as a value off the front of any text that does not go on with a number. -/
structure Reads {α : Type} (decoder : Decoder α) (text : List Char) (a : α) : Prop where
  starts (rest : List Char) (h : Delimited rest) : ∃ token tokens,
    lex (text ++ rest) = token :: tokens ∧ token.Opens ∧ (lex rest).length ≤ tokens.length
  result (rest : List Char) (h : Delimited rest) : decoder (lex (text ++ rest)) = .ok (a, lex rest)

namespace Reads

variable {α β : Type} {decoder : Decoder α} {text : List Char} {a : α}

/-- A text that comes to one token. -/
theorem of_token (token : List Char → Token)
    (one : ∀ rest, Delimited rest → lex (text ++ rest) = token rest :: lex rest)
    (opens : ∀ rest, (token rest).Opens)
    (result : ∀ rest, Delimited rest → decoder (token rest :: lex rest) = .ok (a, lex rest)) :
    Reads decoder text a where
  starts rest h := ⟨token rest, lex rest, one rest h, opens rest, Nat.le_refl _⟩
  result rest h := by rw [one rest h, result rest h]

theorem into (h : Reads decoder text a) (update : α → β) :
    Reads (decoder.into update) text (update a) where
  starts := h.starts
  result rest hr := by
    rw [Decoder.into, h.result rest hr]
    rfl

/-- A text whole. -/
theorem decodeText (h : Reads decoder text a) : decodeText decoder (String.ofList text) = .ok a := by
  have result := h.result [] trivial
  have whole : tokens (String.ofList text) = lex text := by
    rw [tokens, String.toList_ofList]
    rfl
  rw [List.append_nil] at result
  rw [Json.decodeText, whole, result]
  rfl

theorem string (s : String) : Reads decodeString (writeString s) s :=
  .of_token _ (fun rest _ => lex_writeString s rest) (fun _ => trivial) fun rest _ => by
    rw [decodeString, readString_written]
    rfl

theorem nat {n bound : Nat} (type : String) (below : n < bound) (fits : n < significandBound) :
    Reads (decodeNat bound type) (Nat.toDigits 10 n) n :=
  .of_token _ (fun rest h => lex_toDigits n h) (fun _ => trivial) fun rest h => by
    have integer := readNumber_toDigits fits h
    simp [decodeNat, integer, below, bind, Except.bind, pure, Except.pure]

theorem true : Reads decodeBool ['t', 'r', 'u', 'e'] true :=
  .of_token (fun _ => .bool _) (fun rest _ => by
    simp [lex_cons, isSpace, nextToken, wordToken, takeWord]) (fun _ => trivial) fun _ _ => rfl

theorem false : Reads decodeBool ['f', 'a', 'l', 's', 'e'] false :=
  .of_token (fun _ => .bool _) (fun rest _ => by
    simp [lex_cons, isSpace, nextToken, wordToken, takeWord]) (fun _ => trivial) fun _ _ => rfl

theorem null : Reads (decodeOption decoder) ['n', 'u', 'l', 'l'] none :=
  .of_token (fun _ => .null) (fun rest _ => by
    simp [lex_cons, isSpace, nextToken, wordToken, takeWord]) (fun _ => trivial) fun _ _ => rfl

theorem someString (s : String) : Reads (decodeOption decodeString) (writeString s) (some s) :=
  .of_token _ (fun rest _ => lex_writeString s rest) (fun _ => trivial) fun rest _ => by
    rw [decodeOption, decodeString, readString_written]
    · rfl
    · simp
    · simp

end Reads

theorem commaSeparated_cons (x : List Char) (xs : List (List Char)) :
    commaSeparated (x :: xs) = x ++ xs.flatMap (',' :: ·) := by
  induction xs generalizing x with
  | nil => simp [commaSeparated]
  | cons y ys ih => simp [commaSeparated, ih]

theorem lex_comma (rest : List Char) : lex (',' :: rest) = .comma :: lex rest := lex_cons rfl rest

theorem lex_colon (rest : List Char) : lex (':' :: rest) = .colon :: lex rest := lex_cons rfl rest

theorem lex_opening (rest : List Char) :
    lex ('[' :: rest) = .opening .list :: lex rest ∧
      lex ('\x7b' :: rest) = .opening .object :: lex rest :=
  ⟨lex_cons rfl rest, lex_cons rfl rest⟩

theorem lex_closing (rest : List Char) :
    lex (']' :: rest) = .closing .list :: lex rest ∧
      lex ('\x7d' :: rest) = .closing .object :: lex rest :=
  ⟨lex_cons rfl rest, lex_cons rfl rest⟩

section Lists

variable {α : Type} {decoder : Decoder α} {texts : List (List Char)} {values : List α}

/-- What stands behind an element or an entry. -/
theorem delimited_tail (texts : List (List Char)) (rest : List Char) :
    Delimited (texts.flatMap (',' :: ·) ++ ']' :: rest) ∧
      Delimited (texts.flatMap (',' :: ·) ++ '\x7d' :: rest) := by
  cases texts <;> simp [Delimited]

theorem nextElement_open {tokens : List Token} {token : Token} (opens : token.Opens) :
    nextElement true (token :: tokens) = .ok (true, token :: tokens) ∧
      nextElement false (.comma :: token :: tokens) = .ok (true, token :: tokens) := by
  cases token with
  | closing | comma | colon | misspelt | stray => exact opens.elim
  | _ => exact ⟨rfl, rfl⟩

/-- One element is read, wherever it stands. -/
theorem elements_cons {text rest : List Char} {value : α} {isFirst : Bool} {fuel : Nat}
    {front last : List Token} (read : Reads decoder text value) (behind : Delimited rest)
    (here : nextElement isFirst front = .ok (true, lex (text ++ rest)))
    (more : elements decoder false fuel (lex rest) = .ok (values, last)) :
    elements decoder isFirst (fuel + 1) front = .ok (value :: values, last) := by
  simp [elements, here, read.result rest behind, more, bind, Except.bind, pure, Except.pure]

/-- An element may stand first, or behind a comma. -/
theorem nextElement_read {text rest : List Char} {value : α} (read : Reads decoder text value)
    (behind : Delimited rest) :
    nextElement true (lex (text ++ rest)) = .ok (true, lex (text ++ rest)) ∧
      nextElement false (lex (',' :: (text ++ rest))) = .ok (true, lex (text ++ rest)) := by
  obtain ⟨token, tokens, found, opens, -⟩ := read.starts rest behind
  rw [lex_comma, found]
  exact nextElement_open opens

/-- Elements behind the first. -/
theorem elements_tail (read : List.Forall₂ (Reads decoder) texts values) (rest : List Char)
    {fuel : Nat} (enough : values.length < fuel) :
    elements decoder false fuel (lex (texts.flatMap (',' :: ·) ++ ']' :: rest)) =
      .ok (values, lex (']' :: rest)) := by
  induction read generalizing fuel with
  | nil =>
    obtain ⟨fuel, rfl⟩ := Nat.exists_eq_succ_of_ne_zero (Nat.ne_of_gt enough)
    rw [List.flatMap_nil, List.nil_append, (lex_closing rest).1]
    rfl
  | @cons text value texts values first more ih =>
    obtain ⟨fuel, rfl⟩ := Nat.exists_eq_succ_of_ne_zero (Nat.ne_zero_of_lt enough)
    have behind := (delimited_tail texts rest).1
    rw [List.flatMap_cons, List.append_assoc, List.cons_append]
    exact elements_cons first behind (nextElement_read first behind).2
      (ih (Nat.lt_of_succ_lt_succ enough))

/-- Every element takes a token. -/
theorem length_lex_tail (read : List.Forall₂ (Reads decoder) texts values) (rest : List Char) :
    values.length + (lex rest).length < (lex (texts.flatMap (',' :: ·) ++ ']' :: rest)).length := by
  induction read with
  | nil => simp [lex_closing]
  | @cons text value texts values first more ih =>
    have behind := (delimited_tail texts rest).1
    obtain ⟨token, tokens, found, -, shorter⟩ := first.starts _ behind
    rw [List.flatMap_cons, List.append_assoc, List.cons_append, lex_comma, found]
    simp only [List.length_cons]
    omega

theorem elements_read (read : List.Forall₂ (Reads decoder) texts values) (rest : List Char)
    {fuel : Nat} (enough : values.length < fuel) :
    elements decoder true fuel (lex (commaSeparated texts ++ ']' :: rest)) =
      .ok (values, lex (']' :: rest)) := by
  obtain ⟨fuel, rfl⟩ := Nat.exists_eq_succ_of_ne_zero (Nat.ne_zero_of_lt enough)
  cases read with
  | nil =>
    rw [commaSeparated, List.nil_append, (lex_closing rest).1]
    rfl
  | @cons text value texts values first more =>
    have behind := (delimited_tail texts rest).1
    rw [commaSeparated_cons, List.append_assoc]
    exact elements_cons first behind (nextElement_read first behind).1
      (elements_tail more rest (Nat.lt_of_succ_lt_succ enough))

theorem length_lex_list (read : List.Forall₂ (Reads decoder) texts values) (rest : List Char) :
    values.length + (lex rest).length ≤ (lex (commaSeparated texts ++ ']' :: rest)).length := by
  cases read with
  | nil => simp [commaSeparated, lex_closing]
  | @cons text _ texts _ first more =>
    have shorter := length_lex_tail (.cons first more) rest
    rw [List.flatMap_cons, List.cons_append, ← commaSeparated_cons, List.cons_append, lex_comma]
      at shorter
    exact Nat.le_of_lt_succ shorter

theorem Reads.list (read : List.Forall₂ (Reads decoder) texts values) :
    Reads (decodeList decoder) ('[' :: commaSeparated texts ++ [']']) values where
  starts rest _ := by
    have shorter := length_lex_list read rest
    refine ⟨.opening .list, lex (commaSeparated texts ++ ']' :: rest), ?_, trivial, by omega⟩
    simp [lex_opening]
  result rest _ := by
    have shorter := length_lex_list read rest
    have enough : values.length < (lex (commaSeparated texts ++ ']' :: rest)).length + 1 := by omega
    simp [lex_opening, decodeList, elements_read read rest enough, lex_closing, closeList, bind,
      Except.bind, pure, Except.pure]

end Lists

section Records

variable {σ α : Type} {format : RecordFormat σ α}

/-- The entry of a field in an object. -/
def entryText (entry : String × List Char) : List Char := writeString entry.1 ++ ':' :: entry.2

/-- Entries that are read one after another, each of a field that has no value yet. -/
inductive Fills (format : RecordFormat σ α) : σ → List (String × List Char) → σ → Prop
  | nil (state : σ) : Fills format state [] state
  | cons {state next last : σ} {key : String} {text : List Char}
      {entries : List (String × List Char)} (known : key ∈ format.fields)
      (new : format.has key state = false) (read : Reads (format.read key state) text next)
      (more : Fills format next entries last) :
      Fills format state ((key, text) :: entries) last

variable {state last : σ} {entries : List (String × List Char)}

theorem lex_entryText (entry : String × List Char) (rest : List Char) :
    lex (entryText entry ++ rest) =
      .string (entry.1.toList.flatMap escape ++ '"' :: ':' :: (entry.2 ++ rest)) :: .colon ::
        lex (entry.2 ++ rest) := by
  rw [entryText, List.append_assoc, lex_writeString, List.cons_append, lex_colon]

theorem length_lex_entries (fills : Fills format state entries last) (rest : List Char) :
    entries.length + (lex rest).length <
      (lex ((entries.map entryText).flatMap (',' :: ·) ++ '\x7d' :: rest)).length := by
  induction fills with
  | nil => simp [lex_closing]
  | @cons _ _ _ key text entries _ _ read more ih =>
    have behind := (delimited_tail (entries.map entryText) rest).2
    obtain ⟨token, tokens, found, -, shorter⟩ := read.starts _ behind
    rw [List.map_cons, List.flatMap_cons, List.append_assoc, List.cons_append, lex_comma,
      lex_entryText, found]
    simp only [List.length_cons]
    omega

/-- One entry is read, wherever it stands. -/
theorem entries_cons {next : σ} {key : String} {text rest : List Char} {isFirst : Bool} {fuel : Nat}
    {front : List Token} (known : key ∈ format.fields) (new : format.has key state = false)
    (read : Reads (format.read key state) text next) (behind : Delimited rest)
    (here : nextEntry isFirst front = .ok (true, lex (entryText (key, text) ++ rest))) :
    Json.entries format isFirst (fuel + 1) state front =
      Json.entries format false fuel next (lex rest) := by
  have result := read.result rest behind
  rw [lex_entryText] at here
  simp [Json.entries, here, decodeString, readString_written, known, new, takeColon, result, bind,
    Except.bind, Except.map]

/-- Entries behind the first. -/
theorem entries_tail (fills : Fills format state entries last) (rest : List Char) {fuel : Nat}
    (enough : entries.length < fuel) :
    Json.entries format false fuel state
        (lex ((entries.map entryText).flatMap (',' :: ·) ++ '\x7d' :: rest)) =
      .ok (last, lex ('\x7d' :: rest)) := by
  induction fills generalizing fuel with
  | nil =>
    obtain ⟨fuel, rfl⟩ := Nat.exists_eq_succ_of_ne_zero (Nat.ne_of_gt enough)
    rw [List.map_nil, List.flatMap_nil, List.nil_append, (lex_closing rest).2]
    rfl
  | @cons state next last key text entries known new read more ih =>
    obtain ⟨fuel, rfl⟩ := Nat.exists_eq_succ_of_ne_zero (Nat.ne_zero_of_lt enough)
    have behind := (delimited_tail (entries.map entryText) rest).2
    rw [List.map_cons, List.flatMap_cons, List.append_assoc, List.cons_append, lex_comma,
      entries_cons known new read behind (by rw [lex_entryText]; rfl)]
    exact ih (Nat.lt_of_succ_lt_succ enough)

/-- The text of an object. -/
def objectText (entries : List (String × List Char)) : List Char :=
  '\x7b' :: commaSeparated (entries.map entryText) ++ ['\x7d']

theorem entries_read (fills : Fills format state entries last) (rest : List Char) {fuel : Nat}
    (enough : entries.length < fuel) :
    Json.entries format true fuel state
        (lex (commaSeparated (entries.map entryText) ++ '\x7d' :: rest)) =
      .ok (last, lex ('\x7d' :: rest)) := by
  obtain ⟨fuel, rfl⟩ := Nat.exists_eq_succ_of_ne_zero (Nat.ne_zero_of_lt enough)
  cases fills with
  | nil =>
    rw [List.map_nil, commaSeparated, List.nil_append, (lex_closing rest).2]
    rfl
  | @cons _ next last key text entries known new read more =>
    have behind := (delimited_tail (entries.map entryText) rest).2
    rw [List.map_cons, commaSeparated_cons, List.append_assoc,
      entries_cons known new read behind (by rw [lex_entryText]; rfl)]
    exact entries_tail more rest (Nat.lt_of_succ_lt_succ enough)

theorem length_lex_object (fills : Fills format state entries last) (rest : List Char) :
    entries.length + (lex rest).length ≤
      (lex (commaSeparated (entries.map entryText) ++ '\x7d' :: rest)).length := by
  cases fills with
  | nil => simp [commaSeparated, lex_closing]
  | cons known new read more =>
    have shorter := length_lex_entries (.cons known new read more) rest
    rw [List.map_cons, List.flatMap_cons, List.cons_append, ← commaSeparated_cons, List.cons_append,
      lex_comma] at shorter
    exact Nat.le_of_lt_succ shorter

theorem Reads.object {value : α} (fills : Fills format format.start entries last)
    (finish : format.finish last = .ok value) :
    Reads (decodeRecord format) (objectText entries) value where
  starts rest _ := by
    have shorter := length_lex_object fills rest
    refine ⟨.opening .object, lex (commaSeparated (entries.map entryText) ++ '\x7d' :: rest), ?_,
      trivial, by omega⟩
    simp [objectText, lex_opening]
  result rest _ := by
    have shorter := length_lex_object fills rest
    have enough : entries.length <
        (lex (commaSeparated (entries.map entryText) ++ '\x7d' :: rest)).length + 1 := by omega
    simp [objectText, lex_opening, decodeRecord, entries_read fills rest enough, finish, lex_closing,
      closeObject, bind, Except.bind, pure, Except.pure]

end Records

end StreamMachine.Json
