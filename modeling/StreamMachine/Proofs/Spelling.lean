import StreamMachine.Proofs.Description
import StreamMachine.Proofs.RoundTrip

/-! The texts that name a category: its tag in any case of its ASCII letters, between any blanks.
Read from a text, converted from one or found in a JSON document, a category is accepted from the
same texts, and what is written of it is read back. -/
namespace StreamMachine

open Json (decodeString decodeText)

namespace Text

variable {before word after : List Char}

/-! ### Blanks -/

/-- A text is what trimming leaves of it, between blanks. -/
theorem exists_blanks (cs : List Char) : ∃ before after, (∀ c ∈ before, isBlank c = true) ∧
    (∀ c ∈ after, isBlank c = true) ∧ cs = before ++ trimEnd (trimStart cs) ++ after := by
  refine ⟨cs.takeWhile isBlank, ((trimStart cs).reverse.takeWhile isBlank).reverse, ?_, ?_, ?_⟩
  · intro c mem
    exact List.all_eq_true.1 List.all_takeWhile c mem
  · intro c mem
    exact List.all_eq_true.1 List.all_takeWhile c (List.mem_reverse.1 mem)
  · rw [trimEnd, List.append_assoc, ← List.reverse_append, List.takeWhile_append_dropWhile,
      List.reverse_reverse, trimStart, List.takeWhile_append_dropWhile]

theorem dropWhile_blanks (blank : ∀ c ∈ before, isBlank c = true) {c : Char}
    (inked : isBlank c = false) (cs : List Char) :
    (before ++ c :: cs).dropWhile isBlank = c :: cs := by
  rw [List.dropWhile_append_of_pos blank, List.dropWhile_cons_of_neg (by simp [inked])]

/-- Blanks around a word are all that trimming drops. -/
theorem trim_between (nonempty : word ≠ []) (inked : ∀ c ∈ word, isBlank c = false)
    (leading : ∀ c ∈ before, isBlank c = true) (trailing : ∀ c ∈ after, isBlank c = true) :
    trimEnd (trimStart (before ++ word ++ after)) = word := by
  have front : trimStart (before ++ word ++ after) = word ++ after := by
    obtain ⟨c, cs, rfl⟩ := List.exists_cons_of_ne_nil nonempty
    rw [trimStart, List.append_assoc]
    exact dropWhile_blanks leading (inked c (List.mem_cons_self ..)) _
  have back : (word ++ after).reverse.dropWhile isBlank = word.reverse := by
    obtain ⟨d, ds, last⟩ := List.exists_cons_of_ne_nil (mt List.reverse_eq_nil_iff.1 nonempty)
    have mem : d ∈ word := List.mem_reverse.1 (last ▸ List.mem_cons_self ..)
    rw [List.reverse_append, last]
    exact dropWhile_blanks (fun c mem => trailing c (List.mem_reverse.1 mem)) (inked d mem) _
  rw [front, trimEnd, back, List.reverse_reverse]

/-! ### Cases of letters -/

/-- The same character, or the two cases of one ASCII letter. -/
def CaseAlike (a b : Char) : Prop :=
  a = b ∨ ∃ k < 26, (a.toNat = 'A'.toNat + k ∧ b.toNat = 'a'.toNat + k) ∨
    (a.toNat = 'a'.toNat + k ∧ b.toNat = 'A'.toNat + k)

def IsLowerLetter (c : Char) : Prop := 'a'.toNat ≤ c.toNat ∧ c.toNat ≤ 'z'.toNat

theorem toNat_toLower (c : Char) : c.toLower.toNat =
    if 'A'.toNat ≤ c.toNat ∧ c.toNat ≤ 'Z'.toNat then c.toNat + 32 else c.toNat := by
  have between : (c.val ≥ 'A'.val ∧ c.val ≤ 'Z'.val) ↔
      'A'.toNat ≤ c.toNat ∧ c.toNat ≤ 'Z'.toNat := by
    rw [ge_iff_le, UInt32.le_iff_toNat_le, UInt32.le_iff_toNat_le]
    rfl
  unfold Char.toLower
  split_ifs with upper range range
  · show (c.val + ('a'.val - 'A'.val)).toNat = c.val.toNat + 32
    have small : c.val.toNat ≤ 90 := range.2
    rw [UInt32.toNat_add, show ('a'.val - 'A'.val).toNat = 32 from rfl, Nat.mod_eq_of_lt (by omega)]
  · exact absurd (between.1 upper) range
  · exact absurd (between.2 range) upper
  · rfl

variable {a b : Char}

theorem caseAlike_iff (lower : IsLowerLetter b) : CaseAlike a b ↔ a.toLower = b := by
  have A : 'A'.toNat = 65 := rfl
  have Z : 'Z'.toNat = 90 := rfl
  have a' : 'a'.toNat = 97 := rfl
  have z' : 'z'.toNat = 122 := rfl
  unfold IsLowerLetter at lower
  rw [CaseAlike, ← Char.toNat_inj, ← Char.toNat_inj, toNat_toLower]
  constructor
  · rintro (same | ⟨k, small, ⟨upper, lower⟩ | ⟨lower, upper⟩⟩) <;> split <;> omega
  · intro same
    split at same
    · exact .inr ⟨a.toNat - 65, by omega⟩
    · exact .inl same

/-- What is alike to a lower-case letter is an ASCII letter itself, so not a blank. -/
theorem CaseAlike.letter (alike : CaseAlike a b) (lower : IsLowerLetter b) :
    a.isAlpha = true ∧ isBlank a = false := by
  have A : 'A'.toNat = 65 := rfl
  have Z : 'Z'.toNat = 90 := rfl
  have a' : 'a'.toNat = 97 := rfl
  have z' : 'z'.toNat = 122 := rfl
  unfold IsLowerLetter at lower
  have range : ('A'.toNat ≤ a.toNat ∧ a.toNat ≤ 'Z'.toNat) ∨
      ('a'.toNat ≤ a.toNat ∧ a.toNat ≤ 'z'.toNat) := by
    rcases alike with rfl | ⟨k, small, ⟨upper, -⟩ | ⟨lower, -⟩⟩ <;> omega
  constructor
  · show (decide ('A'.val ≤ a.val ∧ a.val ≤ 'Z'.val) ||
      decide ('a'.val ≤ a.val) && decide (a.val ≤ 'z'.val)) = true
    simp only [Bool.or_eq_true, Bool.and_eq_true, decide_eq_true_eq]
    exact range
  · simp only [isBlank, inRanges, blankRanges, List.any_cons, List.any_nil, Bool.or_false,
      Bool.or_eq_false_iff, Bool.and_eq_false_iff, decide_eq_false_iff_not]
    omega

theorem forall₂_caseAlike_iff {tag : List Char} (lower : ∀ c ∈ tag, IsLowerLetter c) :
    List.Forall₂ CaseAlike word tag ↔ word.map Char.toLower = tag := by
  induction tag generalizing word with
  | nil => cases word <;> simp
  | cons letter tag ih =>
    obtain ⟨first, more⟩ := List.forall_mem_cons.1 lower
    cases word with
    | nil => simp
    | cons c word =>
      rw [List.forall₂_cons, caseAlike_iff first, ih more, List.map_cons, List.cons_eq_cons]

end Text

/-! ### Categories -/

namespace StreamCategory

variable {category other : StreamCategory} {word : List Char} {text : String}

/-- The tag of the category with each letter in either case. -/
def Names (category : StreamCategory) (word : List Char) : Prop :=
  List.Forall₂ Text.CaseAlike word category.tag.toList

/-- A text of which all but blanks at its ends names the category. -/
def Spells (category : StreamCategory) (text : String) : Prop :=
  ∃ before word after, text.toList = before ++ word ++ after ∧
    (∀ c ∈ before, Text.isBlank c = true) ∧ category.Names word ∧
    (∀ c ∈ after, Text.isBlank c = true)

theorem tag_lower (category : StreamCategory) :
    ∀ c ∈ category.tag.toList, Text.IsLowerLetter c := by
  unfold Text.IsLowerLetter
  rcases category with _ | _ | _ | _ <;> simp [tag, AcceleratorFamily.tag]

theorem tag_injective (same : category.tag = other.tag) : category = other := by
  have read := parse_tag category
  rw [same, parse_tag] at read
  exact (Except.ok.inj read).symm

theorem ofTag?_eq_some_iff {tag : String} : ofTag? tag = some category ↔ category.tag = tag := by
  unfold ofTag?
  constructor
  · intro found
    have hit := List.find?_some found
    exact eq_of_beq hit
  · rintro rfl
    rcases category with _ | _ | _ | _ <;> decide +kernel

theorem names_iff : category.Names word ↔ word.map Char.toLower = category.tag.toList :=
  Text.forall₂_caseAlike_iff category.tag_lower

theorem Names.letters (names : category.Names word) :
    ∀ c ∈ word, c.isAlpha = true ∧ Text.isBlank c = false := by
  intro c mem
  have lower : Text.IsLowerLetter c.toLower := by
    apply category.tag_lower
    rw [← names_iff.1 names]
    exact List.mem_map_of_mem mem
  exact ((Text.caseAlike_iff lower).2 rfl).letter lower

theorem Names.nonempty (names : category.Names word) : word ≠ [] := by
  rintro rfl
  rw [names_iff] at names
  rcases category with _ | _ | _ | _ <;> cases names

/-- A text spells a category if trimming and lowering it comes to the tag. -/
theorem spells_iff : category.Spells text ↔ (Text.trim text).map Char.toLower = category.tag := by
  rw [← String.toList_inj, String.toList_map, Text.trim, String.toList_ofList, ← names_iff]
  constructor
  · rintro ⟨before, word, after, parts, leading, names, trailing⟩
    rw [parts, Text.trim_between names.nonempty (fun c mem => (names.letters c mem).2) leading
      trailing]
    exact names
  · intro names
    obtain ⟨before, after, leading, trailing, parts⟩ := Text.exists_blanks text.toList
    exact ⟨before, _, after, parts, leading, names, trailing⟩

theorem Spells.unique (spells : category.Spells text) (others : other.Spells text) :
    category = other :=
  tag_injective ((spells_iff.1 spells).symm.trans (spells_iff.1 others))

theorem parse_eq_ok_iff : parse text = .ok category ↔ category.Spells text := by
  rw [spells_iff, eq_comm (b := category.tag), ← ofTag?_eq_some_iff]
  unfold parse
  cases ofTag? ((Text.trim text).map Char.toLower) <;> simp

theorem parse_eq_error_iff {error : TagError} : parse text = .error error ↔
    (∀ category : StreamCategory, ¬category.Spells text) ∧ error = .unknownCategory text := by
  simp only [← parse_eq_ok_iff]
  unfold parse
  cases ofTag? ((Text.trim text).map Char.toLower) <;> simp [eq_comm]

/-- Blanks go by Unicode, letters do not: a long s is no s. -/
example : parse "\u3000hOsT\u2028" = .ok host ∧
    parse "ho\u017ft" = .error (.unknownCategory "ho\u017ft") := by
  decide +kernel

theorem exists_of_printed {printed : String} (accepted : (parse text).map tag = .ok printed) :
    ∃ category, parse text = .ok category ∧ category.tag = printed := by
  cases parsed : parse text with
  | error error =>
    rw [parsed] at accepted
    cases accepted
  | ok category =>
    rw [parsed] at accepted
    exact ⟨category, rfl, Except.ok.inj accepted⟩

end StreamCategory

/-! ### Documents -/

namespace Json

variable {α : Type} {decoder : Decoder α} {a : α} {json : String}

theorem decodeText_eq_ok :
    decodeText decoder json = .ok a ↔ decoder (tokens json) = .ok (a, []) := by
  unfold decodeText
  cases decoder (tokens json) with
  | error fault => simp [bind, Except.bind]
  | ok read =>
    obtain ⟨value, rest⟩ := read
    cases rest <;> simp [bind, Except.bind, pure, Except.pure, throw, throwThe, MonadExceptOf.throw]

/-- A string is read from a document however it is escaped there. -/
theorem decodeText_string {glyphs : List Glyph} {document : List Char} {text : String}
    (writes : Writes (.value (.string glyphs)) document) (spelled : spelled? glyphs = some text) :
    decodeText decodeString (String.ofList document) = .ok text :=
  toOption_eq_some.1 ((decodes_string.decodeText writes).trans spelled)

end Json

namespace StreamCategory

variable {category : StreamCategory} {text json : String}

/-- The tokens of a string are taken as the string is converted. -/
theorem decode_of_string {tokens rest : List Json.Token}
    (string : decodeString tokens = .ok (text, rest)) :
    decode tokens =
      ((ofString text).mapError fun error => .refused error.message).map fun c => (c, rest) := by
  unfold decode
  rw [string]
  simp only [bind, Except.bind]
  cases ofString text <;> rfl

theorem exists_of_decode {tokens rest : List Json.Token}
    (read : decode tokens = .ok (category, rest)) :
    ∃ text, decodeString tokens = .ok (text, rest) ∧ ofString text = .ok category := by
  cases string : decodeString tokens with
  | error fault =>
    unfold decode at read
    rw [string] at read
    cases read
  | ok found =>
    obtain ⟨text, behind⟩ := found
    rw [decode_of_string string] at read
    cases converted : ofString text with
    | error error =>
      rw [converted] at read
      cases read
    | ok other =>
      rw [converted] at read
      cases read
      exact ⟨text, rfl, converted⟩

/-- A document that holds a string is read as the string is converted. -/
theorem ofJson_eq (string : decodeText decodeString json = .ok text) :
    ofJson json = (ofString text).mapError fun error => .refused error.message := by
  unfold ofJson decodeText
  rw [decode_of_string (Json.decodeText_eq_ok.1 string)]
  cases ofString text <;> rfl

theorem ofJson_eq_ok_iff : ofJson json = .ok category ↔
    ∃ text, decodeText decodeString json = .ok text ∧ ofString text = .ok category := by
  constructor
  · intro read
    obtain ⟨text, string, converted⟩ := exists_of_decode (Json.decodeText_eq_ok.1 read)
    exact ⟨text, Json.decodeText_eq_ok.2 string, converted⟩
  · rintro ⟨text, string, converted⟩
    rw [ofJson_eq string, converted]
    rfl

theorem toJson_eq (category : StreamCategory) : category.toJson = "\"" ++ category.tag ++ "\"" := by
  rcases category with _ | _ | _ | _ <;> decide +kernel

theorem ofJson_written (category : StreamCategory) : ofJson category.toJson = .ok category :=
  category.reads_tag.decodeText

/-! ### What is accepted -/

/-- What a text comes to wherever a category is read from it. -/
structure Recognized (text : String) : Prop where
  accepted : ∀ category, parse text = .ok category ↔ category.Spells text
  unique : ∀ category other : StreamCategory, category.Spells text → other.Spells text →
    category = other
  /-- Nothing in a name is a blank or lies outside of ASCII. -/
  letters : ∀ category word, Names category word →
    ∀ c ∈ word, c.isAlpha = true ∧ Text.isBlank c = false
  refused : (∀ category : StreamCategory, ¬category.Spells text) →
    ∃ error, parse text = .error error ∧
      error.message = "unknown stream category: '" ++ text ++ "'"
  converted : ofString text = parse text
  /-- A document of the text is read as the text is, and refused in the same words. -/
  deserialized : ∀ json, decodeText decodeString json = .ok text →
    ofJson json = (parse text).mapError fun error => .refused error.message
  /-- A document of the text may escape its characters and put blanks around it. -/
  escaped : ∀ glyphs document, Json.Writes (.value (.string glyphs)) document →
    Json.spelled? glyphs = some text →
    decodeText decodeString (String.ofList document) = .ok text
  /-- What is printed of an accepted text is lower-case throughout and printed again as it is. -/
  printed : ∀ printed, (parse text).map tag = .ok printed →
    (∀ c ∈ printed.toList, Text.IsLowerLetter c) ∧ (parse printed).map tag = .ok printed
  serialized : ∀ json printed, decodeText decodeString json = .ok text →
    (parse text).map tag = .ok printed →
    (ofJson json).map toJson = .ok ("\"" ++ printed ++ "\"") ∧
      (ofJson ("\"" ++ printed ++ "\"")).map toJson = .ok ("\"" ++ printed ++ "\"")

/-- A category is read from the texts that spell it, and from the documents of these texts. -/
theorem recognized : (∀ text, Recognized text) ∧ ∀ json category, ofJson json = .ok category ↔
    ∃ text, decodeText decodeString json = .ok text ∧ category.Spells text := by
  refine ⟨fun text => ?_, fun json category => ?_⟩
  · exact {
      accepted := fun _ => parse_eq_ok_iff
      unique := fun _ _ => Spells.unique
      letters := fun _ _ => Names.letters
      refused := fun none => ⟨_, parse_eq_error_iff.2 ⟨none, rfl⟩, rfl⟩
      converted := rfl
      deserialized := fun _ => ofJson_eq
      escaped := fun _ _ => Json.decodeText_string
      printed := by
        intro printed accepted
        obtain ⟨category, -, rfl⟩ := exists_of_printed accepted
        exact ⟨category.tag_lower, by rw [category.parse_tag]; rfl⟩
      serialized := by
        intro json printed string accepted
        obtain ⟨category, parsed, rfl⟩ := exists_of_printed accepted
        rw [← toJson_eq, ofJson_written, ofJson_eq string, ofString, parsed]
        exact ⟨rfl, rfl⟩ }
  · simp only [← parse_eq_ok_iff]
    exact ofJson_eq_ok_iff

end StreamCategory

end StreamMachine
