import Mathlib.Data.List.Nodup
import StreamMachine.Proofs.Decoding

/-! Records in a document. Whether a record is an object or a list, it comes to members with names,
and what is read of it depends on the member under each name alone. -/
namespace StreamMachine.Json

def named? (entries : List (List Glyph × Value)) : Option (List (String × Value)) :=
  entries.mapM fun entry => (spelled? entry.1).map (·, entry.2)

theorem named?_cons (key : List Glyph) (v : Value) (entries : List (List Glyph × Value)) :
    named? ((key, v) :: entries) =
      (spelled? key).bind fun name => (named? entries).map ((name, v) :: ·) := by
  cases spelled : spelled? key with
  | none => simp [named?, List.mapM_cons, spelled]
  | some name => cases named : named? entries <;> simp_all [named?, List.mapM_cons]

/-- No field is there twice. -/
def Distinct (fields : List String) (named : List (String × Value)) : Prop :=
  ((named.map Prod.fst).filter (fields.contains ·)).Nodup

instance (fields : List String) (named : List (String × Value)) : Decidable (Distinct fields named) :=
  inferInstanceAs (Decidable (List.Nodup _))

/-- Members of a record by their names; the items of a list are those of the first fields. -/
def Value.members? (fields : List String) : Value → Option (List (String × Value))
  | .object entries => do
    let named ← named? entries
    if Distinct fields named then some named else none
  | .list items => if items.length ≤ fields.length then some (fields.zip items) else none
  | _ => none

section Names

variable {fields : List String} {front back named named' : List (String × Value)} {name key : String}
  {v w : Value}

theorem lookup_eq_none_iff : named.lookup name = none ↔ name ∉ named.map Prod.fst := by
  simp only [List.lookup_eq_none_iff, bne_iff_ne, List.mem_map]
  grind

theorem lookup_middle :
    (front ++ (name, v) :: back).lookup name = (front.lookup name).or (some v) := by
  rw [List.lookup_append, List.lookup_cons_self]

theorem lookup_middle_of_ne (other : name ≠ key) :
    (front ++ (key, v) :: back).lookup name = (front ++ back).lookup name := by
  simp only [List.lookup_append, List.lookup_cons, beq_false_of_ne other]

theorem lookup_concat_of_ne (other : name ≠ key) :
    (named ++ [(key, v)]).lookup name = named.lookup name := by
  rw [lookup_middle_of_ne other, List.append_nil]

theorem lookup_concat_of_new (new : named.lookup name = none) :
    (named ++ [(name, v)]).lookup name = some v := by
  rw [lookup_middle, new]
  rfl

/-- A field is there once if it is not there beside. -/
theorem distinct_middle (known : name ∈ fields) :
    Distinct fields (front ++ (name, v) :: back) ↔
      (front ++ back).lookup name = none ∧ Distinct fields (front ++ back) := by
  have mem : name ∈ ((front ++ back).map Prod.fst).filter (fields.contains ·) ↔
      name ∈ (front ++ back).map Prod.fst := by
    simp [known]
  rw [lookup_eq_none_iff, ← mem]
  unfold Distinct
  rw [List.map_append, List.map_cons, List.filter_append,
    List.filter_cons_of_pos (List.contains_iff_mem.2 known), List.nodup_middle, List.nodup_cons,
    ← List.filter_append, ← List.map_append]

theorem distinct_middle_of_unknown (unknown : name ∉ fields) :
    Distinct fields (front ++ (name, v) :: back) ↔ Distinct fields (front ++ back) := by
  simp [Distinct, unknown]

theorem Distinct.replaced (h : Distinct fields (front ++ (name, v) :: back)) :
    Distinct fields (front ++ (name, w) :: back) := by
  unfold Distinct at h ⊢
  simpa only [List.map_append, List.map_cons] using h

theorem Distinct.dropped (h : Distinct fields (front ++ (name, v) :: back)) :
    Distinct fields (front ++ back) := by
  by_cases known : name ∈ fields
  · exact ((distinct_middle known).1 h).2
  · exact (distinct_middle_of_unknown known).1 h

theorem Distinct.unique (h : Distinct fields named) (known : name ∈ fields)
    (first : (name, v) ∈ named) (second : (name, w) ∈ named) : v = w := by
  unfold Distinct at h
  rw [List.filter_map] at h
  have same := List.inj_on_of_nodup_map h (List.mem_filter.2 ⟨first, by simpa using known⟩)
    (List.mem_filter.2 ⟨second, by simpa using known⟩) rfl
  exact (Prod.mk.inj same).2

/-- A field is found whatever the order. -/
theorem lookup_eq_of_perm (distinct : Distinct fields named) (order : named.Perm named')
    (known : name ∈ fields) : named.lookup name = named'.lookup name := by
  have names : name ∈ named.map Prod.fst ↔ name ∈ named'.map Prod.fst :=
    (order.map Prod.fst).mem_iff
  cases found : named.lookup name with
  | none =>
    rw [lookup_eq_none_iff, names, ← lookup_eq_none_iff] at found
    exact found.symm
  | some v =>
    cases found' : named'.lookup name with
    | none =>
      rw [lookup_eq_none_iff, ← names, ← lookup_eq_none_iff, found] at found'
      cases found'
    | some w =>
      obtain ⟨front, back, rfl, -⟩ := List.lookup_eq_some_iff.1 found
      obtain ⟨front', back', rfl, -⟩ := List.lookup_eq_some_iff.1 found'
      rw [distinct.unique known (List.mem_append_right _ List.mem_cons_self)
        (order.mem_iff.2 (List.mem_append_right _ List.mem_cons_self))]

theorem Distinct.perm (distinct : Distinct fields named) (order : named.Perm named') :
    Distinct fields named' :=
  (((order.map Prod.fst).filter _).nodup_iff).1 distinct

/-! ### Entries and items with their names -/

theorem named?_cons_eq_some {key : List Glyph} {entries : List (List Glyph × Value)} :
    named? ((key, v) :: entries) = some named ↔ ∃ name rest, spelled? key = some name ∧
      named? entries = some rest ∧ named = (name, v) :: rest := by
  simp only [named?_cons, Option.bind_eq_some_iff, Option.map_eq_some_iff]
  grind

theorem named?_append_eq_some {entries entries' : List (List Glyph × Value)} :
    named? (entries ++ entries') = some named ↔ ∃ front back, named? entries = some front ∧
      named? entries' = some back ∧ named = front ++ back := by
  simp only [named?, List.mapM_append, Option.bind_eq_bind, Option.bind_eq_some_iff, Option.pure_def,
    Option.some.injEq]
  grind

theorem exists_named?_of_perm {entries entries' : List (List Glyph × Value)}
    (order : entries.Perm entries') (h : named? entries = some named) :
    ∃ named', named? entries' = some named' ∧ named.Perm named' := by
  induction order generalizing named with
  | nil => exact ⟨named, h, .refl _⟩
  | cons entry order ih =>
    obtain ⟨name, rest, spelled, others, rfl⟩ := named?_cons_eq_some.1 h
    obtain ⟨rest', others', order⟩ := ih others
    exact ⟨_, named?_cons_eq_some.2 ⟨name, rest', spelled, others', rfl⟩, order.cons _⟩
  | swap first second entries =>
    obtain ⟨name, rest, spelled, others, rfl⟩ := named?_cons_eq_some.1 h
    obtain ⟨name', rest', spelled', others', rfl⟩ := named?_cons_eq_some.1 others
    exact ⟨_, named?_cons_eq_some.2 ⟨name', _, spelled',
      named?_cons_eq_some.2 ⟨name, rest', spelled, others', rfl⟩, rfl⟩, .swap ..⟩
  | trans _ _ first second =>
    obtain ⟨named', h', order⟩ := first h
    obtain ⟨named'', h'', order'⟩ := second h'
    exact ⟨named'', h'', order.trans order'⟩

theorem members?_object_eq_some {entries : List (List Glyph × Value)} :
    (Value.object entries).members? fields = some named ↔
      named? entries = some named ∧ Distinct fields named := by
  simp only [Value.members?, Option.bind_eq_bind, Option.bind_eq_some_iff]
  grind

theorem members?_list_eq_some {items : List Value} :
    (Value.list items).members? fields = some named ↔
      items.length ≤ fields.length ∧ named = fields.zip items := by
  simp only [Value.members?]
  grind

theorem named?_middle_eq_some {entries entries' : List (List Glyph × Value)} {key : List Glyph}
    (spelled : spelled? key = some name) :
    named? (entries ++ (key, v) :: entries') = some named ↔ ∃ front back,
      named? entries = some front ∧ named? entries' = some back ∧
        named = front ++ (name, v) :: back := by
  simp only [named?_append_eq_some, named?_cons_eq_some, spelled]
  grind

/-- The items of a list around one of them, with their names. -/
theorem zip_middle {items items' : List Value} (place : fields[items.length]? = some name)
    (v : Value) :
    fields.zip (items ++ v :: items') = (fields.take items.length).zip items ++
      (name, v) :: (fields.drop (items.length + 1)).zip items' := by
  obtain ⟨bound, rfl⟩ := List.getElem?_eq_some_iff.1 place
  have split : fields = fields.take items.length ++
      fields[items.length] :: fields.drop (items.length + 1) := by
    rw [List.getElem_cons_drop, List.take_append_drop]
  conv_lhs => rw [split]
  rw [List.zip_append (by simp; omega), List.zip_cons_cons]

end Names

variable {σ α : Type}

/-- The record takes its fields as a function of its members says. -/
structure RecordFormat.Follows (format : RecordFormat σ α)
    (state? : List (String × Value) → Option σ) : Prop where
  nodup : format.fields.Nodup
  nonempty : format.fields ≠ []
  start : state? [] = some format.start
  has {named : List (String × Value)} {x : σ} {field : String} (known : field ∈ format.fields)
    (here : state? named = some x) : format.has field x = (named.lookup field).isSome
  /-- Members of other names are nothing to it. -/
  pass {named : List (String × Value)} {key : String} (v : Value) (unknown : key ∉ format.fields) :
    state? (named ++ [(key, v)]) = state? named
  /-- A member that cannot be read is not made good by those behind it. -/
  front {named more : List (String × Value)} {x : σ} (here : state? (named ++ more) = some x) :
    ∃ x, state? named = some x
  read {named : List (String × Value)} {x : σ} {field : String} (known : field ∈ format.fields)
    (here : state? named = some x) (new : named.lookup field = none) :
    Decodes (format.read field x) fun v => state? (named ++ [(field, v)])
  list {items : List Value} {x : σ} (here : state? (format.fields.zip items) = some x) :
    (format.finishList (format.fields.zip items).length x).toOption = (format.finish x).toOption

variable {format : RecordFormat σ α} {state? : List (String × Value) → Option σ}

/-- One entry further. -/
theorem entries_comma {text after : List Char} {key : String}
    (read : readString text = .ok (key, after)) (fuel : Nat) (x : σ) (tokens : List Token) :
    entries format false (fuel + 1) x (.comma :: .string text :: .colon :: tokens) =
      if format.fields.contains key then
        if format.has key x then .error (.duplicateField key)
        else format.read key x tokens >>= fun next => entries format false fuel next.1 next.2
      else skipValue tokens >>= fun rest => entries format false fuel x rest := by
  simp only [entries, nextEntry, decodeString, read, takeColon, bind, Except.bind, Except.map,
    Bool.false_eq_true, if_false, if_true]
  split
  · split <;> rfl
  · rfl

variable (follows : format.Follows state?)
include follows

theorem RecordFormat.Follows.fails {named more : List (String × Value)}
    (h : state? named = none) : state? (named ++ more) = none := by
  refine Option.eq_none_iff_forall_ne_some.2 fun x here => ?_
  obtain ⟨y, front⟩ := follows.front here
  rw [h] at front
  cases front

theorem RecordFormat.Follows.entries {members : List (List Glyph × Value)} {tokens rest : List Token}
    (lexed : Lexed (.members members) tokens (.closing .object :: rest))
    {done : List (String × Value)} {x : σ} (here : state? done = some x)
    (distinct : Distinct format.fields done) {fuel : Nat} (enough : members.length < fuel) :
    (entries format false fuel x tokens).toOption = (named? members).bind fun named =>
      if Distinct format.fields (done ++ named) then
        (state? (done ++ named)).map (·, .closing .object :: rest)
      else none := by
  -- The entries in front have been taken, and `x` is what they come to; the next one is refused as a
  -- repetition just when `done` has its field.
  induction members generalizing tokens done x fuel with
  | nil =>
    obtain ⟨fuel, rfl⟩ := Nat.exists_eq_succ_of_ne_zero (Nat.ne_of_gt enough)
    cases lexed
    simp [named?, distinct, here]
    rfl
  | cons member members ih =>
    obtain ⟨key, v⟩ := member
    obtain ⟨fuel, rfl⟩ := Nat.exists_eq_succ_of_ne_zero (Nat.ne_zero_of_lt enough)
    replace enough := Nat.lt_of_succ_lt_succ enough
    cases lexed with
    | member string value others =>
      cases string with
      | @string _ text after _ read skip =>
        rw [named?_cons]
        cases spelled : spelled? key with
        | none =>
          rw [spelled, Option.map_eq_none_iff] at read
          simp [Json.entries, nextEntry, decodeString, read]
        | some name =>
          rw [spelled, Option.map_eq_some_iff] at read
          obtain ⟨⟨name, after⟩, read, rfl⟩ := read
          rw [entries_comma (toOption_eq_some.1 read), Option.bind_some, Option.bind_map]
          simp only [Function.comp_def]
          by_cases known : name ∈ format.fields
          · have has := follows.has known here
            cases held : done.lookup name with
            | some w =>
              have repeated (named) : ¬Distinct format.fields (done ++ (name, v) :: named) := by
                rw [distinct_middle known, List.lookup_append, held]
                rintro ⟨new, -⟩
                cases new
              simp [known, has, held, repeated]
            | none =>
              have distinct : Distinct format.fields (done ++ [(name, v)]) := by
                rw [distinct_middle known, List.append_nil]
                exact ⟨held, distinct⟩
              have taken := follows.read known here held value
              dsimp only at taken
              cases next : state? (done ++ [(name, v)]) with
              | none =>
                have fails (named) : state? (done ++ (name, v) :: named) = none := by
                  rw [List.append_cons]
                  exact follows.fails next
                simp [known, has, held, taken, next, fails]
              | some y =>
                have tail := ih others next distinct enough
                simp only [List.append_assoc, List.singleton_append] at tail
                simp [known, has, held, taken, next, tail]
          · have same := (follows.pass v known).trans here
            have distinct : Distinct format.fields (done ++ [(name, v)]) := by
              rwa [distinct_middle_of_unknown known, List.append_nil]
            have tail := ih others same distinct enough
            simp only [List.append_assoc, List.singleton_append] at tail
            simp [known, value.skipValue, tail]

omit follows in
/-- The items behind the first few. -/
theorem Lexed.drop {items : List Value} {tokens rest : List Token}
    (lexed : Lexed (.elements items) tokens rest) (n : Nat) :
    ∃ left, Lexed (.elements (items.drop n)) left rest := by
  induction n generalizing items tokens with
  | zero => exact ⟨tokens, lexed⟩
  | succ n ih =>
    cases lexed with
    | noElements => exact ⟨rest, .noElements⟩
    | element _ others => exact ih others

/-- Fields are taken by position until they or the items end. -/
theorem RecordFormat.Follows.positional {fields : List String} {items : List Value}
    {tokens rest : List Token} (lexed : Lexed (.elements items) tokens (.closing .list :: rest))
    {done : List (String × Value)} {x : σ} (here : state? done = some x)
    (known : ∀ field ∈ fields, field ∈ format.fields)
    (new : ∀ field ∈ fields, done.lookup field = none) (nodup : fields.Nodup) :
    ∃ left, Lexed (.elements (items.drop fields.length)) left (.closing .list :: rest) ∧
      (positional format false fields x tokens).toOption =
        (state? (done ++ fields.zip items)).map fun y => ((fields.zip items).length, y, left) := by
  -- Fields that are still to come are new to `done`, as no name is declared twice.
  induction fields generalizing items tokens done x with
  | nil => exact ⟨tokens, lexed, by simp [Json.positional, here]⟩
  | cons field fields ih =>
    cases lexed with
    | noElements => exact ⟨_, .noElements, by simp [Json.positional, nextElement, here]⟩
    | @element v items _ more _ value others =>
      obtain ⟨token, tokens, rfl, opens⟩ := value.opens
      have taken := follows.read (known field List.mem_cons_self) here (new field List.mem_cons_self)
        value
      dsimp only at taken
      cases next : state? (done ++ [(field, v)]) with
      | none =>
        obtain ⟨left, behind⟩ := others.drop fields.length
        have fails : state? (done ++ (field, v) :: fields.zip items) = none := by
          rw [List.append_cons]
          exact follows.fails next
        exact ⟨left, behind,
          by simp [Json.positional, (nextElement_open opens).2, taken, next, fails]⟩
      | some y =>
        obtain ⟨first, nodup⟩ := List.nodup_cons.1 nodup
        have new' : ∀ f ∈ fields, (done ++ [(field, v)]).lookup f = none := fun f hf => by
          rw [lookup_concat_of_ne (ne_of_mem_of_not_mem hf first)]
          exact new f (List.mem_cons_of_mem _ hf)
        obtain ⟨left, behind, tail⟩ := ih others next
          (fun f hf => known f (List.mem_cons_of_mem _ hf)) new' nodup
        refine ⟨left, behind, ?_⟩
        simp only [List.append_assoc, List.singleton_append] at tail
        simp [Json.positional, (nextElement_open opens).2, taken, next, tail, Function.comp_def]

omit follows in
theorem entries_first (text : List Char) (fuel : Nat) (x : σ) (tokens : List Token) :
    entries format true (fuel + 1) x (.string text :: tokens) =
      entries format false (fuel + 1) x (.comma :: .string text :: tokens) := rfl

omit follows in
theorem positional_first {token : Token} (opens : token.Opens) (field : String)
    (fields : List String) (x : σ) (tokens : List Token) :
    positional format true (field :: fields) x (token :: tokens) =
      positional format false (field :: fields) x (.comma :: token :: tokens) := by
  rw [positional, positional, (nextElement_open opens).1, (nextElement_open opens).2]

omit follows in
/-- A list ends where its items do. -/
theorem Lexed.closeList {items : List Value} {tokens rest : List Token}
    (lexed : Lexed (.elements items) tokens (.closing .list :: rest)) :
    (closeList tokens).toOption = if items = [] then some rest else none := by
  cases lexed with
  | noElements => rfl
  | element value others =>
    obtain ⟨token, more, rfl, opens⟩ := value.opens
    cases token with
    | closing => exact opens.elim
    | _ => rfl

omit follows in
theorem toOption_decodeRecord_object (tokens : List Token) :
    (decodeRecord format (.opening .object :: tokens)).toOption =
      (entries format true (tokens.length + 1) format.start tokens).toOption.bind fun read =>
        (format.finish read.1).toOption.bind fun value =>
          (closeObject read.2).toOption.map (value, ·) := by
  simp [decodeRecord]

omit follows in
theorem toOption_decodeRecord_list (tokens : List Token) :
    (decodeRecord format (.opening .list :: tokens)).toOption =
      (positional format true format.fields format.start tokens).toOption.bind fun read =>
        (format.finishList read.1 read.2.1).toOption.bind fun value =>
          (Json.closeList read.2.2).toOption.map (value, ·) := by
  simp [decodeRecord]

/-- A record is read from its members, whatever it is written as. -/
theorem RecordFormat.Follows.record : Decodes (decodeRecord format) fun v =>
    (v.members? format.fields).bind fun named =>
      (state? named).bind fun x => (format.finish x).toOption := by
  intro v tokens rest lexed
  obtain ⟨field, fields, all⟩ := List.exists_cons_of_ne_nil follows.nonempty
  cases lexed with
  | emptyObject =>
    have read : (Json.entries format true ((.closing .object :: rest : List Token).length + 1)
        format.start (.closing .object :: rest)).toOption =
          some (format.start, .closing .object :: rest) := rfl
    rw [toOption_decodeRecord_object, read]
    cases value : format.finish format.start <;>
      simp [Value.members?, named?, Distinct, follows.start, value, closeObject]
  | @object members tokens _ inside =>
    obtain ⟨text, more, rfl⟩ := inside.membersFront
    have length := inside.length
    simp only [Phrase.size, List.length_cons] at length
    have enough : members.length < (Token.string text :: more).length + 1 := by
      simp only [List.length_cons]
      omega
    have read := follows.entries inside follows.start (by simp [Distinct]) enough
    rw [← entries_first] at read
    rw [toOption_decodeRecord_object, read]
    cases named : named? members with
    | none => simp [named, Value.members?]
    | some named' =>
      by_cases distinct : Distinct format.fields named'
      · cases state : state? named' with
        | none => simp [named, distinct, Value.members?, state]
        | some x => cases value : (format.finish x).toOption <;>
            simp [named, distinct, Value.members?, state, value, closeObject]
      · simp [named, distinct, Value.members?]
  | emptyList =>
    have read : (Json.positional format true format.fields format.start
        (.closing .list :: rest)).toOption = some (0, format.start, .closing .list :: rest) := by
      rw [all]
      rfl
    have empty : format.fields.zip ([] : List Value) = [] := List.zip_nil_right
    have finish := follows.list (empty ▸ follows.start)
    rw [toOption_decodeRecord_list, read]
    cases value : format.finish format.start <;>
      simp_all [Value.members?, follows.start, closeList]
  | @list items tokens _ inside =>
    obtain ⟨token, more, rfl, opens⟩ := inside.elementsFront
    obtain ⟨left, behind, read⟩ := follows.positional inside follows.start
      (fun _ (known : _ ∈ format.fields) => known) (fun _ _ => rfl) follows.nodup
    rw [all, ← positional_first opens, ← all, List.nil_append] at read
    rw [toOption_decodeRecord_list, read]
    have close := behind.closeList
    simp only [List.drop_eq_nil_iff] at close
    have members : (Value.list items).members? format.fields =
        if items.length ≤ format.fields.length then some (format.fields.zip items) else none := rfl
    dsimp only
    rw [members]
    cases state : state? (format.fields.zip items) with
    | none => split <;> simp [state]
    | some x =>
      have finish := follows.list state
      simp only [Option.map_some, Option.bind_some, finish, close]
      cases value : (format.finish x).toOption <;> split <;> simp [state, value]
  | _ => rfl

end StreamMachine.Json
