import StreamMachine.Proofs.Registration

/-! The keys under which instruction kinds are registered. As long as logical names hold no dot, a
key tells its category and its logical name, so kinds that differ in either never get into each
other's way. -/
namespace StreamMachine

/-! ### The last dot -/

/-- The parts before and behind the last dot. Without a dot all is behind. -/
def splitChars : List Char → Option (List Char) × List Char
  | [] => (none, [])
  | c :: cs =>
    match splitChars cs with
    | (some before, behind) => (some (c :: before), behind)
    | (none, behind) => if c = '.' then (some [], behind) else (none, c :: behind)

def splitLastDot (key : String) : Option String × String :=
  let parts := splitChars key.toList
  (parts.1.map String.ofList, String.ofList parts.2)

section Splitting

variable {behind : List Char} {logical : String}

theorem splitChars_dotless (dotless : '.' ∉ behind) : splitChars behind = (none, behind) := by
  induction behind with
  | nil => rfl
  | cons c cs ih =>
    obtain ⟨first, more⟩ := not_or.1 (mt List.mem_cons.2 dotless)
    rw [splitChars, ih more]
    exact if_neg fun same => first same.symm

theorem splitChars_append (dotless : '.' ∉ behind) (before : List Char) :
    splitChars (before ++ '.' :: behind) = (some before, behind) := by
  induction before with
  | nil =>
    rw [List.nil_append, splitChars, splitChars_dotless dotless]
    rfl
  | cons c before ih => rw [List.cons_append, splitChars, ih]

/-- The last dot is one behind which there is none. -/
theorem dotless_or_append (cs : List Char) :
    '.' ∉ cs ∨ ∃ before behind, cs = before ++ '.' :: behind ∧ '.' ∉ behind := by
  induction cs with
  | nil => exact .inl List.not_mem_nil
  | cons c cs ih =>
    obtain dotless | ⟨before, behind, rfl, dotless⟩ := ih
    · by_cases dot : c = '.'
      · exact .inr ⟨[], cs, by rw [dot, List.nil_append], dotless⟩
      · refine .inl fun mem => ?_
        rcases List.mem_cons.1 mem with same | mem
        · exact dot same.symm
        · exact dotless mem
    · exact .inr ⟨c :: before, behind, rfl, dotless⟩

theorem splitLastDot_dotless (dotless : '.' ∉ logical.toList) :
    splitLastDot logical = (none, logical) := by
  rw [splitLastDot, splitChars_dotless dotless]
  exact congrArg (Prod.mk none) String.ofList_toList

theorem splitLastDot_append (dotless : '.' ∉ logical.toList) (leading : String) :
    splitLastDot (leading ++ "." ++ logical) = (some leading, logical) := by
  have chars : (leading ++ "." ++ logical).toList = leading.toList ++ '.' :: logical.toList := by
    simp [String.toList_append]
  rw [splitLastDot, chars, splitChars_append dotless]
  simp

end Splitting

/-! ### Keys -/

/-- A name without a dot. -/
structure LogicalName where
  text : String
  dotless : '.' ∉ text.toList
  deriving DecidableEq

namespace StreamCategory

/-- The category with the given prefix, which for host is none. -/
def ofPrefix? (leading : Option String) : Option StreamCategory :=
  all.find? (·.registryPrefix? == leading)

theorem ofPrefix?_registryPrefix? (category : StreamCategory) :
    ofPrefix? category.registryPrefix? = some category := by
  rcases category with _ | _ | _ | _ <;> decide +kernel

theorem splitLastDot_qualifiedName (category : StreamCategory) (logical : LogicalName) :
    splitLastDot (category.qualifiedName logical.text) =
      (category.registryPrefix?, logical.text) := by
  unfold qualifiedName
  cases category.registryPrefix? with
  | none => exact splitLastDot_dotless logical.dotless
  | some leading => exact splitLastDot_append logical.dotless leading

theorem qualifiedName_inj {category other : StreamCategory} {logical name : LogicalName} :
    category.qualifiedName logical.text = other.qualifiedName name.text ↔
      category = other ∧ logical = name := by
  constructor
  · intro same
    have parts := splitLastDot_qualifiedName category logical
    rw [same, splitLastDot_qualifiedName] at parts
    obtain ⟨leading, text⟩ := Prod.mk.inj parts
    have read := ofPrefix?_registryPrefix? other
    rw [leading, ofPrefix?_registryPrefix?] at read
    obtain ⟨text, dotless⟩ := logical
    obtain ⟨text', dotless'⟩ := name
    cases text
    exact ⟨Option.some.inj read, rfl⟩
  · rintro ⟨rfl, rfl⟩
    rfl

theorem registryPrefix?_of_ofPrefix? {category : StreamCategory} {leading : Option String}
    (read : ofPrefix? leading = some category) : category.registryPrefix? = leading := by
  have hit := List.find?_some read
  exact eq_of_beq hit

/-- The category and the logical name that a key tells. -/
def ofKey? (key : String) : Option (StreamCategory × String) :=
  let parts := splitLastDot key
  (ofPrefix? parts.1).map fun category => (category, parts.2)

theorem ofKey?_qualifiedName (category : StreamCategory) (logical : LogicalName) :
    ofKey? (category.qualifiedName logical.text) = some (category, logical.text) := by
  rw [ofKey?, splitLastDot_qualifiedName, ofPrefix?_registryPrefix?]
  rfl

/-- The key of a built-in kind tells the category that its behavior gives. -/
example : ∀ kind ∈ Registry.builtinKinds,
    (ofKey? kind.1).map (·.1) = (kind.2.category 0).toOption := by
  decide +kernel

/-- A key tells a category and a logical name only if it is theirs. -/
theorem eq_of_ofKey? {key logical : String} {category : StreamCategory}
    (read : ofKey? key = some (category, logical)) :
    '.' ∉ logical.toList ∧ category.qualifiedName logical = key := by
  have made {leading : Option String} {text : String} (split : splitLastDot key = (leading, text)) :
      text = logical ∧ category.registryPrefix? = leading := by
    rw [ofKey?, split] at read
    obtain ⟨found, front, same⟩ := Option.map_eq_some_iff.1 read
    cases same
    exact ⟨rfl, registryPrefix?_of_ofPrefix? front⟩
  obtain dotless | ⟨before, behind, parts, dotless⟩ := dotless_or_append key.toList
  · obtain ⟨rfl, bare⟩ := made (splitLastDot_dotless dotless)
    exact ⟨dotless, by rw [qualifiedName, bare]⟩
  · have behind' : '.' ∉ (String.ofList behind).toList := by rwa [String.toList_ofList]
    have whole : key = String.ofList before ++ "." ++ String.ofList behind := by
      rw [← String.toList_inj, parts]
      simp
    obtain ⟨rfl, prefixed⟩ := made (whole ▸ splitLastDot_append behind' _)
    refine ⟨behind', ?_⟩
    rw [qualifiedName, prefixed]
    exact whole.symm

end StreamCategory

/-! ### Registrations -/

/-- A behavior to be registered for a category under a logical name. -/
structure Request where
  category : StreamCategory
  name : LogicalName
  behavior : Behavior

namespace Request

def pair (request : Request) : StreamCategory × LogicalName := (request.category, request.name)

def key (request : Request) : String := request.category.qualifiedName request.name.text

end Request

namespace Registry

/-- The registry that an attempt leaves. A rejected behavior and one that panics do not change it. -/
def left (r : Registry) : Except Panic Registration → Registry
  | .ok (.accepted _ registry) => registry
  | _ => r

def serve (r : Registry) (request : Request) : Registry :=
  r.left (r.tryRegister request.key request.behavior)

/-- One request after another. -/
def serveAll (r : Registry) (requests : List Request) : Registry := requests.foldl serve r

variable {r : Registry} {name : String} {d : Descriptor} {request : Request}
  {requests : List Request}

/-- A request adds one descriptor under its key, which was free, or nothing. -/
theorem serve_cases (h : r.Coherent) (request : Request) : r.serve request = r ∨
    ∃ d, d.name = request.key ∧ d.name ∉ r.names ∧ d.id = r.size ∧
      r.serve request = r.insert d := by
  unfold serve
  cases outcome : r.tryRegister request.key request.behavior with
  | error panic => exact .inl rfl
  | ok registration =>
    cases registration with
    | rejected error => exact .inl rfl
    | accepted d after =>
      obtain ⟨free, -, -, named, place, rfl⟩ := of_tryRegister_accepted outcome
      refine .inr ⟨d, named, ?_, place, rfl⟩
      intro taken
      rw [← named, h.contains_eq_true taken] at free
      cases free

theorem Coherent.serve (h : r.Coherent) (request : Request) : (r.serve request).Coherent := by
  obtain same | ⟨d, -, new, place, added⟩ := serve_cases h request
  · rwa [same]
  · rw [added]
    exact h.insert new place

theorem Coherent.serveAll (h : r.Coherent) (requests : List Request) :
    (r.serveAll requests).Coherent := by
  induction requests generalizing r with
  | nil => exact h
  | cons request requests ih => exact ih (h.serve request)

theorem mem_names_serveAll (h : r.Coherent) (mem : name ∈ (r.serveAll requests).names) :
    name ∈ r.names ∨ name ∈ requests.map Request.key := by
  induction requests generalizing r with
  | nil => exact .inl mem
  | cons request requests ih =>
    obtain here | later := ih (h.serve request) mem
    · obtain same | ⟨d, named, -, -, added⟩ := serve_cases h request
      · exact .inl (same ▸ here)
      · rw [added, names_insert, List.mem_append, List.mem_singleton, named] at here
        rcases here with old | rfl
        · exact .inl old
        · exact .inr (List.mem_cons_self ..)
    · exact .inr (List.mem_cons_of_mem _ later)

/-- What is registered stays registered under its name. -/
theorem tryLookup_serveAll (h : r.Coherent) (found : r.tryLookup name = .ok d) :
    (r.serveAll requests).tryLookup name = .ok d := by
  induction requests generalizing r with
  | nil => exact found
  | cons request requests ih =>
    refine ih (h.serve request) ?_
    obtain same | ⟨new, -, -, -, added⟩ := serve_cases h request
    · rwa [same]
    · obtain ⟨id, at_id, named⟩ := h.tryLookup_eq_ok_iff.1 found
      have inside : id < r.descriptors.length := (List.getElem?_eq_some_iff.1 at_id).1
      refine (h.serve request).tryLookup_eq_ok_iff.2 ⟨id, ?_, named⟩
      rw [added, get?, insert, List.getElem?_append_left inside]
      exact at_id

/-- What a request comes to, given the registry before it and the one after all requests. -/
structure Served (before after : Registry) (request : Request) : Prop where
  undisputed : ∀ error,
    before.tryRegister request.key request.behavior ≠ .ok (.rejected error)
  accepted : ∀ category, request.behavior.category 0 = .ok category → ∃ d registry,
    before.tryRegister request.key request.behavior = .ok (.accepted d registry) ∧
    before.register request.key request.behavior = .ok (d, registry) ∧
    d.name = request.key ∧ d.category = category ∧ d.behavior = request.behavior ∧
    after.tryLookup request.key = .ok d ∧ after.lookup request.key = .ok d
  panicked : ∀ panic, request.behavior.category 0 = .error panic →
    before.tryRegister request.key request.behavior = .error panic ∧
    before.register request.key request.behavior = .error panic ∧
    after.tryLookup request.key = .error (.notFound request.key)

theorem served (h : r.Coherent) (new : request.key ∉ r.names)
    (apart : request.key ∉ requests.map Request.key) :
    Served r (r.serveAll (request :: requests)) request where
  undisputed error := by
    rw [tryRegister_fresh h new]
    cases request.behavior.category 0 <;> simp
  accepted category asked := by
    have fresh := tryRegister_fresh h new request.behavior
    rw [asked] at fresh
    have added : r.serve request = r.insert ⟨request.key, r.size, category, request.behavior⟩ := by
      rw [serve, fresh]
      rfl
    have found : (r.serve request).tryLookup request.key =
        .ok ⟨request.key, r.size, category, request.behavior⟩ := by
      refine (h.serve request).tryLookup_eq_ok_iff.2 ⟨r.size, ?_, rfl⟩
      rw [added, get?, insert]
      exact List.getElem?_concat_length
    have kept : ((r.serve request).serveAll requests).tryLookup request.key =
        .ok ⟨request.key, r.size, category, request.behavior⟩ :=
      tryLookup_serveAll (h.serve request) found
    show ∃ d registry, _ ∧ _ ∧ _ ∧ _ ∧ _ ∧
      ((r.serve request).serveAll requests).tryLookup request.key = .ok d ∧
      ((r.serve request).serveAll requests).lookup request.key = .ok d
    refine ⟨_, _, fresh, ?_, rfl, rfl, rfl, kept, ?_⟩
    · rw [register, fresh]
    · rw [lookup, kept]
      rfl
  panicked panic asked := by
    have fresh := tryRegister_fresh h new request.behavior
    rw [asked] at fresh
    have same : r.serve request = r := by
      rw [serve, fresh]
      rfl
    refine ⟨fresh, ?_, ?_⟩
    · rw [register, fresh]
    · refine (h.serveAll _).tryLookup_eq_error_iff.2 fun mem => ?_
      rw [serveAll, List.foldl_cons, same] at mem
      obtain old | later := mem_names_serveAll h mem
      · exact new old
      · exact apart later

end Registry

/-- What a key tells. -/
structure StreamCategory.Told (category : StreamCategory) (logical : LogicalName) : Prop where
  unique : ∀ (other : StreamCategory) (name : LogicalName),
    category.qualifiedName logical.text = other.qualifiedName name.text ↔
      category = other ∧ logical = name
  split : splitLastDot (category.qualifiedName logical.text) =
    (category.registryPrefix?, logical.text)
  bare : category.registryPrefix? = none ↔ category = host
  prefixed : ofPrefix? category.registryPrefix? = some category
  read : ofKey? (category.qualifiedName logical.text) = some (category, logical.text)
  /-- No other key is read so. -/
  only : ∀ key, ofKey? key = some (category, logical.text) →
    key = category.qualifiedName logical.text

theorem StreamCategory.told (category : StreamCategory) (logical : LogicalName) :
    category.Told logical where
  unique _ _ := qualifiedName_inj
  split := category.splitLastDot_qualifiedName logical
  bare := by
    rcases category with _ | _ | _ | _ <;> decide
  prefixed := category.ofPrefix?_registryPrefix?
  read := category.ofKey?_qualifiedName logical
  only _ read := (eq_of_ofKey? read).2.symm

theorem Request.mem_keys_iff {category : StreamCategory} {logical : LogicalName}
    {requests : List Request} : category.qualifiedName logical.text ∈ requests.map key ↔
      (category, logical) ∈ requests.map pair := by
  rw [List.mem_map, List.mem_map]
  refine exists_congr fun request => and_congr_right fun _ => ?_
  rw [key, StreamCategory.qualifiedName_inj, pair, Prod.mk.injEq]

namespace Registry

/-- A registry in which nothing but the requests has been registered. -/
structure ServedAll (requests : List Request) (r : Registry) : Prop where
  listed : ∀ earlier request later, requests = earlier ++ request :: later →
    Served (empty.serveAll earlier) r request
  unlisted : ∀ (category : StreamCategory) (logical : LogicalName),
    (category, logical) ∉ requests.map Request.pair →
    r.tryLookup (category.qualifiedName logical.text) =
      .error (.notFound (category.qualifiedName logical.text))

/-- Keys tell their category and their logical name, so requests that differ in either are all
served, each with a descriptor of its own. -/
theorem served_of_distinct : (∀ category logical, StreamCategory.Told category logical) ∧
    ∀ requests : List Request, (requests.map Request.pair).Nodup →
      ServedAll requests (empty.serveAll requests) := by
  refine ⟨StreamCategory.told, fun requests distinct => ⟨?_, ?_⟩⟩
  · rintro earlier request later rfl
    have h : (empty.serveAll earlier).Coherent := Coherent.empty.serveAll earlier
    rw [List.map_append, List.map_cons, List.nodup_middle, List.nodup_cons,
      List.mem_append] at distinct
    obtain ⟨before, behind⟩ := not_or.1 distinct.1
    have new : request.key ∉ (empty.serveAll earlier).names := by
      intro mem
      obtain mem | mem := mem_names_serveAll .empty mem
      · cases mem
      · exact before (Request.mem_keys_iff.1 mem)
    have last := served h new (mt Request.mem_keys_iff.1 behind)
    rwa [serveAll, serveAll, ← List.foldl_append] at last
  · intro category logical absent
    refine (Coherent.empty.serveAll requests).tryLookup_eq_error_iff.2 fun mem => ?_
    obtain mem | mem := mem_names_serveAll .empty mem
    · cases mem
    · exact absent (Request.mem_keys_iff.1 mem)

/-- Logical names shared by categories, among them a behavior that panics. -/
def mixedRequests : List Request :=
  [⟨.host, ⟨"Copy", by decide⟩, .lending .write .host⟩,
   ⟨.cpu, ⟨"Copy", by decide⟩, .lending .read .host⟩,
   ⟨.host, ⟨"cpu", by decide⟩, ⟨fun _ => .error (.raised "boom"), [], []⟩⟩,
   ⟨.accelerator .cuda, ⟨"", by decide⟩, .lazyReference .cpu⟩]

theorem served_of_mixedRequests : (mixedRequests.map Request.pair).Nodup ∧
    ServedAll mixedRequests (empty.serveAll mixedRequests) ∧
    (empty.serveAll mixedRequests).names = ["Copy", "cpu.Copy", "cuda."] :=
  have distinct : (mixedRequests.map Request.pair).Nodup := by decide +kernel
  ⟨distinct, served_of_distinct.2 mixedRequests distinct, by decide +kernel⟩

end Registry

end StreamMachine
