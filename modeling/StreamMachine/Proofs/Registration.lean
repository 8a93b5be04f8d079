import Mathlib.Data.List.Nodup
import StreamMachine.Session.Registry

/-! Registries that come of registrations: the names and the positions lead to each other, whatever
has been accepted, rejected or has panicked on the way, and what has been accepted stays. -/
namespace StreamMachine

namespace Registry

/-- Names lead to positions and positions to descriptors that know both. -/
structure Coherent (r : Registry) : Prop where
  forward : ∀ name id, r.ids.lookup name = some id → ∃ d, r.get? id = some d ∧ d.name = name
  backward : ∀ id d, r.get? id = some d → r.ids.lookup d.name = some id ∧ d.id = id

namespace Coherent

variable {r : Registry} {name : String} {d : Descriptor}

theorem empty : Coherent .empty := ⟨by simp [Registry.empty], by simp [Registry.empty, get?]⟩

theorem mem_names_iff (h : r.Coherent) : name ∈ r.names ↔ (r.ids.lookup name).isSome := by
  rw [names, List.mem_map]
  constructor
  · rintro ⟨d, mem, rfl⟩
    obtain ⟨id, found⟩ := List.getElem?_of_mem mem
    rw [(h.backward id d found).1]
    rfl
  · intro some
    obtain ⟨id, found⟩ := Option.isSome_iff_exists.1 some
    obtain ⟨d, at_id, same⟩ := h.forward name id found
    exact ⟨d, List.mem_of_getElem? at_id, same⟩

theorem contains_eq_false (h : r.Coherent) (new : name ∉ r.names) : r.contains name = false := by
  rw [h.mem_names_iff] at new
  exact Bool.eq_false_iff.2 new

theorem contains_eq_true (h : r.Coherent) (taken : name ∈ r.names) : r.contains name = true :=
  h.mem_names_iff.1 taken

/-- No two positions hold the same name. -/
theorem unique (h : r.Coherent) {i j : Nat} {d e : Descriptor} (at_i : r.get? i = some d)
    (at_j : r.get? j = some e) (same : e.name = d.name) : j = i := by
  have first := (h.backward i d at_i).1
  have second := (h.backward j e at_j).1
  rw [same, first] at second
  exact (Option.some.inj second).symm

theorem nodup_names (h : r.Coherent) : r.names.Nodup := by
  rw [names, List.nodup_iff_getElem?_ne_getElem?]
  intro i j before inside same
  rw [List.length_map] at inside
  have earlier : i < r.descriptors.length := Nat.lt_trans before inside
  rw [List.getElem?_map, List.getElem?_map, List.getElem?_eq_getElem inside,
    List.getElem?_eq_getElem earlier] at same
  have := h.unique (List.getElem?_eq_getElem inside) (List.getElem?_eq_getElem earlier)
    (Option.some.inj same)
  omega

theorem lookup?_eq_some_iff (h : r.Coherent) :
    r.lookup? name = some d ↔ ∃ id, r.get? id = some d ∧ d.name = name := by
  rw [lookup?, Option.bind_eq_bind, Option.bind_eq_some_iff]
  constructor
  · rintro ⟨id, found, at_id⟩
    obtain ⟨e, at_id', same⟩ := h.forward name id found
    obtain rfl := Option.some.inj (at_id'.symm.trans at_id)
    exact ⟨id, at_id, same⟩
  · rintro ⟨id, at_id, rfl⟩
    exact ⟨id, (h.backward id d at_id).1, at_id⟩

theorem tryLookup_eq_ok_iff (h : r.Coherent) :
    r.tryLookup name = .ok d ↔ ∃ id, r.get? id = some d ∧ d.name = name := by
  rw [← h.lookup?_eq_some_iff, tryLookup]
  cases r.lookup? name <;> simp

theorem tryLookup_eq_error_iff (h : r.Coherent) :
    r.tryLookup name = .error (.notFound name) ↔ name ∉ r.names := by
  have none : r.lookup? name = none ↔ name ∉ r.names := by
    rw [Option.eq_none_iff_forall_ne_some, names, List.mem_map]
    constructor
    · rintro absent ⟨d, mem, same⟩
      obtain ⟨id, found⟩ := List.getElem?_of_mem mem
      exact absent d (h.lookup?_eq_some_iff.2 ⟨id, found, same⟩)
    · rintro absent d found
      obtain ⟨id, at_id, same⟩ := h.lookup?_eq_some_iff.1 found
      exact absent ⟨d, List.mem_of_getElem? at_id, same⟩
  rw [← none, tryLookup]
  cases r.lookup? name <;> simp

/-- A new name goes to the end, and nothing else changes. -/
theorem insert (h : r.Coherent) (new : d.name ∉ r.names) (place : d.id = r.size) :
    (r.insert d).Coherent := by
  have get?_insert (id : Nat) : (r.insert d).get? id =
      if id = r.size then some d else r.get? id := by
    rw [get?, Registry.insert, List.getElem?_append, get?, size]
    split
    next inside => rw [if_neg (by omega)]
    next outside =>
      split
      next last => simp [last]
      next other =>
        rw [List.getElem?_eq_none (by simp; omega), List.getElem?_eq_none (by omega)]
  have absent : r.get? r.size = none := List.getElem?_eq_none (Nat.le_refl _)
  constructor
  · intro name id found
    rw [Registry.insert, List.lookup_cons, place] at found
    rw [get?_insert]
    split at found
    next same =>
      cases found
      exact ⟨d, if_pos rfl, (beq_iff_eq.1 same).symm⟩
    next other =>
      obtain ⟨e, at_id, same⟩ := h.forward name id found
      have : id ≠ r.size := by
        rintro rfl
        rw [absent] at at_id
        cases at_id
      exact ⟨e, (if_neg this).trans at_id, same⟩
  · intro id e at_id
    rw [get?_insert] at at_id
    rw [Registry.insert, List.lookup_cons, place]
    split at at_id
    next last =>
      cases at_id
      exact ⟨by simp [last], place.trans last.symm⟩
    next earlier =>
      obtain ⟨found, same⟩ := h.backward id e at_id
      have other : e.name ≠ d.name := by
        intro same
        rw [← same, h.mem_names_iff, found] at new
        exact new rfl
      rw [beq_false_of_ne other]
      exact ⟨found, same⟩

end Coherent

variable {r : Registry} {name : String}

theorem tryRegister_taken (h : r.Coherent) (taken : name ∈ r.names) (behavior : Behavior) :
    r.tryRegister name behavior = .ok (.rejected (.duplicate name)) := by
  rw [tryRegister, if_pos (h.contains_eq_true taken)]

theorem register_taken (h : r.Coherent) (taken : name ∈ r.names) (behavior : Behavior) :
    r.register name behavior = .error (.violation (.registry (.duplicate name))) := by
  rw [register, tryRegister_taken h taken]

theorem tryRegister_fresh (h : r.Coherent) (new : name ∉ r.names) (behavior : Behavior) :
    r.tryRegister name behavior = match behavior.category 0 with
      | .error panic => .error panic
      | .ok category => .ok (.accepted ⟨name, r.size, category, behavior⟩
          (r.insert ⟨name, r.size, category, behavior⟩)) := by
  cases asked : behavior.category 0 <;>
    rw [tryRegister, h.contains_eq_false new, if_neg Bool.false_ne_true, asked]

/-- What is accepted has a new name and the category that its behavior names at that moment. -/
theorem of_tryRegister_accepted {behavior : Behavior} {d : Descriptor} {r' : Registry}
    (accepted : r.tryRegister name behavior = .ok (.accepted d r')) :
    r.contains name = false ∧ behavior.category 0 = .ok d.category ∧ d.behavior = behavior ∧
      d.name = name ∧ d.id = r.size ∧ r' = r.insert d := by
  rw [tryRegister] at accepted
  split at accepted
  · cases accepted
  next new =>
    split at accepted
    · cases accepted
    next category named =>
      cases accepted
      exact ⟨by simpa using new, named, rfl, rfl, rfl, rfl⟩

end Registry

namespace RegistrySession

variable {s : RegistrySession}

/-- The descriptor that a command has had registered, by the reply to it. -/
def registered? : RegistryCommand → RegistryReply → Option Descriptor
  | .register .., .descriptor d .. | .tryRegister .., .descriptor d .. => some d
  | _, _ => none

/-- A session before its first command. -/
def blank : RegistrySession := { registry := .empty }

/-- Sessions with the descriptors that have been registered in them, in order. -/
inductive Reaches : List Descriptor → RegistrySession → Prop
  | blank : Reaches [] blank
  | answer {accepted : List Descriptor} {s : RegistrySession} (run : Reaches accepted s)
      (command : RegistryCommand) :
      Reaches (accepted ++ (registered? command (s.answer command).1.reply).toList)
        (s.answer command).2

theorem answer_tryRegister (s : RegistrySession) (name : String) (behavior : Behavior) :
    s.answer (.tryRegister name behavior) = match s.registry.tryRegister name behavior with
      | .ok (.accepted d r) =>
        (⟨((s.withRegistry r).view d).1, [d.notice], r⟩, ((s.withRegistry r).view d).2)
      | .ok (.rejected error) => (⟨.failed error, [], s.registry⟩, s)
      | .error panic => (⟨.panicked panic, [], s.registry⟩, s) := by
  rw [answer, perform, Registry.tryRegisterNoted]
  cases s.registry.tryRegister name behavior with
  | error panic => rfl
  | ok outcome => cases outcome <;> rfl

theorem answer_register (s : RegistrySession) (name : String) (behavior : Behavior) :
    s.answer (.register name behavior) = match s.registry.tryRegister name behavior with
      | .ok (.accepted d r) =>
        (⟨((s.withRegistry r).view d).1, [d.notice], r⟩, ((s.withRegistry r).view d).2)
      | .ok (.rejected error) => (⟨.panicked (.violation (.registry error)),
          [.violated (.registry error)], s.registry⟩, s)
      | .error panic => (⟨.panicked panic, [], s.registry⟩, s) := by
  rw [answer, perform, Registry.registerNoted, Registry.tryRegisterNoted]
  cases s.registry.tryRegister name behavior with
  | error panic => rfl
  | ok outcome => cases outcome <;> rfl

/-- The registry holds what has been accepted, in this order. -/
structure Holds (accepted : List Descriptor) (s : RegistrySession) : Prop where
  coherent : s.registry.Coherent
  descriptors : s.registry.descriptors = accepted

namespace Holds

variable {accepted : List Descriptor} {d : Descriptor}

theorem blank : Holds [] blank := ⟨.empty, rfl⟩

/-- To show a descriptor is to leave the registry as it is. -/
theorem view (h : s.Holds accepted) (d : Descriptor) : (s.view d).2.Holds accepted :=
  ⟨h.coherent, h.descriptors⟩

theorem accept (h : s.Holds accepted) {name : String} {behavior : Behavior} {r : Registry}
    (new : s.registry.tryRegister name behavior = .ok (.accepted d r)) :
    (s.withRegistry r).Holds (accepted ++ [d]) := by
  obtain ⟨free, -, -, rfl, place, rfl⟩ := Registry.of_tryRegister_accepted new
  have absent : d.name ∉ s.registry.names := by
    intro taken
    rw [h.coherent.contains_eq_true taken] at free
    cases free
  refine ⟨h.coherent.insert absent place, ?_⟩
  rw [withRegistry, Registry.insert, h.descriptors]

theorem registration (h : s.Holds accepted) {command : RegistryCommand} {name : String}
    {behavior : Behavior}
    (registers : command = .register name behavior ∨ command = .tryRegister name behavior) :
    (s.answer command).2.Holds
      (accepted ++ (registered? command (s.answer command).1.reply).toList) := by
  cases outcome : s.registry.tryRegister name behavior with
  | error panic =>
    have same : (s.answer command).2 = s ∧ (s.answer command).1.reply = .panicked panic := by
      rcases registers with rfl | rfl
      · rw [answer_register, outcome]
        exact ⟨rfl, rfl⟩
      · rw [answer_tryRegister, outcome]
        exact ⟨rfl, rfl⟩
    rw [same.1, same.2]
    simpa [registered?] using h
  | ok result =>
    cases result with
    | rejected error =>
      rcases registers with rfl | rfl
      · rw [answer_register, outcome]
        simpa [registered?] using h
      · rw [answer_tryRegister, outcome]
        simpa [registered?] using h
    | accepted d r =>
      have held := h.accept outcome
      rcases registers with rfl | rfl
      · rw [answer_register, outcome]
        exact held.view d
      · rw [answer_tryRegister, outcome]
        exact held.view d

/-- What is only shown leaves the registry alone. -/
theorem answer (h : s.Holds accepted) (command : RegistryCommand) : (s.answer command).2.Holds
    (accepted ++ (registered? command (s.answer command).1.reply).toList) := by
  have idle : accepted ++ [] = accepted := List.append_nil accepted
  cases command with
  | register name behavior => exact h.registration (.inl rfl)
  | tryRegister name behavior => exact h.registration (.inr rfl)
  | lookup name =>
    simp only [registered?, Option.toList_none, idle, RegistrySession.answer, perform]
    cases s.registry.lookup name with
    | error violation => exact h
    | ok d => exact h.view d
  | tryLookup name =>
    simp only [registered?, Option.toList_none, idle, RegistrySession.answer, perform]
    cases s.registry.tryLookup name with
    | error error => exact h
    | ok d => exact h.view d
  | get id =>
    simp only [registered?, Option.toList_none, idle, RegistrySession.answer, perform]
    cases s.registry.get? id with
    | none => exact h
    | some d => exact h.view d
  | contains | names | debug =>
    simp only [registered?, Option.toList_none, idle]
    exact h

end Holds

theorem Reaches.holds {accepted : List Descriptor} (run : Reaches accepted s) :
    s.Holds accepted := by
  induction run with
  | blank => exact .blank
  | answer _ command ih => exact ih.answer command

/-- What holds of a registry after any commands, some of which had the given descriptors registered,
in this order. -/
structure Recorded (accepted : List Descriptor) (s : RegistrySession) : Prop where
  names : s.registry.names = accepted.map (·.name)
  distinct : s.registry.names.Nodup
  size : s.registry.size = s.registry.names.length
  get : ∀ id, (s.registry.get? id).isSome ↔ id < s.registry.size
  ids : ∀ id d, s.registry.get? id = some d → d.id = id
  /-- A lookup finds the descriptor at the one position that holds the name. -/
  found : ∀ name d, s.registry.tryLookup name = .ok d ↔ ∃ id, s.registry.get? id = some d ∧
    d.name = name ∧ ∀ other e, s.registry.get? other = some e → e.name = name → other = id
  missing : ∀ name, s.registry.tryLookup name = .error (.notFound name) ↔
    ∀ id d, s.registry.get? id = some d → d.name ≠ name
  inside : ∀ name id, s.registry.ids.lookup name = some id → id < s.registry.descriptors.length
  contains : ∀ name, s.registry.contains name = true ↔ ∃ d, s.registry.tryLookup name = .ok d
  /-- Under a name that is taken nothing changes, whatever the behavior would answer. -/
  taken : ∀ name ∈ s.registry.names, ∀ behavior : Behavior,
    s.registry.tryRegister name behavior = .ok (.rejected (.duplicate name)) ∧
    s.registry.register name behavior = .error (.violation (.registry (.duplicate name))) ∧
    s.answer (.tryRegister name behavior) = (⟨.failed (.duplicate name), [], s.registry⟩, s) ∧
    s.answer (.register name behavior) = (⟨.panicked (.violation (.registry (.duplicate name))),
      [.violated (.registry (.duplicate name))], s.registry⟩, s)
  /-- Nor does it when a behavior panics as it is asked for its category. -/
  panicking : ∀ name ∉ s.registry.names, ∀ (behavior : Behavior) (panic : Panic),
    behavior.category 0 = .error panic →
    s.answer (.tryRegister name behavior) = (⟨.panicked panic, [], s.registry⟩, s) ∧
    s.answer (.register name behavior) = (⟨.panicked panic, [], s.registry⟩, s)
  fresh : ∀ name ∉ s.registry.names, ∀ (behavior : Behavior) (category : StreamCategory),
    behavior.category 0 = .ok category →
    ∀ command ∈ [RegistryCommand.tryRegister name behavior, .register name behavior],
      registered? command (s.answer command).1.reply =
        some ⟨name, s.registry.size, category, behavior⟩
  /-- What has been registered once is what every lookup of its name gives from then on. -/
  lasting : ∀ d ∈ accepted, s.registry.tryLookup d.name = .ok d ∧
    s.registry.lookup d.name = .ok d ∧ s.registry.get? d.id = some d

/-- After any commands, some of which register and may be rejected or panic. -/
theorem recorded_of_reaches {accepted : List Descriptor} (run : Reaches accepted s) :
    s.Recorded accepted := by
  obtain ⟨coherent, rfl⟩ := run.holds
  have at_own {d : Descriptor} (mem : d ∈ s.registry.descriptors) :
      s.registry.get? d.id = some d := by
    obtain ⟨id, at_id⟩ := List.getElem?_of_mem mem
    rwa [(coherent.backward id d at_id).2]
  have lookup_own {d : Descriptor} (mem : d ∈ s.registry.descriptors) :
      s.registry.tryLookup d.name = .ok d :=
    coherent.tryLookup_eq_ok_iff.2 ⟨d.id, at_own mem, rfl⟩
  constructor
  case names => rfl
  case distinct => exact coherent.nodup_names
  case size => rw [Registry.names, List.length_map, Registry.size]
  case get =>
    intro id
    simp [Registry.get?, Registry.size]
  case ids => exact fun id d at_id => (coherent.backward id d at_id).2
  case found =>
    intro name d
    rw [coherent.tryLookup_eq_ok_iff]
    refine exists_congr fun id => and_congr_right fun at_id => ⟨?_, And.left⟩
    rintro rfl
    exact ⟨rfl, fun other e at_other same => coherent.unique at_id at_other same⟩
  case missing =>
    intro name
    rw [coherent.tryLookup_eq_error_iff, Registry.names, List.mem_map]
    constructor
    · exact fun absent id d at_id same => absent ⟨d, List.mem_of_getElem? at_id, same⟩
    · rintro absent ⟨d, mem, same⟩
      exact absent d.id d (at_own mem) same
  case inside =>
    intro name id found
    obtain ⟨d, at_id, -⟩ := coherent.forward name id found
    exact (List.getElem?_eq_some_iff.1 at_id).1
  case contains =>
    intro name
    rw [show s.registry.contains name = true ↔ name ∈ s.registry.names from
      coherent.mem_names_iff.symm, Registry.names, List.mem_map]
    constructor
    · rintro ⟨d, mem, rfl⟩
      exact ⟨d, lookup_own mem⟩
    · rintro ⟨d, found⟩
      obtain ⟨id, at_id, same⟩ := coherent.tryLookup_eq_ok_iff.1 found
      exact ⟨d, List.mem_of_getElem? at_id, same⟩
  case taken =>
    intro name taken behavior
    have rejected := Registry.tryRegister_taken coherent taken behavior
    refine ⟨rejected, Registry.register_taken coherent taken behavior, ?_, ?_⟩
    · rw [answer_tryRegister, rejected]
    · rw [answer_register, rejected]
  case panicking =>
    intro name new behavior panic asked
    have aborted := Registry.tryRegister_fresh coherent new behavior
    rw [asked] at aborted
    constructor
    · rw [answer_tryRegister, aborted]
    · rw [answer_register, aborted]
  case fresh =>
    intro name new behavior category asked command mem
    have accepted := Registry.tryRegister_fresh coherent new behavior
    rw [asked] at accepted
    simp only [List.mem_cons, List.not_mem_nil, or_false] at mem
    rcases mem with rfl | rfl
    · rw [answer_tryRegister, accepted]
      rfl
    · rw [answer_register, accepted]
      rfl
  case lasting =>
    intro d mem
    refine ⟨lookup_own mem, ?_, at_own mem⟩
    rw [Registry.lookup, lookup_own mem]
    rfl

/-- A behavior that will not tell its category. -/
def silent : Behavior := ⟨fun _ => .error (.raised "no category"), [], []⟩

/-- Two registrations, one of them under the empty name, then one that panics and one under a name
that is taken. -/
def mixed : List RegistryCommand :=
  [.tryRegister "a" (Kind.noop.behavior "a" .cpu), .register "" (Kind.flip.behavior "" .cpu),
    .register "b" silent, .tryRegister "a" silent]

theorem recorded_of_mixed : ∃ accepted,
    Reaches accepted (mixed.foldl (fun s command => (s.answer command).2) blank) ∧
    accepted.map (·.name) = ["a", ""] ∧
    Recorded accepted (mixed.foldl (fun s command => (s.answer command).2) blank) := by
  have run := (((Reaches.blank.answer (.tryRegister "a" (Kind.noop.behavior "a" .cpu))).answer
    (.register "" (Kind.flip.behavior "" .cpu))).answer (.register "b" silent)).answer
    (.tryRegister "a" silent)
  exact ⟨_, run, rfl, recorded_of_reaches run⟩

end RegistrySession

end StreamMachine
