import StreamMachine.Registry.Global

/-! The life of the process-wide registry on one thread. Until it is published, extensions of it may
be tried any number of times and leave nothing behind; then it is what it is, for good. -/
namespace StreamMachine

/-- What a thread has at hand: the process-wide registry, and in an extension the registry that the
extension is making. -/
structure Site where
  shared : GlobalRegistry := {}
  making : Option Registry := none

/-- What a thread does with the process-wide registry, and what that comes to. -/
inductive GlobalEvent where
  /-- A request outside any extension. -/
  | read (found : Except Panic Registry)
  | machine (config : MachineConfig) (made : Except Panic (Except WiringError (Nat × Nat)))
  /-- An initialisation that does not get to its extension. -/
  | refused (error : WiringError)
  | entered
  /-- An action of the extension, with its reply. -/
  | acted (action : Extension) (reply : ExtensionReply)
  /-- An action of the extension has panicked, and the panic has left the extension. -/
  | failed (action : Extension) (panic : Panic)
  /-- The extension has come to its end. -/
  | made (registry : Registry)

namespace Site

/-- One thing after another; which one is up to the host. -/
inductive Moves : Site → GlobalEvent → Site → Prop
  | read (g : GlobalRegistry) : Moves ⟨g, none⟩ (.read g.request.1) ⟨g.request.2, none⟩
  | machine (g : GlobalRegistry) (config : MachineConfig) :
      Moves ⟨g, none⟩ (.machine config (g.machine config).1) ⟨(g.machine config).2, none⟩
  | refuse {g : GlobalRegistry} {error : WiringError} (late : g.enter = .error error) :
      Moves ⟨g, none⟩ (.refused error) ⟨g, none⟩
  | enter {g g' : GlobalRegistry} (first : g.enter = .ok g') :
      Moves ⟨g, none⟩ .entered ⟨g', some Registry.builtin⟩
  | act {g g' : GlobalRegistry} {r r' : Registry} {action : Extension} {reply : ExtensionReply}
      (done : g.extend r action = (.ok (reply, r'), g')) :
      Moves ⟨g, some r⟩ (.acted action reply) ⟨g', some r'⟩
  | fail {g g' : GlobalRegistry} {r : Registry} {action : Extension} {panic : Panic}
      (panics : g.extend r action = (.error panic, g')) :
      Moves ⟨g, some r⟩ (.failed action panic) ⟨g'.leave, none⟩
  | finish (g : GlobalRegistry) (r : Registry) :
      Moves ⟨g, some r⟩ (.made r) ⟨g.leave.publish r, none⟩

inductive Reaches (s₀ : Site) : List GlobalEvent → Site → Prop
  | refl : Reaches s₀ [] s₀
  | move {s s' : Site} {seen : List GlobalEvent} {event : GlobalEvent} (run : Reaches s₀ seen s)
      (last : s.Moves event s') : Reaches s₀ (seen ++ [event]) s'

end Site

/-- An action of an extension with its reply. -/
def GlobalEvent.ofAct (act : Extension × ExtensionReply) : GlobalEvent := .acted act.1 act.2

namespace GlobalCommand

/-- What a command does, event by event, and what it is answered. -/
inductive Tells : GlobalCommand → List GlobalEvent → GlobalReply → Prop
  | request (found : Except Panic Registry) : Tells .request [.read found] (.ofRequest found)
  | machine (config : MachineConfig) (made : Except Panic (Except WiringError (Nat × Nat))) :
      Tells (.machine config) [.machine config made] (.ofMachine made)
  /-- Nothing of the extension is done. -/
  | refused (extension : List Extension) (error : WiringError) :
      Tells (.init extension) [.refused error] (.failed error)
  /-- All of the extension is done. -/
  | made (extension : List Extension) (replies : List ExtensionReply) (r : Registry)
      (ran : replies.length = extension.length) :
      Tells (.init extension) (.entered :: (extension.zip replies).map .ofAct ++ [.made r])
        (.made r replies)
  /-- The extension is done up to the action that panics. -/
  | panicked (extension : List Extension) (replies : List ExtensionReply) (action : Extension)
      (panic : Panic) (next : extension[replies.length]? = some action) :
      Tells (.init extension)
        (.entered :: (extension.zip replies).map .ofAct ++ [.failed action panic]) (.panicked panic)

/-- What commands do one after another, with their replies. -/
inductive AllTell : List GlobalCommand → List GlobalEvent → List GlobalReply → Prop
  | nil : AllTell [] [] []
  | cons {command : GlobalCommand} {commands : List GlobalCommand} {trace more : List GlobalEvent}
      {reply : GlobalReply} {replies : List GlobalReply} (first : command.Tells trace reply)
      (rest : AllTell commands more replies) :
      AllTell (command :: commands) (trace ++ more) (reply :: replies)

end GlobalCommand

/-- What a session leaves behind. -/
def GlobalRegistry.after (g : GlobalRegistry) (commands : List GlobalCommand) : GlobalRegistry :=
  commands.foldl (fun g command => (g.answer command).2) g

/-! ### Sessions are runs -/

namespace Site

variable {s₀ s s' : Site} {seen more : List GlobalEvent} {g g' : GlobalRegistry}

theorem Reaches.trans (h : s₀.Reaches seen s) (h' : s.Reaches more s') :
    s₀.Reaches (seen ++ more) s' := by
  induction h' with
  | refl => simpa using h
  | move _ last ih => rw [← List.append_assoc]; exact ih.move last

/-- A run can be cut at any of its events. -/
theorem Reaches.cut (run : s₀.Reaches (seen ++ more) s') :
    ∃ s, s₀.Reaches seen s ∧ s.Reaches more s' := by
  generalize whole : seen ++ more = trace at run
  induction run generalizing more with
  | refl =>
    obtain ⟨rfl, rfl⟩ := List.append_eq_nil_iff.1 whole
    exact ⟨s₀, .refl, .refl⟩
  | @move s₁ s₂ earlier event run last ih =>
    obtain rfl | ⟨more, final, rfl⟩ := List.eq_nil_or_concat more
    · rw [List.append_nil] at whole
      exact ⟨s₂, whole ▸ run.move last, .refl⟩
    · rw [List.concat_eq_append, ← List.append_assoc] at whole
      obtain ⟨rfl, same⟩ := List.append_inj' whole rfl
      cases same
      obtain ⟨s, first, second⟩ := ih rfl
      exact ⟨s, first, by rw [List.concat_eq_append]; exact second.move last⟩

theorem reaches_of_extended {r r' : Registry} {actions : List Extension}
    {replies : List ExtensionReply} (h : g.extendAll r actions = (.ok (replies, r'), g')) :
    replies.length = actions.length ∧
      Reaches ⟨g, some r⟩ ((actions.zip replies).map .ofAct) ⟨g', some r'⟩ := by
  induction actions generalizing g r replies with
  | nil =>
    cases h
    exact ⟨rfl, .refl⟩
  | cons action actions ih =>
    rw [GlobalRegistry.extendAll] at h
    split at h
    · cases h
    next reply r₁ g₁ done =>
      match more : g₁.extendAll r₁ actions with
      | (.error panic, g₂) =>
        rw [more] at h
        cases h
      | (.ok (replies', r₂), g₂) =>
        rw [more] at h
        cases h
        obtain ⟨ran, run⟩ := ih more
        exact ⟨congrArg (· + 1) ran, (Reaches.refl.move (.act done)).trans run⟩

theorem reaches_of_panicked {r : Registry} {actions : List Extension} {panic : Panic}
    (h : g.extendAll r actions = (.error panic, g')) : ∃ replies action,
      actions[replies.length]? = some action ∧
      Reaches ⟨g, some r⟩ ((actions.zip replies).map .ofAct ++ [.failed action panic])
        ⟨g'.leave, none⟩ := by
  induction actions generalizing g r with
  | nil => cases h
  | cons action actions ih =>
    rw [GlobalRegistry.extendAll] at h
    split at h
    next panics =>
      cases h
      exact ⟨[], action, rfl, Reaches.refl.move (.fail panics)⟩
    next reply r₁ g₁ done =>
      match more : g₁.extendAll r₁ actions with
      | (.ok _, g₂) =>
        rw [more] at h
        cases h
      | (.error _, g₂) =>
        rw [more] at h
        cases h
        obtain ⟨replies, last, next, run⟩ := ih more
        exact ⟨reply :: replies, last, next, (Reaches.refl.move (.act done)).trans run⟩

theorem reaches_answer (g : GlobalRegistry) (command : GlobalCommand) : ∃ trace,
    Reaches ⟨g, none⟩ trace ⟨(g.answer command).2, none⟩ ∧
      command.Tells trace (g.answer command).1 := by
  cases command with
  | request => exact ⟨_, Reaches.refl.move (.read g), .request _⟩
  | machine config => exact ⟨_, Reaches.refl.move (.machine g config), .machine config _⟩
  | init extension =>
    simp only [GlobalRegistry.answer, GlobalRegistry.setUp]
    split
    next error late => exact ⟨_, Reaches.refl.move (.refuse late), .refused extension error⟩
    next entered first =>
      have enter : Reaches ⟨g, none⟩ [.entered] ⟨entered, some .builtin⟩ :=
        Reaches.refl.move (.enter first)
      split
      next replies r g' extended =>
        obtain ⟨ran, run⟩ := reaches_of_extended extended
        exact ⟨_, (enter.trans run).move (.finish g' r), .made extension replies r ran⟩
      next panic g' panicked =>
        obtain ⟨replies, action, next, run⟩ := reaches_of_panicked panicked
        exact ⟨_, enter.trans run, .panicked extension replies action panic next⟩

/-- A session is a run, which tells its answers. -/
theorem reaches_answers (g : GlobalRegistry) (commands : List GlobalCommand) : ∃ trace,
    Reaches ⟨g, none⟩ trace ⟨g.after commands, none⟩ ∧
      GlobalCommand.AllTell commands trace (g.answers commands) := by
  induction commands generalizing g with
  | nil => exact ⟨[], .refl, .nil⟩
  | cons command commands ih =>
    obtain ⟨trace, run, tells⟩ := reaches_answer g command
    obtain ⟨more, later, rest⟩ := ih (g.answer command).2
    exact ⟨_, run.trans later, .cons tells rest⟩

end Site

/-! ### What has been published, and by whom -/

/-- Names and behaviors in the order of registration. -/
def Registry.kinds (r : Registry) : List (String × Behavior) :=
  r.descriptors.map fun d => (d.name, d.behavior)

theorem Registry.names_eq_kinds (r : Registry) : r.names = r.kinds.map Prod.fst := by
  simp [names, kinds]

theorem Registry.kinds_insert (r : Registry) (d : Descriptor) :
    (r.insert d).kinds = r.kinds ++ [(d.name, d.behavior)] := by
  simp [insert, kinds]

theorem Registry.kinds_builtin : builtin.kinds = builtinKinds := rfl

/-- What an accepted registration adds. -/
theorem Registry.kinds_of_accepted {r r' : Registry} {name : String} {behavior : Behavior}
    {d : Descriptor} (h : r.tryRegister name behavior = .ok (.accepted d r')) :
    r'.kinds = r.kinds ++ [(name, behavior)] := by
  rw [tryRegister] at h
  split at h
  · cases h
  · split at h <;> cases h
    exact r.kinds_insert _

namespace GlobalEvent

/-- What an action of an extension has registered. -/
def registered? : GlobalEvent → Option (String × Behavior)
  | .acted (.register name behavior) (.id _) | .acted (.tryRegister name behavior) (.id _) =>
    some (name, behavior)
  | _ => none

def isMade : GlobalEvent → Bool
  | .made _ => true
  | _ => false

@[simp] theorem isMade_made (registry : Registry) : isMade (.made registry) = true := rfl

@[simp] theorem isMade_entered : isMade .entered = false := rfl

/-- An action of an extension that has not panicked. -/
def Acts : GlobalEvent → Prop
  | .acted .. => True
  | _ => False

/-- Events behind which there is a registry. -/
def Publishes : GlobalEvent → Prop
  | .read _ | .machine .. | .made _ => True
  | _ => False

theorem Acts.not_publishes {e : GlobalEvent} (h : e.Acts) : ¬e.Publishes := by
  cases e <;> first | exact not_false | exact h.elim

/-- Events that show a registry that has been published before. -/
def Agrees (registry : Registry) : GlobalEvent → Prop
  | .read found => found = .ok registry
  | .machine config sizes => sizes = .ok (GlobalRegistry.machineSizes config registry)
  | .refused error => error = .registryInitialized
  | _ => False

/-- The events that publish a registry: the first use of it, or an extension from its beginning to
its end. -/
inductive Source : List GlobalEvent → Registry → Prop
  | read : Source [.read (.ok Registry.builtin)] Registry.builtin
  | machine (config : MachineConfig) :
      Source [.machine config (.ok (GlobalRegistry.machineSizes config Registry.builtin))]
        Registry.builtin
  | extension {acts : List GlobalEvent} {r : Registry} (all : ∀ e ∈ acts, e.Acts)
      (kinds : r.kinds = Registry.builtinKinds ++ acts.filterMap registered?) :
      Source (.entered :: acts ++ [.made r]) r

end GlobalEvent

namespace GlobalRegistry

variable {g g' : GlobalRegistry} {r r' : Registry} {action : Extension} {reply : ExtensionReply}

theorem request_of_extending (h : g.extending = true) :
    g.request = (.error (.violation .registryRequested), g) := by
  rw [request, if_pos h]

theorem machine_of_extending (h : g.extending = true) (config : MachineConfig) :
    g.machine config = (.error (.violation .registryRequested), g) := by
  rw [machine, request_of_extending h]
  rfl

/-- No action of an extension gets at what threads share. -/
theorem extend_of_extending (h : g.extending = true) : (g.extend r action).2 = g := by
  cases action <;> simp [extend, request_of_extending h, machine_of_extending h]

/-- The registry under construction gets what is registered, and nothing else. -/
theorem kinds_of_extended (h : g.extend r action = (.ok (reply, r'), g')) :
    r'.kinds = r.kinds ++ (GlobalEvent.registered? (.acted action reply)).toList := by
  cases action with
  | register name behavior =>
    rw [extend, Registry.register] at h
    cases registration : r.tryRegister name behavior with
    | error panic =>
      rw [registration] at h
      cases h
    | ok outcome =>
      cases outcome with
      | rejected error =>
        rw [registration] at h
        cases h
      | accepted d r₁ =>
        rw [registration] at h
        cases h
        exact Registry.kinds_of_accepted registration
  | tryRegister name behavior =>
    rw [extend] at h
    cases registration : r.tryRegister name behavior with
    | error panic =>
      rw [registration] at h
      cases h
    | ok outcome =>
      cases outcome with
      | rejected error =>
        rw [registration] at h
        cases h
        exact (List.append_nil _).symm
      | accepted d r₁ =>
        rw [registration] at h
        cases h
        exact Registry.kinds_of_accepted registration
  | request =>
    rw [extend] at h
    generalize g.request = found at h
    obtain ⟨_ | _, _⟩ := found <;> cases h
    exact (List.append_nil _).symm
  | machine config =>
    rw [extend] at h
    generalize g.machine config = made at h
    obtain ⟨_ | _, _⟩ := made <;> cases h
    exact (List.append_nil _).symm
  | tryRequest | tryMachine =>
    cases h
    exact (List.append_nil _).symm
  | panic message => cases h

end GlobalRegistry

namespace Site

open GlobalEvent (Acts Publishes Agrees Source registered?)

/-- How far the process-wide registry has come, with all that has been done with it. -/
inductive History : List GlobalEvent → Site → Prop
  /-- Nothing is left of what has been tried. -/
  | bare {trace : List GlobalEvent} (quiet : ∀ e ∈ trace, ¬e.Publishes) : History trace {}
  | extending {before acts : List GlobalEvent} {r : Registry} (quiet : ∀ e ∈ before, ¬e.Publishes)
      (all : ∀ e ∈ acts, e.Acts) (kinds : r.kinds = Registry.builtinKinds ++ acts.filterMap registered?) :
      History (before ++ .entered :: acts) ⟨⟨none, true⟩, some r⟩
  | published {before source after : List GlobalEvent} {r : Registry}
      (quiet : ∀ e ∈ before, ¬e.Publishes) (made : Source source r) (agree : ∀ e ∈ after, e.Agrees r) :
      History (before ++ source ++ after) ⟨⟨some r, false⟩, none⟩

theorem forall_mem_concat {p : GlobalEvent → Prop} {trace : List GlobalEvent} {event : GlobalEvent}
    (h : ∀ e ∈ trace, p e) (last : p event) : ∀ e ∈ trace ++ [event], p e :=
  List.forall_mem_append.2 ⟨h, List.forall_mem_singleton.2 last⟩

theorem quiet_of_extending {before acts : List GlobalEvent} (quiet : ∀ e ∈ before, ¬e.Publishes)
    (all : ∀ e ∈ acts, e.Acts) : ∀ e ∈ before ++ .entered :: acts, ¬e.Publishes :=
  List.forall_mem_append.2
    ⟨quiet, List.forall_mem_cons.2 ⟨not_false, fun e mem => (all e mem).not_publishes⟩⟩

variable {s s' s₀ : Site} {trace past seen : List GlobalEvent} {event : GlobalEvent}

/-- Once there is a registry, it is all that there is to see. -/
theorem Moves.of_published {r : Registry} (h : Moves ⟨⟨some r, false⟩, none⟩ event s') :
    s' = ⟨⟨some r, false⟩, none⟩ ∧ event.Agrees r := by
  cases h with
  | read | machine => exact ⟨rfl, rfl⟩
  | refuse late =>
    cases late
    exact ⟨rfl, rfl⟩
  | enter entered => cases entered

theorem Reaches.of_published {r : Registry} (h : Reaches ⟨⟨some r, false⟩, none⟩ seen s) :
    s = ⟨⟨some r, false⟩, none⟩ ∧ ∀ e ∈ seen, e.Agrees r := by
  induction h with
  | refl => exact ⟨rfl, List.forall_mem_nil _⟩
  | move _ last ih =>
    obtain ⟨rfl, agree⟩ := ih
    obtain ⟨rfl, agrees⟩ := last.of_published
    exact ⟨rfl, forall_mem_concat agree agrees⟩

theorem History.moves (h : History trace s) (last : s.Moves event s') :
    History (trace ++ [event]) s' := by
  cases h with
  | bare quiet =>
    have first {source : List GlobalEvent} {r : Registry} (made : Source source r) :
        History (trace ++ source) ⟨⟨some r, false⟩, none⟩ := by
      simpa using History.published quiet made (List.forall_mem_nil _)
    cases last with
    | read => exact first .read
    | machine _ config => exact first (.machine config)
    | refuse late => cases late
    | enter entered =>
      cases entered
      exact .extending quiet (List.forall_mem_nil _) (by simp [Registry.kinds_builtin])
  | extending quiet all kinds =>
    cases last with
    | act done =>
      have shared := congrArg Prod.snd done
      rw [GlobalRegistry.extend_of_extending rfl] at shared
      subst shared
      rw [List.append_assoc, List.cons_append]
      refine .extending quiet (forall_mem_concat all trivial) ?_
      rw [GlobalRegistry.kinds_of_extended done, kinds, List.filterMap_append, List.append_assoc]
      cases added : registered? (.acted _ _) <;> simp [added]
    | fail panics =>
      have shared := congrArg Prod.snd panics
      rw [GlobalRegistry.extend_of_extending rfl] at shared
      subst shared
      exact .bare (forall_mem_concat (quiet_of_extending quiet all) not_false)
    | finish =>
      rw [List.append_assoc, List.cons_append]
      have made := Source.extension all kinds
      have closed := History.published quiet made (List.forall_mem_nil _)
      rwa [List.append_nil] at closed
  | published quiet made agree =>
    obtain ⟨rfl, agrees⟩ := last.of_published
    rw [List.append_assoc]
    exact .published quiet made (forall_mem_concat agree agrees)

theorem History.of_reaches (run : Reaches {} trace s) : History trace s := by
  induction run with
  | refl => exact .bare (List.forall_mem_nil _)
  | move _ last ih => exact ih.moves last

/-- An extension under way gets at no registry but its own, whether it catches the panic or not. -/
def Closed (s : Site) : Prop :=
  s.shared.published = none ∧ ∀ r,
    s.shared.extend r .request = (.error (.violation .registryRequested), s.shared) ∧
    s.shared.extend r .tryRequest =
      (.ok (.panicked (.violation .registryRequested), r), s.shared) ∧
    ∀ config, s.shared.extend r (.machine config) =
        (.error (.violation .registryRequested), s.shared) ∧
      s.shared.extend r (.tryMachine config) =
        (.ok (.panicked (.violation .registryRequested), r), s.shared)

/-- The names that come with the machine. -/
def builtinNames : List String :=
  ["WriteBlobByCallback", "cpu.WriteBlobByCallback", "ReadBlobByCallback", "cpu.ReadBlobByCallback",
    "cpu.LazyReference"]

/-- What holds of the process-wide registry at a site, given all that has been done, and of what has
been done since an earlier site. -/
structure Lawful (trace seen : List GlobalEvent) (s₀ s : Site) : Prop where
  /-- The mark is set exactly while an extension runs. -/
  marked : s.shared.extending = s.making.isSome
  closed : s.making.isSome → s.Closed
  /-- What has been published stays, and is what is seen from then on. -/
  fixed (r : Registry) (h : s₀.shared.published = some r) :
    s.shared.published = some r ∧ ∀ e ∈ seen, e.Agrees r
  /-- As long as nothing is published, nothing has been seen or made. -/
  quiet (h : s.shared.published = none) : ∀ e ∈ trace, ¬e.Publishes
  /-- What is published comes from the one use or the one extension that published it. -/
  source (r : Registry) (h : s.shared.published = some r) : ∃ before source after,
    trace = before ++ source ++ after ∧ (∀ e ∈ before, ¬e.Publishes) ∧ Source source r ∧
      ∀ e ∈ after, e.Agrees r
  once : trace.countP (·.isMade) ≤ 1
  /-- An initialisation that succeeds has run its extension to the end, and all names that are
  published then are the built-in ones and those that the extension has registered. -/
  ended (r : Registry) (h : .made r ∈ trace) : s.shared.published = some r ∧ ∃ before acts after,
    trace = before ++ (.entered :: acts ++ [.made r]) ++ after ∧ (∀ e ∈ acts, e.Acts) ∧
      r.names = builtinNames ++ acts.filterMap fun e => e.registered?.map Prod.fst
  /-- If nothing has been made, all names are the built-in ones. -/
  plain (r : Registry) (h : s.shared.published = some r) (none : ∀ r', .made r' ∉ trace) :
    r.names = builtinNames

section

variable {source after : List GlobalEvent} {r : Registry}

theorem not_isMade_of_quiet (h : ∀ e ∈ trace, ¬e.Publishes) : trace.countP (·.isMade) = 0 :=
  List.countP_eq_zero.2 fun e mem made => by
    have quiet := h e mem
    cases e <;> first | exact quiet trivial | cases made

theorem not_isMade_of_acts (h : ∀ e ∈ trace, e.Acts) : trace.countP (·.isMade) = 0 :=
  not_isMade_of_quiet fun e mem => (h e mem).not_publishes

theorem not_isMade_of_agrees (h : ∀ e ∈ trace, e.Agrees r) : trace.countP (·.isMade) = 0 :=
  List.countP_eq_zero.2 fun e mem made => by
    have agrees := h e mem
    cases e <;> first | exact agrees | cases made

theorem countP_le_of_source (h : Source source r) : source.countP (·.isMade) ≤ 1 := by
  cases h with
  | read | machine => exact Nat.zero_le 1
  | extension all => simp [not_isMade_of_acts all]

theorem notMem_made (h : trace.countP (·.isMade) = 0) (r : Registry) : .made r ∉ trace :=
  fun mem => List.countP_eq_zero.1 h _ mem rfl

theorem names_of_kinds {added : List (String × Behavior)}
    (kinds : r.kinds = Registry.builtinKinds ++ added) :
    r.names = builtinNames ++ added.map Prod.fst := by
  rw [r.names_eq_kinds, kinds, List.map_append]
  rfl

theorem History.once (h : History trace s) : trace.countP (·.isMade) ≤ 1 := by
  cases h with
  | bare quiet => simp [not_isMade_of_quiet quiet]
  | extending quiet all => simp [not_isMade_of_quiet (quiet_of_extending quiet all)]
  | published quiet made agree =>
    simpa [not_isMade_of_quiet quiet, not_isMade_of_agrees agree] using countP_le_of_source made

theorem History.ended (h : History trace s) (mem : .made r ∈ trace) :
    s.shared.published = some r ∧ ∃ before acts after,
      trace = before ++ (.entered :: acts ++ [.made r]) ++ after ∧ (∀ e ∈ acts, e.Acts) ∧
        r.names = builtinNames ++ acts.filterMap fun e => e.registered?.map Prod.fst := by
  cases h with
  | bare quiet => exact absurd mem (notMem_made (not_isMade_of_quiet quiet) r)
  | extending quiet all =>
    exact absurd mem (notMem_made (not_isMade_of_quiet (quiet_of_extending quiet all)) r)
  | @published before source after r' quiet made agree =>
    have here : .made r ∈ source := by
      simpa [notMem_made (not_isMade_of_quiet quiet), notMem_made (not_isMade_of_agrees agree)] using mem
    cases made with
    | read => simp at here
    | machine => simp at here
    | @extension acts _ all kinds =>
      obtain rfl : r = r' := by simpa [notMem_made (not_isMade_of_acts all)] using here
      refine ⟨rfl, before, acts, after, rfl, all, ?_⟩
      rw [names_of_kinds kinds, List.map_filterMap]

theorem lawful_of_history (h : History trace s) (fixed : ∀ r, s₀.shared.published = some r →
    s.shared.published = some r ∧ ∀ e ∈ seen, e.Agrees r) : Lawful trace seen s₀ s where
  marked := by cases h <;> rfl
  closed inside := by
    cases h with
    | extending =>
      exact ⟨rfl, fun r => ⟨rfl, rfl, fun config => ⟨rfl, rfl⟩⟩⟩
    | bare | published => cases inside
  fixed := fixed
  quiet none := by
    cases h with
    | bare quiet => exact quiet
    | extending quiet all => exact quiet_of_extending quiet all
    | published => cases none
  source r published := by
    cases h with
    | bare | extending => cases published
    | published quiet made agree =>
      cases published
      exact ⟨_, _, _, rfl, quiet, made, agree⟩
  once := h.once
  ended r mem := h.ended mem
  plain r published none := by
    cases h with
    | bare | extending => cases published
    | published quiet made agree =>
      cases published
      cases made with
      | read | machine => rfl
      | extension => exact absurd (by simp) (none r)

end

/-- The process-wide registry is published once, by one use or by one extension that has run to its
end, and nothing else is ever seen of it; attempts that fail leave nothing behind. -/
theorem lawful_of_reaches (earlier : Reaches {} past s₀) (run : s₀.Reaches seen s) :
    Lawful (past ++ seen) seen s₀ s := by
  refine lawful_of_history (.of_reaches (earlier.trans run)) fun r published => ?_
  have before := History.of_reaches earlier
  cases before with
  | bare | extending => cases published
  | published =>
    cases published
    obtain ⟨rfl, agree⟩ := run.of_published
    exact ⟨rfl, agree⟩

end Site

end StreamMachine
