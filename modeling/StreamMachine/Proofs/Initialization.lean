import Mathlib.Data.List.Forall2
import StreamMachine.Proofs.Publication

/-! Sessions on the process-wide registry, answer by answer. Extensions that panic leave nothing
behind; the first command that does not panic publishes a registry, and from then on every answer
shows that registry and no other. -/
namespace StreamMachine

/-- The kinds that an extension has registered, given its replies. -/
def Extension.registered (extension : List Extension) (replies : List ExtensionReply) :
    List (String × Behavior) :=
  ((extension.zip replies).map .ofAct).filterMap GlobalEvent.registered?

def GlobalReply.isMade : GlobalReply → Bool
  | .made .. => true
  | _ => false

namespace GlobalRegistry

/-- What a command is answered once a registry has been published. -/
def shown (r : Registry) : GlobalCommand → GlobalReply
  | .request => .ofRequest (.ok r)
  | .machine config => .ofMachine (.ok (machineSizes config r))
  | .init _ => .failed .registryInitialized

/-- Commands that come to nothing, as extensions that panic do. -/
inductive Fails : GlobalCommand → GlobalReply → Prop
  | init (extension : List Extension) (panic : Panic) : Fails (.init extension) (.panicked panic)

/-- Commands that publish a registry: the first use of it, or an extension that runs to its end. -/
inductive Publishes : GlobalCommand → GlobalReply → Registry → Prop
  | request : Publishes .request (.ofRequest (.ok .builtin)) .builtin
  | machine (config : MachineConfig) :
      Publishes (.machine config) (.ofMachine (.ok (machineSizes config .builtin))) .builtin
  | init {extension : List Extension} {replies : List ExtensionReply} {r : Registry}
      (ran : replies.length = extension.length)
      (kinds : r.kinds = Registry.builtinKinds ++ Extension.registered extension replies) :
      Publishes (.init extension) (.made r replies) r

/-- A session, its answers and what it leaves behind: commands that come to nothing, one that
publishes a registry, and commands that are shown it. -/
inductive Settles : List GlobalCommand → List GlobalReply → GlobalRegistry → Prop
  | bare {commands : List GlobalCommand} {replies : List GlobalReply}
      (failed : List.Forall₂ Fails commands replies) : Settles commands replies {}
  | published {before : List GlobalCommand} {failures : List GlobalReply} {command : GlobalCommand}
      {reply : GlobalReply} {r : Registry} (failed : List.Forall₂ Fails before failures)
      (publishes : Publishes command reply r) (behind : List GlobalCommand) :
      Settles (before ++ command :: behind) (failures ++ reply :: behind.map (shown r))
        ⟨some r, false⟩

variable {g g' : GlobalRegistry} {r r' : Registry} {commands : List GlobalCommand}
  {replies : List GlobalReply}

/-! ### One answer after another -/

/-- What threads share stays as it is while an extension runs. -/
theorem extendAll_of_extending {extension : List Extension} (h : g.extending = true) :
    (g.extendAll r extension).2 = g := by
  induction extension generalizing r with
  | nil => rfl
  | cons action extension ih =>
    have same : (g.extend r action).2 = g := extend_of_extending h
    rw [extendAll]
    split
    next done =>
      rw [done] at same
      exact same
    next r₁ g₁ done =>
      rw [done] at same
      obtain rfl : g₁ = g := same
      exact ih (r := r₁)

theorem kinds_of_extendedAll {extension : List Extension} {told : List ExtensionReply}
    (h : g.extendAll r extension = (.ok (told, r'), g')) :
    told.length = extension.length ∧ r'.kinds = r.kinds ++ Extension.registered extension told := by
  induction extension generalizing g r told with
  | nil =>
    cases h
    exact ⟨rfl, (List.append_nil _).symm⟩
  | cons action extension ih =>
    rw [extendAll] at h
    split at h
    · cases h
    next reply r₁ g₁ done =>
      rcases more : g₁.extendAll r₁ extension with ⟨panic | ⟨told', r₂⟩, g₂⟩
      · rw [more] at h
        cases h
      · rw [more] at h
        cases h
        obtain ⟨ran, kinds⟩ := ih more
        refine ⟨congrArg (· + 1) ran, ?_⟩
        rw [kinds, kinds_of_extended done, List.append_assoc, Extension.registered]
        cases added : GlobalEvent.registered? (.acted action reply) <;>
          simp [Extension.registered, GlobalEvent.ofAct, added]

/-- Whatever has been published is all that there is to see. -/
theorem answer_of_published (r : Registry) (command : GlobalCommand) :
    answer ⟨some r, false⟩ command = (shown r command, ⟨some r, false⟩) := by
  cases command <;> rfl

theorem answers_of_published (r : Registry) (commands : List GlobalCommand) :
    answers ⟨some r, false⟩ commands = commands.map (shown r) ∧
      after ⟨some r, false⟩ commands = ⟨some r, false⟩ := by
  induction commands with
  | nil => exact ⟨rfl, rfl⟩
  | cons command commands ih =>
    rw [answers, after, List.foldl_cons, answer_of_published]
    exact ⟨congrArg (shown r command :: ·) ih.1, ih.2⟩

/-- As long as nothing has been published, a command publishes a registry or comes to nothing. -/
theorem answer_of_bare (command : GlobalCommand) :
    (∃ reply, answer {} command = (reply, {}) ∧ Fails command reply) ∨
      ∃ reply r, answer {} command = (reply, ⟨some r, false⟩) ∧ Publishes command reply r := by
  cases command with
  | request => exact .inr ⟨_, _, rfl, .request⟩
  | machine config => exact .inr ⟨_, _, rfl, .machine config⟩
  | init extension =>
    have shared : (extendAll ⟨none, true⟩ .builtin extension).2 = ⟨none, true⟩ :=
      extendAll_of_extending rfl
    rcases extended : extendAll ⟨none, true⟩ .builtin extension with ⟨panic | ⟨told, r⟩, g⟩
    · obtain rfl : g = ⟨none, true⟩ := by rw [← shared, extended]
      refine .inl ⟨.panicked panic, ?_, .init extension panic⟩
      simp only [answer, setUp, enter, extended]
      rfl
    · obtain rfl : g = ⟨none, true⟩ := by rw [← shared, extended]
      obtain ⟨ran, kinds⟩ := kinds_of_extendedAll extended
      refine .inr ⟨.made r told, r, ?_, .init ran kinds⟩
      simp only [answer, setUp, enter, extended]
      rfl

/-- So every session is one of the two kinds. -/
theorem settles (commands : List GlobalCommand) :
    Settles commands (answers {} commands) (after {} commands) := by
  induction commands with
  | nil => exact .bare .nil
  | cons command commands ih =>
    rw [answers, after, List.foldl_cons]
    obtain ⟨reply, answered, fails⟩ | ⟨reply, r, answered, publishes⟩ := answer_of_bare command
    · rw [answered]
      show Settles (command :: commands) (reply :: answers {} commands) (after {} commands)
      generalize answers {} commands = replies, after {} commands = g at ih ⊢
      cases ih with
      | bare failed => exact .bare (.cons fails failed)
      | published failed publishes behind =>
        exact .published (.cons fails failed) publishes behind
    · rw [answered]
      show Settles (command :: commands) (reply :: answers ⟨some r, false⟩ commands)
        (after ⟨some r, false⟩ commands)
      rw [(answers_of_published r commands).1, (answers_of_published r commands).2]
      exact .published .nil publishes commands

/-! ### What a session comes to -/

theorem countP_of_fails (failed : List.Forall₂ Fails commands replies) :
    replies.countP (·.isMade) = 0 := by
  induction failed with
  | nil => rfl
  | cons first _ ih =>
    cases first
    exact ih

theorem countP_of_shown (r : Registry) (commands : List GlobalCommand) :
    (commands.map (shown r)).countP (·.isMade) = 0 := by
  rw [List.countP_eq_zero, List.forall_mem_map]
  intro command _
  cases command with
  | request | init => exact Bool.false_ne_true
  | machine config =>
    rw [shown]
    rcases machineSizes config r with error | ⟨kinds, streams⟩ <;> exact Bool.false_ne_true

theorem notMem_of_countP (none : replies.countP (·.isMade) = 0) (r : Registry)
    (told : List ExtensionReply) : .made r told ∉ replies :=
  fun mem => List.countP_eq_zero.1 none _ mem rfl

/-- The registry is that of the built-in kinds, or the extension that has run has made it. -/
theorem Publishes.cases {command : GlobalCommand} {reply : GlobalReply}
    (publishes : Publishes command reply r) :
    reply.isMade = false ∧ r.names = Site.builtinNames ∨ ∃ extension told,
      command = .init extension ∧ reply = .made r told ∧ told.length = extension.length ∧
      r.names = Site.builtinNames ++ (Extension.registered extension told).map Prod.fst := by
  cases publishes with
  | request => exact .inl ⟨rfl, rfl⟩
  | machine config =>
    refine .inl ⟨?_, rfl⟩
    rcases machineSizes config .builtin with error | ⟨kinds, streams⟩ <;> rfl
  | init ran kinds => exact .inr ⟨_, _, rfl, rfl, ran, Site.names_of_kinds kinds⟩

/-- What holds of a session on a registry that nobody has used before. -/
structure Settled (commands : List GlobalCommand) : Prop where
  /-- The answers are those of a run that is lawful from any of its places to any later one. -/
  traced : ∃ trace, GlobalCommand.AllTell commands trace (answers {} commands) ∧
    ∀ past seen rest, trace = past ++ seen ++ rest → ∃ s₀ s, Site.Reaches {} past s₀ ∧
      s₀.Reaches seen s ∧ s.Reaches rest ⟨after {} commands, none⟩ ∧
      Site.Lawful (past ++ seen) seen s₀ s
  settles : Settles commands (answers {} commands) (after {} commands)
  /-- Between commands no extension runs. -/
  unmarked : (after {} commands).extending = false
  /-- An initialisation succeeds once at most, and what it makes is what is published. -/
  once : (answers {} commands).countP (·.isMade) ≤ 1
  made (r : Registry) (told : List ExtensionReply) (h : .made r told ∈ answers {} commands) :
    (after {} commands).published = some r
  /-- The names that are published are the built-in ones, followed by those that the one extension
  has registered that has run to its end. -/
  names (r : Registry) (h : (after {} commands).published = some r) :
    (∀ r' told, .made r' told ∉ answers {} commands) ∧ r.names = Site.builtinNames ∨
      ∃ before failures extension told behind, commands = before ++ .init extension :: behind ∧
        List.Forall₂ Fails before failures ∧
        answers {} commands = failures ++ .made r told :: behind.map (shown r) ∧
        told.length = extension.length ∧
        r.names = Site.builtinNames ++ (Extension.registered extension told).map Prod.fst
  /-- What has been published is shown from then on, whatever extensions there still are. -/
  fixed (r : Registry) (h : (after {} commands).published = some r) (later : List GlobalCommand) :
    (after {} commands).answers later = later.map (shown r) ∧
      (after {} commands).after later = after {} commands
  /-- As long as nothing has been published, an extension runs: up to a panic, which leaves nothing
  behind, or to its end. -/
  tried (h : (after {} commands).published = none) (extension : List Extension) :
    (∃ panic, (after {} commands).answer (.init extension) = (.panicked panic, after {} commands)) ∨
      ∃ r told, (after {} commands).answer (.init extension) = (.made r told, ⟨some r, false⟩) ∧
        told.length = extension.length ∧
        r.names = Site.builtinNames ++ (Extension.registered extension told).map Prod.fst

theorem once_of_settles (h : Settles commands replies g) : replies.countP (·.isMade) ≤ 1 := by
  cases h with
  | bare failed =>
    rw [countP_of_fails failed]
    exact Nat.zero_le 1
  | published failed publishes behind =>
    rw [List.countP_append, countP_of_fails failed, List.countP_cons, countP_of_shown]
    split <;> omega

theorem made_of_settles (h : Settles commands replies g) {told : List ExtensionReply}
    (mem : .made r told ∈ replies) : g.published = some r := by
  cases h with
  | bare failed => exact (notMem_of_countP (countP_of_fails failed) r told mem).elim
  | @published before failures command reply r' failed publishes behind =>
    obtain old | rfl | late := by simpa using mem
    · exact (notMem_of_countP (countP_of_fails failed) r told old).elim
    · obtain ⟨none, -⟩ | ⟨_, _, -, same, -⟩ := publishes.cases
      · cases none
      · cases same
        rfl
    · exact (notMem_of_countP (countP_of_shown r' behind) r told (by simpa using late)).elim

theorem names_of_settles (h : Settles commands replies g) (published : g.published = some r) :
    (∀ r' told, .made r' told ∉ replies) ∧ r.names = Site.builtinNames ∨
      ∃ before failures extension told behind, commands = before ++ .init extension :: behind ∧
        List.Forall₂ Fails before failures ∧
        replies = failures ++ .made r told :: behind.map (shown r) ∧
        told.length = extension.length ∧
        r.names = Site.builtinNames ++ (Extension.registered extension told).map Prod.fst := by
  cases h with
  | bare => cases published
  | @published before failures command reply r' failed publishes behind =>
    cases published
    obtain ⟨none, names⟩ | ⟨extension, told, rfl, rfl, ran, names⟩ := publishes.cases
    · refine .inl ⟨notMem_of_countP ?_, names⟩
      rw [List.countP_append, countP_of_fails failed, List.countP_cons, countP_of_shown, none]
      rfl
    · exact .inr ⟨before, failures, extension, told, behind, rfl, failed, rfl, ran, names⟩

theorem unmarked_of_settles (h : Settles commands replies g) : g.extending = false := by
  cases h <;> rfl

theorem fixed_of_settles (h : Settles commands replies g) (published : g.published = some r)
    (later : List GlobalCommand) :
    g.answers later = later.map (shown r) ∧ g.after later = g := by
  cases h with
  | bare => cases published
  | published =>
    cases published
    exact answers_of_published r later

theorem tried_of_settles (h : Settles commands replies g) (none : g.published = none)
    (extension : List Extension) :
    (∃ panic, g.answer (.init extension) = (.panicked panic, g)) ∨
      ∃ r told, g.answer (.init extension) = (.made r told, ⟨some r, false⟩) ∧
        told.length = extension.length ∧
        r.names = Site.builtinNames ++ (Extension.registered extension told).map Prod.fst := by
  cases h with
  | published => cases none
  | bare =>
    obtain ⟨reply, answered, fails⟩ | ⟨reply, r, answered, publishes⟩ :=
      answer_of_bare (.init extension)
    · cases fails with
      | init _ panic => exact .inl ⟨panic, answered⟩
    · cases publishes with
      | init ran kinds => exact .inr ⟨r, _, answered, ran, Site.names_of_kinds kinds⟩

/-- Whatever is done with the process-wide registry, it is published once, by one use or by one
extension that has run to its end, and nothing else is ever answered; attempts that fail leave
nothing behind. -/
theorem settled_after (commands : List GlobalCommand) : Settled commands where
  traced := by
    obtain ⟨trace, run, tells⟩ := Site.reaches_answers {} commands
    refine ⟨trace, tells, ?_⟩
    rintro past seen rest rfl
    obtain ⟨s, front, behind⟩ := run.cut
    obtain ⟨s₀, earlier, between⟩ := front.cut
    exact ⟨s₀, s, earlier, between, behind, Site.lawful_of_reaches earlier between⟩
  settles := settles commands
  unmarked := unmarked_of_settles (settles commands)
  once := once_of_settles (settles commands)
  made _ _ mem := made_of_settles (settles commands) mem
  names _ published := names_of_settles (settles commands) published
  fixed _ published later := fixed_of_settles (settles commands) published later
  tried none extension := tried_of_settles (settles commands) none extension

/-- The first extension registers a kind and panics; the second registers another and asks for the
registry in vain. -/
def retried : List GlobalCommand :=
  [.init [.register "first" (.fixed .host [] []), .panic "not yet"],
    .init [.tryRegister "second" (.fixed .host [] []), .tryRequest]]

/-- What has been published is requested, and there is an extension that comes too late. -/
def afterwards : List GlobalCommand := [.request, .init [.panic "too late"]]

theorem settled_of_retried : ∃ r,
    answers {} (retried ++ afterwards) = [.panicked (.raised "not yet"),
      .made r [.id 5, .panicked (.violation .registryRequested)], .names r.names,
      .failed .registryInitialized] ∧
    r.names = Site.builtinNames ++ ["second"] ∧
    (after {} (retried ++ afterwards)).published = some r ∧ Settled (retried ++ afterwards) :=
  ⟨_, rfl, rfl, rfl, settled_after _⟩

end GlobalRegistry

end StreamMachine
