import Mathlib.Data.List.Perm.Basic
import StreamMachine.Instruction.Message

/-! Work that leads to more work. A message has the messages behind it that its instruction submits,
and so on; a queue that takes up such messages in order goes through them level by level. -/
namespace StreamMachine

/-- A message with the work that its instruction submits, in order. -/
inductive Work where
  | submit (message : Message) (next : List Work)

namespace Work

def message : Work → Message
  | submit message _ => message

def next : Work → List Work
  | submit _ next => next

/-- All work of a forest, what comes of a message right behind it. -/
def nodes : List Work → List Work
  | [] => []
  | submit message next :: rest => submit message next :: (nodes next ++ nodes rest)

theorem nodes_cons (x : Work) (rest : List Work) :
    nodes (x :: rest) = x :: (nodes x.next ++ nodes rest) := by
  cases x
  rw [nodes]
  rfl

theorem nodes_append (xs ys : List Work) : nodes (xs ++ ys) = nodes xs ++ nodes ys := by
  induction xs with
  | nil => simp [nodes]
  | cons x xs ih => simp [nodes_cons, ih]

/-- A forest is its first level and all that comes of that. -/
theorem nodes_perm (forest : List Work) :
    (nodes forest).Perm (forest ++ nodes (forest.flatMap next)) := by
  induction forest with
  | nil => simp [nodes]
  | cons x forest ih =>
    rw [nodes_cons, List.cons_append, List.flatMap_cons, nodes_append]
    refine .cons x ?_
    calc List.Perm (nodes x.next ++ nodes forest)
          (nodes x.next ++ (forest ++ nodes (forest.flatMap next))) := ih.append_left _
      _ = nodes x.next ++ forest ++ nodes (forest.flatMap next) := (List.append_assoc ..).symm
      List.Perm _ (forest ++ nodes x.next ++ nodes (forest.flatMap next)) :=
          List.perm_append_comm.append_right _
      _ = forest ++ (nodes x.next ++ nodes (forest.flatMap next)) := List.append_assoc ..

theorem length_nodes (forest : List Work) :
    (nodes forest).length = forest.length + (nodes (forest.flatMap next)).length := by
  rw [(nodes_perm forest).length_eq, List.length_append]

/-- Level by level: all of a forest in order, then what its messages submit, and so on. -/
def breadthFirst : List Work → List Work
  | [] => []
  | x :: rest => (x :: rest) ++ breadthFirst ((x :: rest).flatMap next)
termination_by forest => (nodes forest).length
decreasing_by
  rw [length_nodes (x :: rest)]
  simp

/-- As a queue goes: the first in line, then the others with what that one has submitted at the
end. -/
def inTurn : List Work → List Work
  | [] => []
  | x :: queue => x :: inTurn (queue ++ x.next)
termination_by queue => (nodes queue).length
decreasing_by
  simp only [nodes_append, nodes_cons, List.length_append, List.length_cons]
  omega

/-- A queue may hold the rest of one level and the beginning of the next. -/
theorem inTurn_append (xs ys : List Work) :
    inTurn (xs ++ ys) = xs ++ inTurn (ys ++ xs.flatMap next) := by
  induction xs generalizing ys with
  | nil => simp
  | cons x xs ih =>
    rw [List.cons_append, inTurn, List.append_assoc, ih, List.cons_append, List.flatMap_cons,
      List.append_assoc]

theorem inTurn_eq_breadthFirst (forest : List Work) : inTurn forest = breadthFirst forest := by
  induction forest using breadthFirst.induct with
  | case1 => rw [inTurn, breadthFirst]
  | case2 x rest ih =>
    have level := inTurn_append (x :: rest) []
    rw [List.append_nil, List.nil_append] at level
    rw [level, ih, breadthFirst]

/-- Each piece of work has its turn, and has it once. -/
theorem breadthFirst_perm (forest : List Work) : (breadthFirst forest).Perm (nodes forest) := by
  induction forest using breadthFirst.induct with
  | case1 => rw [breadthFirst, nodes]
  | case2 x rest ih =>
    rw [breadthFirst]
    exact (ih.append_left _).trans (nodes_perm (x :: rest)).symm

end Work

end StreamMachine
