import Mathlib.Algebra.BigOperators.Group.Finset.Basic
import StreamMachine.Machine.Step

/-! Outcomes of several drains, joined in the order of the streams: the sum of the counts, or the
first panic. -/
namespace StreamMachine

theorem drop_range {k p : Nat} (hp : p < k) :
    (List.range k).drop p = p :: (List.range k).drop (p + 1) := by
  rw [List.drop_eq_getElem_cons (by simpa using hp), List.getElem_range]

theorem joinOutcomes_append_ok {xs : List (Except Panic Reply)} {total : Nat}
    (h : joinOutcomes xs = .ok total) (reply : Reply) :
    joinOutcomes (xs ++ [.ok reply]) = .ok (total + reply.toCount) := by
  induction xs generalizing total with
  | nil =>
    cases h
    simp [joinOutcomes, Except.map]
  | cons x xs ih =>
    cases x with
    | error panic => cases h
    | ok r =>
      rw [joinOutcomes] at h
      cases tail : joinOutcomes xs with
      | error panic => simp [tail, Except.map] at h
      | ok rest =>
        simp only [tail, Except.map, Except.ok.injEq] at h
        simp only [List.cons_append, joinOutcomes, ih tail, Except.map, Except.ok.injEq]
        omega

theorem joinOutcomes_append_error {xs : List (Except Panic Reply)} {total : Nat}
    (h : joinOutcomes xs = .ok total) (panic : Panic) (ys : List (Except Panic Reply)) :
    joinOutcomes (xs ++ .error panic :: ys) = .error panic := by
  induction xs generalizing total with
  | nil => rfl
  | cons x xs ih =>
    cases x with
    | error panic => cases h
    | ok r =>
      rw [joinOutcomes] at h
      cases tail : joinOutcomes xs with
      | error panic => simp [tail, Except.map] at h
      | ok rest => simp only [List.cons_append, joinOutcomes, ih tail, Except.map]

/-- The position of the first verdict that is a panic, in the order of the streams. -/
structure FirstToBreak (verdict : Nat → Except Panic Reply) (p : Nat) (panic : Panic) : Prop where
  before : ∀ s < p, ∃ reply, verdict s = .ok reply
  breaks : verdict p = .error panic

/-- A stream that panics stands behind all those before which none does. -/
theorem le_of_error {verdict : Nat → Except Panic Reply} {p q : Nat} {panic : Panic}
    (broken : verdict p = .error panic) (calm : ∀ s < q, ∃ reply, verdict s = .ok reply) :
    q ≤ p := by
  by_contra less
  obtain ⟨reply, ok⟩ := calm p (by omega)
  have := ok.symm.trans broken
  cases this

theorem FirstToBreak.le_of_calm {verdict : Nat → Except Panic Reply} {p q : Nat} {panic : Panic}
    (h : FirstToBreak verdict p panic) (calm : ∀ s < q, ∃ reply, verdict s = .ok reply) : q ≤ p :=
  le_of_error h.breaks calm

theorem FirstToBreak.unique {verdict : Nat → Except Panic Reply} {p q : Nat} {panic panic' : Panic}
    (h : FirstToBreak verdict p panic) (h' : FirstToBreak verdict q panic') :
    p = q ∧ panic = panic' := by
  obtain rfl : p = q :=
    Nat.le_antisymm (h'.le_of_calm h.before) (h.le_of_calm h'.before)
  exact ⟨rfl, Except.error.inj (h.breaks.symm.trans h'.breaks)⟩

/-- Either all verdicts are replies or one is the first that is not. -/
theorem exists_firstToBreak (verdict : Nat → Except Panic Reply) (k : Nat) :
    (∀ s < k, ∃ reply, verdict s = .ok reply) ∨ ∃ p < k, ∃ panic, FirstToBreak verdict p panic := by
  induction k with
  | zero => exact .inl fun s hs => by omega
  | succ k ih =>
    obtain calm | ⟨p, hp, panic, first⟩ := ih
    · cases last : verdict k with
      | error panic => exact .inr ⟨k, by omega, panic, calm, last⟩
      | ok reply =>
        refine .inl fun s hs => ?_
        obtain earlier | rfl := Nat.lt_succ_iff_lt_or_eq.1 hs
        · exact calm s earlier
        · exact ⟨reply, last⟩
    · exact .inr ⟨p, by omega, panic, first⟩

theorem joinOutcomes_range {verdict : Nat → Except Panic Reply} {k : Nat}
    (calm : ∀ s < k, ∃ reply, verdict s = .ok reply) :
    ∃ total, joinOutcomes ((List.range k).map verdict) = .ok total := by
  induction k with
  | zero => exact ⟨0, rfl⟩
  | succ k ih =>
    obtain ⟨total, upTo⟩ := ih fun s hs => calm s (by omega)
    obtain ⟨reply, last⟩ := calm k (by omega)
    rw [List.range_succ, List.map_append, List.map_singleton, last]
    exact ⟨_, joinOutcomes_append_ok upTo reply⟩

theorem joinOutcomes_first {verdict : Nat → Except Panic Reply} {k p : Nat} {panic : Panic}
    (hp : p < k) (first : FirstToBreak verdict p panic) :
    joinOutcomes ((List.range k).map verdict) = .error panic := by
  have front : (List.range k).take p = List.range p := by
    rw [List.take_range, Nat.min_eq_left (Nat.le_of_lt hp)]
  have split : List.range k = List.range p ++ p :: (List.range k).drop (p + 1) := by
    rw [← drop_range hp, ← front, List.take_append_drop]
  obtain ⟨total, upTo⟩ := joinOutcomes_range first.before
  rw [split, List.map_append, List.map_cons, first.breaks]
  exact joinOutcomes_append_error upTo panic _

theorem joinOutcomes_replies (k : Nat) (reply : Nat → Reply) :
    joinOutcomes ((List.range k).map fun s => .ok (reply s)) =
      .ok (∑ s ∈ Finset.range k, (reply s).toCount) := by
  induction k with
  | zero => rfl
  | succ k ih =>
    rw [List.range_succ, List.map_append, List.map_singleton, joinOutcomes_append_ok ih,
      Finset.sum_range_succ]

/-- The order of the streams is of no account as long as none of them panics. -/
theorem joinOutcomes_perm {xs ys : List (Except Panic Reply)} (h : xs.Perm ys) {total : Nat}
    (ok : joinOutcomes xs = .ok total) : joinOutcomes ys = .ok total := by
  induction h generalizing total with
  | nil => exact ok
  | cons x h ih =>
    cases x with
    | error panic => cases ok
    | ok reply =>
      rename_i xs ys
      rw [joinOutcomes] at ok ⊢
      cases rest : joinOutcomes xs with
      | error panic => simp [rest, Except.map] at ok
      | ok total' => rwa [ih rest, ← rest]
  | swap x y xs =>
    cases x with
    | error panic => cases y <;> cases ok
    | ok r =>
      cases y with
      | error panic => cases ok
      | ok r' =>
        rw [← ok]
        simp only [joinOutcomes]
        cases joinOutcomes xs <;> simp [Except.map, Nat.add_left_comm]
  | trans h h' ih ih' => exact ih' (ih ok)

/-- Outcomes that join into a number are all replies. -/
theorem reply_of_joinOutcomes {verdict : Nat → Except Panic Reply} {k total : Nat}
    (h : joinOutcomes ((List.range k).map verdict) = .ok total) :
    ∀ s < k, ∃ reply, verdict s = .ok reply := by
  obtain calm | ⟨p, hp, panic, first⟩ := exists_firstToBreak verdict k
  · exact calm
  · rw [joinOutcomes_first hp first] at h
    cases h

end StreamMachine
