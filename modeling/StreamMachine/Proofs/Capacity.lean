import Mathlib.Algebra.BigOperators.Ring.List
import Mathlib.Algebra.Order.BigOperators.Group.List
import Mathlib.Algebra.Order.Ring.Nat
import Mathlib.Data.List.TakeWhile
import StreamMachine.Proofs.Layout

/-! Which shapes are counted, refused, or abort. A count multiplies from the left and stops at the
first partial product that leaves the range of a word, so that a zero dimension takes away only what
stands after it. A size that is counted is allocated below half the address space; what lies between
that and a word is neither refused nor allocated. -/
namespace StreamMachine

namespace Shape

/-- The dimensions before the first zero. -/
def leading (shape : Shape) : Shape := ⟨shape.dims.takeWhile (· != 0)⟩

/-- The dimensions other than zero. -/
def nonzero (shape : Shape) : Shape := ⟨shape.dims.filter (· != 0)⟩

variable {shape : Shape}

theorem dim_pos {d : UInt64} (h : d ≠ 0) : 0 < d.toNat :=
  Nat.pos_of_ne_zero fun zero => h (UInt64.toNat_inj.1 zero)

theorem leading_eq_self (nonzero : 0 ∉ shape.dims) : shape.leading = shape := by
  have all : shape.dims.takeWhile (· != 0) = shape.dims :=
    List.takeWhile_eq_self_iff.2 fun d mem => by simpa using fun h : d = 0 => nonzero (h ▸ mem)
  rw [leading, all]

theorem volume_eq_zero (zero : 0 ∈ shape.dims) : shape.volume = 0 := by
  rw [volume]
  exact List.prod_eq_zero (List.mem_map.2 ⟨0, zero, rfl⟩)

theorem volume_pos (nonzero : 0 ∉ shape.dims) : 0 < shape.volume := by
  rw [volume]
  refine Nat.pos_of_ne_zero (List.prod_ne_zero fun mem => ?_)
  obtain ⟨d, mem, zero⟩ := List.mem_map.1 mem
  have pos : 0 < d.toNat := dim_pos fun h => nonzero (h ▸ mem)
  omega

theorem leading_volume_pos (shape : Shape) : 0 < shape.leading.volume :=
  volume_pos fun mem => by simpa using List.mem_takeWhile_imp mem

/-- Counting on from zero never fails. -/
theorem foldlM_checkedMul_zero (dims : List UInt64) :
    dims.foldlM (fun n d => checkedMul n d.toNat) 0 = some 0 := by
  induction dims with
  | nil => rfl
  | cons d dims ih =>
    have stays : checkedMul 0 d.toNat = some 0 := by simp [checkedMul, wordBound]
    rw [List.foldlM_cons, stays]
    exact ih

/-- Counting on from a positive number. The partial products grow up to the first zero, so that the
last of them decides. -/
theorem foldlM_checkedMul (dims : List UInt64) {a : Nat} (pos : 0 < a) (fits : a < wordBound) :
    dims.foldlM (fun n d => checkedMul n d.toNat) a =
      if a * (leading ⟨dims⟩).volume < wordBound then some (a * volume ⟨dims⟩) else none := by
  induction dims generalizing a with
  | nil => simp [leading, volume, fits]
  | cons d dims ih =>
    rw [List.foldlM_cons]
    by_cases zero : d = 0
    · subst zero
      have first : checkedMul a (0 : UInt64).toNat = some 0 := by simp [checkedMul, wordBound]
      rw [first, Option.bind_eq_bind, Option.bind_some, foldlM_checkedMul_zero]
      simp [leading, volume, fits]
    · have split : (leading ⟨d :: dims⟩).volume = d.toNat * (leading ⟨dims⟩).volume := by
        simp [leading, volume, zero]
      have whole : volume ⟨d :: dims⟩ = d.toNat * volume ⟨dims⟩ := by simp [volume]
      rw [split, whole, ← Nat.mul_assoc, ← Nat.mul_assoc]
      by_cases next : a * d.toNat < wordBound
      · rw [checkedMul, if_pos next, Option.bind_eq_bind, Option.bind_some,
          ih (Nat.mul_pos pos (dim_pos zero)) next]
      · have beyond : ¬a * d.toNat * (leading ⟨dims⟩).volume < wordBound := fun h =>
          next (Nat.lt_of_le_of_lt (Nat.le_mul_of_pos_right _ (leading_volume_pos ⟨dims⟩)) h)
        rw [checkedMul, if_neg next, if_neg beyond]
        rfl

/-- The count is the volume, unless the dimensions before the first zero overflow a word. -/
theorem checkedCount_eq (shape : Shape) : shape.checkedCount =
    if shape.leading.volume < wordBound then some shape.volume else none := by
  have h := foldlM_checkedMul shape.dims Nat.one_pos (by decide)
  rwa [Nat.one_mul, Nat.one_mul] at h

theorem checkedCount_eq_some_iff {n : Nat} :
    shape.checkedCount = some n ↔ n = shape.volume ∧ shape.leading.volume < wordBound := by
  rw [checkedCount_eq]
  split
  next fits => simp [fits, eq_comm]
  next beyond => simp [beyond]

theorem volume_of_perm {other : Shape} (perm : other.dims.Perm shape.dims) :
    other.volume = shape.volume :=
  (perm.map UInt64.toNat).prod_eq

theorem leading_volume_le (shape : Shape) : shape.leading.volume ≤ shape.nonzero.volume := by
  have part : shape.leading.dims.Sublist shape.nonzero.dims := by
    have all : shape.leading.dims.filter (· != 0) = shape.leading.dims :=
      List.filter_eq_self.2 fun d mem => List.mem_takeWhile_imp (p := (· != 0)) mem
    exact all ▸ (List.takeWhile_sublist _).filter _
  refine (part.map UInt64.toNat).prod_le_prod' fun n mem => ?_
  obtain ⟨d, kept, rfl⟩ := List.mem_map.1 mem
  exact dim_pos (by simpa using List.of_mem_filter kept)

/-- Zeros behind all other dimensions leave these to be counted. -/
theorem nonzero_volume_le (shape : Shape) (rest : List UInt64) :
    shape.nonzero.volume ≤ (leading ⟨shape.nonzero.dims ++ rest⟩).volume := by
  have reached : (leading ⟨shape.nonzero.dims ++ rest⟩).dims =
      shape.nonzero.dims ++ (leading ⟨rest⟩).dims :=
    List.takeWhile_append_of_pos fun d mem => List.of_mem_filter (p := (· != 0)) mem
  rw [volume, volume, reached, List.map_append, List.prod_append]
  exact Nat.le_mul_of_pos_right _ (leading_volume_pos ⟨rest⟩)

/-- The order of the dimensions does not matter, unless there is a zero to be put first and the
others overflow a word. -/
theorem order_free_iff (shape : Shape) :
    (∀ other : Shape, other.dims.Perm shape.dims → other.checkedCount = shape.checkedCount) ↔
      0 ∉ shape.dims ∨ shape.nonzero.volume < wordBound := by
  constructor
  · intro free
    by_contra h
    obtain ⟨zero, large⟩ := not_or.1 h
    rw [Classical.not_not] at zero
    -- A zero in front makes the count zero; behind all others it is not reached.
    have first : checkedCount ⟨0 :: shape.dims.erase 0⟩ = some 0 := by
      have reached : (leading ⟨0 :: shape.dims.erase 0⟩).volume = 1 := by simp [leading, volume]
      rw [checkedCount_eq_some_iff, reached]
      exact ⟨(volume_eq_zero List.mem_cons_self).symm, by decide⟩
    have last :
        checkedCount ⟨shape.nonzero.dims ++ shape.dims.filter fun d => !(d != 0)⟩ = none := by
      rw [checkedCount_eq, if_neg]
      exact fun fits => large (Nat.lt_of_le_of_lt (nonzero_volume_le _ _) fits)
    have first_eq := free ⟨_⟩ (List.perm_cons_erase zero).symm
    have last_eq := free ⟨_⟩ (List.filter_append_perm (· != 0) shape.dims)
    rw [first] at first_eq
    rw [← first_eq] at last_eq
    cases last.symm.trans last_eq
  · rintro (nonzero | small) other perm
    · have other_nonzero : 0 ∉ other.dims := fun h => nonzero (perm.mem_iff.1 h)
      rw [checkedCount_eq, checkedCount_eq, leading_eq_self nonzero, leading_eq_self other_nonzero,
        volume_of_perm perm]
    · have other_small : other.nonzero.volume < wordBound :=
        (volume_of_perm (perm.filter _)).trans_lt small
      rw [checkedCount_eq, checkedCount_eq, volume_of_perm perm,
        if_pos (Nat.lt_of_le_of_lt (leading_volume_le _) other_small),
        if_pos (Nat.lt_of_le_of_lt (leading_volume_le _) small)]

end Shape

namespace Blob

variable {shape : Shape} {dataType : DataType}

/-- The shapes that are refused for their size. -/
def Refused (shape : Shape) (dataType : DataType) : Prop :=
  wordBound ≤ shape.leading.volume ∨ wordBound ≤ shape.volume * dataType.byteWidth

/-- The shapes whose size is a word, and past what can be allocated. -/
def Unallocatable (shape : Shape) (dataType : DataType) : Prop :=
  ¬Refused shape dataType ∧ allocationBound ≤ shape.volume * dataType.byteWidth

theorem refused_iff_of_nonzero (nonzero : 0 ∉ shape.dims) :
    Refused shape dataType ↔ wordBound ≤ shape.volume * dataType.byteWidth := by
  have width : 0 < dataType.byteWidth := by cases dataType <;> decide
  have le : shape.volume ≤ shape.volume * dataType.byteWidth := Nat.le_mul_of_pos_right _ width
  rw [Refused, Shape.leading_eq_self nonzero]
  omega

theorem checkedSize_eq_some_iff {size : Nat} : checkedSize shape dataType = some size ↔
    size = shape.volume * dataType.byteWidth ∧ ¬Refused shape dataType := by
  rw [checkedSize, Option.bind_eq_bind, Option.bind_eq_some_iff, Refused, not_or, Nat.not_le,
    Nat.not_le]
  constructor
  · rintro ⟨count, counted, sized⟩
    obtain ⟨rfl, leading⟩ := Shape.checkedCount_eq_some_iff.1 counted
    obtain ⟨rfl, fits⟩ := checkedMul_eq_some sized
    exact ⟨rfl, leading, fits⟩
  · rintro ⟨rfl, leading, fits⟩
    exact ⟨shape.volume, Shape.checkedCount_eq_some_iff.2 ⟨rfl, leading⟩, if_pos fits⟩

theorem checkedSize_eq_none_iff :
    checkedSize shape dataType = none ↔ Refused shape dataType := by
  rw [Option.eq_none_iff_forall_ne_some]
  constructor
  · intro none
    by_contra h
    exact none _ (checkedSize_eq_some_iff.2 ⟨rfl, h⟩)
  · exact fun h size sized => (checkedSize_eq_some_iff.1 sized).2 h

theorem tryZeros_refused_iff {error : BlobError} : tryZeros shape dataType = .ok (.error error) ↔
    error = .tooLarge shape dataType ∧ Refused shape dataType := by
  rw [← checkedSize_eq_none_iff, tryZeros]
  cases checkedSize shape dataType with
  | none => simp [eq_comm]
  | some size => by_cases h : size < allocationBound <;> simp [h]

theorem tryZeros_abort_iff {fault : StorageFault} : tryZeros shape dataType = .error fault ↔
    fault = .capacityOverflow ∧ Unallocatable shape dataType := by
  rw [tryZeros, Unallocatable]
  split
  next none => simp [checkedSize_eq_none_iff.1 none]
  next size sized =>
    obtain ⟨rfl, counted⟩ := checkedSize_eq_some_iff.1 sized
    by_cases h : shape.volume * dataType.byteWidth < allocationBound
    · simp [h, Nat.not_le.2 h]
    · simp [h, counted, Nat.not_lt.1 h, eq_comm]

/-- Writing the values neither aborts nor refuses the shape for its size. -/
theorem ofWords_eq (shape : Shape) (words : List UInt32) : ofWords shape words =
    match tryZeros shape .f32 with
    | .error fault => .error fault
    | .ok (.error error) => .ok (.error error)
    | .ok (.ok blob) => .ok (blob.writeWords words) := by
  rw [ofWords]
  rcases tryZeros shape .f32 with fault | error | blob <;> rfl

theorem writeWords_ne_tooLarge (blob : Blob) (words : List UInt32) (shape : Shape)
    (dataType : DataType) : blob.writeWords words ≠ .error (.tooLarge shape dataType) := by
  rw [writeWords, checkDataType]
  split
  · by_cases counted : words.length = blob.shape.count <;>
      simp [counted, bind, Except.bind, pure, Except.pure, throw, throwThe, MonadExceptOf.throw]
  · simp [bind, Except.bind]

theorem ofWords_refused_iff {words : List UInt32} :
    ofWords shape words = .ok (.error (.tooLarge shape .f32)) ↔ Refused shape .f32 := by
  rw [ofWords_eq]
  constructor
  · intro h
    split at h
    next => cases h
    next error made =>
      exact (tryZeros_refused_iff.1 (made.trans (congrArg _ (by cases h; rfl)))).2
    next blob _ => exact absurd (Except.ok.inj h) (writeWords_ne_tooLarge blob words _ _)
  · intro refused
    rw [tryZeros_refused_iff.2 ⟨rfl, refused⟩]

theorem ofWords_abort_iff {words : List UInt32} {fault : StorageFault} :
    ofWords shape words = .error fault ↔ fault = .capacityOverflow ∧ Unallocatable shape .f32 := by
  rw [← tryZeros_abort_iff, ofWords_eq]
  rcases tryZeros shape .f32 with fault | error | blob <;> simp

end Blob

/-- What a shape comes to when its size is computed. -/
structure Shape.Measured (shape : Shape) : Prop where
  /-- The count is the volume, if the dimensions before the first zero multiply to a word. -/
  counted (n : Nat) :
    shape.checkedCount = some n ↔ n = shape.volume ∧ shape.leading.volume < wordBound
  /-- Without a zero dimension that is to say, if the volume is a word. -/
  exact (nonzero : 0 ∉ shape.dims) (n : Nat) :
    shape.checkedCount = some n ↔ n = shape.volume ∧ shape.volume < wordBound
  /-- The order matters just when a zero can be put before dimensions that overflow a word. -/
  order_free :
    (∀ other : Shape, other.dims.Perm shape.dims → other.checkedCount = shape.checkedCount) ↔
      0 ∉ shape.dims ∨ shape.nonzero.volume < wordBound
  exact_refused (nonzero : 0 ∉ shape.dims) (dataType : DataType) :
    Blob.Refused shape dataType ↔ wordBound ≤ shape.volume * dataType.byteWidth
  zeros_refused (dataType : DataType) (error : BlobError) :
    Blob.tryZeros shape dataType = .ok (.error error) ↔
      error = .tooLarge shape dataType ∧ Blob.Refused shape dataType
  words_refused (words : List UInt32) :
    Blob.ofWords shape words = .ok (.error (.tooLarge shape .f32)) ↔ Blob.Refused shape .f32

/-- Of every shape, the partial products up to the first zero decide whether it is counted. -/
theorem Shape.measured_to_first_zero (shape : Shape) : shape.Measured where
  counted _ := checkedCount_eq_some_iff
  exact nonzero n := by rw [checkedCount_eq_some_iff, leading_eq_self nonzero]
  order_free := order_free_iff shape
  exact_refused nonzero _ := Blob.refused_iff_of_nonzero nonzero
  zeros_refused _ _ := Blob.tryZeros_refused_iff
  words_refused _ := Blob.ofWords_refused_iff

/-- An empty shape that is refused for its size, and counted when its zero stands in front. -/
theorem Shape.late_zero_refused :
    (⟨[18446744073709551615, 2, 0]⟩ : Shape).volume = 0 ∧
    (⟨[18446744073709551615, 2, 0]⟩ : Shape).checkedCount = none ∧
    (⟨[0, 18446744073709551615, 2]⟩ : Shape).checkedCount = some 0 ∧
    Blob.tryZeros ⟨[18446744073709551615, 2, 0]⟩ .u8 =
      .ok (.error (.tooLarge ⟨[18446744073709551615, 2, 0]⟩ .u8)) := by
  decide +kernel

/-- When constructing a blob aborts. -/
structure Blob.Aborts (shape : Shape) : Prop where
  zeros (dataType : DataType) (fault : StorageFault) :
    tryZeros shape dataType = .error fault ↔
      fault = .capacityOverflow ∧ Unallocatable shape dataType
  words (words : List UInt32) (fault : StorageFault) :
    ofWords shape words = .error fault ↔ fault = .capacityOverflow ∧ Unallocatable shape .f32
  /-- The size of a shape that is neither refused nor allocated. -/
  range (dataType : DataType) (h : Unallocatable shape dataType) :
    checkedSize shape dataType = some (shape.volume * dataType.byteWidth) ∧
    allocationBound ≤ shape.volume * dataType.byteWidth ∧
    shape.volume * dataType.byteWidth < wordBound

/-- Constructing a blob gives a blob or an error, or else the size is counted and lies between half
the address space and the whole of it. -/
theorem Blob.aborts_past_half (shape : Shape) : Aborts shape where
  zeros _ _ := tryZeros_abort_iff
  words _ _ := ofWords_abort_iff
  range dataType h := by
    have sized := checkedSize_eq_some_iff.2 ⟨rfl, h.1⟩
    exact ⟨sized, h.2, Nat.not_le.1 (not_or.1 h.1).2⟩

/-- Half the address space in one dimension of bytes, and in one of words. -/
theorem Blob.half_aborts :
    tryZeros ⟨[9223372036854775808]⟩ .u8 = .error .capacityOverflow ∧
    ofWords ⟨[2305843009213693952]⟩ [] = .error .capacityOverflow := by
  decide +kernel

end StreamMachine
