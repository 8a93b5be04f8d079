import Mathlib.Algebra.BigOperators.Group.List.Basic
import Mathlib.Logic.Relation
import StreamMachine.Proofs.Turn
import StreamMachine.Session.Blobs

/-! The layout of a blob: its shape, its element type, and as many bytes as they call for. Checked
and mathematical sizes are the same for every blob that can be constructed, and nothing that is done
to a blob in place, in a callback or outside, changes its layout. -/
namespace StreamMachine

theorem checkedMul_eq_some {a b n : Nat} (h : checkedMul a b = some n) :
    n = a * b ∧ n < wordBound := by
  rw [checkedMul] at h
  split at h
  next fits => cases h; exact ⟨rfl, fits⟩
  · cases h

namespace Shape

/-- Number of elements as a number of any size. -/
def volume (shape : Shape) : Nat := (shape.dims.map UInt64.toNat).prod

/-- A count whose partial products all fit a word is the volume. -/
theorem checkedCount_eq_some {shape : Shape} {n : Nat} (h : shape.checkedCount = some n) :
    n = shape.volume := by
  have from_left (dims : List UInt64) (a : Nat)
      (h : dims.foldlM (fun n d => checkedMul n d.toNat) a = some n) :
      n = a * (dims.map UInt64.toNat).prod := by
    induction dims generalizing a with
    | nil => simpa using h.symm
    | cons d dims ih =>
      rw [List.foldlM_cons, Option.bind_eq_bind, Option.bind_eq_some_iff] at h
      obtain ⟨b, first, rest⟩ := h
      rw [ih b rest, (checkedMul_eq_some first).1, List.map_cons, List.prod_cons, Nat.mul_assoc]
  rw [volume, from_left shape.dims 1 h, Nat.one_mul]

end Shape

/-- Groups of four bytes leave nothing over if the bytes are a multiple of four. -/
theorem length_wordsOfBytes {bytes : List UInt8} {n : Nat} (h : bytes.length = 4 * n) :
    (wordsOfBytes bytes).length = n := by
  induction n generalizing bytes with
  | zero =>
    obtain rfl := List.length_eq_zero_iff.1 h
    rfl
  | succ n ih =>
    match bytes, h with
    | a :: b :: c :: d :: rest, h =>
      rw [wordsOfBytes, List.length_cons, ih (by simp at h; omega)]

theorem wordBytes_wordOfBytes (a b c d : UInt8) :
    wordBytes (wordOfBytes a b c d) = [a, b, c, d] := by
  simp only [wordBytes, wordOfBytes, List.cons.injEq, and_true]
  refine ⟨?_, ?_, ?_, ?_⟩ <;> apply UInt8.eq_of_toBitVec_eq <;> ext i hi <;> simp [hi] <;>
    first | omega | grind

theorem wordOfBytes_wordBytes (w : UInt32) :
    wordOfBytes w.toUInt8 (w >>> 8).toUInt8 (w >>> 16).toUInt8 (w >>> 24).toUInt8 = w := by
  apply UInt32.eq_of_toBitVec_eq
  ext i hi
  simp only [wordOfBytes, UInt32.toBitVec_or, UInt32.toBitVec_shiftLeft,
    UInt32.toBitVec_shiftRight, UInt8.toBitVec_toUInt32, UInt32.toBitVec_toUInt8]
  simp [hi]
  grind

theorem wordsOfBytes_flatMap (words : List UInt32) :
    wordsOfBytes (words.flatMap wordBytes) = words := by
  induction words with
  | nil => rfl
  | cons w words ih =>
    rw [List.flatMap_cons, wordBytes]
    simp only [List.cons_append, List.nil_append, wordsOfBytes, ih, wordOfBytes_wordBytes]

theorem length_flatMap_wordBytes (words : List UInt32) :
    (words.flatMap wordBytes).length = 4 * words.length := by
  simp [List.length_flatMap, length_wordBytes, Nat.mul_comm]

/-- No byte is passed by. -/
theorem flatMap_wordsOfBytes {bytes : List UInt8} {n : Nat} (h : bytes.length = 4 * n) :
    (wordsOfBytes bytes).flatMap wordBytes = bytes := by
  induction n generalizing bytes with
  | zero =>
    obtain rfl := List.length_eq_zero_iff.1 h
    rfl
  | succ n ih =>
    match bytes, h with
    | a :: b :: c :: d :: rest, h =>
      rw [wordsOfBytes, List.flatMap_cons, wordBytes_wordOfBytes, ih (by simp at h; omega)]
      rfl

/-- Words that are as many as the groups of four bytes replace all of them. -/
theorem overwriteWords_eq {bytes : List UInt8} {words : List UInt32}
    (h : bytes.length = 4 * words.length) :
    overwriteWords bytes words = words.flatMap wordBytes := by
  induction words generalizing bytes with
  | nil =>
    obtain rfl := List.length_eq_zero_iff.1 h
    rfl
  | cons w words ih =>
    match bytes, h with
    | a :: b :: c :: d :: rest, h =>
      rw [overwriteWords, ih (by simp at h; omega), List.flatMap_cons]

namespace Blob

/-- What constructing a blob of a shape and an element type comes to. -/
inductive Constructed (shape : Shape) (dataType : DataType) (blob : Blob) : Prop
  | tryZeros (h : Blob.tryZeros shape dataType = .ok (.ok blob))
  | zeros (h : Blob.zeros shape dataType = .ok blob)
  | ofWords (words : List UInt32) (f32 : dataType = .f32)
      (h : Blob.ofWords shape words = .ok (.ok blob))

/-- What is done to a blob in place. Whatever fails or aborts leaves it as it is. -/
inductive Changed (blob new : Blob) : Prop
  | writeWords (words : List UInt32) (h : blob.writeWords words = .ok new)
  | setByte (index : Nat) (value : UInt8) (h : blob.setByte index value = .ok new)
  | copyFrom (source : List UInt8) (h : blob.copyFrom source = .ok new)
  | fill (source : List UInt8) (h : blob.fill source = .ok new)
  /-- One access of a callback, which may have failed. -/
  | access (a : Accessor) (w : World) (x : Access) (reply : Reply)
      (h : a.perform w blob x = .ok (reply, new))

/-- A blob after any number of changes. -/
def Becomes : Blob → Blob → Prop := Relation.ReflTransGen Changed

/-- A blob that has been constructed in a form and changed since. -/
def Stems (shape : Shape) (dataType : DataType) (blob : Blob) : Prop :=
  ∃ first, Constructed shape dataType first ∧ first.Becomes blob

/-- A blob of a shape and an element type with all the bytes that belong to it. -/
structure Laid (shape : Shape) (dataType : DataType) (blob : Blob) : Prop where
  shape_eq : blob.shape = shape
  dataType_eq : blob.dataType = dataType
  size : blob.byteSize = shape.volume * dataType.byteWidth
  fits : shape.volume * dataType.byteWidth < allocationBound
  /-- The count of elements has not left the range of a word on the way. -/
  counted : shape.checkedCount = some shape.volume

variable {shape : Shape} {dataType : DataType} {blob new : Blob}

theorem eq_of_tryZeros (h : tryZeros shape dataType = .ok (.ok blob)) : ∃ size,
    checkedSize shape dataType = some size ∧ size < allocationBound ∧
      blob = ⟨shape, dataType, List.replicate size 0⟩ := by
  rw [tryZeros] at h
  split at h
  · cases h
  next size checked =>
    split at h <;> cases h
    next fits => exact ⟨size, checked, fits, rfl⟩

theorem eq_of_writeWords {words : List UInt32} (h : blob.writeWords words = .ok new) :
    blob.dataType = .f32 ∧ words.length = blob.shape.count ∧
      new = { blob with bytes := overwriteWords blob.bytes words } := by
  rw [writeWords, checkDataType] at h
  split at h
  next f32 =>
    rw [bind_ok] at h
    obtain ⟨-, -, h⟩ := h
    split at h <;> cases h
    next counted => exact ⟨f32, counted, rfl⟩
  · cases h

/-- A change in place replaces the bytes by as many others. -/
theorem Changed.same (h : Changed blob new) : new.shape = blob.shape ∧
    new.dataType = blob.dataType ∧ new.byteSize = blob.byteSize := by
  have words {ws : List UInt32} {new : Blob} (h : blob.writeWords ws = .ok new) :
      new.shape = blob.shape ∧ new.dataType = blob.dataType ∧ new.byteSize = blob.byteSize := by
    obtain ⟨-, -, rfl⟩ := eq_of_writeWords h
    exact ⟨rfl, rfl, length_overwriteWords _ _⟩
  have byte {i : Nat} {v : UInt8} {new : Blob} (h : blob.setByte i v = .ok new) :
      new.shape = blob.shape ∧ new.dataType = blob.dataType ∧ new.byteSize = blob.byteSize := by
    rw [Blob.setByte] at h
    split at h <;> cases h
    exact ⟨rfl, rfl, List.length_set⟩
  have copy {source : List UInt8} {new : Blob} (h : blob.copyFrom source = .ok new) :
      new.shape = blob.shape ∧ new.dataType = blob.dataType ∧ new.byteSize = blob.byteSize := by
    rw [Blob.copyFrom] at h
    split at h <;> cases h
    next same => exact ⟨rfl, rfl, same⟩
  cases h with
  | writeWords ws h => exact words h
  | setByte i v h => exact byte h
  | copyFrom source h => exact copy h
  | fill source h =>
    rw [Blob.fill] at h
    split at h <;> cases h
    next same => exact ⟨rfl, rfl, same⟩
  | access a w x reply h =>
    unfold Accessor.perform at h
    split at h
    · cases h
    cases x with
    | writeWords ws =>
      dsimp only at h
      split at h <;> cases h
      next done => exact words done
      · exact ⟨rfl, rfl, rfl⟩
    | copyFrom source =>
      dsimp only at h
      split at h <;> cases h
      next done => exact copy done
      · exact ⟨rfl, rfl, rfl⟩
    | setByte i v =>
      dsimp only at h
      split at h <;> cases h
      next done => exact byte done
    | readWords | bytes | copyTo | describe =>
      cases h
      exact ⟨rfl, rfl, rfl⟩

namespace Laid

theorem of_tryZeros (h : tryZeros shape dataType = .ok (.ok blob)) : blob.Laid shape dataType := by
  obtain ⟨size, checked, fits, rfl⟩ := eq_of_tryZeros h
  rw [checkedSize, Option.bind_eq_bind, Option.bind_eq_some_iff] at checked
  obtain ⟨count, counted, checked⟩ := checked
  obtain rfl := Shape.checkedCount_eq_some counted
  obtain ⟨rfl, -⟩ := checkedMul_eq_some checked
  exact ⟨rfl, rfl, List.length_replicate, fits, counted⟩

theorem changed (h : blob.Laid shape dataType) (change : Changed blob new) :
    new.Laid shape dataType := by
  obtain ⟨same_shape, same_type, same_size⟩ := change.same
  exact ⟨same_shape.trans h.shape_eq, same_type.trans h.dataType_eq, same_size.trans h.size, h.fits,
    h.counted⟩

theorem constructed (h : Constructed shape dataType blob) : blob.Laid shape dataType := by
  cases h with
  | tryZeros h => exact of_tryZeros h
  | zeros h =>
    rw [zeros, bind_ok] at h
    obtain ⟨made, h, h'⟩ := h
    cases made <;> cases h'
    exact of_tryZeros h
  | ofWords words f32 h =>
    subst f32
    rw [ofWords, bind_ok] at h
    obtain ⟨made, h, h'⟩ := h
    cases made with
    | error error => cases h'
    | ok zeroed => exact (of_tryZeros h).changed (.writeWords words (Except.ok.inj h'))

theorem becomes (h : blob.Laid shape dataType) (later : blob.Becomes new) :
    new.Laid shape dataType := by
  induction later with
  | refl => exact h
  | tail _ change ih => exact ih.changed change

theorem of_stems (h : blob.Stems shape dataType) : blob.Laid shape dataType := by
  obtain ⟨first, made, later⟩ := h
  exact (constructed made).becomes later

/-- The count is the volume, and not the word that stands for all that is too large. -/
theorem count (h : blob.Laid shape dataType) : blob.shape.count = shape.volume := by
  rw [h.shape_eq, Shape.count, h.counted, Option.getD_some]

/-- Words are read off all bytes. -/
theorem readWords (h : blob.Laid shape .f32) : ∃ words, blob.readWords = .ok words ∧
    words.length = blob.shape.count ∧ words.flatMap wordBytes = blob.bytes := by
  have size : blob.bytes.length = 4 * shape.volume := by rw [Nat.mul_comm]; exact h.size
  refine ⟨wordsOfBytes blob.bytes, ?_, by rw [length_wordsOfBytes size, h.count],
    flatMap_wordsOfBytes size⟩
  simp [Blob.readWords, checkDataType, h.dataType_eq, bind, Except.bind, pure, Except.pure]

/-- Words that are as many as the elements are written over all bytes. -/
theorem writeWords (h : blob.Laid shape .f32) {words : List UInt32}
    (counted : words.length = blob.shape.count) :
    blob.writeWords words = .ok { blob with bytes := words.flatMap wordBytes } := by
  have size : blob.bytes.length = 4 * words.length := by
    rw [counted, h.count, Nat.mul_comm]
    exact h.size
  simp [Blob.writeWords, checkDataType, h.dataType_eq, counted, overwriteWords_eq size, bind,
    Except.bind, pure, Except.pure]

end Laid

/-- What the layout of a blob is relied on for. -/
structure Whole (shape : Shape) (dataType : DataType) (blob : Blob) : Prop
    extends Laid shape dataType blob where
  size_lt : blob.byteSize < wordBound
  count_eq : blob.shape.count = shape.volume
  /-- The count does not come to the word that stands for all that is too large. -/
  count_lt : blob.shape.count < wordBound - 1
  /-- Words read are as many as the elements, and no byte is left over. -/
  reads : dataType = .f32 → ∃ words, blob.readWords = .ok words ∧
    words.length = blob.shape.count ∧ words.flatMap wordBytes = blob.bytes
  /-- Words that are as many as the elements are written over all bytes. -/
  writes : dataType = .f32 → ∀ words : List UInt32, words.length = blob.shape.count →
    blob.writeWords words = .ok { blob with bytes := words.flatMap wordBytes }

theorem Laid.whole (h : blob.Laid shape dataType) : blob.Whole shape dataType where
  toLaid := h
  size_lt := by
    rw [h.size]
    exact Nat.lt_trans h.fits (by decide)
  count_eq := h.count
  count_lt := by
    have width : 1 ≤ dataType.byteWidth := by cases dataType <;> decide
    have le : shape.volume ≤ shape.volume * dataType.byteWidth := Nat.le_mul_of_pos_right _ width
    rw [h.count]
    exact Nat.lt_trans (Nat.lt_of_le_of_lt le h.fits) (by decide)
  reads f32 := (f32 ▸ h).readWords
  writes f32 _ counted := (f32 ▸ h).writeWords counted

end Blob

end StreamMachine
