import Mathlib.Data.Set.Function
import StreamMachine.Proofs.Stored

/-! Words and bytes of a blob are two ways of writing the same contents. Whatever is written the one
way is read the other way, the two ways accept and refuse alike, and what is refused changes
nothing. -/
namespace StreamMachine

namespace Blob

variable {blob new : Blob}

theorem copyFrom_eq_ok_iff {source : List UInt8} : blob.copyFrom source = .ok new ↔
    source.length = blob.byteSize ∧ new = { blob with bytes := source } := by
  rw [copyFrom, byteSize]
  split
  next same => simp [same, eq_comm]
  next other => simp [other]

theorem copyInto_of_length {destination : List UInt8} (fits : destination.length = blob.byteSize) :
    blob.copyInto destination = (.ok (), blob.bytes) :=
  if_pos fits

theorem copyTo_byteSize (blob : Blob) : blob.copyTo blob.byteSize = .ok blob.bytes := by
  rw [copyTo, copyInto_of_length List.length_replicate]
  rfl

/-- A buffer is left as it is by bytes that are not copied. -/
theorem copyInto_of_error {destination : List UInt8} {error : BlobError}
    (h : (blob.copyInto destination).1 = .error error) :
    (blob.copyInto destination).2 = destination := by
  rw [copyInto] at h ⊢
  split at h
  · cases h
  next other => rw [if_neg other]

end Blob

namespace Accessor

variable {a : Accessor} {w : World} {blob new : Blob} {x : Access}

theorem perform_writeWords_eq_ok_iff (write : a.mode = .write) {words : List UInt32} :
    a.perform w blob (.writeWords words) = .ok (.ok, new) ↔ blob.writeWords words = .ok new := by
  have open_to_writes : ((Access.writeWords words).writes && a.mode == .read) = false := by
    rw [write]; rfl
  unfold perform
  rw [open_to_writes]
  cases done : blob.writeWords words <;> simp [done]

theorem perform_copyFrom_eq_ok_iff (write : a.mode = .write) {source : List UInt8} :
    a.perform w blob (.copyFrom source) = .ok (.ok, new) ↔ blob.copyFrom source = .ok new := by
  have open_to_writes : ((Access.copyFrom source).writes && a.mode == .read) = false := by
    rw [write]; rfl
  unfold perform
  rw [open_to_writes]
  cases done : blob.copyFrom source <;> simp [done]

theorem eq_of_perform_failed {failure : Failure}
    (h : a.perform w blob x = .ok (.failed failure, new)) : new = blob := by
  unfold perform at h
  split at h
  · cases h
  · cases x with
    | writeWords words =>
      dsimp only at h
      split at h <;> cases h
      rfl
    | copyFrom source =>
      dsimp only at h
      split at h <;> cases h
      rfl
    | setByte index value =>
      dsimp only at h
      split at h <;> cases h
    | readWords | bytes | copyTo | describe =>
      simp only [Except.ok.injEq, Prod.mk.injEq] at h
      exact h.2.symm

theorem perform_copyTo (a : Accessor) (w : World) (blob : Blob) :
    a.perform w blob (.copyTo blob.byteSize) = .ok (.bytes blob.bytes, blob) := by
  unfold perform
  simp only [Access.writes, Bool.false_and, Bool.false_eq_true, if_false, blob.copyTo_byteSize,
    Reply.ofBlobResult]

end Accessor

/-- An access that has been answered with an error or with a panic. -/
def Thread.Fails (t : Thread) : Prop :=
  (∃ failure, t.control = .reply (.failed failure)) ∨ ∃ panic, t.control = .unwind panic

/-- An access that fails changes no storage. -/
theorem World.blob?_of_fails {w : World} {t : Thread} {a : Accessor} {x : Access}
    {outer : List Frame} {r : Step} (step : t.stepAction? w a (.access x) outer = some r)
    (fails : r.thread.Fails) (id : StorageId) :
    (w.after r.deed).store.blob? id = w.store.blob? id := by
  have of_raise (panic : Panic) : (w.after (t.raise outer panic).deed) = w := rfl
  simp only [Thread.stepAction?, Option.some.injEq] at step
  subst step
  cases there : w.store.blob? a.storage with
  | none => rw [of_raise]
  | some blob =>
    dsimp only
    cases done : a.perform w blob x with
    | error panic => rw [of_raise]
    | ok answer =>
      obtain ⟨reply, new⟩ := answer
      rw [there] at fails
      simp only [done] at fails
      obtain ⟨failure, same⟩ | ⟨panic, same⟩ := fails <;> cases same
      obtain rfl := a.eq_of_perform_failed done
      rw [after, withStore, Store.setBlob, blob?_updateCell]
      split
      next same =>
        subst same
        rw [there]
        cases found : w.store.cell? a.storage with
        | none => simp [Store.blob?, found] at there
        | some cell => rfl
      · rfl

namespace Blob

variable {shape : Shape} {dataType : DataType} {blob new : Blob} {words : List UInt32}

/-- The bytes of a blob of 32-bit floats and the words in it. -/
structure Transcribed (blob : Blob) : Prop where
  accepts (words : List UInt32) :
    (∃ new, blob.writeWords words = .ok new) ↔ words.length = blob.shape.count
  written {words : List UInt32} {new : Blob} (h : blob.writeWords words = .ok new) :
    new = { blob with bytes := words.flatMap wordBytes } ∧ new.readWords = .ok words
  /-- To write back what has been read changes no byte. -/
  restored : ∃ words, blob.readWords = .ok words ∧ blob.writeWords words = .ok blob
  bijective : Set.BijOn (fun bytes => readWords { blob with bytes := bytes })
    { bytes | bytes.length = blob.byteSize } (Except.ok '' { words | words.length = blob.shape.count })
  /-- Bytes are copied where the words they stand for are written, with the same outcome. -/
  copies (words : List UInt32) (new : Blob) :
    blob.copyFrom (words.flatMap wordBytes) = .ok new ↔ blob.writeWords words = .ok new
  /-- Bytes that have been copied in are copied out again. -/
  copied {source : List UInt8} {new : Blob} (h : blob.copyFrom source = .ok new)
    (destination : List UInt8) (fits : destination.length = blob.byteSize) :
    new.copyInto destination = (.ok (), source)
  /-- A callback that may write has both ways as well. -/
  lent {a : Accessor} (write : a.mode = .write) (w : World) (words : List UInt32) (new : Blob) :
    (a.perform w blob (.writeWords words) = .ok (.ok, new) ↔ blob.writeWords words = .ok new) ∧
      (a.perform w blob (.copyFrom (words.flatMap wordBytes)) = .ok (.ok, new) ↔
        blob.writeWords words = .ok new)
  lent_back {source : List UInt8} {new : Blob} (h : blob.copyFrom source = .ok new) (a : Accessor)
    (w : World) : a.perform w new (.copyTo blob.byteSize) = .ok (.bytes source, new)

/-- The type of the elements is asked for before anything else. -/
structure Untyped (blob : Blob) : Prop where
  reads : blob.readWords = .error (.dataTypeMismatch .f32 blob.dataType)
  writes (words : List UInt32) :
    blob.writeWords words = .error (.dataTypeMismatch .f32 blob.dataType)

/-- Whatever fails changes neither the blob nor, in copying out, the buffer. -/
structure Unspoilt (blob : Blob) : Prop where
  access {a : Accessor} {w : World} {x : Access} {failure : Failure} {new : Blob}
    (h : a.perform w blob x = .ok (.failed failure, new)) : new = blob
  step {w : World} {t : Thread} {a : Accessor} {x : Access} {outer : List Frame} {r : Step}
    (there : w.store.blob? a.storage = some blob)
    (h : t.stepAction? w a (.access x) outer = some r) (fails : r.thread.Fails) :
    (w.after r.deed).store.blob? a.storage = some blob
  buffer {destination : List UInt8} {error : BlobError}
    (h : (blob.copyInto destination).1 = .error error) :
    (blob.copyInto destination).2 = destination

theorem untyped (h : blob.dataType ≠ .f32) : blob.Untyped where
  reads := by simp [readWords, checkDataType, h, bind, Except.bind]
  writes words := by simp [writeWords, checkDataType, h, bind, Except.bind]

namespace Laid

/-- Other bytes, as many as before. -/
theorem refill (h : blob.Laid shape dataType) {bytes : List UInt8}
    (same : bytes.length = blob.byteSize) :
    Laid shape dataType { blob with bytes := bytes } :=
  ⟨h.shape_eq, h.dataType_eq, same.trans h.size, h.fits, h.counted⟩

theorem byteSize_eq (h : blob.Laid shape .f32) : blob.byteSize = 4 * blob.shape.count := by
  rw [h.size, h.count, Nat.mul_comm]
  rfl

theorem readWords_eq_ok_iff (h : blob.Laid shape .f32) :
    blob.readWords = .ok words ↔ blob.bytes = words.flatMap wordBytes := by
  obtain ⟨there, reads, -, bytes⟩ := h.readWords
  rw [reads, ← bytes, Except.ok.injEq]
  refine ⟨fun same => by rw [same], fun same => ?_⟩
  rw [← wordsOfBytes_flatMap there, same, wordsOfBytes_flatMap]

theorem writeWords_eq_ok_iff (h : blob.Laid shape .f32) : blob.writeWords words = .ok new ↔
    words.length = blob.shape.count ∧ new = { blob with bytes := words.flatMap wordBytes } := by
  constructor
  · intro written
    obtain ⟨-, counted, -⟩ := eq_of_writeWords written
    rw [h.writeWords counted] at written
    exact ⟨counted, (Except.ok.inj written).symm⟩
  · rintro ⟨counted, rfl⟩
    exact h.writeWords counted

theorem length_flatMap_iff (h : blob.Laid shape .f32) :
    (words.flatMap wordBytes).length = blob.byteSize ↔ words.length = blob.shape.count := by
  rw [length_flatMap_wordBytes, h.byteSize_eq]
  omega

theorem bijOn_readWords (h : blob.Laid shape .f32) :
    Set.BijOn (fun bytes => Blob.readWords { blob with bytes := bytes })
      { bytes | bytes.length = blob.byteSize }
      (Except.ok '' { words | words.length = blob.shape.count }) := by
  refine ⟨fun bytes size => ?_, fun first size second size' same => ?_, ?_⟩
  · obtain ⟨words, reads, counted, -⟩ := (h.refill size).readWords
    exact ⟨words, counted, reads.symm⟩
  · obtain ⟨words, reads, -, bytes⟩ := (h.refill size).readWords
    exact bytes.symm.trans ((h.refill size').readWords_eq_ok_iff.1 (same.symm.trans reads)).symm
  · rintro _ ⟨words, counted, rfl⟩
    have size := h.length_flatMap_iff.2 counted
    exact ⟨words.flatMap wordBytes, size, (h.refill size).readWords_eq_ok_iff.2 rfl⟩

/-- The two lengths that are asked for are one condition. -/
theorem copyFrom_iff_writeWords (h : blob.Laid shape .f32) :
    blob.copyFrom (words.flatMap wordBytes) = .ok new ↔ blob.writeWords words = .ok new := by
  rw [copyFrom_eq_ok_iff, h.length_flatMap_iff, h.writeWords_eq_ok_iff]

theorem transcribed (h : blob.Laid shape .f32) : blob.Transcribed where
  accepts words := by simp only [h.writeWords_eq_ok_iff, exists_and_left, exists_eq, and_true]
  written written := by
    obtain ⟨counted, rfl⟩ := h.writeWords_eq_ok_iff.1 written
    exact ⟨rfl, (h.refill (h.length_flatMap_iff.2 counted)).readWords_eq_ok_iff.2 rfl⟩
  restored := by
    obtain ⟨words, reads, counted, bytes⟩ := h.readWords
    exact ⟨words, reads, h.writeWords_eq_ok_iff.2 ⟨counted, by rw [bytes]⟩⟩
  bijective := h.bijOn_readWords
  copies words new := h.copyFrom_iff_writeWords
  copied copied destination fits := by
    obtain ⟨size, rfl⟩ := copyFrom_eq_ok_iff.1 copied
    exact copyInto_of_length (fits.trans size.symm)
  lent write w words new := by
    refine ⟨Accessor.perform_writeWords_eq_ok_iff write, ?_⟩
    rw [Accessor.perform_copyFrom_eq_ok_iff write, h.copyFrom_iff_writeWords]
  lent_back copied a w := by
    obtain ⟨size, rfl⟩ := copyFrom_eq_ok_iff.1 copied
    rw [← size]
    exact a.perform_copyTo w _

end Laid

theorem unspoilt (blob : Blob) : blob.Unspoilt where
  access h := Accessor.eq_of_perform_failed h
  step there h fails := (World.blob?_of_fails h fails _).trans there
  buffer h := copyInto_of_error h

/-- Words and bytes of a blob that has been constructed and worked on in any way. -/
theorem transcribed_of_stems (h : blob.Stems shape dataType) :
    (dataType = .f32 → blob.Transcribed) ∧ (dataType ≠ .f32 → blob.Untyped) ∧ blob.Unspoilt := by
  have laid := Laid.of_stems h
  refine ⟨?_, fun other => untyped (laid.dataType_eq ▸ other), blob.unspoilt⟩
  rintro rfl
  exact laid.transcribed

/-- Payloads of what is not a number are bits like others. -/
theorem transcribed_of_payloads : ∃ blob : Blob, blob.Stems ⟨[2]⟩ .f32 ∧ blob.Transcribed ∧
    blob.readWords = .ok [0x7fc00001, 0xffa12345] ∧
    blob.bytes = [0x01, 0x00, 0xc0, 0x7f, 0x45, 0x23, 0xa1, 0xff] := by
  have stems : Stems ⟨[2]⟩ .f32 ⟨⟨[2]⟩, .f32, [0x01, 0x00, 0xc0, 0x7f, 0x45, 0x23, 0xa1, 0xff]⟩ :=
    ⟨_, .ofWords [0x7fc00001, 0xffa12345] rfl rfl, .refl⟩
  exact ⟨_, stems, (transcribed_of_stems stems).1 rfl, rfl, rfl⟩

end Blob

end StreamMachine
