import Mathlib.Order.Basic
import MylibMuduo.BufferSizeT
import MylibMuduo.Proofs.BufferStorage

/-!
# The indices of the buffer in size_t

As long as the sums of a call fit in a `size_t`, the functions of `Buffer.SizeT` do what those of
`Buffer` do, so the run of the one is a run of the other and keeps its invariants. This file
settles with it the order of the indices and what `ensureWriteableBytes` does. When a sum wraps,
a buffer may begin with its indices behind the end of its vector, and `makeSpace` may move the
readable region onto itself.
-/

namespace MylibMuduo

/-- The buffer after a call. -/
def Buffer.SizeT.apply (b : Buffer) : BufferOp → Buffer
  | .append str => append b str
  | .retrieve len => retrieve b len
  | .retrieveAll => b.retrieveAll
  | .retrieveAsString len => retrieve b len
  | .retrieveAllAsString => retrieve b (readableBytes b)
  | .readFd r => readFd b r

/-- What the caller of `retrieveAsString` and the kernel in `readv` keep to. -/
def Buffer.SizeT.allows (b : Buffer) : BufferOp → Bool
  | .retrieveAsString len => decide (len ≤ readableBytes b)
  | .readFd (.ok data) => decide (data.length ≤ readvCapacity b)
  | _ => true

def sizeTMachine : Machine Buffer BufferOp where
  next b op := if Buffer.SizeT.allows b op then some (Buffer.SizeT.apply b op) else none

namespace Proofs

open Buffer

variable {b : Buffer}

/-- The sums that `makeSpace(len)` takes fit in a `size_t`. -/
def SumsFit (b : Buffer) (len : Nat) : Prop := len + kCheapPrepend < 2 ^ 64 ∧ b.writeIndex + len < 2 ^ 64

instance (b : Buffer) (len : Nat) : Decidable (SumsFit b len) :=
  inferInstanceAs (Decidable (_ ∧ _))

/-- What a call puts into the buffer, if anything, fits. -/
def CallFits (b : Buffer) (op : BufferOp) : Prop := op.entered ≠ [] → SumsFit b op.entered.length

instance (b : Buffer) (op : BufferOp) : Decidable (CallFits b op) :=
  inferInstanceAs (Decidable (_ → _))

/-! ### Agreement -/

lemma sizeT_make {initialSize : Nat} (h : kCheapPrepend + initialSize < 2 ^ 64) :
    SizeT.make initialSize = make initialSize := by
  rw [SizeT.make, sizeT_add h, make]

lemma sizeT_readableBytes (h : BufferInv b) (hsize : b.buffer.length < 2 ^ 64) :
    SizeT.readableBytes b = b.readableBytes :=
  sizeT_sub h.read_le_write (Nat.lt_of_le_of_lt h.write_le_size hsize)

lemma sizeT_writeableBytes (h : BufferInv b) (hsize : b.buffer.length < 2 ^ 64) :
    SizeT.writeableBytes b = b.writeableBytes :=
  sizeT_sub h.write_le_size hsize

lemma sizeT_outOfSpace (h : BufferInv b) (hsize : b.buffer.length < 2 ^ 64) {len : Nat} (hfits : SumsFit b len) :
    SizeT.outOfSpace b len = true ↔ b.prependableBytes + b.writeableBytes < len + kCheapPrepend := by
  have hread := h.read_le_write
  have hwrite := h.write_le_size
  have hfree : b.prependableBytes + b.writeableBytes < 2 ^ 64 := by
    unfold prependableBytes writeableBytes
    omega
  rw [SizeT.outOfSpace, decide_eq_true_iff, sizeT_writeableBytes h hsize, sizeT_add hfree, sizeT_add hfits.1]

lemma sizeT_ensureWriteableBytes (h : BufferInv b) (hsize : b.buffer.length < 2 ^ 64) {len : Nat}
    (hfits : SumsFit b len) : SizeT.ensureWriteableBytes b len = b.ensureWriteableBytes len := by
  have hread := h.read_le_write
  have hwrite := h.write_le_size
  have hpre := h.prepend
  have hmoved : kCheapPrepend + b.readableBytes < 2 ^ 64 := by
    unfold readableBytes
    omega
  unfold SizeT.ensureWriteableBytes ensureWriteableBytes SizeT.makeSpace makeSpace
  rw [sizeT_writeableBytes h hsize, sizeT_readableBytes h hsize, sizeT_add hmoved, sizeT_add hfits.2, readable]
  simp only [sizeT_outOfSpace h hsize hfits]

/-- The vector stays smaller than `2 ^ 64`, also when it grows. -/
lemma length_ensureWriteableBytes_lt (h : BufferInv b) (hsize : b.buffer.length < 2 ^ 64) {len : Nat}
    (hfits : SumsFit b len) : (b.ensureWriteableBytes len).buffer.length < 2 ^ 64 := by
  rcases ensureWriteableBytes_cases b len with ⟨-, heq⟩ | ⟨-, -, heq⟩ | ⟨-, heq⟩
  · rw [heq]
    exact hsize
  · rw [heq, length_resize]
    exact hfits.2
  · rw [heq, (makeSpace_move b h).2.2]
    exact hsize

lemma sizeT_append (h : BufferInv b) (hsize : b.buffer.length < 2 ^ 64) {str : Bytes}
    (hfits : SumsFit b str.length) :
    SizeT.append b str = b.append str ∧ (b.append str).buffer.length < 2 ^ 64 := by
  obtain ⟨hinv, -, hspace⟩ := ensureWriteableBytes_spec b h str.length
  have hlength := (fill_spec _ hinv str hspace).2.2
  have hroom := length_ensureWriteableBytes_lt h hsize hfits
  have hwrite := hinv.write_le_size
  have hend : (b.ensureWriteableBytes str.length).writeIndex + str.length < 2 ^ 64 := by
    unfold writeableBytes at hspace
    omega
  refine ⟨?_, hlength.trans_lt hroom⟩
  simp only [SizeT.append, sizeT_ensureWriteableBytes h hsize hfits, sizeT_add hend, append]

lemma sizeT_retrieve (h : BufferInv b) (hsize : b.buffer.length < 2 ^ 64) (len : Nat) :
    SizeT.retrieve b len = b.retrieve len := by
  have hwrite := h.write_le_size
  unfold SizeT.retrieve retrieve
  rw [sizeT_readableBytes h hsize]
  by_cases hlen : len < b.readableBytes
  · have hsum : b.readIndex + len < 2 ^ 64 := by
      unfold readableBytes at hlen
      omega
    rw [if_pos hlen, if_pos hlen, sizeT_add hsum]
  · rw [if_neg hlen, if_neg hlen]

/-- A `readFd` that spills leaves for its `append` what does not fit in the vector. -/
lemma sizeT_readFd (h : BufferInv b) (hsize : b.buffer.length < 2 ^ 64) (data : Bytes)
    (hfits : SumsFit b data.length) :
    SizeT.readFd b (.ok data) = b.readFd (.ok data) ∧ (b.readFd (.ok data)).buffer.length < 2 ^ 64 := by
  simp only [SizeT.readFd, readFd, sizeT_writeableBytes h hsize]
  by_cases hspace : data.length ≤ b.writeableBytes
  · rw [if_pos hspace, if_pos hspace, List.take_of_length_le hspace, sizeT_add hfits.2]
    exact ⟨rfl, (fill_spec b h data hspace).2.2.trans_lt hsize⟩
  · obtain ⟨hinv, -, hlength⟩ := readFd_filled h hspace
    have hwrite := h.write_le_size
    have hrest : (data.drop b.writeableBytes).length = data.length - b.writeableBytes := List.length_drop
    rw [if_neg hspace, if_neg hspace]
    refine sizeT_append hinv (hlength.trans_lt hsize) ⟨?_, ?_⟩
    · have hsum := hfits.1
      omega
    · have hsum := hfits.2
      unfold writeableBytes at *
      simp only
      omega

/-- Without new bytes the sums fit as the vector does. -/
lemma CallFits.sumsFit (h : BufferInv b) (hsize : b.buffer.length < 2 ^ 64) {op : BufferOp}
    (hfits : CallFits b op) : SumsFit b op.entered.length := by
  by_cases hentered : op.entered = []
  · have hwrite := h.write_le_size
    rw [hentered]
    exact ⟨by decide, Nat.lt_of_le_of_lt hwrite hsize⟩
  · exact hfits hentered

lemma sizeT_apply (h : BufferInv b) (hsize : b.buffer.length < 2 ^ 64) {op : BufferOp} (hcall : CallFits b op) :
    SizeT.apply b op = BufferOp.apply b op ∧ (BufferOp.apply b op).buffer.length < 2 ^ 64 := by
  have hfits := hcall.sumsFit h hsize
  have hretrieve : ∀ len, SizeT.retrieve b len = b.retrieve len ∧ (b.retrieve len).buffer.length < 2 ^ 64 :=
    fun len => ⟨sizeT_retrieve h hsize len, (length_retrieve b len).trans_lt hsize⟩
  cases op with
  | append str => exact sizeT_append h hsize hfits
  | retrieve len => exact hretrieve len
  | retrieveAll => exact ⟨rfl, hsize⟩
  | retrieveAsString len => exact hretrieve len
  | retrieveAllAsString =>
    rw [SizeT.apply, sizeT_readableBytes h hsize]
    exact hretrieve b.readableBytes
  | readFd r =>
    cases r with
    | ok data => exact sizeT_readFd h hsize data hfits
    | err e => exact ⟨rfl, hsize⟩

/-! ### Runs -/

lemma sizeT_readvCapacity (h : BufferInv b) (hsize : b.buffer.length < 2 ^ 64) :
    SizeT.readvCapacity b = b.readvCapacity := by
  rw [SizeT.readvCapacity, sizeT_writeableBytes h hsize, readvCapacity]

/-- A call that is allowed is a step of `bufferMachine`. -/
lemma buffer_next_of_allows {t : BufferTrace} {op : BufferOp} (h : BufferInv t.buffer)
    (hsize : t.buffer.buffer.length < 2 ^ 64) (hallows : SizeT.allows t.buffer op = true) :
    ∃ t', bufferMachine.next t op = some t' := by
  cases op with
  | retrieveAsString len =>
    have hlen : len ≤ t.buffer.readableBytes := by
      rw [← sizeT_readableBytes h hsize]
      exact of_decide_eq_true hallows
    exact ⟨_, if_pos hlen⟩
  | readFd r =>
    have hfits : r.fits t.buffer := by
      cases r with
      | ok data =>
        have hdata := of_decide_eq_true hallows
        rw [sizeT_readvCapacity h hsize] at hdata
        exact hdata
      | err e => trivial
    exact ⟨_, if_pos hfits⟩
  | _ => exact ⟨_, rfl⟩

/-- A run whose sums fit is a run of `bufferMachine` on the same buffers. -/
theorem sizeT_run {initialSize : Nat} (hinit : kCheapPrepend + initialSize < 2 ^ 64) {ops : List BufferOp}
    (hfits : sizeTMachine.Meets CallFits (SizeT.make initialSize) ops)
    (hrun : sizeTMachine.run (SizeT.make initialSize) ops = some b) :
    ∃ t, bufferMachine.run (BufferTrace.make initialSize) ops = some t ∧ t.buffer = b ∧
      b.buffer.length < 2 ^ 64 := by
  rw [sizeT_make hinit] at hfits hrun
  have hsize : (make initialSize).buffer.length < 2 ^ 64 := by
    rw [make, List.length_replicate]
    exact hinit
  have hstart : ∃ t, bufferMachine.run (BufferTrace.make initialSize) [] = some t ∧
      t.buffer = make initialSize ∧ (make initialSize).buffer.length < 2 ^ 64 := ⟨_, rfl, rfl, hsize⟩
  refine sizeTMachine.invariant_of_history_of_meets (I := fun done b =>
    ∃ t, bufferMachine.run (BufferTrace.make initialSize) done = some t ∧ t.buffer = b ∧
      b.buffer.length < 2 ^ 64) ?_ hstart hfits hrun
  rintro done _ op b' ⟨t, ht, rfl, hsize⟩ hcall hnext
  have hinv := (discipline_run ht).inv
  simp only [sizeTMachine, Option.ite_none_right_eq_some, Option.some.injEq] at hnext
  obtain ⟨t', ht'⟩ := buffer_next_of_allows hinv hsize hnext.1
  obtain ⟨heq, hsize'⟩ := sizeT_apply hinv hsize hcall
  rw [← buffer_next ht'] at heq hsize'
  rw [← hnext.2, heq]
  exact ⟨t', (bufferMachine.run_append_eq_some _ _ _ _).mpr
    ⟨t, ht, (bufferMachine.run_cons_eq_some _ _ _ _).mpr ⟨t', ht', rfl⟩⟩, rfl, hsize'⟩

/-! ### Indices -/

/-- The order of the indices, and an empty buffer has its whole space writable again. -/
structure IndexDiscipline (b : Buffer) : Prop where
  prepend : 8 ≤ b.readIndex
  read_le_write : b.readIndex ≤ b.writeIndex
  write_le_size : b.writeIndex ≤ b.buffer.length
  empty : b.readIndex = b.writeIndex → b.readIndex = 8 ∧ b.writeIndex = 8

/-- What `ensureWriteableBytes(len)` does from a state with the right indices. In the last part the
destination of `std::copy` is not in its source range. -/
structure SpaceMade (b : Buffer) (len : Nat) : Prop where
  writeable : len ≤ SizeT.writeableBytes (SizeT.ensureWriteableBytes b len)
  content : (SizeT.ensureWriteableBytes b len).peek (SizeT.readableBytes (SizeT.ensureWriteableBytes b len)) =
    b.peek (SizeT.readableBytes b)
  prependable : 8 ≤ (SizeT.ensureWriteableBytes b len).prependableBytes
  enlarges : b.buffer.length < (SizeT.ensureWriteableBytes b len).buffer.length →
    b.prependableBytes - 8 + SizeT.writeableBytes b < len
  moves : SizeT.writeableBytes b < len → SizeT.outOfSpace b len = false → 8 < b.readIndex ∧
    ¬(b.readIndex ≤ 8 ∧ 8 < b.writeIndex)

lemma MovesReadable.prepend {len : Nat} (h : MovesReadable b len) : kCheapPrepend < b.readIndex := by
  have hspace := h.1
  have hfree := h.2
  unfold prependableBytes at hfree
  omega

lemma indexDiscipline (h : BufferDiscipline b) : IndexDiscipline b := by
  refine ⟨h.inv.prepend, h.inv.read_le_write, h.inv.write_le_size, fun heq => ?_⟩
  have hzero : b.readableBytes = 0 := by
    unfold readableBytes
    omega
  have hread : b.readIndex = 8 := h.empty hzero
  exact ⟨hread, heq ▸ hread⟩

/-- A vector that grows had too little free space. -/
lemma free_lt_of_grown (h : BufferInv b) {len : Nat}
    (hgrown : b.buffer.length < (b.ensureWriteableBytes len).buffer.length) :
    b.prependableBytes - kCheapPrepend + b.writeableBytes < len := by
  have hpre := h.prepend
  rcases ensureWriteableBytes_cases b len with ⟨-, heq⟩ | ⟨-, hgrow, -⟩ | ⟨-, heq⟩
  · rw [heq] at hgrown
    exact absurd hgrown (Nat.lt_irrefl _)
  · unfold prependableBytes at *
    omega
  · rw [heq, (makeSpace_move b h).2.2] at hgrown
    exact absurd hgrown (Nat.lt_irrefl _)

theorem spaceMade (h : BufferInv b) (hsize : b.buffer.length < 2 ^ 64) {len : Nat} (hfits : SumsFit b len) :
    SpaceMade b len := by
  obtain ⟨hinv, hreadable, hspace⟩ := ensureWriteableBytes_spec b h len
  have hroom := length_ensureWriteableBytes_lt h hsize hfits
  have heq := sizeT_ensureWriteableBytes h hsize hfits
  refine ⟨?_, ?_, ?_, ?_, ?_⟩
  · rw [heq, sizeT_writeableBytes hinv hroom]
    exact hspace
  · rw [heq, sizeT_readableBytes hinv hroom, sizeT_readableBytes h hsize]
    exact hreadable
  · rw [heq]
    exact hinv.prepend
  · rw [heq, sizeT_writeableBytes h hsize]
    exact free_lt_of_grown h
  · rw [sizeT_writeableBytes h hsize]
    intro hlen hmove
    have hfree : ¬b.prependableBytes + b.writeableBytes < len + kCheapPrepend := by
      rw [← sizeT_outOfSpace h hsize hfits, hmove]
      exact Bool.false_ne_true
    have hread := MovesReadable.prepend ⟨hlen, hfree⟩
    exact ⟨hread, fun hin => absurd hread (Nat.not_lt.mpr hin.1)⟩

/-- In every state of a buffer whose sums have fitted in a `size_t` the indices are in order, an empty
buffer has its whole space writable again, and `ensureWriteableBytes` makes room for any length whose
sums fit as `SpaceMade` says. -/
theorem buffer_index_discipline (initialSize : Nat) (hinit : 8 + initialSize < 2 ^ 64) (ops : List BufferOp)
    (hfits : sizeTMachine.Meets CallFits (SizeT.make initialSize) ops) (b : Buffer)
    (hrun : sizeTMachine.run (SizeT.make initialSize) ops = some b) :
    IndexDiscipline b ∧ ∀ len, SumsFit b len → SpaceMade b len := by
  obtain ⟨t, ht, rfl, hsize⟩ := sizeT_run hinit hfits hrun
  have h := discipline_run ht
  exact ⟨indexDiscipline h, fun _ hlen => spaceMade h.inv hsize hlen⟩

theorem buffer_index_discipline_calls :
    ∃ b, sizeTMachine.run (SizeT.make 2) sampleCalls = some b ∧ IndexDiscipline b ∧ SpaceMade b 100 := by
  obtain ⟨b, hrun⟩ : ∃ b, sizeTMachine.run (SizeT.make 2) sampleCalls = some b := by
    apply Option.isSome_iff_exists.mp
    decide +kernel
  have hwrite : (sizeTMachine.run (SizeT.make 2) sampleCalls).map (fun b => b.writeIndex) = some 15 := by
    decide +kernel
  rw [hrun, Option.map_some, Option.some.injEq] at hwrite
  obtain ⟨hindices, hspace⟩ := buffer_index_discipline 2 (by decide) sampleCalls (by decide +kernel) b hrun
  exact ⟨b, hrun, hindices, hspace 100 ⟨by decide, by rw [hwrite]; decide⟩⟩

/-- A buffer of `SIZE_MAX` bytes begins with a vector of 7 bytes and both indices at 8. From an empty
buffer without space, `ensureWriteableBytes` of `2 ^ 64 - 8` bytes goes into the branch that moves the
readable region with `readIndex` at 8. -/
theorem buffer_indices_of_wrapped_sums :
    (¬∀ (initialSize : Nat), initialSize < 2 ^ 64 → ∀ (ops : List BufferOp) (b : Buffer),
      sizeTMachine.run (SizeT.make initialSize) ops = some b → IndexDiscipline b) ∧
    ¬∀ (initialSize : Nat), 8 + initialSize < 2 ^ 64 → ∀ (ops : List BufferOp) (b : Buffer),
      sizeTMachine.run (SizeT.make initialSize) ops = some b → ∀ len, len < 2 ^ 64 → SpaceMade b len := by
  constructor
  · intro hall
    have hindices := hall (2 ^ 64 - 1) (by decide) [] (SizeT.make (2 ^ 64 - 1)) rfl
    have hlength : (SizeT.make (2 ^ 64 - 1)).buffer.length = 7 := by decide +kernel
    have hwrite := hindices.write_le_size
    rw [hlength] at hwrite
    exact absurd hwrite (by decide)
  · intro hall
    have hspace := hall 0 (by decide) [] (SizeT.make 0) rfl (2 ^ 64 - 8) (by decide)
    exact absurd (hspace.moves (by decide +kernel) (by decide +kernel)).1 (by decide)

end Proofs

end MylibMuduo
