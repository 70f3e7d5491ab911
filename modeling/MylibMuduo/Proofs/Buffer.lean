import MylibMuduo.Buffer

/-!
# Index discipline and content of the buffer

`BufferInv` is what every operation of the buffer keeps. Under it `append` puts its bytes
behind the readable region and `retrieve` drops bytes from its front, on every path of
`makeSpace`.
-/

namespace MylibMuduo.Proofs

/-- The order of the indices that the picture in `Buffer.h` shows. -/
structure BufferInv (b : Buffer) : Prop where
  prepend : kCheapPrepend ≤ b.readIndex
  read_le_write : b.readIndex ≤ b.writeIndex
  write_le_size : b.writeIndex ≤ b.buffer.length

lemma length_copyTo (v src : Bytes) (pos : Nat) (h : pos + src.length ≤ v.length) :
    (copyTo v pos src).length = v.length := by
  simp only [copyTo, List.length_append, List.length_take, List.length_drop]
  omega

lemma length_resize (v : Bytes) (n : Nat) : (resize v n).length = n := by
  simp only [resize, List.length_append, List.length_take, List.length_replicate]
  omega

lemma length_readable (b : Buffer) (h : BufferInv b) : b.readable.length = b.readableBytes := by
  have hread := h.read_le_write
  have hwrite := h.write_le_size
  simp only [Buffer.readable, Buffer.peek, List.length_take, List.length_drop, Buffer.readableBytes]
  omega

lemma readable_eq_nil_iff (b : Buffer) (h : BufferInv b) :
    b.readable = [] ↔ b.readableBytes = 0 := by
  rw [← List.length_eq_zero_iff, length_readable b h]

theorem make_inv (n : Nat) : BufferInv (Buffer.make n) := by
  refine ⟨Nat.le_refl _, Nat.le_refl _, ?_⟩
  simp [Buffer.make]

lemma readable_make (n : Nat) : (Buffer.make n).readable = [] := by
  simp [Buffer.readable, Buffer.peek, Buffer.readableBytes, Buffer.make]

lemma retrieveAll_inv (b : Buffer) (h : BufferInv b) : BufferInv b.retrieveAll := by
  have hpre := h.prepend
  have hread := h.read_le_write
  have hwrite := h.write_le_size
  exact ⟨Nat.le_refl _, Nat.le_refl _, by simp only [Buffer.retrieveAll]; omega⟩

theorem retrieve_inv (b : Buffer) (h : BufferInv b) (len : Nat) : BufferInv (b.retrieve len) := by
  unfold Buffer.retrieve
  by_cases hlen : len < b.readableBytes
  · rw [if_pos hlen]
    have hpre := h.prepend
    have hwrite := h.write_le_size
    unfold Buffer.readableBytes at hlen
    exact ⟨by simp only; omega, by simp only; omega, hwrite⟩
  · rw [if_neg hlen]
    exact retrieveAll_inv b h

lemma readable_retrieveAll (b : Buffer) : b.retrieveAll.readable = [] := by
  simp [Buffer.readable, Buffer.peek, Buffer.readableBytes, Buffer.retrieveAll]

theorem readable_retrieve (b : Buffer) (h : BufferInv b) (len : Nat) :
    (b.retrieve len).readable = b.readable.drop len := by
  unfold Buffer.retrieve
  by_cases hlen : len < b.readableBytes
  · rw [if_pos hlen]
    simp only [Buffer.readable, Buffer.peek, Buffer.readableBytes]
    rw [List.drop_take, List.drop_drop]
    congr 1
    omega
  · rw [if_neg hlen, List.drop_eq_nil_of_le (by rw [length_readable b h]; omega)]
    exact readable_retrieveAll b

lemma copyTo_drop_take (v src : Bytes) (pos : Nat) (h : pos ≤ v.length) :
    ((copyTo v pos src).drop pos).take src.length = src := by
  have hpos : (v.take pos).length = pos := by simp [h]
  rw [copyTo, List.append_assoc, List.drop_append, hpos, Nat.sub_self, List.drop_zero,
    List.drop_eq_nil_of_le (by omega), List.nil_append, List.take_left]

/-- The moved readable region of `makeSpace` is the old one. -/
lemma makeSpace_move (b : Buffer) (h : BufferInv b) :
    let b' : Buffer := ⟨copyTo b.buffer kCheapPrepend b.readable, kCheapPrepend,
      kCheapPrepend + b.readableBytes⟩
    BufferInv b' ∧ b'.readable = b.readable ∧ b'.buffer.length = b.buffer.length := by
  have hpre := h.prepend
  have hread := h.read_le_write
  have hwrite := h.write_le_size
  have hlen := length_readable b h
  have hbytes : b.readableBytes = b.writeIndex - b.readIndex := rfl
  have hcopy : (copyTo b.buffer kCheapPrepend b.readable).length = b.buffer.length :=
    length_copyTo _ _ _ (by omega)
  dsimp only
  refine ⟨⟨Nat.le_refl _, by simp only; omega, by simp only [hcopy]; omega⟩, ?_, hcopy⟩
  simp only [Buffer.readable, Buffer.peek, Buffer.readableBytes, Nat.add_sub_cancel_left]
  have hdt := copyTo_drop_take b.buffer b.readable kCheapPrepend (by omega)
  rw [hlen] at hdt
  exact hdt

/-- `ensureWriteableBytes` reaches the branch of `makeSpace` that moves the readable region. -/
def MovesReadable (b : Buffer) (len : Nat) : Prop :=
  b.writeableBytes < len ∧ ¬b.prependableBytes + b.writeableBytes < len + kCheapPrepend

/-- The three ways through `ensureWriteableBytes`. -/
theorem ensureWriteableBytes_cases (b : Buffer) (len : Nat) :
    (len ≤ b.writeableBytes ∧ b.ensureWriteableBytes len = b) ∨
      (b.writeableBytes < len ∧ b.prependableBytes + b.writeableBytes < len + kCheapPrepend ∧
        b.ensureWriteableBytes len = { b with buffer := resize b.buffer (b.writeIndex + len) }) ∨
      (MovesReadable b len ∧ b.ensureWriteableBytes len =
        ⟨copyTo b.buffer kCheapPrepend b.readable, kCheapPrepend, kCheapPrepend + b.readableBytes⟩) := by
  unfold Buffer.ensureWriteableBytes
  by_cases hspace : b.writeableBytes < len
  · rw [if_pos hspace]
    unfold Buffer.makeSpace
    by_cases hgrow : b.prependableBytes + b.writeableBytes < len + kCheapPrepend
    · exact Or.inr (Or.inl ⟨hspace, hgrow, if_pos hgrow⟩)
    · exact Or.inr (Or.inr ⟨⟨hspace, hgrow⟩, if_neg hgrow⟩)
  · rw [if_neg hspace]
    exact Or.inl ⟨Nat.not_lt.mp hspace, rfl⟩

/-- `ensureWriteableBytes` keeps the content and ends with the space asked for. -/
theorem ensureWriteableBytes_spec (b : Buffer) (h : BufferInv b) (len : Nat) :
    BufferInv (b.ensureWriteableBytes len) ∧
      (b.ensureWriteableBytes len).readable = b.readable ∧
      len ≤ (b.ensureWriteableBytes len).writeableBytes := by
  have hpre := h.prepend
  have hread := h.read_le_write
  have hwrite := h.write_le_size
  rcases ensureWriteableBytes_cases b len with ⟨hspace, heq⟩ | ⟨hspace, -, heq⟩ | ⟨⟨hspace, hgrow⟩, heq⟩
  · rw [heq]
    exact ⟨h, rfl, hspace⟩
  · rw [heq]
    unfold Buffer.writeableBytes at hspace
    refine ⟨⟨hpre, hread, by simp only [length_resize]; omega⟩, ?_, ?_⟩
    · have hall : b.buffer.take (b.writeIndex + len) = b.buffer :=
        List.take_of_length_le (by omega)
      simp only [Buffer.readable, Buffer.peek, Buffer.readableBytes, resize, hall]
      rw [List.drop_append_of_le_length (by omega),
        List.take_append_of_le_length (by rw [List.length_drop]; omega)]
    · simp only [Buffer.writeableBytes, length_resize]
      omega
  · rw [heq]
    obtain ⟨hinv, hsame, hsize⟩ := makeSpace_move b h
    refine ⟨hinv, hsame, ?_⟩
    simp only [Buffer.writeableBytes, Buffer.prependableBytes, Buffer.readableBytes] at *
    omega

/-- The bytes copied behind the readable region become its end. -/
lemma fill_spec (b : Buffer) (h : BufferInv b) (str : Bytes) (hspace : str.length ≤ b.writeableBytes) :
    let b' : Buffer := ⟨copyTo b.buffer b.writeIndex str, b.readIndex, b.writeIndex + str.length⟩
    BufferInv b' ∧ b'.readable = b.readable ++ str ∧ b'.buffer.length = b.buffer.length := by
  have hread := h.read_le_write
  have hwrite := h.write_le_size
  unfold Buffer.writeableBytes at hspace
  have hcopy : (copyTo b.buffer b.writeIndex str).length = b.buffer.length :=
    length_copyTo _ _ _ (by omega)
  dsimp only
  refine ⟨⟨h.prepend, by simp only; omega, by simp only [hcopy]; omega⟩, ?_, hcopy⟩
  have hfront : (b.buffer.take b.writeIndex).length = b.writeIndex := by simp [hwrite]
  simp only [Buffer.readable, Buffer.peek, Buffer.readableBytes, copyTo]
  have hlen : b.writeIndex + str.length - b.readIndex =
      (b.writeIndex - b.readIndex) + str.length := by omega
  rw [List.append_assoc, List.drop_append_of_le_length (by omega), hlen, List.drop_take,
    List.take_append, List.length_take, List.length_drop]
  have hmin : min (b.writeIndex - b.readIndex) (b.buffer.length - b.readIndex) =
      b.writeIndex - b.readIndex := by omega
  rw [hmin, Nat.add_sub_cancel_left, List.take_left, List.take_take]
  congr 2
  omega

theorem append_inv (b : Buffer) (h : BufferInv b) (str : Bytes) : BufferInv (b.append str) := by
  obtain ⟨hinv, _, hspace⟩ := ensureWriteableBytes_spec b h str.length
  exact (fill_spec _ hinv str hspace).1

theorem readable_append (b : Buffer) (h : BufferInv b) (str : Bytes) :
    (b.append str).readable = b.readable ++ str := by
  obtain ⟨hinv, hsame, hspace⟩ := ensureWriteableBytes_spec b h str.length
  rw [← hsame]
  exact (fill_spec _ hinv str hspace).2.1

lemma peek_eq_take (b : Buffer) (len : Nat) (hlen : len ≤ b.readableBytes) :
    b.peek len = b.readable.take len := by
  rw [Buffer.readable, Buffer.peek, Buffer.peek, List.take_take, Nat.min_eq_left hlen]

/-- The buffer of a `readFd` that spills, in front of its `append`: the vector is full. -/
lemma readFd_filled {b : Buffer} (h : BufferInv b) {data : Bytes} (hspill : ¬data.length ≤ b.writeableBytes) :
    let b' : Buffer := ⟨copyTo b.buffer b.writeIndex (data.take b.writeableBytes), b.readIndex, b.buffer.length⟩
    BufferInv b' ∧ b'.readable = b.readable ++ data.take b.writeableBytes ∧
      b'.buffer.length = b.buffer.length := by
  have hwrite := h.write_le_size
  have htake : (data.take b.writeableBytes).length = b.writeableBytes := by
    rw [List.length_take]
    omega
  have hfull : b.writeIndex + (data.take b.writeableBytes).length = b.buffer.length := by
    rw [htake, Buffer.writeableBytes]
    omega
  have hfill := fill_spec b h (data.take b.writeableBytes) (by omega)
  rw [hfull] at hfill
  exact hfill

/-- A successful `readFd` puts its bytes behind the readable region, also when the second iovec
is used and the bytes just read are moved by the `append` that follows. -/
theorem readFd_spec (b : Buffer) (h : BufferInv b) (data : Bytes) :
    BufferInv (b.readFd (.ok data)) ∧ (b.readFd (.ok data)).readable = b.readable ++ data := by
  by_cases hfits : data.length ≤ b.writeableBytes
  · obtain ⟨hinv, hreadable, _⟩ := fill_spec b h data hfits
    simp only [Buffer.readFd, if_pos hfits, List.take_of_length_le hfits]
    exact ⟨hinv, hreadable⟩
  · obtain ⟨hinv, hreadable, _⟩ := readFd_filled h hfits
    simp only [Buffer.readFd, if_neg hfits]
    refine ⟨append_inv _ hinv _, ?_⟩
    rw [readable_append _ hinv, hreadable, List.append_assoc, List.take_append_drop]

end MylibMuduo.Proofs
