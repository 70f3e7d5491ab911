import MylibMuduo.Proofs.ByteQueue

/-!
# The storage of the buffer

What the indices and the vector of a buffer do in every sequence of calls: the indices keep their
order, an empty buffer has both indices back at `kCheapPrepend`, and the vector grows only when the
free space is too small. So its size is bounded by the largest content. The strings that a buffer
returns are the bytes it drops as long as the length asked for is readable.
-/

namespace MylibMuduo.Proofs

variable {b : Buffer}

/-- The index invariant, and an empty buffer starts at `kCheapPrepend` again. -/
structure BufferDiscipline (b : Buffer) : Prop where
  inv : BufferInv b
  empty : b.readableBytes = 0 → b.readIndex = kCheapPrepend

/-! ### Indices -/

lemma make_discipline (n : Nat) : BufferDiscipline (Buffer.make n) := ⟨make_inv n, fun _ => rfl⟩

lemma retrieveAll_discipline (h : BufferInv b) : BufferDiscipline b.retrieveAll :=
  ⟨retrieveAll_inv b h, fun _ => rfl⟩

lemma retrieve_discipline (h : BufferDiscipline b) (len : Nat) : BufferDiscipline (b.retrieve len) := by
  refine ⟨retrieve_inv b h.inv len, ?_⟩
  unfold Buffer.retrieve
  by_cases hlen : len < b.readableBytes
  · rw [if_pos hlen]
    intro hzero
    unfold Buffer.readableBytes at hzero hlen
    simp only at hzero
    omega
  · rw [if_neg hlen]
    exact fun _ => rfl

/-- A content that grows by at least one byte is not empty. -/
lemma discipline_of_append {b' : Buffer} {str : Bytes} (hinv : BufferInv b')
    (hreadable : b'.readable = b.readable ++ str) (hstr : str ≠ []) : BufferDiscipline b' := by
  refine ⟨hinv, fun hzero => ?_⟩
  have hnil := (readable_eq_nil_iff b' hinv).mpr hzero
  rw [hreadable, List.append_eq_nil_iff] at hnil
  exact absurd hnil.2 hstr

lemma append_nil_indices (b : Buffer) :
    (b.append []).readIndex = b.readIndex ∧ (b.append []).writeIndex = b.writeIndex := by
  have hspace : b.ensureWriteableBytes 0 = b := if_neg (Nat.not_lt_zero _)
  simp only [Buffer.append, List.length_nil, hspace, Nat.add_zero, and_self]

lemma append_discipline (h : BufferDiscipline b) (str : Bytes) : BufferDiscipline (b.append str) := by
  by_cases hstr : str = []
  · refine ⟨append_inv b h.inv str, ?_⟩
    obtain ⟨hread, hwrite⟩ := append_nil_indices b
    rw [hstr, Buffer.readableBytes, hread, hwrite]
    exact h.empty
  · exact discipline_of_append (append_inv b h.inv str) (readable_append b h.inv str) hstr

lemma readFd_discipline (h : BufferDiscipline b) (r : ReadvResult) : BufferDiscipline (b.readFd r) := by
  cases r with
  | err e => exact h
  | ok data =>
    obtain ⟨hinv, hreadable⟩ := readFd_spec b h.inv data
    by_cases hdata : data = []
    · subst hdata
      refine ⟨hinv, ?_⟩
      simp only [Buffer.readFd, List.length_nil, Nat.zero_le, if_true]
      exact h.empty
    · exact discipline_of_append hinv hreadable hdata

/-! ### Size -/

/-- The dead bytes in front of the readable region are fewer than the bytes that make the vector grow. -/
lemma length_append_le (h : BufferInv b) (str : Bytes) :
    (b.append str).buffer.length ≤
      max b.buffer.length (kCheapPrepend + 2 * (b.append str).readableBytes) := by
  obtain ⟨hinv, hreadable, hspace⟩ := ensureWriteableBytes_spec b h str.length
  have hfill : (b.append str).buffer.length = (b.ensureWriteableBytes str.length).buffer.length :=
    (fill_spec _ hinv str hspace).2.2
  have hbytes : (b.append str).readableBytes = b.readableBytes + str.length := by
    rw [← length_readable _ (append_inv b h str), readable_append b h, List.length_append,
      length_readable b h]
  rw [hfill, hbytes]
  rcases ensureWriteableBytes_cases b str.length with ⟨-, heq⟩ | ⟨-, hgrow, heq⟩ | ⟨-, heq⟩
  · rw [heq]
    exact Nat.le_max_left _ _
  · have hread := h.read_le_write
    rw [heq, length_resize]
    unfold Buffer.prependableBytes at hgrow
    unfold Buffer.readableBytes
    omega
  · rw [heq, (makeSpace_move b h).2.2]
    exact Nat.le_max_left _ _

lemma length_readFd_le (h : BufferInv b) (r : ReadvResult) :
    (b.readFd r).buffer.length ≤ max b.buffer.length (kCheapPrepend + 2 * (b.readFd r).readableBytes) := by
  cases r with
  | err e => exact Nat.le_max_left _ _
  | ok data =>
    by_cases hfits : data.length ≤ b.writeableBytes
    · obtain ⟨-, -, hlength⟩ := fill_spec b h data hfits
      simp only [Buffer.readFd, if_pos hfits, List.take_of_length_le hfits] at *
      rw [hlength]
      exact Nat.le_max_left _ _
    · obtain ⟨hinv, -, hlength⟩ := readFd_filled h hfits
      simp only [Buffer.readFd, if_neg hfits]
      have hbound := length_append_le hinv (data.drop b.writeableBytes)
      rw [hlength] at hbound
      exact hbound

/-! ### Runs -/

/-- The buffer after a call. -/
def BufferOp.apply (b : Buffer) : BufferOp → Buffer
  | .append str => b.append str
  | .retrieve len => b.retrieve len
  | .retrieveAll => b.retrieveAll
  | .retrieveAsString len => b.retrieve len
  | .retrieveAllAsString => b.retrieve b.readableBytes
  | .readFd r => b.readFd r

lemma buffer_next {t t' : BufferTrace} {op : BufferOp} (hnext : bufferMachine.next t op = some t') :
    t'.buffer = BufferOp.apply t.buffer op := by
  cases op with
  | retrieveAsString len =>
    simp only [bufferMachine, Option.ite_none_right_eq_some, Option.some.injEq] at hnext
    rw [← hnext.2]
    rfl
  | readFd r =>
    simp only [bufferMachine, Option.ite_none_right_eq_some, Option.some.injEq] at hnext
    rw [← hnext.2]
    rfl
  | _ =>
    simp only [bufferMachine, Option.some.injEq] at hnext
    rw [← hnext]
    rfl

lemma apply_discipline (h : BufferDiscipline b) (op : BufferOp) : BufferDiscipline (BufferOp.apply b op) := by
  cases op with
  | append str => exact append_discipline h str
  | retrieve len => exact retrieve_discipline h len
  | retrieveAll => exact retrieveAll_discipline h.inv
  | retrieveAsString len => exact retrieve_discipline h len
  | retrieveAllAsString => exact retrieve_discipline h b.readableBytes
  | readFd r => exact readFd_discipline h r

lemma length_retrieve (b : Buffer) (len : Nat) : (b.retrieve len).buffer.length = b.buffer.length := by
  unfold Buffer.retrieve
  split
  · rfl
  · rfl

lemma length_apply_le (h : BufferInv b) (op : BufferOp) : (BufferOp.apply b op).buffer.length ≤
    max b.buffer.length (kCheapPrepend + 2 * (BufferOp.apply b op).readableBytes) := by
  have hretrieve : ∀ len n, (b.retrieve len).buffer.length ≤ max b.buffer.length n := by
    intro len n
    rw [length_retrieve]
    exact Nat.le_max_left _ _
  cases op with
  | append str => exact length_append_le h str
  | retrieve len => exact hretrieve len _
  | retrieveAll => exact Nat.le_max_left _ _
  | retrieveAsString len => exact hretrieve len _
  | retrieveAllAsString => exact hretrieve b.readableBytes _
  | readFd r => exact length_readFd_le h r

lemma discipline_step (t : BufferTrace) (op : BufferOp) (t' : BufferTrace) (h : BufferDiscipline t.buffer)
    (hnext : bufferMachine.next t op = some t') : BufferDiscipline t'.buffer := by
  rw [buffer_next hnext]
  exact apply_discipline h op

theorem discipline_run {initialSize : Nat} {ops : List BufferOp} {t : BufferTrace}
    (hrun : bufferMachine.run (BufferTrace.make initialSize) ops = some t) : BufferDiscipline t.buffer :=
  bufferMachine.invariant (I := fun t => BufferDiscipline t.buffer) discipline_step
    (make_discipline initialSize) hrun

/-- The vector of a buffer is never larger than its first size or the prepend space and twice the
largest content so far. -/
theorem buffer_size_le_peak (initialSize : Nat) (ops : List BufferOp) (t : BufferTrace)
    (hrun : bufferMachine.run (BufferTrace.make initialSize) ops = some t) :
    t.buffer.buffer.length ≤ max (8 + initialSize)
      (8 + 2 * bufferMachine.peak (fun t => t.buffer.readableBytes) (BufferTrace.make initialSize) ops) := by
  have hsize : (BufferTrace.make initialSize).buffer.buffer.length = 8 + initialSize :=
    List.length_replicate
  rw [← hsize]
  refine bufferMachine.le_max_peak (I := fun t => BufferDiscipline t.buffer)
    (fun t => t.buffer.buffer.length) (fun t => t.buffer.readableBytes) (fun n => kCheapPrepend + 2 * n)
    (by omega) ?_ (make_discipline initialSize) hrun
  intro t op t' h hnext
  rw [buffer_next hnext]
  exact ⟨apply_discipline h op, length_apply_le h.inv op⟩

theorem buffer_size_le_peak_calls :
    ∃ t, bufferMachine.run (BufferTrace.make 2) sampleCalls = some t ∧ t.buffer.buffer.length ≤ 8 + 2 * 7 := by
  obtain ⟨t, hrun⟩ : ∃ t, bufferMachine.run (BufferTrace.make 2) sampleCalls = some t := by
    apply Option.isSome_iff_exists.mp
    decide +kernel
  have hpeak : bufferMachine.peak (fun t => t.buffer.readableBytes) (BufferTrace.make 2) sampleCalls = 7 := by
    decide +kernel
  have hsize := buffer_size_le_peak 2 sampleCalls t hrun
  rw [hpeak] at hsize
  exact ⟨t, hrun, hsize⟩

/-! ### Strings -/

lemma retrieveAsStringChecked_eq {len : Nat} {r : Bytes × Buffer} (h : b.retrieveAsStringChecked len = some r) :
    r = b.retrieveAsString len ∧ b.readIndex + len ≤ b.buffer.length := by
  simp only [Buffer.retrieveAsStringChecked, stringAt, Option.map_eq_some_iff, Option.ite_none_right_eq_some,
    Option.some.injEq] at h
  obtain ⟨data, ⟨hin, hdata⟩, hr⟩ := h
  rw [← hr, ← hdata]
  exact ⟨rfl, hin⟩

/-- `retrieveAsString(len)` returns the first `min(len, readableBytes())` readable bytes, which are the
bytes that `retrieve(len)` consumes, and reads nothing outside of the vector. -/
structure ReturnsConsumed (b : Buffer) (len : Nat) : Prop where
  returned : b.retrieveAsStringChecked len =
    some (b.readable.take (min len b.readableBytes), b.retrieve len)
  consumed : b.readable.take (min len b.readableBytes) ++ (b.retrieve len).readable = b.readable

lemma take_append_retrieve (h : BufferInv b) (len : Nat) :
    b.readable.take (min len b.readableBytes) ++ (b.retrieve len).readable = b.readable := by
  rw [readable_retrieve b h, ← length_readable b h, ← List.take_eq_take_min, List.take_append_drop]

lemma returnsConsumed_of_le (h : BufferInv b) {len : Nat} (hlen : len ≤ b.readableBytes) :
    ReturnsConsumed b len := by
  refine ⟨?_, take_append_retrieve h len⟩
  have hread := h.read_le_write
  have hwrite := h.write_le_size
  have hin : b.readIndex + len ≤ b.buffer.length := by
    unfold Buffer.readableBytes at hlen
    omega
  rw [Nat.min_eq_left hlen, ← peek_eq_take b len hlen, Buffer.retrieveAsStringChecked, stringAt, if_pos hin]
  rfl

/-- The string has the length asked for. -/
lemma le_of_returnsConsumed (h : BufferInv b) {len : Nat} (hret : ReturnsConsumed b len) :
    len ≤ b.readableBytes := by
  obtain ⟨heq, hin⟩ := retrieveAsStringChecked_eq hret.returned
  have hlength := congrArg (fun r => r.1.length) heq
  simp only [Buffer.retrieveAsString, Buffer.peek, List.length_take, List.length_drop,
    length_readable b h] at hlength
  omega

/-- In every state of a buffer `retrieveAsString` agrees with `retrieve` exactly for the lengths that
are readable. -/
theorem retrieveAsString_returns_consumed_iff (initialSize : Nat) (ops : List BufferOp) (t : BufferTrace)
    (hrun : bufferMachine.run (BufferTrace.make initialSize) ops = some t) (len : Nat) :
    ReturnsConsumed t.buffer len ↔ len ≤ t.buffer.readableBytes := by
  have h := (discipline_run hrun).inv
  exact ⟨le_of_returnsConsumed h, returnsConsumed_of_le h⟩

theorem retrieveAsString_returns_consumed_calls :
    ∃ t, bufferMachine.run (BufferTrace.make 2) sampleCalls = some t ∧ ReturnsConsumed t.buffer 3 := by
  have hend : (bufferMachine.run (BufferTrace.make 2) sampleCalls).map (fun t => t.buffer.readableBytes) =
      some 4 := by
    decide +kernel
  obtain ⟨t, hrun, hbytes⟩ := Option.map_eq_some_iff.mp hend
  exact ⟨t, hrun, (retrieveAsString_returns_consumed_iff 2 sampleCalls t hrun 3).mpr (by rw [hbytes]; decide)⟩

/-- A message of three bytes that is retrieved, and a message of one byte. -/
def sampleStale : List BufferOp := [.append [1, 2, 3], .retrieveAll, .append [9]]

/-- The string of three bytes ends with two bytes of the first message. -/
theorem retrieveAsString_returns_stale_bytes :
    ¬∀ (initialSize : Nat) (ops : List BufferOp) (t : BufferTrace),
      bufferMachine.run (BufferTrace.make initialSize) ops = some t → ∀ len, ReturnsConsumed t.buffer len := by
  intro hall
  have hend : (bufferMachine.run (BufferTrace.make 4) sampleStale).map
      (fun t => (t.buffer.readableBytes, (t.buffer.retrieveAsStringChecked 3).map Prod.fst)) =
      some (1, some [9, 2, 3]) := by
    decide +kernel
  obtain ⟨t, hrun, ht⟩ := Option.map_eq_some_iff.mp hend
  obtain ⟨hbytes, hstring⟩ := Prod.mk.inj ht
  rw [(hall 4 sampleStale t hrun 3).returned, hbytes, Option.map_some, Option.some.injEq] at hstring
  have hlength := congrArg List.length hstring
  simp only [List.length_take, List.length_cons, List.length_nil] at hlength
  omega

end MylibMuduo.Proofs
