import MylibMuduo.Lib.Fifo
import MylibMuduo.Lib.Simulation
import MylibMuduo.Proofs.Buffer

/-!
# The buffer is a byte queue

Runs of the operations of `Buffer` are matched by runs of a first-in first-out queue that has
no indices and no storage. The readable region is the queue and the strings that the buffer
returns are what the queue hands out.
-/

namespace MylibMuduo

/-- The calls of the public interface of `Buffer` that change it. -/
inductive BufferOp where
  | append (str : Bytes)
  | retrieve (len : Nat)
  | retrieveAll
  | retrieveAsString (len : Nat)
  | retrieveAllAsString
  | readFd (r : ReadvResult)
  deriving DecidableEq

/-- A buffer and the strings it has returned so far. -/
structure BufferTrace where
  buffer : Buffer
  returned : List Bytes

/-- `readv` delivers at most what the iovecs hold. -/
def ReadvResult.fits (b : Buffer) : ReadvResult → Prop
  | .ok data => data.length ≤ b.readvCapacity
  | .err _ => True

instance (b : Buffer) : (r : ReadvResult) → Decidable (r.fits b)
  | .ok data => inferInstanceAs (Decidable (data.length ≤ b.readvCapacity))
  | .err _ => isTrue trivial

namespace BufferTrace

def make (initialSize : Nat) : BufferTrace := ⟨Buffer.make initialSize, []⟩

/-- The string and the buffer that a string-returning call leaves. -/
def returns (t : BufferTrace) (r : Bytes × Buffer) : BufferTrace := ⟨r.2, t.returned ++ [r.1]⟩

end BufferTrace

def bufferMachine : Machine BufferTrace BufferOp where
  next t
    | .append str => some { t with buffer := t.buffer.append str }
    | .retrieve len => some { t with buffer := t.buffer.retrieve len }
    | .retrieveAll => some { t with buffer := t.buffer.retrieveAll }
    | .retrieveAsString len =>
      if len ≤ t.buffer.readableBytes then some (t.returns (t.buffer.retrieveAsString len)) else none
    | .retrieveAllAsString => some (t.returns t.buffer.retrieveAllAsString)
    | .readFd r => if r.fits t.buffer then some { t with buffer := t.buffer.readFd r } else none

/-- The bytes that a call appends or reads. -/
def BufferOp.entered : BufferOp → Bytes
  | .append str => str
  | .readFd (.ok data) => data
  | _ => []

/-- What a call is for the queue. -/
def BufferOp.fifoOps : BufferOp → List (FifoOp UInt8)
  | .append str => [.enqueue str]
  | .retrieve len => [.drop len]
  | .retrieveAll => [.dropAll]
  | .retrieveAsString len => [.take len]
  | .retrieveAllAsString => [.takeAll]
  | .readFd (.ok data) => [.enqueue data]
  | .readFd (.err _) => []

namespace Proofs

structure Represents (t : BufferTrace) (q : Fifo UInt8) : Prop where
  inv : BufferInv t.buffer
  readable : t.buffer.readable = q.queue
  returned : t.returned = q.handed

namespace Represents

variable {t : BufferTrace} {q : Fifo UInt8}

lemma readableBytes (h : Represents t q) : t.buffer.readableBytes = q.queue.length := by
  rw [← length_readable t.buffer h.inv, h.readable]

lemma enqueue (h : Represents t q) {b : Buffer} {data : Bytes} (hinv : BufferInv b)
    (hreadable : b.readable = t.buffer.readable ++ data) :
    Represents { t with buffer := b } (q.enqueue data) := by
  refine ⟨hinv, ?_, h.returned⟩
  change b.readable = q.queue ++ data
  rw [hreadable, h.readable]

lemma retrieve (h : Represents t q) (len : Nat) :
    Represents { t with buffer := t.buffer.retrieve len } (q.drop len) := by
  refine ⟨retrieve_inv _ h.inv len, ?_, h.returned⟩
  change (t.buffer.retrieve len).readable = q.queue.drop len
  rw [readable_retrieve _ h.inv, h.readable]

lemma retrieveAll (h : Represents t q) :
    Represents { t with buffer := t.buffer.retrieveAll } (q.drop q.queue.length) := by
  refine ⟨retrieveAll_inv _ h.inv, ?_, h.returned⟩
  change t.buffer.retrieveAll.readable = q.queue.drop q.queue.length
  rw [readable_retrieveAll, List.drop_length]

/-- The string returned is what is dropped. -/
lemma retrieveAsString (h : Represents t q) (len : Nat) (hlen : len ≤ t.buffer.readableBytes) :
    Represents (t.returns (t.buffer.retrieveAsString len)) (q.take len) := by
  have hdrop := h.retrieve len
  refine ⟨hdrop.inv, hdrop.readable, ?_⟩
  change t.returned ++ [t.buffer.peek len] = q.handed ++ [q.queue.take len]
  rw [peek_eq_take _ len hlen, h.readable, h.returned]

end Represents

theorem buffer_simulates_fifo :
    Simulation bufferMachine Fifo.machine BufferOp.fifoOps Represents where
  step := by
    intro t q op t' h hnext
    cases op with
    | append str =>
      simp only [bufferMachine, Option.some.injEq] at hnext
      rw [← hnext]
      exact ⟨_, rfl, h.enqueue (append_inv _ h.inv str) (readable_append _ h.inv str)⟩
    | retrieve len =>
      simp only [bufferMachine, Option.some.injEq] at hnext
      rw [← hnext]
      exact ⟨_, rfl, h.retrieve len⟩
    | retrieveAll =>
      simp only [bufferMachine, Option.some.injEq] at hnext
      rw [← hnext]
      exact ⟨_, rfl, h.retrieveAll⟩
    | retrieveAsString len =>
      simp only [bufferMachine, Option.ite_none_right_eq_some, Option.some.injEq] at hnext
      obtain ⟨hlen, hnext⟩ := hnext
      rw [← hnext]
      refine ⟨q.take len, ?_, h.retrieveAsString len hlen⟩
      rw [h.readableBytes] at hlen
      simp [BufferOp.fifoOps, Machine.run, Fifo.machine, hlen]
    | retrieveAllAsString =>
      simp only [bufferMachine, Option.some.injEq] at hnext
      rw [← hnext]
      refine ⟨_, rfl, ?_⟩
      rw [← h.readableBytes]
      exact h.retrieveAsString _ (Nat.le_refl _)
    | readFd r =>
      simp only [bufferMachine, Option.ite_none_right_eq_some, Option.some.injEq] at hnext
      obtain ⟨-, hnext⟩ := hnext
      rw [← hnext]
      cases r with
      | ok data =>
        obtain ⟨hinv, hreadable⟩ := readFd_spec t.buffer h.inv data
        exact ⟨_, rfl, h.enqueue hinv hreadable⟩
      | err e => exact ⟨q, rfl, h.inv, h.readable, h.returned⟩

lemma entered_fifoOps (labels : List BufferOp) :
    (labels.flatMap BufferOp.fifoOps).flatMap FifoOp.entered = labels.flatMap BufferOp.entered := by
  induction labels with
  | nil => rfl
  | cons op labels ih =>
    rw [List.flatMap_cons, List.flatMap_append, List.flatMap_cons, ih]
    congr 1
    cases op with
    | readFd r => cases r <;> simp [BufferOp.fifoOps, BufferOp.entered, FifoOp.entered]
    | _ => simp [BufferOp.fifoOps, BufferOp.entered, FifoOp.entered]

/-- The buffer goes through the runs of the queue: its readable region is the queue, its strings
are the bytes that the queue hands out, and what has left it followed by what is readable is
what has entered it. -/
theorem buffer_refines_fifo (initialSize : Nat) (labels : List BufferOp) (t : BufferTrace)
    (hrun : bufferMachine.run (BufferTrace.make initialSize) labels = some t) :
    ∃ q, Fifo.machine.run Fifo.empty (labels.flatMap BufferOp.fifoOps) = some q ∧
      t.buffer.readable = q.queue ∧ t.returned = q.handed ∧
      q.gone ++ t.buffer.readable = labels.flatMap BufferOp.entered := by
  have hmake : Represents (BufferTrace.make initialSize) Fifo.empty :=
    ⟨make_inv initialSize, readable_make initialSize, rfl⟩
  obtain ⟨q, hq, hrep⟩ := buffer_simulates_fifo.run hmake hrun
  refine ⟨q, hq, hrep.readable, hrep.returned, ?_⟩
  rw [hrep.readable, Fifo.gone_append_queue hq, Fifo.put_eq_entered hq, entered_fifoOps]
  rfl

/-- The vector of two writable bytes grows, is compacted, and takes a `readv` that spills. -/
def sampleCalls : List BufferOp :=
  [.append [1, 2, 3, 4, 5], .retrieve 3, .append [6, 7], .readFd (.err .ewouldblock),
   .readFd (.ok [8, 9, 10]), .retrieveAsString 3]

theorem buffer_refines_fifo_calls :
    ∃ (t : BufferTrace) (q : Fifo UInt8), bufferMachine.run (BufferTrace.make 2) sampleCalls = some t ∧
      t.returned = [[4, 5, 6]] ∧ t.returned = q.handed ∧ t.buffer.readable = q.queue ∧
      q.gone ++ t.buffer.readable = [1, 2, 3, 4, 5, 6, 7, 8, 9, 10] := by
  have hend : (bufferMachine.run (BufferTrace.make 2) sampleCalls).map BufferTrace.returned =
      some [[4, 5, 6]] := by
    decide +kernel
  obtain ⟨t, hrun, hreturned⟩ := Option.map_eq_some_iff.mp hend
  obtain ⟨q, -, hqueue, hhanded, hall⟩ := buffer_refines_fifo 2 sampleCalls t hrun
  exact ⟨t, q, hrun, hreturned, hhanded, hqueue, hall⟩

end Proofs

end MylibMuduo
