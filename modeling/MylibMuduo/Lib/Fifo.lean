import MylibMuduo.Lib.Machine

/-!
# First-in first-out queues

The abstract queue: elements are put in at the end and taken out at the front, with or without
being handed to the caller. The trace records everything put in, everything taken out and what
was handed out.
-/

namespace MylibMuduo

inductive FifoOp (α : Type) where
  | enqueue (xs : List α)
  | drop (n : Nat)
  | dropAll
  | take (n : Nat)
  | takeAll
  deriving DecidableEq

/-- The elements that an operation puts in. -/
def FifoOp.entered {α : Type} : FifoOp α → List α
  | .enqueue xs => xs
  | _ => []

structure Fifo (α : Type) where
  queue : List α
  put : List α
  gone : List α
  handed : List (List α)

namespace Fifo

variable {α : Type}

def empty : Fifo α := ⟨[], [], [], []⟩

def enqueue (q : Fifo α) (xs : List α) : Fifo α :=
  { q with queue := q.queue ++ xs, put := q.put ++ xs }

def drop (q : Fifo α) (n : Nat) : Fifo α :=
  { q with queue := q.queue.drop n, gone := q.gone ++ q.queue.take n }

/-- The elements that are dropped go to the caller. -/
def take (q : Fifo α) (n : Nat) : Fifo α := { q.drop n with handed := q.handed ++ [q.queue.take n] }

def machine : Machine (Fifo α) (FifoOp α) where
  next q
    | .enqueue xs => some (q.enqueue xs)
    | .drop n => some (q.drop n)
    | .dropAll => some (q.drop q.queue.length)
    | .take n => if n ≤ q.queue.length then some (q.take n) else none
    | .takeAll => some (q.take q.queue.length)

lemma gone_drop (q : Fifo α) (n : Nat) (h : q.gone ++ q.queue = q.put) :
    (q.drop n).gone ++ (q.drop n).queue = (q.drop n).put := by
  unfold drop
  rw [← h, List.append_assoc, List.take_append_drop]

/-- What has gone and what is in the queue is what was put in. -/
theorem gone_append_queue {labels : List (FifoOp α)} {q : Fifo α}
    (hrun : machine.run Fifo.empty labels = some q) : q.gone ++ q.queue = q.put := by
  refine machine.invariant (I := fun q => q.gone ++ q.queue = q.put) ?_ rfl hrun
  intro q a q' h hnext
  cases a with
  | enqueue xs =>
    simp only [machine, Option.some.injEq] at hnext
    rw [← hnext]
    change q.gone ++ (q.queue ++ xs) = q.put ++ xs
    rw [← h, List.append_assoc]
  | drop n =>
    simp only [machine, Option.some.injEq] at hnext
    rw [← hnext]
    exact gone_drop q n h
  | dropAll =>
    simp only [machine, Option.some.injEq] at hnext
    rw [← hnext]
    exact gone_drop q _ h
  | take n =>
    simp only [machine] at hnext
    split at hnext
    · rw [Option.some.injEq] at hnext
      rw [← hnext]
      exact gone_drop q n h
    · simp at hnext
  | takeAll =>
    simp only [machine, Option.some.injEq] at hnext
    rw [← hnext]
    exact gone_drop q _ h

theorem put_eq_entered {labels : List (FifoOp α)} {q₀ q : Fifo α}
    (hrun : machine.run q₀ labels = some q) : q.put = q₀.put ++ labels.flatMap FifoOp.entered := by
  induction labels generalizing q₀ with
  | nil =>
    rw [Machine.run, Option.some.injEq] at hrun
    simp [hrun]
  | cons a labels ih =>
    obtain ⟨q₁, hnext, hrest⟩ := (machine.run_cons_eq_some q₀ q a labels).mp hrun
    have hput : q₁.put = q₀.put ++ a.entered := by
      cases a with
      | enqueue xs =>
        simp only [machine, Option.some.injEq] at hnext
        rw [← hnext]
        rfl
      | take n =>
        simp only [machine] at hnext
        split at hnext
        · rw [Option.some.injEq] at hnext
          simp [← hnext, take, drop, FifoOp.entered]
        · simp at hnext
      | _ =>
        simp only [machine, Option.some.injEq] at hnext
        simp [← hnext, take, drop, FifoOp.entered]
    rw [ih hrest, hput, List.flatMap_cons, List.append_assoc]

end Fifo

end MylibMuduo
