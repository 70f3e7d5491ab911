import Mathlib.Data.Int.Order.Basic
import Mathlib.Order.Basic
import MylibMuduo.EventLoopThreadPool
import MylibMuduo.Proofs.ThreadJoin

/-!
# The loops of the thread pool

As long as nobody but the pool's destructor quits a loop of the pool, `loops_` holds the loops of the
threads in order and all of them run, so that every loop that `getNextLoop` hands out exists. When
the destructor of the pool has returned, every thread has ended, whoever called `quit`.
-/

namespace MylibMuduo.Proofs

variable {τ : Type}

/-! ### Steps of the pool -/

/-- All that a step can do. -/
inductive PoolTrans (s : ThreadPool τ) : PoolStep τ → ThreadPool τ → Prop
  | setNumThreads (n : Int) (hpc : s.owner = .idle) (hstarted : s.started = false) :
      PoolTrans s (.setNumThreads n) { s with numThreads := n }
  | start (callBack : Bool) (hpc : s.owner = .idle) :
      PoolTrans s (.start callBack) { s with started := true, callBack := callBack, owner := .starting 0 }
  | emplaceThread {i : Nat} (hpc : s.owner = .starting i) (hi : (i : Int) < s.numThreads) :
      PoolTrans s .emplaceThread
        { s with threads := s.threads ++ [ThreadLife.make s.callBack], owner := .startLoop i }
  | emplaceLoop {i : Nat} {t : ThreadLife τ} {nonNull : Bool} (hpc : s.owner = .startLoop i)
      (hlast : s.threads.getLast? = some t) (hstart : t.thread.start = .returned nonNull) :
      PoolTrans s .emplaceLoop
        { s with
          loops := s.loops ++ [if nonNull then some (s.threads.length - 1) else none]
          owner := .starting (i + 1) }
  | startReturns {i : Nat} (hpc : s.owner = .starting i) (hi : s.numThreads ≤ i) :
      PoolTrans s .startReturns { s with owner := .idle }
  | getNextLoop (hpc : s.owner = .idle) : PoolTrans s .getNextLoop s.getNextLoop
  | thread {i : Nat} {a : LifeStep τ} {t t' : ThreadLife τ} (ht : s.threads[i]? = some t) (hallow : s.Allows i a)
      (hnext : (lifeMachine τ).next t a = some t') :
      PoolTrans s (.thread i a) { s with threads := s.threads.set i t' }
  | destroy (hpc : s.owner = .idle) : PoolTrans s .destroy { s with owner := .destroying 0 }
  | destroyNext {i : Nat} {t : ThreadLife τ} (hpc : s.owner = .destroying i) (ht : s.threads[i]? = some t)
      (hend : t.destructor = .destroyed) : PoolTrans s .destroyNext { s with owner := .destroying (i + 1) }
  | destroyed {i : Nat} (hpc : s.owner = .destroying i) (ht : s.threads[i]? = none) :
      PoolTrans s .destroyNext { s with owner := .destroyed }

theorem pool_trans {s s' : ThreadPool τ} {a : PoolStep τ} (hnext : (poolMachine τ).next s a = some s') :
    PoolTrans s a s' := by
  cases a with
  | setNumThreads n =>
    simp only [poolMachine, Option.ite_none_right_eq_some, Option.some.injEq] at hnext
    exact hnext.2 ▸ .setNumThreads n hnext.1.1 hnext.1.2
  | start callBack =>
    simp only [poolMachine, Option.ite_none_right_eq_some, Option.some.injEq] at hnext
    exact hnext.2 ▸ .start callBack hnext.1
  | emplaceThread =>
    simp only [poolMachine] at hnext
    split at hnext
    · next i hpc =>
      rw [Option.ite_none_right_eq_some, Option.some.injEq] at hnext
      exact hnext.2 ▸ .emplaceThread hpc hnext.1
    · cases hnext
  | emplaceLoop =>
    simp only [poolMachine] at hnext
    split at hnext
    · next i t hpc hlast =>
      split at hnext
      · next nonNull hstart => exact Option.some.inj hnext ▸ .emplaceLoop hpc hlast hstart
      · cases hnext
    · cases hnext
  | startReturns =>
    simp only [poolMachine] at hnext
    split at hnext
    · next i hpc =>
      rw [Option.ite_none_left_eq_some, Option.some.injEq] at hnext
      exact hnext.2 ▸ .startReturns hpc (not_lt.mp hnext.1)
    · cases hnext
  | getNextLoop =>
    simp only [poolMachine, Option.ite_none_right_eq_some, Option.some.injEq] at hnext
    exact hnext.2 ▸ .getNextLoop hnext.1
  | thread i a =>
    simp only [poolMachine] at hnext
    split at hnext
    · next t ht =>
      rw [Option.ite_none_right_eq_some, Option.map_eq_some_iff] at hnext
      obtain ⟨hallow, t', ht', rfl⟩ := hnext
      exact .thread ht hallow ht'
    · cases hnext
  | destroy =>
    simp only [poolMachine, Option.ite_none_right_eq_some, Option.some.injEq] at hnext
    exact hnext.2 ▸ .destroy hnext.1
  | destroyNext =>
    simp only [poolMachine] at hnext
    split at hnext
    · next i hpc =>
      split at hnext
      · next t ht =>
        rw [Option.ite_none_right_eq_some, Option.some.injEq] at hnext
        exact hnext.2 ▸ .destroyNext hpc ht hnext.1
      · next ht => exact Option.some.inj hnext ▸ .destroyed hpc ht
    · cases hnext

/-- What the steps of a thread keep holds for all the threads of the pool. -/
lemma forall_threads_step {s s' : ThreadPool τ} {a : PoolStep τ} {I : ThreadLife τ → Prop}
    (hmake : ∀ callBack, I (ThreadLife.make callBack))
    (hstep : ∀ i b t t', a = .thread i b → I t → (lifeMachine τ).next t b = some t' → I t')
    (h : ∀ t ∈ s.threads, I t) (htrans : PoolTrans s a s') : ∀ t ∈ s'.threads, I t := by
  cases htrans with
  | emplaceThread hpc hi =>
    intro t ht
    rcases List.mem_append.mp ht with ht | ht
    · exact h t ht
    · exact List.mem_singleton.mp ht ▸ hmake s.callBack
  | thread hget hallow hnext =>
    intro t ht
    rcases List.mem_or_eq_of_mem_set ht with ht | rfl
    · exact h t ht
    · exact hstep _ _ _ _ rfl (h _ (List.mem_of_getElem? hget)) hnext
  | getNextLoop hpc =>
    unfold ThreadPool.getNextLoop
    split
    · exact h
    · exact h
  | _ => exact h

/-! ### One thread -/

/-- A thread that `startLoop` was called for has started, and the destructor has joined it. -/
structure ThreadEnd (t : ThreadLife τ) : Prop where
  started : t.thread.start ≠ .notCalled → t.thread.thread ≠ .notStarted
  joined : t.destructor = .destroyed → t.thread.thread = .finished ∨ t.thread.thread = .notStarted

lemma threadEnd_make (callBack : Bool) : ThreadEnd (ThreadLife.make callBack : ThreadLife τ) :=
  ⟨fun hstart => absurd rfl hstart, fun hend => by cases hend⟩

lemma start_notCalled {s s' : EventLoopThread τ} {a : HandoffStep τ} (htrans : HandoffTrans s a s')
    (hstart : s.start = .notCalled) : s'.start = .notCalled ∨ a = .startThread ∧ s'.thread ≠ .notStarted := by
  cases htrans with
  | startThread hcalled => exact .inr ⟨rfl, by simp⟩
  | startReturns h | testPass h | testWait h | spuriousWake h | returnLoop h => simp [hstart] at h
  | publish hthread => exact .inl (by simp [hstart, StartLoopPc.notifyOne])
  | _ => exact .inl hstart

/-- A thread that has ended, or that is never started, stays so. -/
lemma ended_step {s s' : EventLoopThread τ} {a : HandoffStep τ} (htrans : HandoffTrans s a s')
    (howner : a.ofOwner ≠ true) (hend : s.thread = .finished ∨ s.thread = .notStarted) : s'.thread = s.thread := by
  cases htrans with
  | loopStep halive hwho hloop => rfl
  | startThread h | startReturns h | testPass h | testWait h | spuriousWake h | returnLoop h | storeExiting h =>
    exact absurd rfl howner
  | callInit h | skipInit h | initReturns h | exit h | stay h | publish h | callLoop h | loopReturns h | reset h =>
    simp [h] at hend

lemma ThreadEnd.step {t t' : ThreadLife τ} {a : LifeStep τ} (h : ThreadEnd t)
    (hnext : (lifeMachine τ).next t a = some t') : ThreadEnd t' := by
  cases life_trans hnext with
  | thread hexit howner hthread =>
    have htrans := handoff_trans hthread
    refine ⟨fun hstart => ?_, fun hend => ?_⟩
    · by_cases hcalled : t.thread.start = .notCalled
      · exact ((start_notCalled htrans hcalled).resolve_left hstart).2
      · exact started_step (h.started hcalled) htrans
    · have hjoined := h.joined hend
      have hsame := ended_step htrans (fun hof => by rw [howner hof] at hend; cases hend) hjoined
      rw [← hsame] at hjoined
      exact hjoined
  | join hpc hend => exact ⟨h.started, fun _ => hend⟩
  | _ => exact ⟨h.started, fun hend => by cases hend⟩

/-- `startLoop` keeps what it returned, also through the destructor. -/
lemma life_returned {t t' : ThreadLife τ} {a : LifeStep τ} {b : Bool} (h : t.thread.start = .returned b)
    (hnext : (lifeMachine τ).next t a = some t') : t'.thread.start = .returned b := by
  cases life_trans hnext with
  | thread hexit howner hthread => exact returned_step h (handoff_trans hthread)
  | _ => exact h

/-- Only the destructor of the thread moves the destructor on. -/
lemma life_destructor {t t' : ThreadLife τ} {a : HandoffStep τ}
    (hnext : (lifeMachine τ).next t (.thread a) = some t') : t'.destructor = t.destructor := by
  cases life_trans hnext with
  | thread hexit howner hthread => rfl

/-- A thread that has ended and whose object is destroyed makes no step any more. -/
lemma life_next_of_ended {t t' : ThreadLife τ} {a : LifeStep τ} (hpc : t.destructor = .destroyed)
    (hend : t.thread.thread = .finished) : (lifeMachine τ).next t a ≠ some t' := by
  intro hnext
  cases life_trans hnext with
  | thread hexit howner hthread =>
    cases handoff_trans hthread with
    | startThread h | startReturns h | testPass h | testWait h | spuriousWake h | returnLoop h | storeExiting h =>
      have hnot := howner rfl
      rw [hpc] at hnot
      cases hnot
    | loopStep halive hwho hloop => simp [EventLoopThread.alive, hend] at halive
    | callInit h | skipInit h | initReturns h | exit h | stay h | publish h | callLoop h | loopReturns h | reset h =>
      rw [hend] at h
      cases h
  | storeExiting h | testNull h | testLoop h | storeQuit h | storeFreed h | wakeUp h | wakeFreed h | join h =>
    rw [hpc] at h
    cases h

/-! ### The order of the threads -/

/-- The number of threads that the destructor of the pool has destroyed. -/
def destroyedThreads (n : Nat) : PoolPc → Nat
  | .destroying i => i
  | .destroyed => n
  | _ => 0

/-- The round of `start` in which the owner is. -/
def PoolRound (s : ThreadPool τ) : Prop :=
  match s.owner with
  | .starting i => i ≤ s.loops.length ∧ s.started = true
  | .startLoop i => i ≤ s.loops.length ∧ s.started = true ∧ 0 < s.numThreads
  | _ => s.started = true → s.numThreads ≤ s.loops.length

/-- The threads are started, listed and destroyed in order. -/
structure PoolShape (s : ThreadPool τ) : Prop where
  ends : ∀ t ∈ s.threads, ThreadEnd t
  fresh : s.started = false → s.threads = [] ∧ s.next = 0
  positive : s.threads = [] ∨ 0 < s.numThreads
  lengths : s.threads.length = s.loops.length + s.owner.inStartLoop.toNat
  round : PoolRound s
  next : s.next = 0 ∨ (s.next : Int) < s.numThreads
  valid : s.indexesValid = true
  returned : ∀ i t, i < s.loops.length → s.threads[i]? = some t →
    ∃ b, t.thread.start = .returned b ∧ s.loops[i]? = some (if b then some i else none)
  order : ∀ i t, s.threads[i]? = some t →
    (i < destroyedThreads s.threads.length s.owner → t.destructor = .destroyed) ∧
      (destroyedThreads s.threads.length s.owner ≤ i → s.owner ≠ .destroying i → t.destructor = .notCalled)

lemma poolShape_make : PoolShape (ThreadPool.make : ThreadPool τ) where
  ends := fun _ ht => absurd ht List.not_mem_nil
  fresh := fun _ => ⟨rfl, rfl⟩
  positive := .inl rfl
  lengths := rfl
  round := fun h => by cases h
  next := .inl rfl
  valid := rfl
  returned := fun _ _ hi => absurd hi (Nat.not_lt_zero _)
  order := fun _ _ ht => by cases ht

section PoolShape

variable {s s' : ThreadPool τ} {a : PoolStep τ}

lemma getNextLoop_threads (s : ThreadPool τ) : s.getNextLoop.threads = s.threads := by
  unfold ThreadPool.getNextLoop
  split <;> rfl

lemma getNextLoop_owner (s : ThreadPool τ) : s.getNextLoop.owner = s.owner := by
  unfold ThreadPool.getNextLoop
  split <;> rfl

lemma getNextLoop_loops (s : ThreadPool τ) : s.getNextLoop.loops = s.loops := by
  unfold ThreadPool.getNextLoop
  split <;> rfl

lemma getNextLoop_numThreads (s : ThreadPool τ) : s.getNextLoop.numThreads = s.numThreads := by
  unfold ThreadPool.getNextLoop
  split <;> rfl

lemma getNextLoop_started (s : ThreadPool τ) : s.getNextLoop.started = s.started := by
  unfold ThreadPool.getNextLoop
  split <;> rfl

/-- The loops of the threads are listed in order. -/
lemma PoolShape.returned_step (h : PoolShape s) (htrans : PoolTrans s a s') (i : Nat) (t : ThreadLife τ)
    (hi : i < s'.loops.length) (ht : s'.threads[i]? = some t) :
    ∃ b, t.thread.start = .returned b ∧ s'.loops[i]? = some (if b then some i else none) := by
  cases htrans with
  | emplaceThread hpc hround =>
    have hold : i < s.threads.length := by
      rw [h.lengths]
      exact Nat.lt_add_right _ hi
    rw [List.getElem?_append_left hold] at ht
    exact h.returned i t hi ht
  | emplaceLoop hpc hlast hstart =>
    rename_i k last nonNull
    have hlen : s.threads.length = s.loops.length + 1 := by
      rw [h.lengths, hpc]
      rfl
    by_cases hold : i < s.loops.length
    · rw [List.getElem?_append_left hold]
      exact h.returned i t hold ht
    · rw [List.length_append, List.length_singleton] at hi
      have hi' : i = s.loops.length := by omega
      rw [List.getLast?_eq_getElem?, hlen, Nat.add_sub_cancel, ← hi', ht, Option.some.injEq] at hlast
      refine ⟨nonNull, hlast ▸ hstart, ?_⟩
      rw [hi', List.getElem?_concat_length, hlen, Nat.add_sub_cancel]
  | getNextLoop hpc =>
    rw [getNextLoop_loops] at hi ⊢
    rw [getNextLoop_threads] at ht
    exact h.returned i t hi ht
  | thread hget hallow hnext =>
    rename_i k b t₀ t₁
    by_cases hik : k = i
    · have hlt : k < s.threads.length := (List.getElem?_eq_some_iff.mp hget).1
      rw [← hik, List.getElem?_set_self hlt, Option.some.injEq] at ht
      obtain ⟨nonNull, hstart, hloop⟩ := h.returned k t₀ (hik ▸ hi) hget
      exact ⟨nonNull, ht ▸ life_returned hstart hnext, hik ▸ hloop⟩
    · rw [List.getElem?_set_ne hik] at ht
      exact h.returned i t hi ht
  | _ => exact h.returned i t hi ht

/-- The destructor of the pool goes from thread to thread. -/
lemma PoolShape.order_step (h : PoolShape s) (htrans : PoolTrans s a s') (i : Nat) (t : ThreadLife τ)
    (ht : s'.threads[i]? = some t) :
    (i < destroyedThreads s'.threads.length s'.owner → t.destructor = .destroyed) ∧
      (destroyedThreads s'.threads.length s'.owner ≤ i → s'.owner ≠ .destroying i → t.destructor = .notCalled) := by
  cases htrans with
  | emplaceThread hpc hround =>
    refine ⟨fun hlt => absurd hlt (Nat.not_lt_zero i), fun _ _ => ?_⟩
    rcases List.mem_append.mp (List.mem_of_getElem? ht) with hmem | hmem
    · obtain ⟨j, hj⟩ := List.getElem?_of_mem hmem
      have hold := (h.order j t hj).2
      rw [hpc] at hold
      exact hold (Nat.zero_le j) (by simp)
    · rw [List.mem_singleton.mp hmem]
      rfl
  | thread hget hallow hnext =>
    rename_i k b t₀ t₁
    by_cases hik : k = i
    · have hlt : k < s.threads.length := (List.getElem?_eq_some_iff.mp hget).1
      rw [← hik, List.getElem?_set_self hlt, Option.some.injEq] at ht
      rw [← ht, List.length_set, ← hik]
      have hold := h.order k t₀ hget
      cases b with
      | thread b =>
        rw [life_destructor hnext]
        exact hold
      | _ =>
        have hpc : s.owner = .destroying k := hallow
        rw [hpc]
        exact ⟨fun hlt => absurd hlt (Nat.lt_irrefl k), fun _ hne => absurd rfl hne⟩
    · rw [List.getElem?_set_ne hik] at ht
      rw [List.length_set]
      exact h.order i t ht
  | getNextLoop hpc =>
    rw [getNextLoop_threads] at ht ⊢
    rw [getNextLoop_owner]
    exact h.order i t ht
  | setNumThreads n hpc hstarted => exact h.order i t ht
  | start callBack hpc | emplaceLoop hpc hlast hstart | startReturns hpc hround | destroy hpc =>
    have hold := h.order i t ht
    rw [hpc] at hold
    exact ⟨fun hlt => absurd hlt (Nat.not_lt_zero i), fun hle _ => hold.2 (Nat.zero_le i) (by simp)⟩
  | destroyNext hpc hget hend =>
    rename_i k t₀
    have hold := h.order i t ht
    rw [hpc] at hold
    refine ⟨fun hlt => ?_, fun hle hne => ?_⟩
    · rcases Nat.lt_succ_iff_lt_or_eq.mp hlt with hlt | rfl
      · exact hold.1 hlt
      · rw [hget, Option.some.injEq] at ht
        exact ht ▸ hend
    · have hki : k + 1 ≤ i := hle
      exact hold.2 (by change k ≤ i; omega) (by rintro ⟨⟩; omega)
  | destroyed hpc hget =>
    rename_i k
    have hlen : s.threads.length ≤ k := List.getElem?_eq_none_iff.mp hget
    have hi : i < s.threads.length := (List.getElem?_eq_some_iff.mp ht).1
    have hold := h.order i t ht
    rw [hpc] at hold
    exact ⟨fun _ => hold.1 (by change i < k; omega), fun hle _ => absurd hi (Nat.not_lt.mpr hle)⟩

lemma PoolShape.started (h : PoolShape s) (hloops : s.loops ≠ []) : s.started = true := by
  rw [← Bool.not_eq_false]
  intro hfresh
  have hlen := h.lengths
  rw [(h.fresh hfresh).1, List.length_nil] at hlen
  exact hloops (List.length_eq_zero_iff.mp (by omega))

lemma PoolShape.pos (h : PoolShape s) (hloops : s.loops ≠ []) : 0 < s.numThreads := by
  refine h.positive.resolve_left fun hnil => ?_
  have hlen := h.lengths
  rw [hnil, List.length_nil] at hlen
  exact hloops (List.length_eq_zero_iff.mp (by omega))

/-- `getNextLoop` reads inside of `loops_`. -/
lemma PoolShape.next_lt (h : PoolShape s) (hpc : s.owner = .idle) (hloops : s.loops ≠ []) :
    s.next < s.loops.length := by
  have hpos : 0 < s.loops.length := List.length_pos_iff.mpr hloops
  have hround := h.round
  unfold PoolRound at hround
  rw [hpc] at hround
  have hfilled := hround (h.started hloops)
  rcases h.next with hnext | hnext
  · omega
  · omega

lemma PoolShape.getNextLoop (h : PoolShape s) (hpc : s.owner = .idle) :
    (s.getNextLoop.next = 0 ∨ (s.getNextLoop.next : Int) < s.numThreads) ∧ s.getNextLoop.indexesValid = true ∧
      (s.started = false → s.getNextLoop.next = 0) := by
  unfold ThreadPool.getNextLoop
  split
  · exact ⟨h.next, h.valid, fun hfresh => (h.fresh hfresh).2⟩
  · next hloops =>
    have hpos := h.pos hloops
    have hlow := Int.emod_nonneg (s.next + 1 : Int) hpos.ne'
    have hhigh := Int.emod_lt_of_pos (s.next + 1 : Int) hpos
    have hindex := h.next_lt hpc hloops
    refine ⟨.inr ?_, ?_, fun hfresh => ?_⟩
    · rw [Int.toNat_of_nonneg hlow]
      exact hhigh
    · rw [h.valid, Bool.true_and, decide_eq_true hindex]
    · rw [h.started hloops] at hfresh
      cases hfresh

theorem poolShape_step (h : PoolShape s) (htrans : PoolTrans s a s') : PoolShape s' := by
  have hends := forall_threads_step threadEnd_make (fun _ _ _ _ _ ht hnext => ht.step hnext) h.ends htrans
  have hreturned := h.returned_step htrans
  have horder := h.order_step htrans
  have hround := h.round
  unfold PoolRound at hround
  cases htrans with
  | setNumThreads n hpc hstarted =>
    obtain ⟨hthreads, hnext⟩ := h.fresh hstarted
    refine ⟨hends, fun _ => ⟨hthreads, hnext⟩, .inl hthreads, h.lengths, ?_, .inl hnext, h.valid, hreturned, horder⟩
    unfold PoolRound
    rw [hpc]
    exact fun hset => absurd (hstarted.symm.trans hset) (by simp)
  | start callBack hpc =>
    have hlen := h.lengths
    rw [hpc] at hlen
    exact ⟨hends, by simp, h.positive, hlen, ⟨Nat.zero_le _, rfl⟩, h.next, h.valid,
      hreturned, horder⟩
  | emplaceThread hpc hi =>
    have hlen := h.lengths
    rw [hpc] at hlen hround
    have hpos : 0 < s.numThreads := by omega
    refine ⟨hends, fun hfresh => ?_, .inr hpos, ?_, ⟨hround.1, hround.2, hpos⟩, h.next, h.valid, hreturned, horder⟩
    · exact absurd (hround.2.symm.trans hfresh) (by simp)
    · rw [List.length_append, hlen]
      rfl
  | emplaceLoop hpc hlast hstart =>
    have hlen := h.lengths
    rw [hpc] at hlen hround
    refine ⟨hends, h.fresh, h.positive, ?_, ⟨?_, hround.2.1⟩, h.next, h.valid, hreturned, horder⟩
    · rw [List.length_append, hlen]
      rfl
    · rw [List.length_append]
      exact Nat.succ_le_succ hround.1
  | startReturns hpc hi =>
    have hlen := h.lengths
    rw [hpc] at hlen hround
    refine ⟨hends, h.fresh, h.positive, hlen, fun _ => ?_, h.next, h.valid, hreturned, horder⟩
    have hle := hround.1
    change s.numThreads ≤ s.loops.length
    omega
  | getNextLoop hpc =>
    obtain ⟨hnext, hvalid, hfresh⟩ := h.getNextLoop hpc
    refine ⟨hends, ?_, ?_, ?_, ?_, ?_, hvalid, hreturned, horder⟩
    · rw [getNextLoop_started, getNextLoop_threads]
      exact fun hs => ⟨(h.fresh hs).1, hfresh hs⟩
    · rw [getNextLoop_threads, getNextLoop_numThreads]
      exact h.positive
    · rw [getNextLoop_threads, getNextLoop_loops, getNextLoop_owner]
      exact h.lengths
    · unfold PoolRound
      rw [getNextLoop_owner, getNextLoop_loops, getNextLoop_started, getNextLoop_numThreads]
      exact hround
    · rw [getNextLoop_numThreads]
      exact hnext
  | thread hget hallow hnext =>
    refine ⟨hends, fun hs => ?_, ?_, ?_, hround, h.next, h.valid, hreturned, horder⟩
    · rw [(h.fresh hs).1] at hget
      cases hget
    · rw [List.set_eq_nil_iff]
      exact h.positive
    · rw [List.length_set]
      exact h.lengths
  | destroy hpc =>
    have hlen := h.lengths
    rw [hpc] at hlen hround
    exact ⟨hends, h.fresh, h.positive, hlen, hround, h.next, h.valid, hreturned, horder⟩
  | destroyNext hpc hget hend =>
    have hlen := h.lengths
    rw [hpc] at hlen hround
    exact ⟨hends, h.fresh, h.positive, hlen, hround, h.next, h.valid, hreturned, horder⟩
  | destroyed hpc hget =>
    have hlen := h.lengths
    rw [hpc] at hlen hround
    exact ⟨hends, h.fresh, h.positive, hlen, hround, h.next, h.valid, hreturned, horder⟩

/-- After the destructor of the pool all threads have been joined. -/
lemma PoolShape.ended (h : PoolShape s) (hend : s.owner = .destroyed) :
    ∀ t ∈ s.threads, t.destructor = .destroyed ∧ t.thread.thread = .finished := by
  intro t hmem
  obtain ⟨i, ht⟩ := List.getElem?_of_mem hmem
  have hi : i < s.threads.length := (List.getElem?_eq_some_iff.mp ht).1
  have hdestroyed := (h.order i t ht).1
  have hlen : s.threads.length = s.loops.length := by
    rw [h.lengths, hend]
    rfl
  rw [hend] at hdestroyed
  obtain ⟨b, hstart, -⟩ := h.returned i t (hlen ▸ hi) ht
  have hthread := h.ends t hmem
  refine ⟨hdestroyed hi, (hthread.joined (hdestroyed hi)).resolve_right (hthread.started ?_)⟩
  simp [hstart]

lemma poolShape_run {steps : List (PoolStep τ)} (hrun : (poolMachine τ).run ThreadPool.make steps = some s) :
    PoolShape s :=
  (poolMachine τ).invariant (fun _ _ _ hs hnext => poolShape_step hs (pool_trans hnext)) poolShape_make hrun

end PoolShape

/-! ### Nobody else calls `quit` -/

/-- Nobody but the destructors of the pool's threads calls `quit` on their loops. -/
def onlyPoolQuits (_ : ThreadPool τ) : PoolStep τ → Prop
  | .thread _ (.thread b) => callsQuit b = false
  | _ => True

instance (s : ThreadPool τ) (a : PoolStep τ) : Decidable (onlyPoolQuits s a) := by
  unfold onlyPoolQuits
  split
  · infer_instance
  · infer_instance

/-- `startLoop` does not return null for the thread. -/
structure ThreadLives (t : ThreadLife τ) : Prop where
  life : LifeInv t
  notNull : t.thread.start ≠ .returned false

lemma threadLives_make (callBack : Bool) : ThreadLives (ThreadLife.make callBack : ThreadLife τ) :=
  ⟨lifeInv_make callBack, by simp [ThreadLife.make, EventLoopThread.make]⟩

lemma returned_false {s s' : EventLoopThread τ} {a : HandoffStep τ} (htrans : HandoffTrans s a s')
    (hnull : s'.start = .returned false) :
    s.start = .returned false ∨ a = .returnLoop ∧ s.start = .passed ∧ s.published = false := by
  cases htrans with
  | startThread h | startReturns h | testPass h | testWait h | spuriousWake h => cases hnull
  | returnLoop hstart => exact .inr ⟨rfl, hstart, StartLoopPc.returned.inj hnull⟩
  | publish hthread =>
    change s.start.notifyOne = _ at hnull
    left
    cases hstart : s.start with
    | returned b =>
      rw [hstart] at hnull
      exact hnull
    | _ =>
      rw [hstart] at hnull
      cases hnull
  | _ => exact .inl hnull

lemma ThreadLives.step {t t' : ThreadLife τ} {a : LifeStep τ} (h : ThreadLives t) (hok : onlyDestructorQuits t a)
    (hnext : (lifeMachine τ).next t a = some t') : ThreadLives t' := by
  have htrans := life_trans hnext
  refine ⟨lifeInv_step h.life hok htrans, fun hnull => ?_⟩
  cases htrans with
  | thread hexit howner hthread =>
    rcases returned_false (handoff_trans hthread) hnull with hold | ⟨rfl, hpassed, hloop⟩
    · exact h.notNull hold
    · have hbefore : beforeStore t.destructor = true := by
        rw [howner rfl]
        rfl
      have hpublished := (h.life.ahead hbefore).passed (.inl hpassed)
      rw [hloop] at hpublished
      cases hpublished
  | _ => exact h.notNull hnull

/-- The loop of a thread that has been handed out runs until the thread is destroyed. -/
lemma ThreadLives.alive {t : ThreadLife τ} (h : ThreadLives t) (hpc : t.destructor = .notCalled) {b : Bool}
    (hstart : t.thread.start = .returned b) :
    t.thread.alive = true ∧ t.thread.published = true ∧ t.thread.loop.loop.quit = false := by
  have hbefore : beforeStore t.destructor = true := by
    rw [hpc]
    rfl
  have hahead := h.life.ahead hbefore
  have hpublished := hahead.passed (.inr (by rw [hstart]; rfl))
  refine ⟨?_, hpublished, hahead.thread.runs.quit⟩
  unfold EventLoopThread.alive
  rcases hahead.thread.published.mp hpublished with hthread | hthread
  · simp [hthread]
  · simp [hthread]

/-- The loops that are not the base loop have been handed out in turn. -/
def Rotates (s : ThreadPool τ) : Prop :=
  ∃ k, s.given.filter (· ≠ .base) = (List.range k).map (fun c => .sub (some (c % s.numThreads.toNat))) ∧
    s.next = k % s.numThreads.toNat ∧ (s.threads = [] → k = 0)

structure PoolLives (s : ThreadPool τ) : Prop where
  shape : PoolShape s
  lives : ∀ t ∈ s.threads, ThreadLives t
  rotates : Rotates s

section PoolLives

variable {s s' : ThreadPool τ} {a : PoolStep τ}

lemma PoolLives.loops_getElem (h : PoolLives s) {i : Nat} (hi : i < s.loops.length) : s.loops[i]? = some (some i) := by
  have hthread : i < s.threads.length := by
    rw [h.shape.lengths]
    exact Nat.lt_add_right _ hi
  have hget := List.getElem?_eq_getElem hthread
  obtain ⟨b, hstart, hloop⟩ := h.shape.returned i _ hi hget
  cases b with
  | true => exact hloop
  | false => exact absurd hstart (h.lives _ (List.mem_of_getElem? hget)).notNull

lemma PoolLives.loops_eq (h : PoolLives s) : s.loops = (List.range s.loops.length).map some := by
  refine List.ext_getElem? fun i => ?_
  by_cases hi : i < s.loops.length
  · rw [h.loops_getElem hi, List.getElem?_map, List.getElem?_range hi]
    rfl
  · rw [List.getElem?_eq_none (Nat.le_of_not_lt hi), List.getElem?_eq_none]
    rw [List.length_map, List.length_range]
    exact Nat.le_of_not_lt hi

lemma Rotates.congr (h : Rotates s) (hgiven : s'.given = s.given) (hnext : s'.next = s.next)
    (hnum : s'.numThreads = s.numThreads) (hthreads : s'.threads = [] → s.threads = []) : Rotates s' := by
  obtain ⟨k, hsubs, hk, hnil⟩ := h
  refine ⟨k, ?_, ?_, fun hs => hnil (hthreads hs)⟩
  · rw [hgiven, hnum]
    exact hsubs
  · rw [hnext, hnum]
    exact hk

lemma PoolLives.rotates_getNextLoop (h : PoolLives s) (hpc : s.owner = .idle) : Rotates s.getNextLoop := by
  obtain ⟨k, hsubs, hk, hnil⟩ := h.rotates
  unfold ThreadPool.getNextLoop
  split
  · refine ⟨k, ?_, hk, hnil⟩
    rw [List.filter_append, hsubs]
    exact List.append_nil _
  · next hloops =>
    have hpos := h.shape.pos hloops
    have hindex := h.shape.next_lt hpc hloops
    refine ⟨k + 1, ?_, ?_, fun hthreads => ?_⟩
    · rw [h.loops_getElem hindex, List.filter_append, hsubs, List.range_succ, List.map_append, hk]
      rfl
    · change ((s.next + 1 : Int) % s.numThreads).toNat = (k + 1) % s.numThreads.toNat
      have hnum : s.numThreads = (s.numThreads.toNat : Int) := (Int.toNat_of_nonneg hpos.le).symm
      rw [hk, hnum, Int.toNat_natCast]
      change (((k % s.numThreads.toNat + 1) % s.numThreads.toNat : Nat) : Int).toNat = _
      rw [Int.toNat_natCast, Nat.mod_add_mod]
    · have hlen := h.shape.lengths
      change s.threads = [] at hthreads
      rw [hthreads, List.length_nil] at hlen
      exact absurd (List.length_eq_zero_iff.mp (by omega)) hloops

lemma PoolLives.rotates_step (h : PoolLives s) (htrans : PoolTrans s a s') : Rotates s' := by
  cases htrans with
  | setNumThreads n hpc hstarted =>
    obtain ⟨k, hsubs, hk, hnil⟩ := h.rotates
    obtain ⟨hthreads, hnext⟩ := h.shape.fresh hstarted
    refine ⟨0, ?_, ?_, fun _ => rfl⟩
    · rw [hnil hthreads] at hsubs
      exact hsubs
    · rw [Nat.zero_mod]
      exact hnext
  | emplaceThread hpc hi => exact h.rotates.congr rfl rfl rfl (by simp)
  | getNextLoop hpc => exact h.rotates_getNextLoop hpc
  | thread hget hallow hnext => exact h.rotates.congr rfl rfl rfl (by simp)
  | _ => exact h.rotates.congr rfl rfl rfl id

theorem poolLives_step (h : PoolLives s) (hok : onlyPoolQuits s a) (htrans : PoolTrans s a s') : PoolLives s' := by
  refine ⟨poolShape_step h.shape htrans, ?_, h.rotates_step htrans⟩
  refine forall_threads_step threadLives_make (fun i b t t' ha ht hnext => ht.step ?_ hnext) h.lives htrans
  rw [ha] at hok
  cases b with
  | thread b => exact hok
  | _ => trivial

lemma poolLives_make : PoolLives (ThreadPool.make : ThreadPool τ) :=
  ⟨poolShape_make, fun _ ht => absurd ht List.not_mem_nil, 0, rfl, rfl, fun _ => rfl⟩

/-- A loop in the table runs until the destructor comes to its thread. -/
lemma PoolLives.running (h : PoolLives s) {i : Nat} {t : ThreadLife τ} (hi : i < s.loops.length)
    (ht : s.threads[i]? = some t) (hbefore : ∀ k, s.owner = .destroying k → k < i) (hnot : s.owner ≠ .destroyed) :
    t.thread.alive = true ∧ t.thread.published = true ∧ t.thread.loop.loop.quit = false := by
  obtain ⟨b, hstart, -⟩ := h.shape.returned i t hi ht
  refine (h.lives t (List.mem_of_getElem? ht)).alive ((h.shape.order i t ht).2 ?_ ?_) hstart
  · cases hpc : s.owner with
    | destroying j => exact Nat.le_of_lt (hbefore j hpc)
    | destroyed => exact absurd hpc hnot
    | _ => exact Nat.zero_le i
  · exact fun hpc => absurd (hbefore i hpc) (Nat.lt_irrefl i)

end PoolLives

/-- If nobody but the pool quits its loops, `loops_` lists the loops of its threads in order, with as
many as there are to be once `start` has returned. `getNextLoop` reads inside of it and goes round,
and every loop in it runs until the destructor of the pool comes to its thread. -/
theorem pool_hands_out_running_loops (τ : Type) (steps : List (PoolStep τ)) (s : ThreadPool τ)
    (hrun : (poolMachine τ).run ThreadPool.make steps = some s)
    (hquit : (poolMachine τ).Meets onlyPoolQuits ThreadPool.make steps) :
    s.loops = (List.range s.loops.length).map some ∧
      (s.owner = .idle → s.started = true → s.numThreads ≤ s.loops.length) ∧
      s.indexesValid = true ∧
      (∃ k, s.given.filter (· ≠ .base) = (List.range k).map fun c => .sub (some (c % s.numThreads.toNat))) ∧
      ∀ i t, i < s.loops.length → s.threads[i]? = some t → (∀ k, s.owner = .destroying k → k < i) →
        s.owner ≠ .destroyed →
        t.thread.alive = true ∧ t.thread.published = true ∧ t.thread.loop.loop.quit = false := by
  have h : PoolLives s := (poolMachine τ).invariant_of_meets
    (fun s a s' hs hok hnext => poolLives_step hs hok (pool_trans hnext)) poolLives_make hquit hrun
  obtain ⟨k, hsubs, -, -⟩ := h.rotates
  refine ⟨h.loops_eq, fun hpc hstarted => ?_, h.shape.valid, ⟨k, hsubs⟩, fun i t hi ht hbefore hnot => ?_⟩
  · have hround := h.shape.round
    unfold PoolRound at hround
    rw [hpc] at hround
    exact hround hstarted
  · exact h.running hi ht hbefore hnot

/-- A round of `start`: the thread `i` publishes its loop, and `startLoop` returns it. -/
def startRound (i : Nat) : List (PoolStep Nat) :=
  .emplaceThread :: (startedLoop.map fun a => .thread i a) ++ [.emplaceLoop]

/-- A pool of two threads that hands out three loops. -/
def threeLoops : List (PoolStep Nat) :=
  [.setNumThreads 2, .start false] ++ startRound 0 ++ startRound 1 ++
    [.startReturns, .getNextLoop, .getNextLoop, .getNextLoop]

theorem pool_hands_out_running_loops_three :
    ∃ s t, (poolMachine Nat).run ThreadPool.make threeLoops = some s ∧ s.loops = [some 0, some 1] ∧
      s.given = [.sub (some 0), .sub (some 1), .sub (some 0)] ∧ s.threads[1]? = some t ∧ t.thread.alive = true := by
  have hend : ((poolMachine Nat).run ThreadPool.make threeLoops).bind (fun s =>
      (s.threads[1]?).map fun _ => (s.loops, s.given, s.owner)) =
      some ([some 0, some 1], [.sub (some 0), .sub (some 1), .sub (some 0)], .idle) := by
    decide +kernel
  obtain ⟨s, hrun, hend⟩ := Option.bind_eq_some_iff.mp hend
  obtain ⟨t, ht, hend⟩ := Option.map_eq_some_iff.mp hend
  simp only [Prod.mk.injEq] at hend
  obtain ⟨hloops, hgiven, hpc⟩ := hend
  have hlives := (pool_hands_out_running_loops Nat threeLoops s hrun (by decide +kernel)).2.2.2.2 1 t
    (by rw [hloops]; decide) ht (by simp [hpc]) (by simp [hpc])
  exact ⟨s, t, hrun, hloops, hgiven, ht, hlives.1⟩

/-- When the destructor of the pool has returned, all its threads have ended and nothing of the pool
runs any more, whoever has called `quit` on its loops. -/
theorem pool_destructor_joins (τ : Type) (steps : List (PoolStep τ)) (s : ThreadPool τ)
    (hrun : (poolMachine τ).run ThreadPool.make steps = some s) (hend : s.owner = .destroyed) :
    (∀ t ∈ s.threads, t.destructor = .destroyed ∧ t.thread.thread = .finished) ∧
      ∀ a, (poolMachine τ).next s a = none := by
  have h := poolShape_run hrun
  have hended := h.ended hend
  refine ⟨hended, fun a => Option.eq_none_iff_forall_ne_some.mpr fun s' hnext => ?_⟩
  cases pool_trans hnext with
  | thread hget hallow hlife =>
    obtain ⟨hdestroyed, hfinished⟩ := hended _ (List.mem_of_getElem? hget)
    exact life_next_of_ended hdestroyed hfinished hlife
  | setNumThreads n hpc | start callBack hpc | getNextLoop hpc | destroy hpc | emplaceThread hpc
  | emplaceLoop hpc | startReturns hpc | destroyNext hpc | destroyed hpc =>
    rw [hend] at hpc
    cases hpc

/-- The destructor of the thread `i`, which ends its loop. -/
def destroyRound (i : Nat) : List (PoolStep Nat) :=
  ([.storeExiting, .testLoop, .storeQuit] ++ untilFinished ++ [.join] : List (LifeStep Nat)).map
    (fun a => .thread i a) ++ [.destroyNext]

/-- The pool of two threads is destroyed, and each thread ends its loop. -/
def destroyTwo : List (PoolStep Nat) :=
  [.destroy] ++ destroyRound 0 ++ destroyRound 1 ++ [.destroyNext]

theorem pool_destructor_joins_two :
    ∃ s, (poolMachine Nat).run ThreadPool.make (threeLoops ++ destroyTwo) = some s ∧ s.threads.length = 2 ∧
      ∀ t ∈ s.threads, t.destructor = .destroyed ∧ t.thread.thread = .finished := by
  have hend : ((poolMachine Nat).run ThreadPool.make (threeLoops ++ destroyTwo)).map (fun s =>
      (s.owner, s.threads.length)) = some (.destroyed, 2) := by
    decide +kernel
  obtain ⟨s, hrun, hend⟩ := Option.map_eq_some_iff.mp hend
  simp only [Prod.mk.injEq] at hend
  exact ⟨s, hrun, hend.2, (pool_destructor_joins Nat _ s hrun hend.1).1⟩

end MylibMuduo.Proofs
