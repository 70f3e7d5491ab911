import MylibMuduo.ServerStart
import MylibMuduo.Proofs.ThreadPool

/-!
# No connection before all loops run

Of all calls of `TcpServer::start` one goes on to start the pool. What it has still to do is handed on
from the caller to the base loop, so the base loop accepts no connection before the pool is complete,
and `getNextLoop` never runs beside `EventLoopThreadPool::start`.
-/

namespace MylibMuduo

namespace StartStep

variable {τ : Type}

/-- The step is a `fetch_add` of `started_`. -/
def isStart : StartStep τ → Bool
  | .start _ => true
  | _ => false

/-- The steps of the pool in a step of the server. -/
def poolSteps : StartStep τ → List (PoolStep τ)
  | .storeNumThreads _ n => [.setNumThreads n]
  | .startPool _ callBack => [.start callBack]
  | .pool a => [a]
  | .startReturns _ => [.startReturns]
  | .accept => [.getNextLoop]
  | _ => []

end StartStep

namespace Proofs

variable {τ : Type}

/-! ### Steps -/

/-- All that a step can do. -/
inductive StartTrans (s : ServerStart τ) : StartStep τ → ServerStart τ → Prop
  | setThreadNum {p : Nat} (n : Int) (hpc : s.callers p = .idle) :
      StartTrans s (.setThreadNum p n) (s.setCaller p (.setThreadNum n))
  | setNumThreads {p : Nat} {n : Int} (hpc : s.callers p = .setThreadNum n) (hstarted : s.pool.started = false) :
      StartTrans s (.setNumThreads p n) (s.setCaller p (.setNumThreads n))
  | storeNumThreads {p : Nat} {n : Int} (hpc : s.callers p = .setNumThreads n) :
      StartTrans s (.storeNumThreads p n)
        (ServerStart.setCaller { s with pool := s.pool.storeNumThreads n } p .idle)
  | first {p : Nat} (hpc : s.callers p = .idle) (hzero : s.started = 0) :
      StartTrans s (.start p) { s with
        started := Int.bmod (s.started + 1) (2 ^ 32)
        callers := Function.update s.callers p .startPool
        poolStarts := s.poolStarts + 1 }
  | again {p : Nat} (hpc : s.callers p = .idle) (hzero : s.started ≠ 0) :
      StartTrans s (.start p) { s with started := Int.bmod (s.started + 1) (2 ^ 32) }
  | startPool {p : Nat} {callBack : Bool} {pool : ThreadPool τ} (hpc : s.callers p = .startPool)
      (hpool : (poolMachine τ).next s.pool (.start callBack) = some pool) :
      StartTrans s (.startPool p callBack) (ServerStart.setCaller { s with pool := pool } p .inPool)
  | pool {a : PoolStep τ} {pool : ThreadPool τ} (hinner : a.isInner = true)
      (hpool : (poolMachine τ).next s.pool a = some pool) : StartTrans s (.pool a) { s with pool := pool }
  | startReturns {p : Nat} {pool : ThreadPool τ} (hpc : s.callers p = .inPool)
      (hpool : (poolMachine τ).next s.pool .startReturns = some pool) :
      StartTrans s (.startReturns p) (ServerStart.setCaller { s with pool := pool } p .listen)
  | listenNow {p : Nat} (hpc : s.callers p = .listen) (hbase : p = 0) :
      StartTrans s (.runInLoop p)
        { s with callers := Function.update s.callers p .idle, listens := s.listens + 1 }
  | listenLater {p : Nat} (hpc : s.callers p = .listen) (hbase : p ≠ 0) :
      StartTrans s (.runInLoop p)
        { s with callers := Function.update s.callers p .idle, listenTasks := s.listenTasks + 1 }
  | listen (hpc : s.callers 0 = .idle) (htasks : 0 < s.listenTasks) :
      StartTrans s .listen { s with listenTasks := s.listenTasks - 1, listens := s.listens + 1 }
  | accept (hpc : s.callers 0 = .idle) (hlistens : 0 < s.listens) :
      StartTrans s .accept { s with pool := s.pool.getNextLoop }

lemma stepPool_cases {s s' : ServerStart τ} {a : PoolStep τ} (h : s.stepPool a = some s') :
    ∃ pool, (poolMachine τ).next s.pool a = some pool ∧ s' = { s with pool := pool } := by
  obtain ⟨pool, hpool, rfl⟩ := Option.map_eq_some_iff.mp h
  exact ⟨pool, hpool, rfl⟩

theorem start_trans {s s' : ServerStart τ} {a : StartStep τ} (hnext : (startMachine τ).next s a = some s') :
    StartTrans s a s' := by
  cases a with
  | setThreadNum p n =>
    simp only [startMachine, Option.ite_none_right_eq_some, Option.some.injEq] at hnext
    exact hnext.2 ▸ .setThreadNum n hnext.1.1
  | setNumThreads p n =>
    simp only [startMachine, Option.ite_none_right_eq_some, Option.some.injEq] at hnext
    exact hnext.2 ▸ .setNumThreads hnext.1.1 hnext.1.2
  | storeNumThreads p n =>
    simp only [startMachine, Option.ite_none_right_eq_some, Option.some.injEq] at hnext
    exact hnext.2 ▸ .storeNumThreads hnext.1
  | start p =>
    simp only [startMachine, Option.ite_none_right_eq_some, Option.some.injEq] at hnext
    obtain ⟨hpc, rfl⟩ := hnext
    unfold ServerStart.fetchAdd
    by_cases hzero : s.started = 0
    · rw [if_pos hzero]
      exact .first hpc hzero
    · rw [if_neg hzero]
      exact .again hpc hzero
  | startPool p callBack =>
    simp only [startMachine, Option.ite_none_right_eq_some, Option.map_eq_some_iff] at hnext
    obtain ⟨hpc, v, hv, rfl⟩ := hnext
    obtain ⟨pool, hpool, rfl⟩ := stepPool_cases hv
    exact .startPool hpc hpool
  | pool a =>
    simp only [startMachine, Option.ite_none_right_eq_some] at hnext
    obtain ⟨pool, hpool, rfl⟩ := stepPool_cases hnext.2
    exact .pool hnext.1 hpool
  | startReturns p =>
    simp only [startMachine, Option.ite_none_right_eq_some, Option.map_eq_some_iff] at hnext
    obtain ⟨hpc, v, hv, rfl⟩ := hnext
    obtain ⟨pool, hpool, rfl⟩ := stepPool_cases hv
    exact .startReturns hpc hpool
  | runInLoop p =>
    simp only [startMachine, Option.ite_none_right_eq_some, Option.some.injEq] at hnext
    obtain ⟨hpc, rfl⟩ := hnext
    unfold ServerStart.runInLoop
    by_cases hbase : p = 0
    · rw [if_pos hbase]
      exact .listenNow hpc hbase
    · rw [if_neg hbase]
      exact .listenLater hpc hbase
  | listen =>
    simp only [startMachine, Option.ite_none_right_eq_some, Option.some.injEq] at hnext
    exact hnext.2 ▸ .listen hnext.1.1 hnext.1.2
  | accept =>
    simp only [startMachine, Option.ite_none_right_eq_some, Option.some.injEq] at hnext
    exact hnext.2 ▸ .accept hnext.1.1 hnext.1.2

/-! ### The pool while the server starts -/

/-- The pool before its `start`. -/
structure PoolUnused (s : ThreadPool τ) : Prop where
  started : s.started = false
  owner : s.owner = .idle
  loops : s.loops = []
  given : s.given = []

/-- The rounds of `start` so far have each put one loop into the table. -/
def FillingRound (s : ThreadPool τ) : Prop :=
  match s.owner with
  | .starting i => s.loops.length = i ∧ i ≤ s.numThreads.toNat
  | .startLoop i => s.loops.length = i ∧ i < s.numThreads.toNat
  | _ => False

/-- The pool inside of its `start`. -/
structure PoolFilling (s : ThreadPool τ) : Prop where
  started : s.started = true
  round : FillingRound s
  given : s.given = []

/-- The pool after its `start`. The base loop is handed out only if there are no threads. -/
structure PoolFilled (s : ThreadPool τ) : Prop where
  started : s.started = true
  owner : s.owner = .idle
  loops : s.loops.length = s.numThreads.toNat
  given : ∀ r ∈ s.given, r = .base ↔ s.numThreads ≤ 0

section Pool

variable {s s' : ThreadPool τ} {a : PoolStep τ}

lemma PoolUnused.storeNumThreads (h : PoolUnused s) (n : Int) : PoolUnused (s.storeNumThreads n) :=
  ⟨h.started, h.owner, h.loops, h.given⟩

/-- Before the start the store is a call of `setNumThreads`. -/
lemma PoolUnused.setNumThreads (h : PoolUnused s) (n : Int) :
    (poolMachine τ).next s (.setNumThreads n) = some (s.storeNumThreads n) :=
  if_pos ⟨h.owner, h.started⟩

lemma PoolUnused.start (h : PoolUnused s) {callBack : Bool}
    (hnext : (poolMachine τ).next s (.start callBack) = some s') : PoolFilling s' := by
  cases pool_trans hnext with
  | start callBack hpc =>
    refine ⟨rfl, ⟨?_, Nat.zero_le _⟩, h.given⟩
    rw [h.loops]
    rfl

lemma PoolUnused.inner (h : PoolUnused s) (ha : a.isInner = true) (hnext : (poolMachine τ).next s a = some s') :
    PoolUnused s' := by
  cases pool_trans hnext with
  | emplaceThread hpc hi =>
    rw [h.owner] at hpc
    cases hpc
  | emplaceLoop hpc hlast hstart =>
    rw [h.owner] at hpc
    cases hpc
  | thread hget hallow hthread => exact ⟨h.started, h.owner, h.loops, h.given⟩
  | _ => cases ha

lemma PoolFilling.inner (h : PoolFilling s) (ha : a.isInner = true)
    (hnext : (poolMachine τ).next s a = some s') : PoolFilling s' := by
  have hround := h.round
  unfold FillingRound at hround
  cases pool_trans hnext with
  | @emplaceThread i hpc hi =>
    rw [hpc] at hround
    have hmore : i < s.numThreads.toNat := by omega
    exact ⟨h.started, ⟨hround.1, hmore⟩, h.given⟩
  | emplaceLoop hpc hlast hstart =>
    rw [hpc] at hround
    refine ⟨h.started, ⟨?_, hround.2⟩, h.given⟩
    rw [List.length_append, hround.1]
    rfl
  | thread hget hallow hthread => exact ⟨h.started, hround, h.given⟩
  | _ => cases ha

lemma PoolFilling.startReturns (h : PoolFilling s) (hnext : (poolMachine τ).next s .startReturns = some s') :
    PoolFilled s' ∧ s'.given = [] := by
  have hround := h.round
  unfold FillingRound at hround
  cases pool_trans hnext with
  | startReturns hpc hi =>
    rw [hpc] at hround
    refine ⟨⟨h.started, rfl, ?_, ?_⟩, h.given⟩
    · change s.loops.length = s.numThreads.toNat
      omega
    · rw [h.given]
      exact fun r hr => absurd hr List.not_mem_nil

lemma PoolFilled.inner (h : PoolFilled s) (ha : a.isInner = true) (hnext : (poolMachine τ).next s a = some s') :
    PoolFilled s' ∧ s'.given = s.given := by
  cases pool_trans hnext with
  | emplaceThread hpc hi =>
    rw [h.owner] at hpc
    cases hpc
  | emplaceLoop hpc hlast hstart =>
    rw [h.owner] at hpc
    cases hpc
  | thread hget hallow hthread => exact ⟨⟨h.started, h.owner, h.loops, h.given⟩, rfl⟩
  | _ => cases ha

lemma PoolFilled.getNextLoop (h : PoolFilled s) : PoolFilled s.getNextLoop := by
  have hlength := h.loops
  have hempty : s.loops = [] ↔ s.numThreads ≤ 0 := by
    rw [← List.length_eq_zero_iff]
    omega
  refine ⟨?_, ?_, ?_, ?_⟩
  · rw [getNextLoop_started]
    exact h.started
  · rw [getNextLoop_owner]
    exact h.owner
  · rw [getNextLoop_loops, getNextLoop_numThreads]
    exact h.loops
  · rw [getNextLoop_numThreads]
    unfold ThreadPool.getNextLoop
    intro r hr
    split at hr
    · next hloops =>
      rcases List.mem_append.mp hr with hold | hnew
      · exact h.given r hold
      · exact iff_of_true (List.mem_singleton.mp hnew) (hempty.mp hloops)
    · next hloops =>
      rcases List.mem_append.mp hr with hold | hnew
      · exact h.given r hold
      · rw [List.mem_singleton.mp hnew]
        exact iff_of_false (by simp) (fun hle => hloops (hempty.mpr hle))

end Pool

/-! ### Stages -/

/-- The caller has the pool to start or the base loop to set listening. -/
def working : StartPc → Bool
  | .idle => false
  | .setThreadNum _ => false
  | .setNumThreads _ => false
  | _ => true

/-- The pool at each point of the call of `start` that was the first. -/
def CallerPool (s : ThreadPool τ) : StartPc → Prop
  | .startPool => PoolUnused s
  | .inPool => PoolFilling s
  | .listen => PoolFilled s ∧ s.given = []
  | _ => False

/-- What `start` has to do lies with one caller, then with a task of the base loop, and then it is
done. `counts` are the calls that went on to `pool_->start`, the tasks and the calls of `listen`. -/
inductive StartStage (s : ServerStart τ) : Prop where
  | unused (pool : PoolUnused s.pool) (free : ∀ q, working (s.callers q) = false)
      (counts : (s.poolStarts, s.listenTasks, s.listens) = (0, 0, 0))
  | caller {p : Nat} (pool : CallerPool s.pool (s.callers p))
      (free : ∀ q, q ≠ p → working (s.callers q) = false)
      (counts : (s.poolStarts, s.listenTasks, s.listens) = (1, 0, 0))
  | queued (pool : PoolFilled s.pool) (given : s.pool.given = []) (free : ∀ q, working (s.callers q) = false)
      (counts : (s.poolStarts, s.listenTasks, s.listens) = (1, 1, 0))
  | listening (pool : PoolFilled s.pool) (free : ∀ q, working (s.callers q) = false)
      (counts : (s.poolStarts, s.listenTasks, s.listens) = (1, 0, 1))

section Stage

variable {s s' : ServerStart τ} {a : StartStep τ}

lemma callerPool_cases {s : ThreadPool τ} {pc : StartPc} (h : CallerPool s pc) :
    pc = .startPool ∧ PoolUnused s ∨ pc = .inPool ∧ PoolFilling s ∨ pc = .listen ∧ PoolFilled s ∧ s.given = [] := by
  cases pc with
  | idle => exact h.elim
  | setThreadNum n => exact h.elim
  | setNumThreads n => exact h.elim
  | startPool => exact .inl ⟨rfl, h⟩
  | inPool => exact .inr (.inl ⟨rfl, h⟩)
  | listen => exact .inr (.inr ⟨rfl, h⟩)

/-- A caller that works has what there is to do. -/
lemma StartStage.of_working (h : StartStage s) {p : Nat} (hp : working (s.callers p) = true) :
    CallerPool s.pool (s.callers p) ∧ (∀ q, q ≠ p → working (s.callers q) = false) ∧
      (s.poolStarts, s.listenTasks, s.listens) = (1, 0, 0) := by
  cases h with
  | @caller p' pool free counts =>
    by_cases hpp : p = p'
    · subst hpp
      exact ⟨pool, free, counts⟩
    · rw [free p hpp] at hp
      cases hp
  | unused pool free counts =>
    rw [free p] at hp
    cases hp
  | queued pool given free counts =>
    rw [free p] at hp
    cases hp
  | listening pool free counts =>
    rw [free p] at hp
    cases hp

lemma working_update {callers : Nat → StartPc} {p q : Nat} {pc : StartPc} (hpc : working pc = false)
    (hq : q ≠ p → working (callers q) = false) : working (Function.update callers p pc q) = false := by
  by_cases hqp : q = p
  · rw [hqp, Function.update_self]
    exact hpc
  · rw [Function.update_of_ne hqp]
    exact hq hqp

/-- A caller that does not work does not change the stage. -/
lemma StartStage.setCaller (h : StartStage s) {p : Nat} {pc : StartPc} (hp : working (s.callers p) = false)
    (hpc : working pc = false) : StartStage (s.setCaller p pc) := by
  cases h with
  | unused pool free counts => exact .unused pool (fun q => working_update hpc fun _ => free q) counts
  | @caller p' pool free counts =>
    have hne : p' ≠ p := by
      rintro rfl
      rcases callerPool_cases pool with ⟨hcall, -⟩ | ⟨hcall, -⟩ | ⟨hcall, -⟩ <;> simp [hcall, working] at hp
    refine .caller (p := p') ?_ (fun q hq => working_update hpc fun _ => free q hq) counts
    change CallerPool s.pool (Function.update s.callers p pc p')
    rw [Function.update_of_ne hne]
    exact pool
  | queued pool given free counts => exact .queued pool given (fun q => working_update hpc fun _ => free q) counts
  | listening pool free counts => exact .listening pool (fun q => working_update hpc fun _ => free q) counts

/-- The only caller that works goes on. -/
lemma StartStage.goOn {p : Nat} {pc : StartPc} {pool : ThreadPool τ}
    (hfree : ∀ q, q ≠ p → working (s.callers q) = false)
    (hcounts : (s.poolStarts, s.listenTasks, s.listens) = (1, 0, 0)) (hpool : CallerPool pool pc) :
    StartStage (ServerStart.setCaller { s with pool := pool } p pc) := by
  refine .caller (p := p) ?_ (fun q hq => ?_) hcounts
  · change CallerPool pool (Function.update s.callers p pc p)
    rw [Function.update_self]
    exact hpool
  · change working (Function.update s.callers p pc q) = false
    rw [Function.update_of_ne hq]
    exact hfree q hq

lemma StartStage.inner (h : StartStage s) {a : PoolStep τ} {pool : ThreadPool τ} (ha : a.isInner = true)
    (hpool : (poolMachine τ).next s.pool a = some pool) : StartStage { s with pool := pool } := by
  cases h with
  | unused hunused free counts => exact .unused (hunused.inner ha hpool) free counts
  | @caller p hcaller free counts =>
    refine .caller (p := p) ?_ free counts
    change CallerPool pool (s.callers p)
    rcases callerPool_cases hcaller with ⟨hpc, hunused⟩ | ⟨hpc, hfilling⟩ | ⟨hpc, hfilled, hgiven⟩
    · rw [hpc]
      exact hunused.inner ha hpool
    · rw [hpc]
      exact hfilling.inner ha hpool
    · obtain ⟨hfilled', hsame⟩ := hfilled.inner ha hpool
      rw [hpc]
      exact ⟨hfilled', hsame.trans hgiven⟩
  | queued hfilled given free counts =>
    obtain ⟨hfilled', hgiven⟩ := hfilled.inner ha hpool
    exact .queued hfilled' (hgiven.trans given) free counts
  | listening hfilled free counts => exact .listening (hfilled.inner ha hpool).1 free counts

/-- Until the pool has started, what there is to do has not begun or is before `pool_->start`. -/
lemma StartStage.unused_pool (h : StartStage s) (hfresh : s.pool.started = false) : PoolUnused s.pool := by
  have hnot (hstarted : s.pool.started = true) : PoolUnused s.pool := by
    rw [hfresh] at hstarted
    cases hstarted
  cases h with
  | unused hunused free counts => exact hunused
  | caller hcaller free counts =>
    rcases callerPool_cases hcaller with ⟨-, hunused⟩ | ⟨-, hfilling⟩ | ⟨-, hfilled, -⟩
    · exact hunused
    · exact hnot hfilling.started
    · exact hnot hfilled.started
  | queued hfilled given free counts => exact hnot hfilled.started
  | listening hfilled free counts => exact hnot hfilled.started

lemma StartStage.storeNumThreads (h : StartStage s) (hfresh : s.pool.started = false) (n : Int) :
    StartStage { s with pool := s.pool.storeNumThreads n } := by
  have hunused := (h.unused_pool hfresh).storeNumThreads n
  cases h with
  | unused _ free counts => exact .unused hunused free counts
  | @caller p hcaller free counts =>
    refine .caller (p := p) ?_ free counts
    change CallerPool (s.pool.storeNumThreads n) (s.callers p)
    rcases callerPool_cases hcaller with ⟨hpc, -⟩ | ⟨-, hfilling⟩ | ⟨-, hfilled, -⟩
    · rw [hpc]
      exact hunused
    · rw [hfilling.started] at hfresh
      cases hfresh
    · rw [hfilled.started] at hfresh
      cases hfresh
  | queued hfilled given free counts =>
    rw [hfilled.started] at hfresh
    cases hfresh
  | listening hfilled free counts =>
    rw [hfilled.started] at hfresh
    cases hfresh

/-- `num_threads_` is stored before the pool starts. -/
def storesBeforeStart (s : ServerStart τ) : StartStep τ → Prop
  | .storeNumThreads _ _ => s.pool.started = false
  | _ => True

instance (s : ServerStart τ) (a : StartStep τ) : Decidable (storesBeforeStart s a) := by
  unfold storesBeforeStart
  split
  · infer_instance
  · infer_instance

/-- A call of `start` goes on to the pool only if none has before. -/
theorem startStage_step (h : StartStage s) (hstore : storesBeforeStart s a) (hfirst : s.started = 0 → s.poolStarts = 0)
    (htrans : StartTrans s a s') : StartStage s' := by
  cases htrans with
  | setThreadNum n hpc => exact h.setCaller (by rw [hpc]; rfl) rfl
  | setNumThreads hpc hstarted => exact h.setCaller (by rw [hpc]; rfl) rfl
  | @storeNumThreads p n hpc => exact (h.storeNumThreads hstore n).setCaller (by rw [hpc]; rfl) rfl
  | @first p hpc hzero =>
    have hnone := hfirst hzero
    cases h with
    | unused hunused free counts =>
      simp only [Prod.mk.injEq] at counts
      refine .caller (p := p) ?_ (fun q hq => ?_) ?_
      · change CallerPool s.pool (Function.update s.callers p .startPool p)
        rw [Function.update_self]
        exact hunused
      · change working (Function.update s.callers p .startPool q) = false
        rw [Function.update_of_ne hq]
        exact free q
      · simp only [counts]
    | caller _ _ counts | queued _ _ _ counts | listening _ _ counts =>
      simp only [Prod.mk.injEq] at counts
      omega
  | again hpc hzero =>
    cases h with
    | unused pool free counts => exact .unused pool free counts
    | caller pool free counts => exact .caller pool free counts
    | queued pool given free counts => exact .queued pool given free counts
    | listening pool free counts => exact .listening pool free counts
  | startPool hpc hpool =>
    obtain ⟨hcaller, hfree, hcounts⟩ := h.of_working (by rw [hpc]; rfl)
    rw [hpc] at hcaller
    exact .goOn hfree hcounts (PoolUnused.start hcaller hpool)
  | pool hinner hpool => exact h.inner hinner hpool
  | startReturns hpc hpool =>
    obtain ⟨hcaller, hfree, hcounts⟩ := h.of_working (by rw [hpc]; rfl)
    rw [hpc] at hcaller
    exact .goOn hfree hcounts (PoolFilling.startReturns hcaller hpool)
  | listenNow hpc hbase =>
    obtain ⟨hcaller, hfree, hcounts⟩ := h.of_working (by rw [hpc]; rfl)
    rw [hpc] at hcaller
    simp only [Prod.mk.injEq] at hcounts
    exact .listening hcaller.1 (fun q => working_update rfl (hfree q)) (by simp only [hcounts])
  | listenLater hpc hbase =>
    obtain ⟨hcaller, hfree, hcounts⟩ := h.of_working (by rw [hpc]; rfl)
    rw [hpc] at hcaller
    simp only [Prod.mk.injEq] at hcounts
    exact .queued hcaller.1 hcaller.2 (fun q => working_update rfl (hfree q)) (by simp only [hcounts])
  | listen hpc htasks =>
    cases h with
    | queued pool given free counts =>
      simp only [Prod.mk.injEq] at counts
      exact .listening pool free (by simp only [counts])
    | unused _ _ counts | caller _ _ counts | listening _ _ counts =>
      simp only [Prod.mk.injEq] at counts
      omega
  | accept hpc hlistens =>
    cases h with
    | listening pool free counts => exact .listening pool.getNextLoop free counts
    | unused _ _ counts | caller _ _ counts | queued _ _ _ counts =>
      simp only [Prod.mk.injEq] at counts
      omega

end Stage

/-! ### Runs -/

/-- The base loop accepts only when the pool is filled. -/
lemma StartStage.of_listens {s : ServerStart τ} (h : StartStage s) (hlistens : 0 < s.listens) :
    PoolFilled s.pool := by
  cases h with
  | listening pool free counts => exact pool
  | unused _ _ counts | caller _ _ counts | queued _ _ _ counts =>
    simp only [Prod.mk.injEq] at counts
    omega

/-- Loops are handed out by a filled pool only. -/
lemma StartStage.given {s : ServerStart τ} (h : StartStage s) : s.pool.given = [] ∨ PoolFilled s.pool := by
  cases h with
  | unused pool free counts => exact Or.inl pool.given
  | caller pool free counts =>
    rcases callerPool_cases pool with ⟨-, hunused⟩ | ⟨-, hfilling⟩ | ⟨-, -, hgiven⟩
    · exact Or.inl hunused.given
    · exact Or.inl hfilling.given
    · exact Or.inl hgiven
  | queued pool given free counts => exact Or.inl given
  | listening pool free counts => exact Or.inr pool

/-- The counter, the stage and the part of the pool after the steps `done`. -/
structure StartRun (done : List (StartStep τ)) (s : ServerStart τ) : Prop where
  stage : StartStage s
  started : s.started = Int.bmod (done.countP StartStep.isStart) (2 ^ 32)
  calls : s.poolStarts = 0 ↔ done.countP StartStep.isStart = 0
  pool : (poolMachine τ).run ThreadPool.make (done.flatMap StartStep.poolSteps) = some s.pool

section StartRun

variable {s s' : ServerStart τ} {a : StartStep τ} {done : List (StartStep τ)}

/-- `fetch_add` returns 0 in the first call only. -/
lemma StartRun.first (h : StartRun done s) (hfit : done.countP StartStep.isStart < 2 ^ 32) (hzero : s.started = 0) :
    done.countP StartStep.isStart = 0 := by
  have hstarted := h.started
  rw [hzero] at hstarted
  have hdvd : (2 ^ 32 : Int) ∣ (done.countP StartStep.isStart : Int) :=
    Int.dvd_of_bmod_eq_zero hstarted.symm
  omega

/-- The step of the pool in a step of the server. -/
lemma pool_run_of_trans (h : StartStage s) (hstore : storesBeforeStart s a) (htrans : StartTrans s a s') :
    (poolMachine τ).run s.pool a.poolSteps = some s'.pool := by
  cases htrans with
  | @storeNumThreads p n hpc =>
    exact ((poolMachine τ).run_cons_eq_some _ _ _ _).mpr ⟨_, (h.unused_pool hstore).setNumThreads n, rfl⟩
  | startPool hpc hpool => exact ((poolMachine τ).run_cons_eq_some _ _ _ _).mpr ⟨_, hpool, rfl⟩
  | pool hinner hpool => exact ((poolMachine τ).run_cons_eq_some _ _ _ _).mpr ⟨_, hpool, rfl⟩
  | startReturns hpc hpool => exact ((poolMachine τ).run_cons_eq_some _ _ _ _).mpr ⟨_, hpool, rfl⟩
  | accept hpc hlistens =>
    have hidle := (h.of_listens hlistens).owner
    have hpool : (poolMachine τ).next s.pool .getNextLoop = some s.pool.getNextLoop := if_pos hidle
    exact ((poolMachine τ).run_cons_eq_some _ _ _ _).mpr ⟨_, hpool, rfl⟩
  | _ => rfl

lemma counter_step (h : StartRun done s) (htrans : StartTrans s a s') :
    s'.started = Int.bmod ((done ++ [a]).countP StartStep.isStart) (2 ^ 32) := by
  have hstarted := h.started
  rw [List.countP_append]
  cases htrans with
  | first hpc hzero | again hpc hzero =>
    change Int.bmod (s.started + 1) (2 ^ 32) = _
    rw [hstarted, Int.bmod_add_bmod]
    rfl
  | _ => exact hstarted

lemma calls_step (h : StartRun done s) (htrans : StartTrans s a s') :
    s'.poolStarts = 0 ↔ (done ++ [a]).countP StartStep.isStart = 0 := by
  have hcalls := h.calls
  rw [List.countP_append]
  cases htrans with
  | first hpc hzero => exact iff_of_false (Nat.succ_ne_zero _) (Nat.succ_ne_zero _)
  | again hpc hzero =>
    -- A call that is not the first one comes after one that started the pool.
    refine iff_of_false (fun hnone => hzero ?_) (Nat.succ_ne_zero _)
    rw [h.started, hcalls.mp hnone]
    rfl
  | _ => exact hcalls

theorem startRun_step (h : StartRun done s) (hfit : done.countP StartStep.isStart < 2 ^ 32)
    (hstore : storesBeforeStart s a) (hnext : (startMachine τ).next s a = some s') : StartRun (done ++ [a]) s' := by
  have htrans := start_trans hnext
  refine ⟨startStage_step h.stage hstore (fun hzero => h.calls.mpr (h.first hfit hzero)) htrans, counter_step h htrans,
    calls_step h htrans, ?_⟩
  rw [List.flatMap_append, Machine.run_append_eq_some]
  refine ⟨s.pool, h.pool, ?_⟩
  rw [List.flatMap_cons, List.flatMap_nil, List.append_nil]
  exact pool_run_of_trans h.stage hstore htrans

lemma startRun_run {steps : List (StartStep τ)} (hrun : (startMachine τ).run ServerStart.make steps = some s)
    (hstores : (startMachine τ).Meets storesBeforeStart ServerStart.make steps)
    (hfit : steps.countP StartStep.isStart < 2 ^ 32) : StartRun steps s := by
  have hinit : ([] : List (StartStep τ)).countP StartStep.isStart < 2 ^ 32 →
      StartRun [] (ServerStart.make : ServerStart τ) :=
    fun _ => ⟨.unused ⟨rfl, rfl, rfl, rfl⟩ (fun _ => rfl) rfl, Int.zero_bmod.symm, iff_of_true rfl rfl, rfl⟩
  refine (startMachine τ).invariant_of_history_of_meets
    (I := fun done s => done.countP StartStep.isStart < 2 ^ 32 → StartRun done s) ?_ hinit hstores hrun hfit
  intro done s a s' h hstore hnext hfit
  have hdone : done.countP StartStep.isStart ≤ (done ++ [a]).countP StartStep.isStart :=
    (List.sublist_append_left done [a]).countP_le
  have hfit' := Nat.lt_of_le_of_lt hdone hfit
  exact startRun_step (h hfit') hfit' hstore hnext

end StartRun

/-- The loop of the `c`-th connection of a server with `n` threads. -/
def loopOfConnection (n : Int) (c : Nat) : LoopRef := if n ≤ 0 then .base else .sub (some (c % n.toNat))

/-- The loops handed out by a filled pool go round from the first thread on. -/
lemma PoolFilled.given_eq {s : ThreadPool τ} (hfilled : PoolFilled s) (h : PoolLives s) :
    s.given = (List.range s.given.length).map (loopOfConnection s.numThreads) := by
  by_cases hnone : s.numThreads ≤ 0
  · refine List.ext_getElem (by simp) fun i hi _ => ?_
    rw [List.getElem_map, loopOfConnection, if_pos hnone]
    exact (hfilled.given _ (List.getElem_mem hi)).mpr hnone
  · obtain ⟨k, hsubs, -, -⟩ := h.rotates
    have hall : s.given.filter (· ≠ .base) = s.given := by
      refine List.filter_eq_self.mpr fun r hr => ?_
      exact decide_eq_true fun hbase => hnone ((hfilled.given r hr).mp hbase)
    rw [hall] at hsubs
    have hlength : s.given.length = k := by rw [hsubs, List.length_map, List.length_range]
    rw [hlength, hsubs]
    refine List.map_congr_left fun c _ => ?_
    rw [loopOfConnection, if_neg hnone]

/-- The loop of a connection is one of `getAllLoops`. -/
lemma PoolFilled.mem_getAllLoops {s : ThreadPool τ} (hfilled : PoolFilled s) (h : PoolLives s) (c : Nat) :
    loopOfConnection s.numThreads c ∈ s.getAllLoops := by
  have hlength := hfilled.loops
  unfold loopOfConnection ThreadPool.getAllLoops
  by_cases hnone : s.numThreads ≤ 0
  · have hempty : s.loops = [] := List.length_eq_zero_iff.mp (by omega)
    rw [if_pos hnone, if_pos hempty]
    exact List.mem_cons_self
  · have hpos : 0 < s.numThreads.toNat := by omega
    have hloops : s.loops ≠ [] := fun hempty => by simp [hempty] at hlength; omega
    rw [if_neg hnone, if_neg hloops]
    have hindex : c % s.numThreads.toNat < s.loops.length := by
      rw [hlength]
      exact Nat.mod_lt c hpos
    exact List.mem_map_of_mem (List.mem_of_getElem? (h.loops_getElem hindex))

/-- Of fewer than 2^32 calls of `start`, by any threads, one starts the pool and passes one `listen`
to the base loop, if no `num_threads_` is stored after the start of the pool. The pool goes through a
run of its own, in which `getNextLoop` never meets `start`, and is complete when the base loop listens.
As long as nobody quits a loop, all loops of the pool run then, and connection `c` gets loop `c % n` from
the first one on, one of those that `getAllLoops` returns. -/
theorem connections_wait_for_loops (τ : Type) (steps : List (StartStep τ)) (s : ServerStart τ)
    (hrun : (startMachine τ).run ServerStart.make steps = some s)
    (hstores : (startMachine τ).Meets storesBeforeStart ServerStart.make steps)
    (hfit : steps.countP StartStep.isStart < 2 ^ 32) :
    s.poolStarts ≤ 1 ∧ s.listenTasks + s.listens ≤ s.poolStarts ∧
      (poolMachine τ).run ThreadPool.make (steps.flatMap StartStep.poolSteps) = some s.pool ∧
      (0 < s.listens → s.pool.owner = .idle ∧ s.pool.loops.length = s.pool.numThreads.toNat) ∧
      ((poolMachine τ).Meets onlyPoolQuits ThreadPool.make (steps.flatMap StartStep.poolSteps) →
        (0 < s.listens → ∀ t ∈ s.pool.threads,
          t.thread.alive = true ∧ t.thread.published = true ∧ t.thread.loop.loop.quit = false) ∧
        s.pool.given = (List.range s.pool.given.length).map (loopOfConnection s.pool.numThreads) ∧
        ∀ r ∈ s.pool.given, r ∈ s.pool.getAllLoops) := by
  have h := startRun_run hrun hstores hfit
  refine ⟨?_, ?_, h.pool, fun hlistens => ?_, fun hquit => ?_⟩
  · cases h.stage with
    | unused _ _ counts | caller _ _ counts | queued _ _ _ counts | listening _ _ counts =>
      simp only [Prod.mk.injEq] at counts
      omega
  · cases h.stage with
    | unused _ _ counts | caller _ _ counts | queued _ _ _ counts | listening _ _ counts =>
      simp only [Prod.mk.injEq] at counts
      omega
  · have hfilled := h.stage.of_listens hlistens
    exact ⟨hfilled.owner, hfilled.loops⟩
  · have hlives : PoolLives s.pool := (poolMachine τ).invariant_of_meets
      (fun s a s' hs hok hnext => poolLives_step hs hok (pool_trans hnext)) poolLives_make hquit h.pool
    refine ⟨fun hlistens t ht => ?_, ?_⟩
    · have hfilled := h.stage.of_listens hlistens
      obtain ⟨i, hi⟩ := List.getElem?_of_mem ht
      have hlength : i < s.pool.loops.length := by
        have hlengths := hlives.shape.lengths
        rw [hfilled.owner] at hlengths
        have hlt := (List.getElem?_eq_some_iff.mp hi).1
        rw [hlengths] at hlt
        exact hlt
      exact hlives.running hlength hi (by simp [hfilled.owner]) (by simp [hfilled.owner])
    · rcases h.stage.given with hnone | hfilled
      · rw [hnone]
        exact ⟨rfl, fun r hr => absurd hr List.not_mem_nil⟩
      · have hgiven := hfilled.given_eq hlives
        refine ⟨hgiven, fun r hr => ?_⟩
        rw [hgiven] at hr
        obtain ⟨c, -, rfl⟩ := List.mem_map.mp hr
        exact hfilled.mem_getAllLoops hlives c

/-- Thread 1 starts a server of two threads while thread 2 calls `start` again; three connections
follow. -/
def startedTwice : List (StartStep Nat) :=
  [.setThreadNum 1 2, .setNumThreads 1 2, .storeNumThreads 1 2, .start 1, .start 2, .startPool 1 false] ++
    (startRound 0 ++ startRound 1).map .pool ++
    [.startReturns 1, .runInLoop 1, .listen, .accept, .accept, .accept]

theorem connections_wait_for_loops_started_twice :
    ∃ s, (startMachine Nat).run ServerStart.make startedTwice = some s ∧ s.listens = 1 ∧ s.poolStarts = 1 ∧
      s.pool.given = [.sub (some 0), .sub (some 1), .sub (some 0)] ∧ ∀ t ∈ s.pool.threads, t.thread.alive = true := by
  have hend : ((startMachine Nat).run ServerStart.make startedTwice).map (fun s =>
      (s.listens, s.poolStarts, s.pool.numThreads, s.pool.given.length)) = some (1, 1, 2, 3) := by
    decide +kernel
  obtain ⟨s, hrun, hend⟩ := Option.map_eq_some_iff.mp hend
  simp only [Prod.mk.injEq] at hend
  obtain ⟨hlistens, hstarts, hnum, hlength⟩ := hend
  obtain ⟨-, -, -, -, hpool⟩ :=
    connections_wait_for_loops Nat startedTwice s hrun (by decide +kernel) (by decide +kernel)
  obtain ⟨hloops, hgiven, -⟩ := hpool (by decide +kernel)
  refine ⟨s, hrun, hlistens, hstarts, ?_, fun t ht => (hloops (by omega) t ht).1⟩
  rw [hgiven, hnum, hlength]
  rfl

end Proofs

end MylibMuduo
