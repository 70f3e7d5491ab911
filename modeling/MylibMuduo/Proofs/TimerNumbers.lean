import MylibMuduo.TimerSystem
import MylibMuduo.Proofs.CrossThreadCancel

/-!
# The numbers of the timers

Every timer of the process has a number of its own as long as the counter has not wrapped. So each
loop sees a run in which numbers are given once, which is what its timer queue relies on, and the id
of a timer of one loop means nothing to another loop, even if the address in it is used there.
-/

namespace MylibMuduo.Proofs

variable {ι : Type}

/-! ### The steps of one loop -/

/-- Only `addTimer` returns ids. -/
lemma issued_timer_step {s s' : TimerState} {b : TimerStep} (h : TimerInv s)
    (hnext : timerMachine.next s b = some s') (hb : (TimerLoopStep.timer b).isOther = true) :
    s'.issued = s.issued := by
  cases timer_trans h hnext with
  | addTimer a t ha hseq => cases hb
  | _ => rfl

lemma issued_other {s s' : TimerLoop} {b : TimerLoopStep} (h : TimerLoopInv s)
    (hnext : timerLoopMachine.next s b = some s') (hb : b.isOther = true) :
    s'.timers.issued = s.timers.issued := by
  cases timerLoop_trans hnext with
  | start hpc hwait hstarted =>
    rename_i l f
    cases f <;> rfl
  | timer htimer hpc => exact issued_timer_step h.timers htimer hb
  | foreignAddTimer ha hseq hwait hstarted hpc => cases hb
  | queue hwait hstarted hpc => rfl
  | control hwait hstarted hpc => rfl
  | foreignCancelTimer hwait hstarted hpc => rfl

/-- A call of `addTimer` that the code allows is one that the queue allows, if the number is new. -/
lemma next_addTimer {s s' : TimerLoop} {a : Nat} {t : Timer} (ha : s.timers.queue.heap a = none)
    (hseq : ∀ id ∈ s.timers.issued, id.sequence ≠ t.sequence) (hadd : s.addTimer a t = some s') :
    timerLoopMachine.next s (.timer (.addTimer a t)) = some s' := by
  unfold TimerLoop.addTimer at hadd
  rw [Option.ite_none_right_eq_some] at hadd
  obtain ⟨⟨hon, huser⟩, hs'⟩ := hadd
  simp only [timerLoopMachine, timerMachine]
  rw [if_pos hon, if_pos ⟨huser, ha, hseq⟩]
  exact hs'

lemma next_foreignAddTimer {s s' : TimerLoop} {p a : Nat} {t : Timer} (ha : s.timers.queue.heap a = none)
    (hseq : ∀ id ∈ s.timers.issued, id.sequence ≠ t.sequence) (hadd : s.foreignAddTimer p a t = some s') :
    timerLoopMachine.next s (.foreignAddTimer p a t) = some s' := by
  simp only [timerLoopMachine]
  rw [if_pos ⟨ha, hseq⟩]
  exact hadd

lemma issued_addTimer {s s' : TimerLoop} {a : Nat} {t : Timer} (hadd : s.addTimer a t = some s') :
    s'.timers.issued = s.timers.issued ++ [⟨some a, t.sequence⟩] := by
  unfold TimerLoop.addTimer at hadd
  rw [Option.ite_none_right_eq_some] at hadd
  rw [← Option.some.inj hadd.2]

lemma issued_foreignAddTimer {s s' : TimerLoop} {p a : Nat} {t : Timer}
    (hadd : s.foreignAddTimer p a t = some s') :
    s'.timers.issued = s.timers.issued ++ [⟨some a, t.sequence⟩] := by
  obtain ⟨l, -, rfl⟩ := Option.map_eq_some_iff.mp hadd
  rfl

/-! ### Numbers -/

/-- The numbers drawn so far lie below the counter, each in one place only. -/
structure NumberedOnce (s : TimerSystem ι) : Prop where
  constructedBelow : ∀ t ∈ s.constructed, t.sequence < s.globalSequence
  issuedBelow : ∀ i, ∀ id ∈ s.issued i, id.sequence < s.globalSequence
  constructed : (s.constructed.map Timer.sequence).Nodup
  issued : ∀ i, ((s.issued i).map TimerId.sequence).Nodup
  handedOver : ∀ i, ∀ id ∈ s.issued i, ∀ t ∈ s.constructed, id.sequence ≠ t.sequence
  apart : ∀ i j, i ≠ j → ∀ id ∈ s.issued i, ∀ id' ∈ s.issued j, id.sequence ≠ id'.sequence

section NumberedOnce

variable {s s' : TimerSystem ι}

lemma numberedOnce_make (clock : Int) : NumberedOnce (TimerSystem.make clock : TimerSystem ι) where
  constructedBelow := fun _ ht => absurd ht List.not_mem_nil
  issuedBelow := fun _ _ hid => absurd hid List.not_mem_nil
  constructed := List.nodup_nil
  issued := fun _ => List.nodup_nil
  handedOver := fun _ _ hid => absurd hid List.not_mem_nil
  apart := fun _ _ _ _ hid => absurd hid List.not_mem_nil

lemma NumberedOnce.congr (h : NumberedOnce s) (hcounter : s'.globalSequence = s.globalSequence)
    (hconstructed : s'.constructed = s.constructed) (hissued : ∀ i, s'.issued i = s.issued i) :
    NumberedOnce s' := by
  obtain ⟨h₁, h₂, h₃, h₄, h₅, h₆⟩ := h
  refine ⟨?_, ?_, ?_, ?_, ?_, ?_⟩
  all_goals simp only [hcounter, hconstructed, hissued]
  all_goals assumption

lemma NumberedOnce.newTimer (h : NumberedOnce s) {t : Timer} (ht : t.sequence = s.globalSequence)
    (hcounter : s'.globalSequence = s.globalSequence + 1) (hconstructed : s'.constructed = s.constructed ++ [t])
    (hissued : ∀ i, s'.issued i = s.issued i) : NumberedOnce s' := by
  refine ⟨?_, ?_, ?_, ?_, ?_, ?_⟩
  · intro u hu
    rw [hconstructed, List.mem_append, List.mem_singleton] at hu
    obtain hu | rfl := hu
    · have := h.constructedBelow u hu
      omega
    · omega
  · intro i id hid
    rw [hissued] at hid
    have := h.issuedBelow i id hid
    omega
  · rw [hconstructed, List.map_append, List.map_singleton, List.nodup_append_comm, List.singleton_append,
      List.nodup_cons]
    refine ⟨fun hmem => ?_, h.constructed⟩
    obtain ⟨u, hu, heq⟩ := List.mem_map.mp hmem
    have := h.constructedBelow u hu
    omega
  · intro i
    rw [hissued]
    exact h.issued i
  · intro i id hid u hu
    rw [hissued] at hid
    rw [hconstructed, List.mem_append, List.mem_singleton] at hu
    obtain hu | rfl := hu
    · exact h.handedOver i id hid u hu
    · have := h.issuedBelow i id hid
      omega
  · intro i j hij id hid id' hid'
    rw [hissued] at hid hid'
    exact h.apart i j hij id hid id' hid'

lemma NumberedOnce.constructed_erase (h : NumberedOnce s) {t u : Timer} (ht : t ∈ s.constructed)
    (hu : u ∈ s.constructed.erase t) : u ∈ s.constructed ∧ u.sequence ≠ t.sequence := by
  obtain ⟨hne, hmem⟩ := (h.constructed.of_map).mem_erase_iff.mp hu
  exact ⟨hmem, fun heq => hne (List.inj_on_of_nodup_map h.constructed hmem ht heq)⟩

variable [DecidableEq ι]

lemma handOver_issued_self (i : ι) (t : Timer) (l : TimerLoop) : (s.handOver i t l).issued i = l.timers.issued := by
  simp [TimerSystem.issued, TimerSystem.handOver]

lemma handOver_issued_of_ne {i j : ι} (hj : j ≠ i) (t : Timer) (l : TimerLoop) :
    (s.handOver i t l).issued j = s.issued j := by
  simp [TimerSystem.issued, TimerSystem.handOver, hj]

lemma NumberedOnce.handOver (h : NumberedOnce s) {i : ι} {a : Nat} {t : Timer} {l : TimerLoop}
    (ht : t ∈ s.constructed) (hl : l.timers.issued = s.issued i ++ [⟨some a, t.sequence⟩]) :
    NumberedOnce (s.handOver i t l) := by
  have hissued : ∀ j id, id ∈ (s.handOver i t l).issued j →
      id ∈ s.issued j ∨ (j = i ∧ id.sequence = t.sequence) := by
    intro j id hid
    by_cases hj : j = i
    · rw [hj, handOver_issued_self, hl, List.mem_append, List.mem_singleton] at hid
      exact hid.imp (fun h => hj ▸ h) fun h => ⟨hj, by rw [h]⟩
    · rw [handOver_issued_of_ne hj] at hid
      exact .inl hid
  refine ⟨?_, ?_, ?_, ?_, ?_, ?_⟩
  · exact fun u hu => h.constructedBelow u (h.constructed_erase ht hu).1
  · intro j id hid
    obtain hold | ⟨-, hseq⟩ := hissued j id hid
    · exact h.issuedBelow j id hold
    · exact hseq ▸ h.constructedBelow t ht
  · exact h.constructed.sublist (List.erase_sublist.map _)
  · intro j
    by_cases hj : j = i
    · rw [hj, handOver_issued_self, hl, List.map_append, List.map_singleton, List.nodup_append_comm,
        List.singleton_append, List.nodup_cons]
      refine ⟨fun hmem => ?_, h.issued i⟩
      obtain ⟨id, hid, heq⟩ := List.mem_map.mp hmem
      exact h.handedOver i id hid t ht heq
    · rw [handOver_issued_of_ne hj]
      exact h.issued j
  · intro j id hid u hu
    obtain ⟨hmem, hne⟩ := h.constructed_erase ht hu
    obtain hold | ⟨-, hseq⟩ := hissued j id hid
    · exact h.handedOver j id hold u hmem
    · rw [hseq]
      exact hne.symm
  · intro j k hjk id hid id' hid'
    obtain hold | ⟨hj, hseq⟩ := hissued j id hid <;> obtain hold' | ⟨hk, hseq'⟩ := hissued k id' hid'
    · exact h.apart j k hjk id hold id' hold'
    · rw [hseq']
      exact h.handedOver j id hold t ht
    · rw [hseq]
      exact (h.handedOver k id' hold' t ht).symm
    · exact absurd (hj.trans hk.symm) hjk

end NumberedOnce

/-! ### The runs of the process -/

/-- The step constructs a timer. -/
def constructs : TimerSystemStep ι → Bool
  | .newTimer _ => true
  | _ => false

lemma countP_newTimer (done : List (TimerSystemStep ι)) (t : Timer) :
    (done ++ [TimerSystemStep.newTimer t]).countP constructs = done.countP constructs + 1 := by
  simp [constructs]

lemma countP_of_not_constructs (done : List (TimerSystemStep ι)) {a : TimerSystemStep ι} (ha : constructs a = false) :
    (done ++ [a]).countP constructs = done.countP constructs := by
  simp [ha]

/-- What a loop sees of a step. -/
def labelsOn [DecidableEq ι] (i : ι) : TimerSystemStep ι → List TimerLoopStep
  | .tick d => [.timer (.tick d)]
  | .newTimer _ => []
  | .addTimer j a t => if j = i then [.timer (.addTimer a t)] else []
  | .foreignAddTimer j p a t => if j = i then [.foreignAddTimer p a t] else []
  | .other j b => if j = i then [b] else []

/-- Each loop has made a run of its own, with numbers that are given once. -/
structure LoopsRun [DecidableEq ι] (clock : Int) (done : List (TimerSystemStep ι)) (s : TimerSystem ι) : Prop where
  counter : s.globalSequence = done.countP constructs
  numbered : NumberedOnce s
  runs : ∀ i, timerLoopMachine.run (TimerLoop.make clock) (done.flatMap (labelsOn i)) = some (s.loops i)

section LoopsRun

variable [DecidableEq ι] {clock : Int} {done : List (TimerSystemStep ι)} {s s' : TimerSystem ι}

lemma LoopsRun.timerLoopInv (h : LoopsRun clock done s) (i : ι) : TimerLoopInv (s.loops i) :=
  timerLoopMachine.invariant (fun _ _ _ => timerLoopInv_step) (timerLoopInv_make clock) (h.runs i)

/-- A step that one loop makes on its own extends the run of that loop. -/
lemma runs_update (hruns : ∀ i, timerLoopMachine.run (TimerLoop.make clock) (done.flatMap (labelsOn i)) = some (s.loops i))
    {a : TimerSystemStep ι} {i : ι} {b : TimerLoopStep} {l : TimerLoop}
    (hlabels : ∀ j, labelsOn j a = if i = j then [b] else [])
    (hnext : timerLoopMachine.next (s.loops i) b = some l) (j : ι) :
    timerLoopMachine.run (TimerLoop.make clock) ((done ++ [a]).flatMap (labelsOn j)) =
      some (Function.update s.loops i l j) := by
  rw [List.flatMap_append, List.flatMap_singleton, hlabels, Machine.run_append_eq_some]
  refine ⟨s.loops j, hruns j, ?_⟩
  by_cases hij : i = j
  · rw [if_pos hij, ← hij, Function.update_self, Machine.run_cons_eq_some]
    exact ⟨l, hnext, rfl⟩
  · rw [if_neg hij, Function.update_of_ne (Ne.symm hij)]
    rfl

lemma issued_update {i : ι} {l : TimerLoop} (hl : l.timers.issued = s.issued i) (j : ι) :
    (Function.update s.loops i l j).timers.issued = s.issued j := by
  by_cases hj : j = i
  · rw [hj, Function.update_self, hl]
  · rw [Function.update_of_ne hj]
    rfl

lemma loopsRun_newTimer (h : LoopsRun clock done s) {t : Timer} (ht : t.sequence = s.globalSequence)
    (hfit : done.countP constructs + 1 < 2 ^ 63) :
    LoopsRun clock (done ++ [.newTimer t])
      { s with globalSequence := s.fetchAdd, constructed := s.constructed ++ [t] } := by
  have hcounter : s.fetchAdd = s.globalSequence + 1 := by
    have := h.counter
    unfold TimerSystem.fetchAdd
    rw [Int.bmod_eq_of_le (by omega) (by omega)]
  refine ⟨?_, h.numbered.newTimer ht hcounter rfl fun i => rfl, fun i => ?_⟩
  · change s.fetchAdd = _
    rw [hcounter, h.counter, countP_newTimer]
    rfl
  · rw [List.flatMap_append, List.flatMap_singleton]
    exact (congrArg _ (List.append_nil _)).trans (h.runs i)

/-- A timer that a loop takes over has a number that is new to the loop. -/
lemma loopsRun_handOver (h : LoopsRun clock done s) {a : TimerSystemStep ι} {i : ι} {b : TimerLoopStep}
    {ad : Nat} {t : Timer} {l : TimerLoop} (ha : constructs a = false)
    (hlabels : ∀ j, labelsOn j a = if i = j then [b] else []) (ht : t ∈ s.constructed)
    (hnext : (∀ id ∈ s.issued i, id.sequence ≠ t.sequence) → timerLoopMachine.next (s.loops i) b = some l)
    (hl : l.timers.issued = s.issued i ++ [⟨some ad, t.sequence⟩]) :
    LoopsRun clock (done ++ [a]) (s.handOver i t l) := by
  have hnew := hnext fun id hid => h.numbered.handedOver i id hid t ht
  refine ⟨?_, h.numbered.handOver ht hl, runs_update h.runs hlabels hnew⟩
  rw [countP_of_not_constructs done ha]
  exact h.counter

variable [Fintype ι]

theorem loopsRun_step {a : TimerSystemStep ι} (h : LoopsRun clock done s)
    (hfit : (done ++ [a]).countP constructs < 2 ^ 63) (hnext : (timerSystemMachine ι).next s a = some s') :
    LoopsRun clock (done ++ [a]) s' := by
  cases a with
  | tick d =>
    obtain rfl := Option.some.inj hnext
    refine ⟨?_, h.numbered.congr rfl rfl fun i => rfl, fun i => ?_⟩
    · rw [countP_of_not_constructs done rfl]
      exact h.counter
    · rw [List.flatMap_append, List.flatMap_singleton, Machine.run_append_eq_some]
      exact ⟨s.loops i, h.runs i, rfl⟩
  | newTimer t =>
    simp only [timerSystemMachine, Option.ite_none_right_eq_some] at hnext
    obtain ⟨ht, hnext⟩ := hnext
    obtain rfl := Option.some.inj hnext
    rw [countP_newTimer] at hfit
    exact loopsRun_newTimer h ht hfit
  | addTimer i ad t =>
    simp only [timerSystemMachine, Option.ite_none_right_eq_some] at hnext
    obtain ⟨⟨ht, hunused⟩, hnext⟩ := hnext
    obtain ⟨l, hl, rfl⟩ := Option.map_eq_some_iff.mp hnext
    exact loopsRun_handOver h rfl (fun j => rfl) ht (fun hseq => next_addTimer (hunused i) hseq hl)
      (issued_addTimer hl)
  | foreignAddTimer i p ad t =>
    simp only [timerSystemMachine, Option.ite_none_right_eq_some] at hnext
    obtain ⟨⟨ht, hunused⟩, hnext⟩ := hnext
    obtain ⟨l, hl, rfl⟩ := Option.map_eq_some_iff.mp hnext
    exact loopsRun_handOver h rfl (fun j => rfl) ht (fun hseq => next_foreignAddTimer (hunused i) hseq hl)
      (issued_foreignAddTimer hl)
  | other i b =>
    simp only [timerSystemMachine, Option.ite_none_right_eq_some] at hnext
    obtain ⟨hb, hnext⟩ := hnext
    obtain ⟨l, hl, rfl⟩ := Option.map_eq_some_iff.mp hnext
    refine ⟨?_, h.numbered.congr rfl rfl ?_, runs_update h.runs (fun j => rfl) hl⟩
    · rw [countP_of_not_constructs done rfl]
      exact h.counter
    · exact issued_update (issued_other (h.timerLoopInv i) hl hb)

lemma loopsRun_run {steps : List (TimerSystemStep ι)}
    (hrun : (timerSystemMachine ι).run (TimerSystem.make clock) steps = some s)
    (hfit : steps.countP constructs < 2 ^ 63) : LoopsRun clock steps s := by
  have hinit : ([] : List (TimerSystemStep ι)).countP constructs < 2 ^ 63 →
      LoopsRun clock [] (TimerSystem.make clock : TimerSystem ι) := fun _ => ⟨rfl, numberedOnce_make clock, fun i => rfl⟩
  refine (timerSystemMachine ι).invariant_of_history
    (I := fun done s => done.countP constructs < 2 ^ 63 → LoopsRun clock done s) ?_ hinit hrun hfit
  intro done s a s' h hnext hfit
  have hdone : done.countP constructs ≤ (done ++ [a]).countP constructs :=
    (List.sublist_append_left done [a]).countP_le
  exact loopsRun_step (h (hdone.trans_lt hfit)) hfit hnext

end LoopsRun

/-- A queue takes no notice of an id whose number none of its timers has. -/
lemma cancelTimerInLoop_of_foreign {s : TimerState} (h : TimerInv s) {id : TimerId}
    (hid : id ∉ s.queue.activeTimerSet) (hidle : s.queue.isRunningCallback = false) :
    s.queue.cancelTimerInLoop id = s.queue := by
  rw [cancelTimerInLoop_eq h.indexed, if_neg (by rw [hidle]; decide)]
  exact if_neg hid

/-- As long as the counter has not wrapped, each loop goes through a run of its own in which numbers
are given once, whatever thread draws them and in whatever order they reach the loops. The ids given
out for one loop are not those of another, and cancelling such an id there does nothing. -/
theorem timers_numbered_once {ι : Type} [Fintype ι] [DecidableEq ι] (clock : Int)
    (steps : List (TimerSystemStep ι)) (s : TimerSystem ι)
    (hrun : (timerSystemMachine ι).run (TimerSystem.make clock) steps = some s)
    (hfit : steps.countP constructs < 2 ^ 63) :
    s.globalSequence = steps.countP constructs ∧
      (∀ i, timerLoopMachine.run (TimerLoop.make clock) (steps.flatMap (labelsOn i)) = some (s.loops i)) ∧
      (∀ i, ((s.issued i).map TimerId.sequence).Nodup) ∧
      ∀ i j, i ≠ j → ∀ id ∈ s.issued i, (∀ id' ∈ s.issued j, id.sequence ≠ id'.sequence) ∧
        id ∉ (s.loops j).timers.queue.activeTimerSet ∧
        ((s.loops j).timers.queue.isRunningCallback = false →
          (s.loops j).timers.queue.cancelTimerInLoop id = (s.loops j).timers.queue) := by
  have h := loopsRun_run hrun hfit
  refine ⟨h.counter, h.runs, h.numbered.issued, fun i j hij id hid => ?_⟩
  have hinv := (h.timerLoopInv j).timers
  have hapart := h.numbered.apart i j hij id hid
  have hactive : id ∉ (s.loops j).timers.queue.activeTimerSet :=
    fun hmem => hapart id (hinv.issued id hmem) rfl
  exact ⟨hapart, hactive, cancelTimerInLoop_of_foreign hinv hactive⟩

/-- Two threads draw a number each and pass their timers to two loops in the other order. -/
def swappedTimers : List (TimerSystemStep Bool) :=
  [.newTimer sampleRepeating, .newTimer sampleOneShot, .foreignAddTimer true 1 7 sampleOneShot,
   .foreignAddTimer false 0 8 sampleRepeating]

theorem timers_numbered_once_swapped :
    ∃ s, (timerSystemMachine Bool).run (TimerSystem.make 0) swappedTimers = some s ∧
      s.issued true = [⟨some 7, 1⟩] ∧ s.issued false = [⟨some 8, 0⟩] ∧
      (s.loops false).timers.queue.cancelTimerInLoop ⟨some 7, 1⟩ = (s.loops false).timers.queue := by
  have hend : ((timerSystemMachine Bool).run (TimerSystem.make 0) swappedTimers).map (fun s =>
      (s.issued true, s.issued false, (s.loops false).timers.queue.isRunningCallback)) =
      some ([⟨some 7, 1⟩], [⟨some 8, 0⟩], false) := by
    decide +kernel
  obtain ⟨s, hrun, hend⟩ := Option.map_eq_some_iff.mp hend
  simp only [Prod.mk.injEq] at hend
  obtain ⟨htrue, hfalse, hidle⟩ := hend
  have hapart := (timers_numbered_once 0 swappedTimers s hrun (by decide)).2.2.2 true false (by decide)
    ⟨some 7, 1⟩ (by rw [htrue]; exact List.mem_singleton_self _)
  exact ⟨s, hrun, htrue, hfalse, hapart.2.2 hidle⟩

end MylibMuduo.Proofs
