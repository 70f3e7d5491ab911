import MylibMuduo.Proofs.TimerIndexes

/-!
# What the end of a batch does to one timer

`reset` goes over the batch and then over the timers to be cancelled. For a timer that was not
cancelled: outside the batch it keeps its entry, in the batch it is restarted if it repeats and
destroyed otherwise.
-/

namespace MylibMuduo.Proofs

variable {q : TimerQueue} {now : Int} {expired : List Entry} {k : Entry} {a : Nat} {t : Timer}

/-- The timer `t` is at the address `a`, in the list under the key `k`, and not to be cancelled. -/
structure Scheduled (q : TimerQueue) (k : Entry) (a : Nat) (t : Timer) : Prop where
  entry : (k, some a) ∈ q.timerList.entries
  timer : q.heap a = some t
  kept : (⟨some a, k.sequence⟩ : TimerId) ∉ q.cancelingTimerSet

/-- One round of the first loop of `reset`, seen from another timer. -/
lemma Scheduled.resetEntry_other (h : Indexed q) (hs : Scheduled q k a t) {k' : Entry} {p : Option Nat}
    (he : (k', p) ∈ q.timerList.entries) (hne : k'.sequence ≠ k.sequence) :
    Scheduled (q.resetEntry now k') k a t := by
  obtain ⟨b, u, hb, hu, -, -⟩ := h.timers (k', p) he
  change p = some b at hb
  subst hb
  have hab : a ≠ b := h.address_ne hs.entry he (fun heq => hne (by rw [(Prod.mk.inj heq).1])) rfl rfl
  refine ⟨(resetEntry_step h now he).2 _ hs.entry (Ne.symm hne), ?_, ?_⟩
  · rw [resetEntry_eq h now he hu]
    split
    · simpa [rekeyed, hab] using hs.timer
    · simpa [removed, hab] using hs.timer
  · rw [resetEntry_eq h now he hu]
    split
    · exact hs.kept
    · exact fun hmem => hs.kept (List.mem_of_mem_erase hmem)

/-- The batch without its first entry, after the round for that entry. -/
lemma batch_tail {k₀ : Entry} (h : Indexed q) (hnodup : ((k₀ :: expired).map Entry.sequence).Nodup)
    (hin : ∀ k' ∈ k₀ :: expired, ∃ p, (k', p) ∈ q.timerList.entries) :
    ResetStep q (q.resetEntry now k₀) ∧ (∃ p, (k₀, p) ∈ q.timerList.entries) ∧
      (expired.map Entry.sequence).Nodup ∧ (∀ k' ∈ expired, k'.sequence ≠ k₀.sequence) ∧
      ∀ k' ∈ expired, ∃ p, (k', p) ∈ (q.resetEntry now k₀).timerList.entries := by
  obtain ⟨hnot, hrest⟩ := List.nodup_cons.mp hnodup
  obtain ⟨p, hp⟩ := hin k₀ List.mem_cons_self
  obtain ⟨hstep, hothers⟩ := resetEntry_step h now hp
  have hseq : ∀ k' ∈ expired, k'.sequence ≠ k₀.sequence := by
    intro k' hk' heq
    apply hnot
    rw [← heq]
    exact List.mem_map_of_mem hk'
  refine ⟨hstep, ⟨p, hp⟩, hrest, hseq, ?_⟩
  intro k' hk'
  obtain ⟨p', hp'⟩ := hin k' (List.mem_cons_of_mem _ hk')
  exact ⟨p', hothers (k', p') hp' (hseq k' hk')⟩

/-- The first loop of `reset`, seen from a timer outside the batch. -/
lemma Scheduled.resetEntries_other (h : Indexed q) (hs : Scheduled q k a t)
    (hnodup : (expired.map Entry.sequence).Nodup)
    (hin : ∀ k' ∈ expired, ∃ p, (k', p) ∈ q.timerList.entries)
    (hne : ∀ k' ∈ expired, k'.sequence ≠ k.sequence) :
    Scheduled (expired.foldl (fun q k' => q.resetEntry now k') q) k a t := by
  induction expired generalizing q with
  | nil => exact hs
  | cons k₀ expired ih =>
    obtain ⟨hstep, ⟨p, hp⟩, hrest, -, hin'⟩ := batch_tail h hnodup hin
    exact ih hstep.indexed (hs.resetEntry_other h hp (hne k₀ List.mem_cons_self)) hrest hin'
      (fun k' hk' => hne k' (List.mem_cons_of_mem _ hk'))

/-- The key of a timer after its restart. -/
def restartedKey (k : Entry) (t : Timer) (now : Int) : Entry := ⟨(t.restart now).expiration, k.sequence⟩

/-- The first loop of `reset`, seen from a repeating timer of the batch. -/
lemma Scheduled.resetEntries_restart (h : Indexed q) (hs : Scheduled q k a t) (hrep : t.isRepeat = true)
    (hnodup : (expired.map Entry.sequence).Nodup)
    (hin : ∀ k' ∈ expired, ∃ p, (k', p) ∈ q.timerList.entries) (hk : k ∈ expired) :
    Scheduled (expired.foldl (fun q k' => q.resetEntry now k') q) (restartedKey k t now) a (t.restart now) := by
  induction expired generalizing q with
  | nil => simp at hk
  | cons k₀ expired ih =>
    obtain ⟨hstep, ⟨p, hp⟩, hrest, hseq, hin'⟩ := batch_tail h hnodup hin
    rw [List.foldl_cons]
    rcases List.mem_cons.mp hk with rfl | hk
    · have hrestarted : Scheduled (q.resetEntry now k) (restartedKey k t now) a (t.restart now) := by
        rw [resetEntry_eq h now hs.entry hs.timer, if_pos ⟨hrep, hs.kept⟩]
        exact ⟨OrderedMap.mem_insert.mpr (Or.inl rfl), by simp [rekeyed], hs.kept⟩
      exact hrestarted.resetEntries_other hstep.indexed hrest hin' hseq
    · exact ih hstep.indexed (hs.resetEntry_other h hp (Ne.symm (hseq k hk))) hrest hin' hk

/-- The first loop of `reset`, seen from a one-shot timer of the batch. -/
lemma Scheduled.resetEntries_once (h : Indexed q) (hs : Scheduled q k a t) (hrep : t.isRepeat = false)
    (hnodup : (expired.map Entry.sequence).Nodup)
    (hin : ∀ k' ∈ expired, ∃ p, (k', p) ∈ q.timerList.entries) (hk : k ∈ expired) :
    (⟨some a, k.sequence⟩ : TimerId) ∉
      (expired.foldl (fun q k' => q.resetEntry now k') q).activeTimerSet := by
  induction expired generalizing q with
  | nil => simp at hk
  | cons k₀ expired ih =>
    obtain ⟨hstep, ⟨p, hp⟩, hrest, hseq, hin'⟩ := batch_tail h hnodup hin
    rw [List.foldl_cons]
    rcases List.mem_cons.mp hk with rfl | hk
    · intro hactive
      have hdead := (resetEntries_step now expired hstep.indexed hrest hin').active _ hactive
      rw [resetEntry_eq h now hs.entry hs.timer, if_neg (by simp [hrep])] at hdead
      exact not_active_removed h k a hdead
    · exact ih hstep.indexed (hs.resetEntry_other h hp (Ne.symm (hseq k hk))) hrest hin' hk

/-- The second loop of `reset` erases other timers only. -/
lemma Scheduled.eraseAll (h : Indexed q) (hs : Scheduled q k a t) (ids : List TimerId)
    (hids : (⟨some a, k.sequence⟩ : TimerId) ∉ ids) :
    Scheduled (ids.foldl TimerQueue.erase q) k a t := by
  induction ids generalizing q with
  | nil => exact hs
  | cons id ids ih =>
    rw [List.mem_cons, not_or] at hids
    refine ih (erase_step h id).1.indexed ?_ hids.2
    rcases erase_cases h id with ⟨-, heq⟩ | ⟨k', b, he, hid, heq⟩
    · rw [heq]
      exact hs
    · have hdiff : ((k, some a) : Entry × Option Nat) ≠ (k', some b) := by
        intro hsame
        obtain ⟨rfl, hab⟩ := Prod.mk.inj hsame
        exact hids.1 (by rw [hid, hab])
      have hab : a ≠ b := h.address_ne hs.entry he hdiff rfl rfl
      rw [heq]
      refine ⟨OrderedMap.mem_erase.mpr ⟨hs.entry, ?_⟩, by simpa [removed, hab] using hs.timer, hs.kept⟩
      intro hkk
      change k = k' at hkk
      subst hkk
      exact hdiff (by rw [OrderedMap.value_unique hs.entry he])

/-- A timer that the first loop leaves scheduled survives the second one. -/
lemma Scheduled.resetTimers {k' : Entry} {t' : Timer}
    (hindexed : Indexed (expired.foldl (fun q k => q.resetEntry now k) q))
    (hs : Scheduled (expired.foldl (fun q k => q.resetEntry now k) q) k' a t') :
    Scheduled (resetTimers q expired now) k' a t' := by
  have herase := hs.eraseAll hindexed _ hs.kept
  exact ⟨herase.entry, herase.timer, by simp [MylibMuduo.Proofs.resetTimers]⟩

section Batch

variable (h : Indexed q) (hs : Scheduled q k a t) (hnodup : (expired.map Entry.sequence).Nodup)
  (hin : ∀ k' ∈ expired, ∃ p, (k', p) ∈ q.timerList.entries)

include h hs hnodup hin

/-- A timer outside the batch keeps its entry. -/
theorem scheduled_of_not_expired (hk : k ∉ expired) : Scheduled (resetTimers q expired now) k a t := by
  refine Scheduled.resetTimers (resetEntries_step now expired h hnodup hin).indexed
    (hs.resetEntries_other h hnodup hin ?_)
  intro k' hk' heq
  obtain ⟨p, hp⟩ := hin k' hk'
  have hsame := h.sequences (k', p) hp (k, some a) hs.entry heq
  exact hk ((Prod.mk.inj hsame).1 ▸ hk')

/-- A repeating timer of the batch is restarted. -/
theorem scheduled_of_repeat (hrep : t.isRepeat = true) (hk : k ∈ expired) :
    Scheduled (resetTimers q expired now) (restartedKey k t now) a (t.restart now) :=
  Scheduled.resetTimers (resetEntries_step now expired h hnodup hin).indexed
    (hs.resetEntries_restart h hrep hnodup hin hk)

/-- A one-shot timer of the batch is destroyed. -/
theorem not_active_of_once (hrep : t.isRepeat = false) (hk : k ∈ expired) :
    (⟨some a, k.sequence⟩ : TimerId) ∉ (resetTimers q expired now).activeTimerSet := by
  have hfirst := resetEntries_step now expired h hnodup hin
  intro hactive
  exact hs.resetEntries_once h hrep hnodup hin hk ((eraseAll_step _ hfirst.indexed).1.active _ hactive)

end Batch

/-- An entry of the list after the loops of `reset` was there before, or is the one of a timer of
the batch that has been restarted. -/
theorem resetTimers_entry (h : Indexed q) (hnodup : (expired.map Entry.sequence).Nodup)
    (hin : ∀ k' ∈ expired, ∃ p, (k', p) ∈ q.timerList.entries)
    (hk : (k, some a) ∈ (resetTimers q expired now).timerList.entries) :
    ∃ k₀ u, (k₀, some a) ∈ q.timerList.entries ∧ k₀.sequence = k.sequence ∧ q.heap a = some u ∧
      ((k₀ ∉ expired ∧ k = k₀ ∧ (resetTimers q expired now).heap a = some u) ∨
        (k₀ ∈ expired ∧ u.isRepeat = true ∧ (⟨some a, k₀.sequence⟩ : TimerId) ∉ q.cancelingTimerSet ∧
          k = restartedKey k₀ u now ∧ (resetTimers q expired now).heap a = some (u.restart now))) := by
  obtain ⟨hstep, hcanceled⟩ := resetTimers_step now expired h hnodup hin
  have hactive : (⟨some a, k.sequence⟩ : TimerId) ∈ (resetTimers q expired now).activeTimerSet :=
    hstep.indexed.mem_active.mpr ⟨(k, some a), hk, rfl⟩
  obtain ⟨⟨k₀, p⟩, he, hid⟩ := h.mem_active.mp (hstep.active _ hactive)
  obtain ⟨rfl, hseq⟩ := TimerId.mk.inj hid
  change k₀.sequence = k.sequence at hseq
  obtain ⟨b, u, hb, hu, -, -⟩ := h.timers (k₀, some a) he
  obtain rfl := Option.some.inj hb
  rw [← hseq] at hactive
  have hs : Scheduled q k₀ a u := ⟨he, hu, fun hc => hcanceled _ hc hactive⟩
  have hkey : ∀ k' t', Scheduled (resetTimers q expired now) k' a t' → k.sequence = k'.sequence → k = k' :=
    fun k' t' hs' heq => (Prod.mk.inj (hstep.indexed.sequences (k, some a) hk _ hs'.entry heq)).1
  refine ⟨k₀, u, he, hseq, hu, ?_⟩
  by_cases hexp : k₀ ∈ expired
  · right
    cases hrep : u.isRepeat with
    | false => exact absurd hactive (not_active_of_once h hs hnodup hin hrep hexp)
    | true =>
      have hnew : Scheduled (resetTimers q expired now) (restartedKey k₀ u now) a (u.restart now) :=
        scheduled_of_repeat h hs hnodup hin hrep hexp
      exact ⟨hexp, rfl, hs.kept, hkey _ _ hnew hseq.symm, hnew.timer⟩
  · have hnew : Scheduled (resetTimers q expired now) k₀ a u :=
      scheduled_of_not_expired h hs hnodup hin hexp
    exact Or.inl ⟨hexp, hkey _ _ hnew hseq.symm, hnew.timer⟩

end MylibMuduo.Proofs
