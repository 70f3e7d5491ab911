import MylibMuduo.Proofs.ConnectionStages

/-!
# What a connection queues

Whatever its functions do on the loop thread, the tasks that they put into the queue of the loop
are notifications.
-/

namespace MylibMuduo.Proofs

variable {κ : Type}

lemma notifies_shutDownInLoop (w : ConnContext κ) : Notifies w w.shutDownInLoop := by
  unfold ConnContext.shutDownInLoop
  split <;> exact notifies_of_eq rfl

lemma notifies_appCall (w : ConnContext κ) (c : AppCall) : Notifies w (w.appCall c) := by
  cases c with
  | send data r =>
    simp only [ConnContext.appCall, ConnContext.send]
    split
    · exact (quiet_sendInLoop w data r).queued
    · exact notifies_of_eq rfl
  | sendFile fd offset count r =>
    simp only [ConnContext.appCall, ConnContext.sendFile]
    split
    · exact (quiet_sendFileInLoop ((w.setSendingFile true).setFile ⟨fd, offset, count⟩) r).queued
    · exact notifies_of_eq rfl
  | shutdown =>
    simp only [ConnContext.appCall, ConnContext.shutdown]
    split
    · exact notifies_shutDownInLoop (w.setState .kDisConnecting)
    · exact notifies_of_eq rfl
  | retrieve len => exact notifies_of_eq rfl

lemma notifies_appCalls (w : ConnContext κ) (app : List AppCall) : Notifies w (w.appCalls app) := by
  induction app generalizing w with
  | nil => exact notifies_of_eq rfl
  | cons c app ih => exact (notifies_appCall w c).trans (ih (w.appCall c))

lemma notifies_connectionCallback (w : ConnContext κ) (app : List AppCall) :
    Notifies w (w.connectionCallback app) := by
  unfold ConnContext.connectionCallback
  split
  · exact notifies_appCalls (w.call _) app
  · exact notifies_of_eq rfl

lemma notifies_handleClose (w : ConnContext κ) (app : List AppCall) : Notifies w (w.handleClose app) := by
  have hdown : Notifies w (((w.setState .kDisConnected).disableAll).connectionCallback app) :=
    notifies_connectionCallback ((w.setState .kDisConnected).disableAll) app
  apply hdown.trans
  unfold ConnContext.handleClose ConnContext.closeCallback
  split <;> exact notifies_of_eq rfl

lemma notifies_handleRead (w : ConnContext κ) (r : ReadvResult) (onMessage onDown : List AppCall) :
    Notifies w (w.handleRead r onMessage onDown) := by
  cases hr : readCloses r with
  | true =>
    rw [handleRead_closes w r onMessage onDown hr]
    exact notifies_handleClose (fillInput w r) onDown
  | false =>
    rw [handleRead_data w r onMessage onDown hr]
    split
    · exact notifies_appCalls ((fillInput w r).call .message) onMessage
    · exact notifies_of_eq rfl

lemma notifies_handleWrite (w : ConnContext κ) (r : SysResult) : Notifies w (w.handleWrite r) := by
  rcases handleWrite_inv w r with heq | ⟨n, -, -, heq⟩ | ⟨-, heq⟩
  · rw [heq]
    exact notifies_of_eq rfl
  · have hdrain : Notifies w (drainOutput w n) := (quiet_drainOutput w n).queued
    rw [heq]
    split
    · exact hdrain.trans (notifies_shutDownInLoop _)
    · exact hdrain
  · rw [heq]
    exact (quiet_sendFileInLoop w r).queued

lemma notifies_connectionDestroyed (w : ConnContext κ) (app : List AppCall) :
    Notifies w (w.connectionDestroyed app) := by
  unfold ConnContext.connectionDestroyed
  dsimp only
  split
  · exact notifies_connectionCallback ((w.setState .kDisConnected).disableAll) app
  · exact notifies_of_eq rfl

lemma notifies_runFunctor (w : ConnContext κ) (r : SysResult) (app : List AppCall) (f : Functor) :
    Notifies w (w.runFunctor r app f) := by
  cases f with
  | sendInLoop data => exact (quiet_sendInLoop w data r).queued
  | sendFileInLoop => exact (quiet_sendFileInLoop w r).queued
  | shutDownInLoop => exact notifies_shutDownInLoop w
  | writeComplete => exact notifies_appCalls w app
  | highWaterMark => exact notifies_appCalls w app

end MylibMuduo.Proofs
