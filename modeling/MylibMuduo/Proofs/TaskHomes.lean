import MylibMuduo.Proofs.LoopConfinement
import MylibMuduo.Proofs.Destruction

/-!
# The loops of tasks and events

A function of a connection enters no channel into the poller but its own. So the poller of a loop
reports only connections of that loop, and every task waits on the loop that it is for. This holds
whether or not connection names repeat, and also while the server is being destroyed.
-/

namespace MylibMuduo.Proofs

/-! ### Keys -/

section Keys

variable {κ : Type} {P : κ → Prop} {w : ConnContext κ}

/-- The channels that the poller knows satisfy `P`. -/
def Registers (P : κ → Prop) (p : EPollPoller κ) : Prop := ∀ fd e d, p.interest fd = some (e, d) → P d

/-- The connection and the channels that its poller knows satisfy `P`. -/
structure KeysIn (P : κ → Prop) (w : ConnContext κ) : Prop where
  key : P w.key
  registered : Registers P w.poller

lemma registers_update {p : EPollPoller κ} (h : Registers P p) (op : EpollOp) {key : κ} (hkey : P key) (ch : Channel) :
    Registers P (p.update op key ch) := by
  have hset (v : Option (EventMask × κ)) (hv : ∀ m, v = some m → P m.2) (q : EPollPoller κ)
      (hq : q.interest = Function.update p.interest ch.fd v) : Registers P q := by
    intro fd e d hd
    rw [hq] at hd
    by_cases heq : fd = ch.fd
    · rw [heq, Function.update_self] at hd
      exact hv (e, d) hd
    · rw [Function.update_of_ne heq] at hd
      exact h fd e d hd
  have hsome : ∀ m, some (ch.events, key) = some m → P m.2 := by
    rintro m ⟨⟩
    exact hkey
  unfold EPollPoller.update
  split
  · exact hset _ hsome _ rfl
  · exact h
  · exact h
  · exact hset _ hsome _ rfl
  · exact h
  · exact hset none (fun m hm => by cases hm) _ rfl

lemma registers_updateChannel {p : EPollPoller κ} (h : Registers P p) {key : κ} (hkey : P key) (ch : Channel) :
    Registers P (p.updateChannel key ch).1 := by
  unfold EPollPoller.updateChannel
  split
  · split
    · exact h
    · have hentered : Registers P { p with channels := Function.update p.channels ch.fd (some key) } := h
      exact registers_update hentered .add hkey ch
  · split
    · exact h
    · exact registers_update h .add hkey ch
  · split
    · exact registers_update h .del hkey ch
    · exact registers_update h .mod hkey ch

lemma registers_removeChannel {p : EPollPoller κ} (h : Registers P p) {key : κ} (hkey : P key) (ch : Channel) :
    Registers P (p.removeChannel key ch).1 := by
  unfold EPollPoller.removeChannel
  split
  · exact h
  · have herased : Registers P { p with channels := Function.update p.channels ch.fd none } := h
    exact registers_update herased .del hkey ch
  · exact h

lemma KeysIn.enableWriting (h : KeysIn P w) : KeysIn P w.enableWriting :=
  ⟨h.key, registers_updateChannel h.registered h.key _⟩

lemma KeysIn.disableWriting (h : KeysIn P w) : KeysIn P w.disableWriting :=
  ⟨h.key, registers_updateChannel h.registered h.key _⟩

lemma KeysIn.disableAll (h : KeysIn P w) : KeysIn P w.disableAll :=
  ⟨h.key, registers_updateChannel h.registered h.key _⟩

lemma KeysIn.establish (h : KeysIn P w) : KeysIn P w.establish :=
  ⟨h.key, registers_updateChannel h.registered h.key _⟩

lemma KeysIn.notifyWriteComplete (h : KeysIn P w) : KeysIn P w.notifyWriteComplete := by
  unfold ConnContext.notifyWriteComplete
  split
  · exact ⟨h.key, h.registered⟩
  · exact h

lemma KeysIn.appendRemaining (h : KeysIn P w) (rest : Bytes) : KeysIn P (w.appendRemaining rest) := by
  unfold ConnContext.appendRemaining
  split
  · exact h
  · dsimp only
    have hset (w₁ : ConnContext κ) (h₁ : KeysIn P w₁) : KeysIn P
        (if (w₁.setOutput (w₁.conn.outputBuffer.append rest)).conn.channel.isWriting then
          w₁.setOutput (w₁.conn.outputBuffer.append rest)
        else (w₁.setOutput (w₁.conn.outputBuffer.append rest)).enableWriting) := by
      have hout : KeysIn P (w₁.setOutput (w₁.conn.outputBuffer.append rest)) := ⟨h₁.key, h₁.registered⟩
      split
      · exact hout
      · exact hout.enableWriting
    split
    · exact hset _ ⟨h.key, h.registered⟩
    · exact hset w h

lemma KeysIn.sendInLoop (h : KeysIn P w) (data : Bytes) (r : SysResult) : KeysIn P (w.sendInLoop data r) := by
  unfold ConnContext.sendInLoop
  split
  · exact h
  split
  · cases r with
    | ok n =>
      have hacc : KeysIn P (w.accept (data.take n)) := ⟨h.key, h.registered⟩
      dsimp only
      split
      · exact hacc.notifyWriteComplete.appendRemaining _
      · exact hacc.appendRemaining _
    | err e =>
      dsimp only
      split
      · exact h
      · exact h.appendRemaining data
  · exact h.appendRemaining data

lemma KeysIn.awaitFileWrite (h : KeysIn P w) (remaining : Nat) : KeysIn P (w.awaitFileWrite remaining) := by
  unfold ConnContext.awaitFileWrite
  split
  · exact h
  · have hfile : KeysIn P (w.setFile { w.conn.fileToSend with count := remaining }) := ⟨h.key, h.registered⟩
    dsimp only
    split
    · exact hfile
    · exact hfile.enableWriting

lemma KeysIn.setSendingFile (h : KeysIn P w) (b : Bool) : KeysIn P (w.setSendingFile b) := ⟨h.key, h.registered⟩

lemma KeysIn.sendFileInLoop (h : KeysIn P w) (r : SysResult) : KeysIn P (w.sendFileInLoop r) := by
  unfold ConnContext.sendFileInLoop
  split
  · exact h.setSendingFile false
  split
  · dsimp only
    cases r with
    | ok n =>
      have hacc : KeysIn P ((w.accept (((w.files w.conn.fileToSend.fdToSend).drop
          w.conn.fileToSend.fdOffset.toNat).take n)).setFile
          { w.conn.fileToSend with fdOffset := w.conn.fileToSend.fdOffset + n }) := ⟨h.key, h.registered⟩
      dsimp only
      split
      · exact (hacc.notifyWriteComplete.setSendingFile false).disableWriting
      · exact hacc.awaitFileWrite _
    | err e =>
      dsimp only
      split
      · exact h.setSendingFile false
      · exact h.awaitFileWrite _
  · exact h.awaitFileWrite _

lemma KeysIn.shutDownInLoop (h : KeysIn P w) : KeysIn P w.shutDownInLoop := by
  unfold ConnContext.shutDownInLoop
  split
  · exact h
  · exact ⟨h.key, h.registered⟩

lemma KeysIn.appCall (h : KeysIn P w) (c : AppCall) : KeysIn P (w.appCall c) := by
  cases c with
  | send data r =>
    simp only [ConnContext.appCall, ConnContext.send]
    split
    · exact h.sendInLoop data r
    · exact h
  | sendFile fd offset count r =>
    simp only [ConnContext.appCall, ConnContext.sendFile]
    split
    · have hset : KeysIn P ((w.setSendingFile true).setFile ⟨fd, offset, count⟩) := ⟨h.key, h.registered⟩
      exact hset.sendFileInLoop r
    · exact h
  | shutdown =>
    simp only [ConnContext.appCall, ConnContext.shutdown]
    split
    · have hset : KeysIn P (w.setState .kDisConnecting) := ⟨h.key, h.registered⟩
      exact hset.shutDownInLoop
    · exact h
  | retrieve len => exact ⟨h.key, h.registered⟩

lemma KeysIn.appCalls (h : KeysIn P w) (app : List AppCall) : KeysIn P (w.appCalls app) := by
  induction app generalizing w with
  | nil => exact h
  | cons c app ih => exact ih (h.appCall c)

lemma KeysIn.call (h : KeysIn P w) (c : UserCall) : KeysIn P (w.call c) := ⟨h.key, h.registered⟩

lemma KeysIn.connectionCallback (h : KeysIn P w) (app : List AppCall) : KeysIn P (w.connectionCallback app) := by
  unfold ConnContext.connectionCallback
  split
  · exact (h.call _).appCalls app
  · exact h

/-- The connection goes down. -/
lemma KeysIn.down (h : KeysIn P w) (app : List AppCall) :
    KeysIn P (((w.setState .kDisConnected).disableAll).connectionCallback app) := by
  have hset : KeysIn P (w.setState .kDisConnected) := ⟨h.key, h.registered⟩
  exact hset.disableAll.connectionCallback app

lemma KeysIn.handleClose (h : KeysIn P w) (app : List AppCall) : KeysIn P (w.handleClose app) := by
  unfold ConnContext.handleClose ConnContext.closeCallback
  split
  · exact (h.down app).call .close
  · exact h.down app

lemma KeysIn.handleRead (h : KeysIn P w) (r : ReadvResult) (onMessage onDown : List AppCall) :
    KeysIn P (w.handleRead r onMessage onDown) := by
  have hread : KeysIn P { w with conn := { w.conn with inputBuffer := w.conn.inputBuffer.readFd r } } :=
    ⟨h.key, h.registered⟩
  unfold ConnContext.handleRead
  dsimp only
  split
  · exact hread.handleClose onDown
  · split
    · exact (hread.call .message).appCalls onMessage
    · exact hread
  · exact hread.handleClose onDown

lemma KeysIn.handleWrite (h : KeysIn P w) (r : SysResult) : KeysIn P (w.handleWrite r) := by
  rcases handleWrite_inv w r with heq | ⟨n, -, -, heq⟩ | ⟨-, heq⟩
  · rw [heq]
    exact h
  · have hset : KeysIn P ((w.accept (w.conn.outputBuffer.readable.take (n + 1))).setOutput
        (w.conn.outputBuffer.retrieve (n + 1))) := ⟨h.key, h.registered⟩
    have hdrain : KeysIn P (drainOutput w n) := by
      unfold drainOutput
      dsimp only
      split
      · exact hset.disableWriting.notifyWriteComplete
      · exact hset
    rw [heq]
    split
    · exact hdrain.shutDownInLoop
    · exact hdrain
  · rw [heq]
    exact h.sendFileInLoop r

lemma KeysIn.runHandler (h : KeysIn P w) (revent : EventMask) (i : ConnContext.EventInput) (hd : Handler) :
    KeysIn P (w.runHandler revent i hd) := by
  have hite (p : Prop) [Decidable p] (w' : ConnContext κ) (h' : KeysIn P w') : KeysIn P (if p then w' else w) := by
    split
    · exact h'
    · exact h
  cases hd with
  | close => exact hite _ _ (h.handleClose i.onClose)
  | read => exact hite _ _ (h.handleRead i.readv i.onMessage i.onRead)
  | write => exact hite _ _ (h.handleWrite i.write)
  | error => exact hite _ _ (h.handleClose i.onError)

lemma KeysIn.connectionDestroyed (h : KeysIn P w) (app : List AppCall) : KeysIn P (w.connectionDestroyed app) := by
  have hremove (w₁ : ConnContext κ) (h₁ : KeysIn P w₁) :
      KeysIn P (w₁.setChannel (w₁.conn.channel.remove w₁.poller w₁.key)) :=
    ⟨h₁.key, registers_removeChannel h₁.registered h₁.key _⟩
  unfold ConnContext.connectionDestroyed
  dsimp only
  split
  · exact hremove _ (h.down app)
  · exact hremove _ h

lemma KeysIn.runFunctor (h : KeysIn P w) (r : SysResult) (app : List AppCall) (f : Functor) :
    KeysIn P (w.runFunctor r app f) := by
  cases f with
  | sendInLoop data => exact h.sendInLoop data r
  | sendFileInLoop => exact h.sendFileInLoop r
  | shutDownInLoop => exact h.shutDownInLoop
  | writeComplete => exact h.appCalls app
  | highWaterMark => exact h.appCalls app

end Keys

/-! ### Homes -/

section Homes

variable {s s' : TcpServer} {l c : Nat} {x : ServerConn}

/-- The connection is one of loop `l`. -/
def AtHome (s : TcpServer) (l c : Nat) : Prop := ∃ x, s.conns c = some x ∧ x.loop = l

/-- The task is one for loop `l`. -/
def TaskAtHome (s : TcpServer) (l : Nat) (t : Task) : Prop := ∃ x, s.conns t.conn = some x ∧ taskLoop x t = l

/-- What loop `l` has to do, is about to dispatch and has registered is its own. -/
structure LoopHomed (s : TcpServer) (l : Nat) (L : IoLoop) : Prop where
  tasks : ∀ t ∈ L.todo, TaskAtHome s l t
  events : ∀ c, c ∈ L.phase.active ∨ L.phase.guard = some c → AtHome s l c
  registered : Registers (AtHome s l) L.poller

structure Homed (s : TcpServer) : Prop where
  created : ∀ c x, s.conns c = some x → c < s.created
  loops : ∀ l, LoopHomed s l (s.loops l)

lemma homed_make (config : ServerConfig) : Homed (TcpServer.make config) := by
  refine ⟨fun c x hx => (by cases hx), fun l => ⟨fun t ht => ?_, fun c hc => ?_, fun fd e d hd => (by cases hd)⟩⟩
  · exact absurd ht List.not_mem_nil
  · rcases hc with hc | hc
    · exact absurd hc List.not_mem_nil
    · cases hc

/-- Connections keep their loops. -/
lemma LoopHomed.mono {L : IoLoop} (h : LoopHomed s l L)
    (hconns : ∀ c x, s.conns c = some x → ∃ x', s'.conns c = some x' ∧ x'.loop = x.loop) : LoopHomed s' l L := by
  have hhome (c : Nat) (hc : AtHome s l c) : AtHome s' l c := by
    obtain ⟨x, hx, hl⟩ := hc
    obtain ⟨x', hx', hloop⟩ := hconns c x hx
    exact ⟨x', hx', hloop.trans hl⟩
  refine ⟨fun t ht => ?_, fun c hc => hhome c (h.events c hc), fun fd e d hd => hhome d (h.registered fd e d hd)⟩
  obtain ⟨x, hx, hl⟩ := h.tasks t ht
  obtain ⟨x', hx', hloop⟩ := hconns t.conn x hx
  refine ⟨x', hx', ?_⟩
  cases t with
  | removeConnectionInLoop c => exact hl
  | _ => exact hloop.trans hl

lemma Homed.setLoop (h : Homed s) {L : IoLoop} (hL : LoopHomed s l L) : Homed (s.setLoop l L) := by
  refine ⟨h.created, fun k => ?_⟩
  have hkeeps (c : Nat) (x : ServerConn) (hx : s.conns c = some x) :
      ∃ x', (s.setLoop l L).conns c = some x' ∧ x'.loop = x.loop := ⟨x, hx, rfl⟩
  by_cases hk : k = l
  · subst hk
    change LoopHomed _ k (Function.update s.loops k L k)
    rw [Function.update_self]
    exact hL.mono hkeeps
  · change LoopHomed _ k (Function.update s.loops l L k)
    rw [Function.update_of_ne hk]
    exact (h.loops k).mono hkeeps

lemma Homed.setPhase (h : Homed s) {ph : Phase} (hrest : ∀ t ∈ ph.rest, t ∈ (s.loops l).phase.rest)
    (hevents : ∀ c, c ∈ ph.active ∨ ph.guard = some c → AtHome s l c) : Homed (s.setPhase l ph) := by
  refine h.setLoop ⟨fun t ht => (h.loops l).tasks t ?_, hevents, (h.loops l).registered⟩
  rcases List.mem_append.mp ht with hrun | hwait
  · exact List.mem_append_left _ (hrest t hrun)
  · exact List.mem_append_right _ hwait

lemma Homed.setConn (h : Homed s) {x' : ServerConn} (hx : s.conns c = some x) (hloop : x'.loop = x.loop) :
    Homed (s.setConn c x') := by
  refine ⟨fun d y hy => ?_, fun k => (h.loops k).mono fun d y hy => ?_⟩
  · by_cases hd : d = c
    · exact hd ▸ h.created c x hx
    · change Function.update s.conns c (some x') d = some y at hy
      rw [Function.update_of_ne hd] at hy
      exact h.created d y hy
  · by_cases hd : d = c
    · subst hd
      refine ⟨x', Function.update_self _ _ _, hloop.trans ?_⟩
      rw [Option.some.inj (hx.symm.trans hy)]
    · exact ⟨y, (Function.update_of_ne hd _ _).trans hy, rfl⟩

lemma Homed.queueInLoop (h : Homed s) {t : Task} (ht : TaskAtHome s l t) : Homed (s.queueInLoop l t) := by
  refine h.setLoop ⟨fun u hu => ?_, (h.loops l).events, (h.loops l).registered⟩
  rw [IoLoop.todo, ← List.append_assoc] at hu
  rcases List.mem_append.mp hu with hold | hnew
  · exact (h.loops l).tasks u hold
  · exact List.mem_singleton.mp hnew ▸ ht

lemma Homed.context (h : Homed s) (hx : s.conns c = some x) : KeysIn (AtHome s x.loop) (s.context c x) :=
  ⟨⟨x, hx, rfl⟩, (h.loops x.loop).registered⟩

lemma Homed.store (h : Homed s) {w : ConnContext Nat} {e : List LifeEvent} (hx : s.conns c = some x)
    (hw : KeysIn (AtHome s x.loop) w) : Homed (s.store c x w e) := by
  have hset : Homed (s.setConn c (stored x w e)) := h.setConn hx rfl
  refine hset.setLoop ⟨fun t ht => ?_, (hset.loops x.loop).events, fun fd m d hd => ?_⟩
  · rw [IoLoop.todo, ← List.append_assoc] at ht
    rcases List.mem_append.mp ht with hold | hnew
    · exact (hset.loops x.loop).tasks t hold
    · obtain ⟨f, -, rfl⟩ := List.mem_map.mp hnew
      exact ⟨stored x w e, Function.update_self _ _ _, rfl⟩
  · obtain ⟨y, hy, hl⟩ := hw.registered fd m d hd
    by_cases hdc : d = c
    · subst hdc
      exact ⟨stored x w e, Function.update_self _ _ _, rfl⟩
    · exact ⟨y, (Function.update_of_ne hdc _ _).trans hy, hl⟩

lemma Homed.removeConnectionInLoop (h : Homed s) {x' : ServerConn} (hx' : s.conns c = some x')
    (hloop : x'.loop = x.loop) : Homed (s.removeConnectionInLoop c x) := by
  have herased : Homed { s with connectionMap := Function.update s.connectionMap x.name none } :=
    ⟨h.created, fun l => (h.loops l).mono fun c y hy => ⟨y, hy, rfl⟩⟩
  exact herased.queueInLoop ⟨x', hx', hloop⟩

lemma Homed.closeCallback (h : Homed s) {w : ConnContext Nat} {x' : ServerConn} (hx' : s.conns c = some x')
    (hloop : x'.loop = x.loop) : Homed (s.closeCallback l c x w) := by
  unfold TcpServer.closeCallback TcpServer.removeConnection
  split
  · split
    · exact h.removeConnectionInLoop hx' hloop
    · exact h.queueInLoop ⟨x', hx', rfl⟩
  · exact h

lemma Homed.newConnection (h : Homed s) (fd : Nat) : Homed (s.newConnection fd) := by
  let y : ServerConn := ⟨s.getNextLoop.1, TcpServer.connName s.config s.nextConnId,
    TcpConnection.make fd kDefaultWaterMark { s.config.callbacks with close := true }, [], false, [], 0, []⟩
  let v : TcpServer := { s with
    next := s.getNextLoop.2
    nextConnId := TcpServer.incrConnId s.nextConnId
    connectionMap := Function.update s.connectionMap (TcpServer.connName s.config s.nextConnId) (some s.created)
    created := s.created + 1
    conns := Function.update s.conns s.created (some y) }
  have hkeeps (d : Nat) (z : ServerConn) (hz : s.conns d = some z) : v.conns d = some z :=
    (Function.update_of_ne (Nat.ne_of_lt (h.created d z hz)) _ _).trans hz
  have hv : Homed v := by
    refine ⟨fun d z hz => ?_, fun l => (h.loops l).mono fun d z hz => ⟨z, hkeeps d z hz, rfl⟩⟩
    by_cases hd : d = s.created
    · exact Nat.lt_succ_of_le (Nat.le_of_eq hd)
    · change Function.update s.conns s.created (some y) d = some z at hz
      rw [Function.update_of_ne hd] at hz
      exact Nat.lt_succ_of_lt (h.created d z hz)
  exact hv.queueInLoop ⟨y, Function.update_self _ _ _, rfl⟩

lemma Homed.runTask (h : Homed s) {t : Task} (hx : s.conns t.conn = some x) (r : SysResult) (app : List AppCall) :
    Homed (s.runTask r app x t) := by
  have hw := h.context hx
  cases t with
  | connectionEstablished c => exact h.store hx (hw.establish.connectionCallback app)
  | removeConnectionInLoop c => exact h.removeConnectionInLoop hx rfl
  | connectionDestroyed c => exact h.store hx (hw.connectionDestroyed app)
  | functor c f => exact h.store hx (hw.runFunctor r app f)

theorem homed_step {a : ServerStep} (h : Homed s) (htrans : ServerTrans s a s') : Homed s' := by
  cases htrans with
  | @poll l events hphase hnodup =>
    refine h.setPhase (fun t ht => absurd ht List.not_mem_nil) fun c hc => ?_
    rcases hc with hc | hc
    · obtain ⟨⟨d, revent⟩, hd, rfl⟩ := List.mem_map.mp hc
      obtain ⟨e, -, he⟩ := List.mem_filterMap.mp hd
      obtain ⟨m, hm, heq⟩ := Option.map_eq_some_iff.mp he
      obtain ⟨rfl, -⟩ := Prod.mk.inj heq
      exact (h.loops l).registered e.1 m.1 m.2 hm
    · cases hc
  | @accept r hclosed =>
    match r with
    | none => exact h
    | some 0 => exact ⟨h.created, fun l => (h.loops l).mono fun c y hy => ⟨y, hy, rfl⟩⟩
    | some (fd + 1) => exact h.newConnection (fd + 1)
  | @skip l c revent active hphase x hx hheld =>
    refine h.setPhase (fun t ht => absurd ht List.not_mem_nil) fun d hd => ?_
    rcases hd with hd | hd
    · refine (h.loops l).events d (Or.inl ?_)
      rw [hphase]
      exact List.mem_cons_of_mem _ hd
    · cases hd
  | @handleEvent l c revent active hphase x hx =>
    refine Homed.setConn (h.setPhase (fun t ht => absurd ht List.not_mem_nil) fun d hd => ?_) hx rfl
    refine (h.loops l).events d (Or.inl ?_)
    rw [hphase]
    rcases hd with hd | hd
    · exact List.mem_cons_of_mem _ hd
    · exact Option.some.inj hd ▸ List.mem_cons_self
  | @handler l i c revent hd active hphase x hx =>
    have hset : Homed (s.setPhase l (Phase.afterHandler c revent active hd)) := by
      refine h.setPhase (fun t ht => ?_) fun d hmem => (h.loops l).events d ?_
      · cases hd with
        | _ => exact absurd ht List.not_mem_nil
      · rw [hphase]
        cases hd with
        | error =>
          rcases hmem with hmem | hmem
          · exact Or.inl hmem
          · cases hmem
        | _ => exact hmem
    have hstore := hset.store (e := []) hx ((h.context hx).runHandler revent i hd)
    exact hstore.closeCallback (Function.update_self _ _ _) rfl
  | @swap l hphase =>
    refine h.setLoop ⟨fun t ht => (h.loops l).tasks t ?_, fun c hc => ?_, (h.loops l).registered⟩
    · rw [IoLoop.todo, hphase]
      simpa [IoLoop.todo, Phase.rest] using ht
    · rcases hc with hc | hc
      · exact absurd hc List.not_mem_nil
      · cases hc
  | @runTask l r app done t rest hphase x hx =>
    refine Homed.runTask (h.setPhase (fun u hu => ?_) fun c hc => ?_) hx r app
    · rw [hphase]
      exact List.mem_cons_of_mem _ hu
    · rcases hc with hc | hc
      · exact absurd hc List.not_mem_nil
      · cases hc
  | endBatch hphase =>
    refine h.setPhase (fun t ht => absurd ht List.not_mem_nil) fun c hc => ?_
    rcases hc with hc | hc
    · exact absurd hc List.not_mem_nil
    · cases hc
  | app hx => exact h.store hx ((h.context hx).appCall _)
  | hold hx => exact h.setConn hx rfl
  | release hx => exact h.setConn hx rfl

/-- The destructor queues every connection's destruction on its own loop. -/
theorem homed_endStep {s s' : ServerEnd} {a : EndStep} (h : Homed s.server) (hnext : endMachine.next s a = some s') :
    Homed s'.server := by
  cases end_trans hnext with
  | server hpc hv => exact homed_step h (server_trans hv)
  | destructor hpc hperm => exact h
  | @visit c left hpc =>
    change Homed (s.server.destroyConnection c)
    unfold TcpServer.destroyConnection
    split
    · next x hx => exact h.removeConnectionInLoop hx rfl
    · exact h
  | destroyed hpc => exact h

end Homes

end MylibMuduo.Proofs
