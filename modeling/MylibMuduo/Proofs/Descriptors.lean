import MylibMuduo.Proofs.TaskAnchors

/-!
# The descriptors that `accept4` returns

`newConnection` puts an accepted descriptor into the `Socket` of a new connection, and the
destructor of the `Socket` closes it when the last pointer to the connection is gone. A connection
that has lost its last pointer gets no new one, so every `Socket` closes once. `Acceptor::handleRead`
tests `connfd>0`: descriptor 0 goes into no `Socket` and is not closed.
-/

namespace MylibMuduo.Proofs

variable {s s' : TcpServer}

/-! ### Holders -/

lemma StoreStep.closeCallback {c l : Nat} {x : ServerConn} {w w' : ConnContext Nat} {e : List LifeEvent}
    (h : StoreStep s s' c x w e) : StoreStep s (s'.closeCallback l c x w') c x w e := by
  unfold TcpServer.closeCallback TcpServer.removeConnection
  split
  · split
    · exact h.removeConnectionInLoop
    · exact h.queueInLoop 0 rfl
  · exact h

lemma held_runTask (h : ServerInv s) {l : Nat} {done rest : List Task} {t : Task} {x : ServerConn}
    (hphase : (s.loops l).phase = .running done (t :: rest)) (hx : s.conns t.conn = some x) (r : SysResult)
    (app : List AppCall) {d : Nat}
    (hh : ((s.setPhase l (.running (done ++ [t]) rest)).runTask r app x t).Held d) : s.Held d := by
  have hpop : (s.setPhase l (.running (done ++ [t]) rest)).Held d → s.Held d := by
    apply held_setPhase
    · intro u hu
      rw [hphase]
      simpa [Phase.done, Phase.rest] using hu
    · simp [Phase.guard]
  cases t with
  | removeConnectionInLoop c =>
    by_cases hd : d = c
    · have hmem : .removeConnectionInLoop c ∈ todoOf s l c := mem_todoOf_of_phase hphase rfl
      rw [hd]
      exact ((h.conn c x hx).closed_of_task hmem (by simp)).2.2.2
    · have hx₁ : (s.setPhase l (.running (done ++ [.removeConnectionInLoop c]) rest)).conns c = some x := hx
      exact hpop ((storeStep_refl hx₁).removeConnectionInLoop.held d hd hh)
  | _ => exact hpop (held_store hx hh)

/-- No step gives a pointer to a connection that has none. -/
theorem held_step {a : ServerStep} (h : ServerInv s) (hnext : serverMachine.next s a = some s') {d : Nat}
    (hd : d < s.created) (hh : s'.Held d) : s.Held d := by
  cases server_trans hnext with
  | poll hphase hnodup => exact held_setPhase (by simp [Phase.done, Phase.rest]) (by simp [Phase.guard]) hh
  | @accept r hclosed =>
    cases r with
    | none => exact hh
    | some fd =>
      cases fd with
      | zero => exact hh
      | succ fd => exact held_newConnection h (Nat.ne_of_lt hd) hh
  | skip hphase hx hheld => exact held_setPhase (by simp [Phase.done, Phase.rest]) (by simp [Phase.guard]) hh
  | @handleEvent l c revent active hphase x hx =>
    have ha : ActiveIn s l c := activeIn_of_phase hphase
    have hheld : s.Held c := held_of_inMap hx ((h.conn c x hx).live_of_active ha).2.2.1
    by_cases hdc : d = c
    · exact hdc ▸ hheld
    · have hx₁ : (s.setPhase l (.handling c revent .close active)).conns c = some x := hx
      have hset : (s.setPhase l (.handling c revent .close active)).Held d := by
        apply held_setConn hx₁ _ _ hh
        · rfl
        · exact fun hrefs => Or.inl ⟨x, hx, Or.inr hrefs⟩
      refine held_setPhase (by simp [Phase.done, Phase.rest]) (fun hguard => ?_) hset
      exact absurd (Option.some.inj hguard).symm hdc
  | @handler l i c revent hd' active hphase x hx =>
    have hg : GuardedIn s l c := guardedIn_of_phase hphase
    by_cases hdc : d = c
    · exact hdc ▸ h.held_of_guardedIn hg
    · have hx₁ : (s.setPhase l (Phase.afterHandler c revent active hd')).conns c = some x := hx
      have hstep := (phaseStep_handler h hphase)
      refine held_setPhase hstep.tasks (fun hguard => ?_) ((storeStep_store hx₁ _ _).closeCallback.held d hdc hh)
      exact h.held_of_guardedIn (hstep.guard d hguard)
  | swap hphase => exact held_swap s _ hphase hh
  | runTask hphase hx => exact held_runTask h hphase hx _ _ hh
  | endBatch hphase => exact held_setPhase (by simp [Phase.done, Phase.rest]) (by simp [Phase.guard]) hh
  | app hx => exact held_store hx hh
  | hold hx hheld =>
    apply held_setConn hx _ _ hh
    · rfl
    · exact fun _ => hheld
  | release hx hpos =>
    apply held_setConn hx _ _ hh
    · rfl
    · exact fun _ => Or.inl ⟨_, hx, Or.inr hpos⟩

/-! ### Sockets -/

/-- The descriptor of the connection, which its `Socket` and its `Channel` are constructed with. -/
def socketOf (s : TcpServer) (c : Nat) : Option Nat := (s.conns c).map fun x => x.conn.channel.fd

/-- The functions of a connection leave its descriptor alone. -/
theorem runs_fd {a : ServerStep} {c : Nat} {x : ServerConn} {w : ConnContext Nat} (h : ServerInv s)
    (hruns : Runs s a c x w) : w.conn.channel.fd = x.conn.channel.fd := by
  have happ : ∀ (d : Nat) (y : ServerConn) (v : ConnContext Nat), s.conns d = some y →
      (Live (s.context d y) → LiveStep (s.context d y) v) →
      ((s.context d y).conn.state ≠ .kConnected → IdleStep (s.context d y) v) →
      v.conn.channel.fd = y.conn.channel.fd := by
    intro d y v hy hlive hidle
    by_cases hl : Live (s.context d y)
    · exact (hlive hl).fd
    · exact congrArg Channel.fd (hidle ((h.conn d y hy).stage.not_connected hl)).channel
  cases hruns with
  | @handler l i c revent hd active hphase x hx =>
    have hg : GuardedIn s l c := guardedIn_of_phase hphase
    rcases (h.conn c x hx).handled hg with ⟨hlive, -⟩ | ⟨hdead, -⟩
    · rcases runHandler_live hlive revent i hd with hstep | hstep
      · exact hstep.fd
      · exact hstep.fd
    · rcases runHandler_dead hdead revent i hd with hstep | hstep
      · exact congrArg Channel.fd hstep.channel
      · exact hstep.fd
  | @connectionEstablished l r app done c rest hphase x hx =>
    have hmem : .connectionEstablished c ∈ todoOf s l c := mem_todoOf_of_phase hphase rfl
    exact (upStep_connectionEstablished ((h.conn c x hx).fresh_of_task hmem).2.1 app).fd
  | @connectionDestroyed l r app done c rest hphase x hx =>
    have hmem : .connectionDestroyed c ∈ todoOf s l c := mem_todoOf_of_phase hphase rfl
    obtain ⟨-, -, hdead, -⟩ := (h.conn c x hx).closed_of_task hmem (by simp)
    exact (removeStep_dead hdead app).fd
  | @functor l r app done c g rest hphase x hx =>
    rw [h.runFunctor_eq hphase]
    exact happ c x _ hx (fun hl => liveStep_appCalls hl app) (fun hstate => idleStep_appCalls hstate app)
  | @app c call x hx =>
    exact happ c x _ hx (fun hl => liveStep_appCall hl call) (fun hstate => idleStep_appCall hstate call)

lemma socketOf_congr (h : s'.conns = s.conns) (d : Nat) : socketOf s' d = socketOf s d := by
  unfold socketOf
  rw [h]

lemma socketOf_update {c : Nat} {x x' : ServerConn} (hx : s.conns c = some x)
    (hs' : s'.conns = Function.update s.conns c (some x')) (hfd : x'.conn.channel.fd = x.conn.channel.fd)
    (d : Nat) : socketOf s' d = socketOf s d := by
  unfold socketOf
  rw [hs']
  by_cases hd : d = c
  · rw [hd, Function.update_self, hx, Option.map_some, Option.map_some, hfd]
  · rw [Function.update_of_ne hd]

lemma socketOf_setConn {c : Nat} {x : ServerConn} (hx : s.conns c = some x) (x' : ServerConn)
    (hfd : x'.conn.channel.fd = x.conn.channel.fd) (d : Nat) : socketOf (s.setConn c x') d = socketOf s d :=
  socketOf_update hx rfl hfd d

/-- A connection keeps the descriptor that it was created with. -/
theorem socketOf_step {a : ServerStep} (h : ServerInv s) (hnext : serverMachine.next s a = some s') {d : Nat}
    (hd : d < s.created) : socketOf s' d = socketOf s d := by
  cases server_trans hnext with
  | @accept r hclosed =>
    cases r with
    | none => rfl
    | some fd =>
      cases fd with
      | zero => rfl
      | succ fd =>
        unfold socketOf
        exact congrArg _ (newConnection_conns_of_ne (fd + 1) (Nat.ne_of_lt hd))
  | handleEvent hphase hx => exact socketOf_setConn (s := s.setPhase _ _) hx _ (by rfl) d
  | handler hphase hx =>
    exact socketOf_update hx (conns_closeCallback _ _ _ _ _) (runs_fd h (.handler hphase hx)) d
  | @runTask l r app done t rest hphase x hx =>
    cases t with
    | connectionEstablished c =>
      have hruns : Runs s (.runTask l r app) c x _ := .connectionEstablished hphase hx
      rw [TcpServer.runTask, context_setPhase]
      exact socketOf_update hx rfl (runs_fd h hruns) d
    | removeConnectionInLoop c => exact socketOf_congr rfl d
    | connectionDestroyed c =>
      have hruns : Runs s (.runTask l r app) c x _ := .connectionDestroyed hphase hx
      rw [TcpServer.runTask, context_setPhase]
      exact socketOf_update hx rfl (runs_fd h hruns) d
    | functor c f =>
      rw [TcpServer.runTask, context_setPhase]
      exact socketOf_update hx rfl (runs_fd h (.functor hphase hx)) d
  | app hx => exact socketOf_update hx rfl (runs_fd h (.app hx)) d
  | hold hx hheld => exact socketOf_setConn hx _ (by rfl) d
  | release hx hpos => exact socketOf_setConn hx _ (by rfl) d
  | _ => exact socketOf_congr rfl d

/-! ### The open descriptors -/

/-- The connection exists, and its `Socket` is for the descriptor. -/
def Owns (s : TcpServer) (c fd : Nat) : Prop := s.Held c ∧ socketOf s c = some fd

/-- The descriptor that `accept4` returns in the step. -/
def accept4Result : ServerStep → List Nat
  | .accept (some fd) => [fd]
  | _ => []

/-- The connections that lose their last pointer, and so run the destructor of their `Socket`. -/
def released (s s' : TcpServer) : List Nat :=
  (List.range s'.created).filter fun c => decide (s.Held c ∧ ¬s'.Held c)

/-- The server with the descriptors that `accept4` has returned, those of them that the kernel has
open, and the connections whose `Socket` has called `close`, one entry for each call. -/
structure FdLedger where
  server : TcpServer
  accepted : List Nat
  openFds : List Nat
  closed : List Nat

def FdLedger.make (config : ServerConfig) : FdLedger := ⟨TcpServer.make config, [], [], []⟩

/-- The runs of the server in which the identifiers do not wrap. -/
def ledgerMachine : Machine FdLedger ServerStep where
  next f a :=
    if idsFit f.server a then
      (serverMachine.next f.server a).map fun s' =>
        let closing := (released f.server s').filterMap (socketOf f.server)
        { server := s'
          accepted := f.accepted ++ accept4Result a
          openFds := (f.openFds ++ accept4Result a).filter fun fd => decide (fd ∉ closing)
          closed := f.closed ++ released f.server s' }
    else none

/-- Every descriptor that `accept4` has returned is closed or owned by exactly one connection. An
owned one is open, and the `Socket` of a connection that is gone has closed exactly once. -/
structure FdsOwned (f : FdLedger) : Prop where
  owned : ∀ fd ∈ f.accepted, fd ∉ f.openFds ∨ ∃! c, Owns f.server c fd
  unclosed : ∀ c fd, Owns f.server c fd → fd ∈ f.openFds ∧ f.closed.count c = 0
  closedOnce : ∀ c, c < f.server.created → ¬f.server.Held c → f.closed.count c = 1

/-- `accept4` does not return descriptor 0. -/
def notZero (_ : FdLedger) (a : ServerStep) : Prop := a ≠ .accept (some 0)

/-! ### Steps of the ledger -/

lemma owns_lt {c fd : Nat} (h : ServerInv s) (ho : Owns s c fd) : c < s.created := by
  obtain ⟨x, hx, -⟩ := Option.map_eq_some_iff.mp ho.2
  exact (h.conn c x hx).bound

lemma owns_unique {c d fd : Nat} (h : ServerInv s) (hc : Owns s c fd) (hd : Owns s d fd) : c = d := by
  obtain ⟨x, hx, hxfd⟩ := Option.map_eq_some_iff.mp hc.2
  obtain ⟨y, hy, hyfd⟩ := Option.map_eq_some_iff.mp hd.2
  exact h.fds c d x y hx hy hc.1 hd.1 (hxfd.trans hyfd.symm)

/-- The guard of `accept4` in the server's machine. -/
lemma closed_iff (h : ServerInv s) (fd : Nat) : s.Closed fd ↔ fd ∉ s.lost ∧ ∀ c, ¬Owns s c fd := by
  refine and_congr_right fun _ => ⟨fun hclosed c ho => ?_, fun hfree c _ x hx hheld hfd => ?_⟩
  · obtain ⟨x, hx, hfd⟩ := Option.map_eq_some_iff.mp ho.2
    exact hclosed c (owns_lt h ho) x hx ho.1 hfd
  · exact hfree c ⟨hheld, Option.map_eq_some_iff.mpr ⟨x, hx, hfd⟩⟩

lemma mem_released (s s' : TcpServer) (c : Nat) :
    c ∈ released s s' ↔ c < s'.created ∧ s.Held c ∧ ¬s'.Held c := by
  simp [released]

lemma count_released (s s' : TcpServer) (c : Nat) :
    (released s s').count c = if c < s'.created ∧ s.Held c ∧ ¬s'.Held c then 1 else 0 := by
  have hnodup : (released s s').Nodup := List.nodup_range.filter _
  rw [hnodup.count, if_congr (mem_released s s' c) rfl rfl]

/-- The descriptor that the acceptor drops in the step. -/
def dropped : ServerStep → List Nat
  | .accept (some 0) => [0]
  | _ => []

/-- The descriptor that goes into a new connection in the step. -/
def adopted : ServerStep → List Nat
  | .accept (some (fd + 1)) => [fd + 1]
  | _ => []

lemma mem_accept4Result (a : ServerStep) (fd : Nat) : fd ∈ accept4Result a ↔ fd ∈ dropped a ∨ fd ∈ adopted a := by
  cases a with
  | accept r =>
    cases r with
    | none => simp [accept4Result, dropped, adopted]
    | some n => cases n <;> simp [accept4Result, dropped, adopted]
  | _ => simp [accept4Result, dropped, adopted]

lemma not_mem_adopted {a : ServerStep} {fd : Nat} (h : fd ∈ dropped a) : fd ∉ adopted a := by
  cases a with
  | accept r =>
    cases r with
    | none => simp [adopted]
    | some n =>
      cases n with
      | zero => simp [adopted]
      | succ n => cases h
  | _ => cases h

lemma dropped_eq_nil (a : ServerStep) : dropped a = [] ↔ a ≠ .accept (some 0) := by
  cases a with
  | accept r =>
    cases r with
    | none => simp [dropped]
    | some n => cases n <;> simp [dropped]
  | _ => simp [dropped]

/-- What a step does to the owners of the descriptors. -/
structure OwnerStep (s : TcpServer) (a : ServerStep) (s' : TcpServer) : Prop where
  inv : ServerInv s'
  created : s.created ≤ s'.created
  held : ∀ c, c < s.created → s'.Held c → s.Held c
  socket : ∀ c, c < s.created → socketOf s' c = socketOf s c
  fresh : ∀ c, s.created ≤ c → c < s'.created → s'.Held c
  lost : s'.lost = s.lost ++ dropped a
  adopted : ∀ fd, fd ∈ adopted a ↔ ∃ c, s.created ≤ c ∧ Owns s' c fd
  closed : ∀ fd ∈ accept4Result a, s.Closed fd

lemma lost_closeCallback (s : TcpServer) (l c : Nat) (x : ServerConn) (w : ConnContext Nat) :
    (s.closeCallback l c x w).lost = s.lost := by
  unfold TcpServer.closeCallback TcpServer.removeConnection
  split
  · split <;> rfl
  · rfl

lemma lost_step {a : ServerStep} (hnext : serverMachine.next s a = some s') : s'.lost = s.lost ++ dropped a := by
  cases server_trans hnext with
  | @accept r hclosed =>
    cases r with
    | none => exact (List.append_nil _).symm
    | some fd =>
      cases fd with
      | zero => rfl
      | succ fd => exact (List.append_nil _).symm
  | handler hphase hx => exact (lost_closeCallback _ _ _ _ _).trans (List.append_nil _).symm
  | @runTask l r app done t rest hphase x hx => cases t <;> exact (List.append_nil _).symm
  | _ => exact (List.append_nil _).symm

lemma accept_closed {a : ServerStep} (hnext : serverMachine.next s a = some s') :
    ∀ fd ∈ accept4Result a, s.Closed fd := by
  intro fd hfd
  cases server_trans hnext with
  | @accept r hclosed =>
    cases r with
    | none => cases hfd
    | some n =>
      rw [List.mem_singleton.mp hfd]
      exact hclosed n rfl
  | _ => cases hfd

lemma socketOf_newConnection (s : TcpServer) (fd : Nat) : socketOf (s.newConnection fd) s.created = some fd := by
  unfold socketOf
  rw [newConnection_conns_self]
  rfl

theorem ownerStep {a : ServerStep} (h : ServerInv s) (hok : idsFit s a)
    (hnext : serverMachine.next s a = some s') : OwnerStep s a s' := by
  have hinv := (serverInv_step h hok hnext).1
  have hheld : ∀ c, c < s.created → s'.Held c → s.Held c := fun _ hc hh => held_step h hnext hc hh
  have hsocket : ∀ c, c < s.created → socketOf s' c = socketOf s c := fun _ hc => socketOf_step h hnext hc
  by_cases ha : ∃ fd, a = .accept (some (fd + 1))
  · obtain ⟨fd, rfl⟩ := ha
    cases server_trans hnext with
    | accept hclosed =>
      have hcreated : ((s.acceptorHandleRead (some (fd + 1)))).created = s.created + 1 := rfl
      have hnew : (s.newConnection (fd + 1)).Held s.created :=
        held_of_inMap (newConnection_conns_self s (fd + 1)) (newConnection_map_self s (fd + 1))
      refine ⟨hinv, by omega, hheld, hsocket, fun c hlow hhigh => ?_, lost_step hnext, fun g => ?_,
        accept_closed hnext⟩
      · have hc : c = s.created := by omega
        exact hc ▸ hnew
      · rw [Proofs.adopted, List.mem_singleton]
        constructor
        · rintro rfl
          exact ⟨s.created, Nat.le_refl _, hnew, socketOf_newConnection s (fd + 1)⟩
        · rintro ⟨c, hlow, ho⟩
          have hhigh := owns_lt hinv ho
          have hc : c = s.created := by omega
          have hsome := ho.2
          rw [hc] at hsome
          exact Option.some.inj (hsome.symm.trans (socketOf_newConnection s (fd + 1)))
  · have hnone : ∀ fd, a ≠ .accept (some (fd + 1)) := fun fd heq => ha ⟨fd, heq⟩
    have hcreated := (sameConns_step hnext hnone).created
    refine ⟨hinv, by omega, hheld, hsocket, fun c hlow hhigh => by omega, lost_step hnext, fun g => ?_,
      accept_closed hnext⟩
    have hempty : Proofs.adopted a = [] := by
      cases a with
      | accept r =>
        cases r with
        | none => rfl
        | some n =>
          cases n with
          | zero => rfl
          | succ n => exact absurd rfl (hnone n)
      | _ => rfl
    rw [hempty]
    refine iff_of_false (by simp) ?_
    rintro ⟨c, hlow, ho⟩
    have hhigh := owns_lt hinv ho
    omega

/-- What the ledger says in every state that is reached. -/
structure LedgerInv (f : FdLedger) : Prop where
  inv : ServerInv f.server
  isOpen : ∀ fd, fd ∈ f.openFds ↔ fd ∈ f.server.lost ∨ ∃ c, Owns f.server c fd
  free : ∀ fd ∈ f.server.lost, ∀ c, ¬Owns f.server c fd
  lost : ∀ fd ∈ f.server.lost, fd ∈ f.accepted
  closed : ∀ c, f.closed.count c = if c < f.server.created ∧ ¬f.server.Held c then 1 else 0

lemma ledgerInv_make (config : ServerConfig) : LedgerInv (FdLedger.make config) := by
  have hnone : ∀ c fd, ¬Owns (FdLedger.make config).server c fd := by
    rintro c fd ⟨-, hsome⟩
    cases hsome
  refine ⟨serverInv_make config, fun fd => ?_, fun _ _ c => hnone c _, ?_, fun c => ?_⟩
  · refine iff_of_false (by simp [FdLedger.make]) ?_
    rintro (hlost | ⟨c, ho⟩)
    · cases hlost
    · exact hnone c fd ho
  · intro fd hfd
    cases hfd
  · simp [FdLedger.make, TcpServer.make]

/-- The descriptors that the step closes are those of the connections it releases. -/
lemma mem_closing {a : ServerStep} (h : ServerInv s) (hstep : OwnerStep s a s') (fd : Nat) :
    fd ∈ (released s s').filterMap (socketOf s) ↔ ∃ c, Owns s c fd ∧ ¬s'.Held c := by
  rw [List.mem_filterMap]
  constructor
  · rintro ⟨c, hc, hfd⟩
    obtain ⟨-, hheld, hgone⟩ := (mem_released s s' c).mp hc
    exact ⟨c, ⟨hheld, hfd⟩, hgone⟩
  · rintro ⟨c, ho, hgone⟩
    have hbound := Nat.lt_of_lt_of_le (owns_lt h ho) hstep.created
    exact ⟨c, (mem_released s s' c).mpr ⟨hbound, ho.1, hgone⟩, ho.2⟩

/-- The owner of a descriptor after a step has owned it before, or was created for it. -/
lemma owns_step {a : ServerStep} (hstep : OwnerStep s a s') (fd : Nat) :
    (∃ c, Owns s' c fd) ↔ (∃ c, Owns s c fd ∧ c < s.created ∧ s'.Held c) ∨ fd ∈ adopted a := by
  rw [hstep.adopted]
  constructor
  · rintro ⟨c, ho⟩
    by_cases hc : c < s.created
    · exact Or.inl ⟨c, ⟨hstep.held c hc ho.1, (hstep.socket c hc).symm.trans ho.2⟩, hc, ho.1⟩
    · exact Or.inr ⟨c, Nat.le_of_not_lt hc, ho⟩
  · rintro (⟨c, ho, hc, hheld⟩ | ⟨c, -, ho⟩)
    · exact ⟨c, hheld, (hstep.socket c hc).trans ho.2⟩
    · exact ⟨c, ho⟩

lemma not_owns_accepted {a : ServerStep} (h : ServerInv s) (hstep : OwnerStep s a s') {fd : Nat}
    (hfd : fd ∈ accept4Result a) (c : Nat) : ¬Owns s c fd :=
  ((closed_iff h fd).mp (hstep.closed fd hfd)).2 c

/-- The kernel's table after a step: what `accept4` returned is added, and what a `Socket` closed is
gone. -/
lemma isOpen_step {f : FdLedger} {a : ServerStep} (h : LedgerInv f) (hstep : OwnerStep f.server a s') (fd : Nat) :
    fd ∈ (f.openFds ++ accept4Result a).filter
        (fun g => decide (g ∉ (released f.server s').filterMap (socketOf f.server))) ↔
      fd ∈ s'.lost ∨ ∃ c, Owns s' c fd := by
  rw [List.mem_filter, decide_eq_true_eq, List.mem_append, h.isOpen, mem_closing h.inv hstep, owns_step hstep,
    hstep.lost, List.mem_append, mem_accept4Result]
  constructor
  · rintro ⟨(hlost | ⟨c, ho⟩) | (hdrop | hadopt), hnot⟩
    · exact Or.inl (Or.inl hlost)
    · refine Or.inr (Or.inl ⟨c, ho, owns_lt h.inv ho, ?_⟩)
      by_contra hgone
      exact hnot ⟨c, ho, hgone⟩
    · exact Or.inl (Or.inr hdrop)
    · exact Or.inr (Or.inr hadopt)
  · have hresult : ∀ c, fd ∈ dropped a ∨ fd ∈ adopted a → ¬Owns f.server c fd := fun c hfd =>
      not_owns_accepted h.inv hstep ((mem_accept4Result a fd).mpr hfd) c
    rintro ((hlost | hdrop) | (⟨c, ho, -, hheld⟩ | hadopt))
    · exact ⟨Or.inl (Or.inl hlost), fun ⟨c, ho, _⟩ => h.free fd hlost c ho⟩
    · exact ⟨Or.inr (Or.inl hdrop), fun ⟨c, ho, _⟩ => hresult c (Or.inl hdrop) ho⟩
    · refine ⟨Or.inl (Or.inr ⟨c, ho⟩), fun ⟨d, hd, hgone⟩ => hgone ?_⟩
      exact owns_unique h.inv ho hd ▸ hheld
    · exact ⟨Or.inr (Or.inr hadopt), fun ⟨c, ho, _⟩ => hresult c (Or.inr hadopt) ho⟩

/-- A `Socket` calls `close` in the step that takes the last pointer, and only there. -/
lemma closed_step {f : FdLedger} {a : ServerStep} (h : LedgerInv f) (hstep : OwnerStep f.server a s') (c : Nat) :
    (f.closed ++ released f.server s').count c = if c < s'.created ∧ ¬s'.Held c then 1 else 0 := by
  have hcreated := hstep.created
  rw [List.count_append, h.closed, count_released]
  by_cases hc : c < f.server.created
  · have hback := hstep.held c hc
    have hc' : c < s'.created := by omega
    by_cases hheld : f.server.Held c
    · simp [hc', hheld]
    · have hheld' : ¬s'.Held c := fun hh => hheld (hback hh)
      simp [hc, hc', hheld, hheld']
  · by_cases hc' : c < s'.created
    · have hheld' := hstep.fresh c (Nat.le_of_not_lt hc) hc'
      simp [hc, hheld']
    · simp [hc, hc']

lemma ledger_trans {f f' : FdLedger} {a : ServerStep} (h : LedgerInv f)
    (hnext : ledgerMachine.next f a = some f') : OwnerStep f.server a f'.server ∧
      f' = ⟨f'.server, f.accepted ++ accept4Result a, (f.openFds ++ accept4Result a).filter
        (fun g => decide (g ∉ (released f.server f'.server).filterMap (socketOf f.server))),
        f.closed ++ released f.server f'.server⟩ := by
  simp only [ledgerMachine, Option.ite_none_right_eq_some, Option.map_eq_some_iff] at hnext
  obtain ⟨hok, s', hs', rfl⟩ := hnext
  exact ⟨ownerStep h.inv hok hs', rfl⟩

theorem ledgerInv_step {f f' : FdLedger} {a : ServerStep} (h : LedgerInv f)
    (hnext : ledgerMachine.next f a = some f') : LedgerInv f' := by
  obtain ⟨hstep, heq⟩ := ledger_trans h hnext
  generalize f'.server = s' at hstep heq
  subst heq
  refine ⟨hstep.inv, isOpen_step h hstep, fun fd hfd c ho => ?_, fun fd hfd => ?_, closed_step h hstep⟩
  · change fd ∈ s'.lost at hfd
    rw [hstep.lost, List.mem_append] at hfd
    rcases (owns_step hstep fd).mp ⟨c, ho⟩ with ⟨d, hd, -⟩ | hadopt
    · rcases hfd with hlost | hdrop
      · exact h.free fd hlost d hd
      · exact not_owns_accepted h.inv hstep ((mem_accept4Result a fd).mpr (Or.inl hdrop)) d hd
    · rcases hfd with hlost | hdrop
      · have hclosed := hstep.closed fd ((mem_accept4Result a fd).mpr (Or.inr hadopt))
        exact hclosed.1 hlost
      · exact not_mem_adopted hdrop hadopt
  · change fd ∈ s'.lost at hfd
    rw [hstep.lost, List.mem_append] at hfd
    change fd ∈ f.accepted ++ accept4Result a
    rw [List.mem_append, mem_accept4Result]
    exact hfd.imp (h.lost fd) Or.inl

/-- `accept4` may return just the descriptors that are not open. -/
theorem closed_iff_not_open {f : FdLedger} (h : LedgerInv f) (fd : Nat) : f.server.Closed fd ↔ fd ∉ f.openFds := by
  rw [closed_iff h.inv, h.isOpen, not_or, not_exists]

/-- Only the descriptors that the acceptor has dropped are without owner. -/
theorem fdsOwned_iff {f : FdLedger} (h : LedgerInv f) : FdsOwned f ↔ f.server.lost = [] := by
  constructor
  · intro howned
    rw [List.eq_nil_iff_forall_not_mem]
    intro fd hlost
    rcases howned.owned fd (h.lost fd hlost) with hclosed | ⟨c, ho, -⟩
    · exact hclosed ((h.isOpen fd).mpr (Or.inl hlost))
    · exact h.free fd hlost c ho
  · intro hlost
    refine ⟨fun fd _ => ?_, fun c fd ho => ⟨(h.isOpen fd).mpr (Or.inr ⟨c, ho⟩), ?_⟩, fun c hc hgone => ?_⟩
    · by_cases hopen : fd ∈ f.openFds
      · right
        rcases (h.isOpen fd).mp hopen with hmem | ⟨c, ho⟩
        · rw [hlost] at hmem
          cases hmem
        · exact ⟨c, ho, fun d hd => owns_unique h.inv hd ho⟩
      · exact Or.inl hopen
    · rw [h.closed, if_neg (fun hgone => hgone.2 ho.1)]
    · rw [h.closed, if_pos ⟨hc, hgone⟩]

/-- In every run, every descriptor that `accept4` has returned is closed or owned by exactly one
connection, in all states of the run, exactly if `accept4` never returns descriptor 0. -/
theorem accepted_fds_owned_iff (config : ServerConfig) (steps : List ServerStep) (f : FdLedger)
    (hrun : ledgerMachine.run (FdLedger.make config) steps = some f) :
    ledgerMachine.Always FdsOwned (FdLedger.make config) steps ↔
      ledgerMachine.Meets notZero (FdLedger.make config) steps := by
  have hstart := ledgerInv_make config
  refine ledgerMachine.always_iff_meets (I := LedgerInv) ?_ hstart ((fdsOwned_iff hstart).mpr rfl) hrun
  intro g a g' hg howned hnext
  have hg' := ledgerInv_step hg hnext
  obtain ⟨hstep, -⟩ := ledger_trans hg hnext
  refine ⟨?_, fun _ => hg'⟩
  rw [fdsOwned_iff hg', hstep.lost, (fdsOwned_iff hg).mp howned, List.nil_append]
  exact dropped_eq_nil a

instance (f : FdLedger) (a : ServerStep) : Decidable (notZero f a) :=
  inferInstanceAs (Decidable (a ≠ .accept (some 0)))

theorem accepted_fds_owned_iff_one_life :
    ∃ f, ledgerMachine.run (FdLedger.make sampleConfig) oneLife = some f ∧ f.accepted = [7] ∧ f.openFds = [] ∧
      f.closed = [0] ∧ ledgerMachine.Always FdsOwned (FdLedger.make sampleConfig) oneLife := by
  have hend : (ledgerMachine.run (FdLedger.make sampleConfig) oneLife).map
      (fun f => (f.accepted, f.openFds, f.closed)) = some ([7], [], [0]) := by
    decide +kernel
  obtain ⟨f, hrun, hf⟩ := Option.map_eq_some_iff.mp hend
  simp only [Prod.mk.injEq] at hf
  obtain ⟨haccepted, hopen, hclosed⟩ := hf
  exact ⟨f, hrun, haccepted, hopen, hclosed, (accepted_fds_owned_iff sampleConfig oneLife f hrun).mpr (by decide +kernel)⟩

/-- The process has closed its standard input, so the first descriptor is 0. -/
def acceptsZero : List ServerStep := [.poll 0 [], .accept (some 0)]

theorem accepted_zero_is_lost :
    ∃ f, ledgerMachine.run (FdLedger.make sampleConfig) acceptsZero = some f ∧ 0 ∈ f.accepted ∧ 0 ∈ f.openFds ∧
      (∀ c, ¬Owns f.server c 0) ∧ ¬FdsOwned f := by
  have hend : (ledgerMachine.run (FdLedger.make sampleConfig) acceptsZero).map
      (fun f => (f.accepted, f.openFds, f.server.lost)) = some ([0], [0], [0]) := by
    decide +kernel
  obtain ⟨f, hrun, hf⟩ := Option.map_eq_some_iff.mp hend
  simp only [Prod.mk.injEq] at hf
  obtain ⟨haccepted, hopen, hlost⟩ := hf
  have h : LedgerInv f :=
    ledgerMachine.invariant (fun _ _ _ hg hnext => ledgerInv_step hg hnext) (ledgerInv_make sampleConfig) hrun
  refine ⟨f, hrun, by simp [haccepted], by simp [hopen], h.free 0 (by simp [hlost]), fun howned => ?_⟩
  have hnil := (fdsOwned_iff h).mp howned
  rw [hlost] at hnil
  cases hnil

end MylibMuduo.Proofs
