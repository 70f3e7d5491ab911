import MylibMuduo.ServerEnd
import MylibMuduo.Proofs.ServerProgress

/-!
# The destructor of the server

While `TcpServer::~TcpServer` goes through the map, the io loops run on. Whatever they do, each
connection has been destroyed in the end, or its destruction waits in the queue of its loop, which
runs it if it makes enough steps. No connection is destroyed before it has been established.
-/

namespace MylibMuduo.Proofs

/-! ### Steps of the io loops -/

/-- The step has run the task `t`. -/
def Ran (ran : Option (Nat × Task)) (t : Task) : Prop := ∃ l, ran = some (l, t)

/-- The task that a step has taken from the queue of loop `l`. -/
def ranOn (ran : Option (Nat × Task)) (l : Nat) : List Task :=
  ran.toList.filterMap fun r => if l = r.1 then some r.2 else none

/-- The tasks that the io loops put into the queue of loop `l`. -/
def IoTask (l : Nat) : Task → Prop
  | .functor _ _ => True
  | .removeConnectionInLoop _ => l = 0
  | _ => False

/-- A step takes what it has run from the front of the queues and may put tasks behind. -/
def TodoStep (ran : Option (Nat × Task)) (s s' : TcpServer) : Prop :=
  ∀ l, ∃ new, (s.loops l).todo ++ new = ranOn ran l ++ (s'.loops l).todo ∧ ∀ t ∈ new, IoTask l t

/-- The connection `c` after a step of an io loop. -/
structure ConnAfter (ran : Option (Nat × Task)) (c : Nat) (x x' : ServerConn) : Prop where
  loop : x'.loop = x.loop
  name : x'.name = x.name
  history : ∃ e, x'.history = x.history ++ e ∧ (.destroyed ∈ e ↔ Ran ran (.connectionDestroyed c)) ∧
    (Ran ran (.connectionEstablished c) → .established ∈ e)

/-- The server after a step of an io loop or of the user. -/
structure IoStep (ran : Option (Nat × Task)) (s s' : TcpServer) : Prop where
  map : s'.connectionMap = s.connectionMap
  config : s'.config = s.config
  unborn : ∀ c, s.conns c = none → s'.conns c = none
  conns : ∀ c x, s.conns c = some x → ∃ x', s'.conns c = some x' ∧ ConnAfter ran c x x'
  todo : TodoStep ran s s'

section IoStep

variable {ran : Option (Nat × Task)} {s s' : TcpServer}

lemma not_ran_none {t : Task} : ¬Ran none t := by
  rintro ⟨l, hl⟩
  cases hl

lemma TodoStep.trans {s₁ s₂ s₃ : TcpServer} (h₁ : TodoStep ran s₁ s₂) (h₂ : TodoStep none s₂ s₃) :
    TodoStep ran s₁ s₃ := by
  intro l
  obtain ⟨new, hnew, htasks⟩ := h₁ l
  obtain ⟨new', hnew', htasks'⟩ := h₂ l
  change _ = (s₃.loops l).todo at hnew'
  refine ⟨new ++ new', ?_, fun t ht => ?_⟩
  · rw [← List.append_assoc, hnew, List.append_assoc, hnew']
  · rcases List.mem_append.mp ht with hmem | hmem
    · exact htasks t hmem
    · exact htasks' t hmem

lemma todoStep_of_eq (h : ∀ l, (s'.loops l).todo = (s.loops l).todo) : TodoStep none s s' :=
  fun l => ⟨[], (List.append_nil _).trans (h l).symm, fun _ ht => absurd ht List.not_mem_nil⟩

lemma todo_queueInLoop (s : TcpServer) (l k : Nat) (t : Task) :
    ((s.queueInLoop l t).loops k).todo = (s.loops k).todo ++ if k = l then [t] else [] := by
  unfold IoLoop.todo
  rw [queueInLoop_phase, queueInLoop_pending, List.append_assoc]

lemma todoStep_queueInLoop (s : TcpServer) {l : Nat} {t : Task} (ht : IoTask l t) :
    TodoStep none s (s.queueInLoop l t) := by
  refine fun k => ⟨if k = l then [t] else [], (todo_queueInLoop s l k t).symm, fun u hu => ?_⟩
  by_cases hk : k = l
  · rw [if_pos hk, List.mem_singleton] at hu
    rw [hk, hu]
    exact ht
  · rw [if_neg hk] at hu
    cases hu

lemma todoStep_store (s : TcpServer) (c : Nat) (x : ServerConn) (w : ConnContext Nat) (e : List LifeEvent) :
    TodoStep none s (s.store c x w e) := by
  refine fun k => ⟨if k = x.loop then w.pendingFunctors.map (Task.functor c) else [], ?_, fun u hu => ?_⟩
  · unfold IoLoop.todo
    rw [store_phase, store_pending, List.append_assoc]
    rfl
  · by_cases hk : k = x.loop
    · rw [if_pos hk] at hu
      obtain ⟨f, -, rfl⟩ := List.mem_map.mp hu
      trivial
    · rw [if_neg hk] at hu
      cases hu

lemma todoStep_pop {l : Nat} {done rest : List Task} {t : Task}
    (hphase : (s.loops l).phase = .running done (t :: rest)) :
    TodoStep (some (l, t)) s (s.setPhase l (.running (done ++ [t]) rest)) := by
  refine fun k => ⟨[], ?_, fun _ ht => absurd ht List.not_mem_nil⟩
  rw [List.append_nil, todo_setPhase]
  by_cases hk : k = l
  · subst hk
    rw [if_pos rfl, IoLoop.todo, hphase]
    simp [ranOn, Phase.rest]
  · simp [ranOn, hk]

lemma connAfter_refl (c : Nat) (x : ServerConn) (hdestroyed : ¬Ran ran (.connectionDestroyed c))
    (hestablished : ¬Ran ran (.connectionEstablished c)) : ConnAfter ran c x x :=
  ⟨rfl, rfl, [], (List.append_nil _).symm, iff_of_false List.not_mem_nil hdestroyed,
    fun hran => absurd hran hestablished⟩

/-- A step that leaves the connections alone. -/
lemma ioStep_of_todo (hmap : s'.connectionMap = s.connectionMap) (hconfig : s'.config = s.config)
    (hconns : s'.conns = s.conns) (htodo : TodoStep none s s') : IoStep none s s' := by
  refine ⟨hmap, hconfig, fun c hc => ?_, fun c x hx => ⟨x, ?_, connAfter_refl c x not_ran_none not_ran_none⟩, htodo⟩
  · rw [hconns]
    exact hc
  · rw [hconns]
    exact hx

/-- A step that changes the connection `c` and runs no task of another one. -/
lemma ioStep_of_conn {c : Nat} {x x' : ServerConn} (hx : s.conns c = some x)
    (hmap : s'.connectionMap = s.connectionMap) (hconfig : s'.config = s.config)
    (hconns : s'.conns = Function.update s.conns c (some x')) (hc : ConnAfter ran c x x')
    (hran : ∀ t, Ran ran t → t.conn = c) (htodo : TodoStep ran s s') : IoStep ran s s' := by
  refine ⟨hmap, hconfig, fun d hd => ?_, fun d y hy => ?_, htodo⟩
  · have hne : d ≠ c := by
      rintro rfl
      rw [hx] at hd
      cases hd
    rw [hconns, Function.update_of_ne hne]
    exact hd
  · by_cases hd : d = c
    · subst hd
      rw [hx, Option.some.injEq] at hy
      subst hy
      exact ⟨x', by rw [hconns, Function.update_self], hc⟩
    · refine ⟨y, by rw [hconns, Function.update_of_ne hd]; exact hy, connAfter_refl d y ?_ ?_⟩
      · exact fun h => hd (hran _ h)
      · exact fun h => hd (hran _ h)

/-- A store of what the loop of `c` has done to it, behind a change of the loop's phase. -/
lemma ioStep_store {s₁ : TcpServer} {c : Nat} {x : ServerConn} (w : ConnContext Nat) {e : List LifeEvent}
    (hx : s.conns c = some x) (hmap : s₁.connectionMap = s.connectionMap) (hconfig : s₁.config = s.config)
    (hconns : s₁.conns = s.conns) (htodo : TodoStep ran s s₁) (hran : ∀ t, Ran ran t → t.conn = c)
    (hdestroyed : .destroyed ∈ e ↔ Ran ran (.connectionDestroyed c))
    (hestablished : Ran ran (.connectionEstablished c) → .established ∈ e) : IoStep ran s (s₁.store c x w e) := by
  have hc : ConnAfter ran c x (stored x w e) := ⟨rfl, rfl, e, rfl, hdestroyed, hestablished⟩
  refine ioStep_of_conn hx hmap hconfig ?_ hc hran
    (htodo.trans (todoStep_store s₁ c x w e))
  change Function.update s₁.conns c (some (stored x w e)) = _
  rw [hconns]

/-- A store without an event of the connection's life. -/
lemma ioStep_store_nil {v : TcpServer} {c : Nat} {x : ServerConn} (w : ConnContext Nat) (hx : s.conns c = some x)
    (hmap : v.connectionMap = s.connectionMap) (hconfig : v.config = s.config) (hconns : v.conns = s.conns)
    (htodo : TodoStep none s v) : IoStep none s (v.store c x w []) :=
  ioStep_store w hx hmap hconfig hconns htodo (fun _ hran => absurd hran not_ran_none)
    (iff_of_false List.not_mem_nil not_ran_none) (fun hran => absurd hran not_ran_none)

/-- The run of a task of an io loop. -/
lemma ioStep_runTask {l : Nat} {done rest : List Task} {t : Task} {x : ServerConn}
    (hphase : (s.loops l).phase = .running done (t :: rest)) (hx : s.conns t.conn = some x)
    (ht : ∀ c, t ≠ .removeConnectionInLoop c) (r : SysResult) (app : List AppCall) :
    IoStep (some (l, t)) s ((s.setPhase l (.running (done ++ [t]) rest)).runTask r app x t) := by
  have hpop := todoStep_pop hphase
  have hran (u : Task) : Ran (some (l, t)) u ↔ u = t :=
    ⟨fun ⟨k, hk⟩ => (Prod.mk.inj (Option.some.inj hk)).2.symm, fun hu => ⟨l, by rw [hu]⟩⟩
  cases t with
  | connectionEstablished c =>
    refine ioStep_store _ hx rfl rfl rfl hpop (fun u hu => by rw [(hran u).mp hu]; rfl) ?_ (fun _ => List.mem_cons_self)
    rw [hran]
    simp
  | removeConnectionInLoop c => exact absurd rfl (ht c)
  | connectionDestroyed c =>
    refine ioStep_store _ hx rfl rfl rfl hpop (fun u hu => by rw [(hran u).mp hu]; rfl) ?_ ?_
    · rw [hran]
      simp
    · rw [hran]
      simp
  | functor c f =>
    refine ioStep_store _ hx rfl rfl rfl hpop (fun u hu => by rw [(hran u).mp hu]; rfl) ?_ ?_
    · rw [hran]
      simp
    · rw [hran]
      simp

/-- The close callback on an io loop. -/
lemma ioStep_closeCallback (s : TcpServer) {l : Nat} (hl : l ≠ 0) (c : Nat) (x : ServerConn) (w : ConnContext Nat) :
    IoStep none s (s.closeCallback l c x w) := by
  unfold TcpServer.closeCallback TcpServer.removeConnection
  rw [if_neg hl]
  split
  · exact ioStep_of_todo rfl rfl rfl (todoStep_queueInLoop s rfl)
  · exact ioStep_of_todo rfl rfl rfl (todoStep_of_eq fun _ => rfl)

lemma IoStep.trans {s₁ s₂ s₃ : TcpServer} (h₁ : IoStep none s₁ s₂) (h₂ : IoStep none s₂ s₃) : IoStep none s₁ s₃ := by
  refine ⟨h₂.map.trans h₁.map, h₂.config.trans h₁.config, fun c hc => h₂.unborn c (h₁.unborn c hc), fun c x hx => ?_,
    h₁.todo.trans h₂.todo⟩
  obtain ⟨x₂, hx₂, hloop, hname, e, he, hdestroyed, hestablished⟩ := h₁.conns c x hx
  obtain ⟨x₃, hx₃, hloop', hname', e', he', hdestroyed', -⟩ := h₂.conns c x₂ hx₂
  refine ⟨x₃, hx₃, hloop'.trans hloop, hname'.trans hname, e ++ e', ?_, ?_, fun hran => absurd hran not_ran_none⟩
  · rw [he', he, List.append_assoc]
  · rw [List.mem_append, hdestroyed, hdestroyed', or_self]

/-- What a step of another thread than that of the base loop can do. -/
theorem io_step {a : ServerStep} (htrans : ServerTrans s a s') (hbase : a.thread s ≠ some 0)
    (hremoval : ∀ l c, .removeConnectionInLoop c ∈ (s.loops l).todo → l = 0) : ∃ ran, IoStep ran s s' := by
  have hphase {l : Nat} {ph : Phase} (hrest : ph.rest = (s.loops l).phase.rest) : TodoStep none s (s.setPhase l ph) :=
    todoStep_of_eq fun k => todo_setPhase_same s l k ph hrest
  cases htrans with
  | poll hpoll hnodup => exact ⟨none, ioStep_of_todo rfl rfl rfl (hphase (by rw [hpoll]; rfl))⟩
  | accept hclosed => exact absurd rfl hbase
  | skip hdispatch hx hheld => exact ⟨none, ioStep_of_todo rfl rfl rfl (hphase (by rw [hdispatch]; rfl))⟩
  | @handleEvent l c revent active hdispatch x hx =>
    have hc : ConnAfter none c x { x with history := x.history ++ [.dispatched] } :=
      ⟨rfl, rfl, [.dispatched], rfl, iff_of_false (by simp) not_ran_none, fun hran => absurd hran not_ran_none⟩
    have htodo : TodoStep none s (s.setPhase l (.handling c revent .close active)) :=
      hphase (by rw [hdispatch]; rfl)
    exact ⟨none, ioStep_of_conn hx rfl rfl rfl hc (fun _ hran => absurd hran not_ran_none) htodo⟩
  | @handler l i c revent hd active hhandling x hx =>
    have hl : l ≠ 0 := fun hzero => hbase (by rw [hzero]; rfl)
    have hrest : (Phase.afterHandler c revent active hd).rest = (s.loops l).phase.rest := by
      rw [hhandling]
      cases hd with
      | _ => rfl
    have hstore := ioStep_store_nil (v := s.setPhase l (Phase.afterHandler c revent active hd))
      ((s.context c x).runHandler revent i hd) hx rfl rfl rfl (hphase hrest)
    exact ⟨none, hstore.trans (ioStep_closeCallback _ hl c x _)⟩
  | @swap l hdispatch =>
    exact ⟨none, ioStep_of_todo rfl rfl rfl (todoStep_of_eq fun k => todo_swap s l k hdispatch)⟩
  | @runTask l r app done t rest hrunning x hx =>
    refine ⟨_, ioStep_runTask hrunning hx (fun c ht => hbase ?_) r app⟩
    have hmem : .removeConnectionInLoop c ∈ (s.loops l).todo := by
      rw [IoLoop.todo, hrunning, ht]
      exact List.mem_append_left _ List.mem_cons_self
    exact congrArg some (hremoval l c hmem)
  | endBatch hrunning => exact ⟨none, ioStep_of_todo rfl rfl rfl (hphase (by rw [hrunning]; rfl))⟩
  | app hx => exact ⟨none, ioStep_store_nil _ hx rfl rfl rfl (todoStep_of_eq fun _ => rfl)⟩
  | @hold c x hx hheld =>
    have hc : ConnAfter none c x { x with userRefs := x.userRefs + 1 } :=
      ⟨rfl, rfl, (connAfter_refl c x not_ran_none not_ran_none).history⟩
    exact ⟨none, ioStep_of_conn hx rfl rfl rfl hc (fun _ hran => absurd hran not_ran_none) (todoStep_of_eq fun _ => rfl)⟩
  | @release c x hx hpos =>
    have hc : ConnAfter none c x { x with userRefs := x.userRefs - 1 } :=
      ⟨rfl, rfl, (connAfter_refl c x not_ran_none not_ran_none).history⟩
    exact ⟨none, ioStep_of_conn hx rfl rfl rfl hc (fun _ hran => absurd hran not_ran_none) (todoStep_of_eq fun _ => rfl)⟩

end IoStep

/-! ### The destructor -/

/-- The connection has been destroyed, or its destruction waits on its loop. -/
def DestructionWaits (s : TcpServer) (c : Nat) (x : ServerConn) : Prop :=
  .destroyed ∈ x.history ∨ .connectionDestroyed c ∈ (s.loops x.loop).todo

/-- The connection is still to be established, before its destruction. -/
def EstablishmentWaits (s : TcpServer) (c : Nat) (x : ServerConn) : Prop :=
  .destroyed ∉ x.history ∧ ∃ pre post, (s.loops x.loop).todo = pre ++ .connectionEstablished c :: post ∧
    .connectionDestroyed c ∉ pre

/-- The server while the destructor has the connections `left` to visit. -/
structure Ending (left : List Nat) (s : TcpServer) : Prop where
  removal : ∀ l c, .removeConnectionInLoop c ∈ (s.loops l).todo → l = 0
  home : ∀ l c x, s.conns c = some x → .connectionDestroyed c ∈ (s.loops l).todo → l = x.loop
  place : ∀ c x, s.conns c = some x → x.loop ≤ s.config.numThreads
  map : ∀ name c, s.connectionMap name = some c → c ∈ left ∧ ∃ x, s.conns c = some x ∧ x.name = name
  waits : ∀ c x, s.conns c = some x → c ∉ left → DestructionWaits s c x
  order : ∀ c x, s.conns c = some x → .established ∈ x.history ∨ EstablishmentWaits s c x

section Ending

variable {ran : Option (Nat × Task)} {left : List Nat} {s s' : TcpServer}

lemma ranOn_self {l : Nat} {t : Task} : ranOn (some (l, t)) l = [t] := by
  simp [ranOn]

lemma ranOn_cases (ran : Option (Nat × Task)) (l : Nat) :
    ranOn ran l = [] ∨ ∃ t, ran = some (l, t) ∧ ranOn ran l = [t] := by
  cases ran with
  | none => exact Or.inl rfl
  | some r =>
    obtain ⟨k, t⟩ := r
    by_cases hk : l = k
    · subst hk
      exact Or.inr ⟨t, rfl, ranOn_self⟩
    · left
      simp [ranOn, hk]

/-- A task leaves a queue only by being run. -/
lemma TodoStep.mem (h : TodoStep ran s s') {l : Nat} {t : Task} (ht : t ∈ (s.loops l).todo) :
    Ran ran t ∨ t ∈ (s'.loops l).todo := by
  obtain ⟨new, hnew, -⟩ := h l
  have hmem : t ∈ ranOn ran l ++ (s'.loops l).todo := hnew ▸ List.mem_append_left _ ht
  rcases ranOn_cases ran l with hnone | ⟨u, hran, hone⟩
  · rw [hnone] at hmem
    exact Or.inr hmem
  · rw [hone, List.singleton_append, List.mem_cons] at hmem
    rcases hmem with rfl | hmem
    · exact Or.inl ⟨l, hran⟩
    · exact Or.inr hmem

/-- What comes into a queue is put there by an io loop. -/
lemma TodoStep.of_mem (h : TodoStep ran s s') {l : Nat} {t : Task} (ht : t ∈ (s'.loops l).todo) :
    t ∈ (s.loops l).todo ∨ IoTask l t := by
  obtain ⟨new, hnew, htasks⟩ := h l
  have hmem : t ∈ (s.loops l).todo ++ new := hnew ▸ List.mem_append_right _ ht
  rcases List.mem_append.mp hmem with hmem | hmem
  · exact Or.inl hmem
  · exact Or.inr (htasks t hmem)

/-- What a step runs was in the queue of its loop. -/
lemma TodoStep.of_ran {l : Nat} {t : Task} (h : TodoStep (some (l, t)) s s') (ht : ¬IoTask l t) :
    t ∈ (s.loops l).todo := by
  obtain ⟨new, hnew, htasks⟩ := h l
  rw [ranOn_self, List.singleton_append] at hnew
  have hmem : t ∈ (s.loops l).todo ++ new := hnew ▸ List.mem_cons_self
  rcases List.mem_append.mp hmem with hmem | hmem
  · exact hmem
  · exact absurd (htasks t hmem) ht

/-- A task in a queue is run, or it stays there behind those of the tasks before it that are left. -/
lemma TodoStep.before (h : TodoStep ran s s') {l : Nat} {pre post : List Task} {t : Task}
    (ht : (s.loops l).todo = pre ++ t :: post) :
    Ran ran t ∨ ∃ pre' post', (s'.loops l).todo = pre' ++ t :: post' ∧ pre = ranOn ran l ++ pre' := by
  obtain ⟨new, hnew, -⟩ := h l
  rw [ht, List.append_assoc, List.cons_append] at hnew
  rcases ranOn_cases ran l with hnone | ⟨u, hran, hone⟩
  · rw [hnone, List.nil_append] at hnew
    exact Or.inr ⟨pre, post ++ new, hnew.symm, by rw [hnone, List.nil_append]⟩
  · rw [hone, List.singleton_append] at hnew
    rw [hone]
    cases pre with
    | nil =>
      obtain ⟨rfl, -⟩ := List.cons.inj hnew
      exact Or.inl ⟨l, hran⟩
    | cons p pre =>
      obtain ⟨rfl, htail⟩ := List.cons.inj hnew
      exact Or.inr ⟨pre, post ++ new, htail.symm, rfl⟩

lemma DestructionWaits.step {c : Nat} {x x' : ServerConn} (h : DestructionWaits s c x) (htodo : TodoStep ran s s')
    (hc : ConnAfter ran c x x') : DestructionWaits s' c x' := by
  obtain ⟨e, he, hdestroyed, -⟩ := hc.history
  unfold DestructionWaits
  rw [he, hc.loop]
  rcases h with hdone | hwaits
  · exact Or.inl (List.mem_append_left _ hdone)
  · rcases htodo.mem hwaits with hran | hmem
    · exact Or.inl (List.mem_append_right _ (hdestroyed.mpr hran))
    · exact Or.inr hmem

lemma EstablishmentWaits.step {c : Nat} {x x' : ServerConn} (h : EstablishmentWaits s c x)
    (hhome : ∀ l, .connectionDestroyed c ∈ (s.loops l).todo → l = x.loop) (htodo : TodoStep ran s s')
    (hc : ConnAfter ran c x x') : .established ∈ x'.history ∨ EstablishmentWaits s' c x' := by
  obtain ⟨hnot, pre, post, hpre, hbefore⟩ := h
  obtain ⟨e, he, hdestroyed, hestablished⟩ := hc.history
  unfold EstablishmentWaits
  rw [he, hc.loop]
  rcases htodo.before hpre with hran | ⟨pre', post', htodo', hsplit⟩
  · exact Or.inl (List.mem_append_right _ (hestablished hran))
  · refine Or.inr ⟨fun hmem => ?_, pre', post', htodo', fun hmem => hbefore (hsplit ▸ List.mem_append_right _ hmem)⟩
    rcases List.mem_append.mp hmem with hold | hnew
    · exact hnot hold
    · -- The destruction would have been in front of the establishment.
      obtain ⟨l, rfl⟩ := hdestroyed.mp hnew
      have hl := hhome l (htodo.of_ran id)
      rw [hl, ranOn_self] at hsplit
      exact hbefore (hsplit ▸ List.mem_cons_self)

/-- The io loops keep what the destructor relies on. -/
theorem Ending.io (h : Ending left s) (hio : IoStep ran s s') : Ending left s' := by
  have hback (c : Nat) (x' : ServerConn) (hx' : s'.conns c = some x') : ∃ x, s.conns c = some x ∧ ConnAfter ran c x x' := by
    cases hx : s.conns c with
    | none =>
      rw [hio.unborn c hx] at hx'
      cases hx'
    | some x =>
      obtain ⟨y, hy, hc⟩ := hio.conns c x hx
      rw [hx', Option.some.injEq] at hy
      exact ⟨x, rfl, hy ▸ hc⟩
  refine ⟨fun l c hmem => ?_, fun l c x' hx' hmem => ?_, fun c x' hx' => ?_, fun name c hname => ?_,
    fun c x' hx' hleft => ?_, fun c x' hx' => ?_⟩
  · rcases hio.todo.of_mem hmem with hmem | htask
    · exact h.removal l c hmem
    · exact htask
  · obtain ⟨x, hx, hc⟩ := hback c x' hx'
    rw [hc.loop]
    rcases hio.todo.of_mem hmem with hmem | htask
    · exact h.home l c x hx hmem
    · exact htask.elim
  · obtain ⟨x, hx, hc⟩ := hback c x' hx'
    rw [hc.loop, hio.config]
    exact h.place c x hx
  · rw [hio.map] at hname
    obtain ⟨hleft, x, hx, hxname⟩ := h.map name c hname
    obtain ⟨x', hx', hc⟩ := hio.conns c x hx
    exact ⟨hleft, x', hx', hc.name.trans hxname⟩
  · obtain ⟨x, hx, hc⟩ := hback c x' hx'
    exact (h.waits c x hx hleft).step hio.todo hc
  · obtain ⟨x, hx, hc⟩ := hback c x' hx'
    rcases h.order c x hx with hdone | hwaits
    · obtain ⟨e, he, -⟩ := hc.history
      rw [he]
      exact Or.inl (List.mem_append_left _ hdone)
    · exact hwaits.step (fun l hmem => h.home l c x hx hmem) hio.todo hc

theorem Ending.step (h : Ending left s) {a : ServerStep} (hbase : a.thread s ≠ some 0)
    (hnext : serverMachine.next s a = some s') : Ending left s' := by
  obtain ⟨ran, hio⟩ := io_step (server_trans hnext) hbase h.removal
  exact h.io hio

/-- A visit of the destructor to the connection `x`. -/
lemma Ending.visit {c : Nat} {x : ServerConn} (h : Ending (c :: left) s) (hx : s.conns c = some x) :
    Ending left (TcpServer.queueInLoop { s with connectionMap := Function.update s.connectionMap x.name none }
      x.loop (.connectionDestroyed c)) := by
  have htodo (l : Nat) := todo_queueInLoop
    { s with connectionMap := Function.update s.connectionMap x.name none } x.loop l (.connectionDestroyed c)
  refine ⟨fun l d hmem => ?_, fun l d y hy hmem => ?_, h.place, fun name d hname => ?_, fun d y hy hleft => ?_,
    fun d y hy => ?_⟩
  · rw [htodo] at hmem
    rcases List.mem_append.mp hmem with hmem | hmem
    · exact h.removal l d hmem
    · split at hmem <;> simp at hmem
  · rw [htodo] at hmem
    change s.conns d = some y at hy
    rcases List.mem_append.mp hmem with hmem | hmem
    · exact h.home l d y hy hmem
    · split at hmem
      · next hl =>
        obtain rfl : d = c := by simpa using hmem
        rw [hx, Option.some.injEq] at hy
        rw [hl, hy]
      · cases hmem
  · change Function.update s.connectionMap x.name none name = some d at hname
    by_cases hsame : name = x.name
    · rw [hsame, Function.update_self] at hname
      cases hname
    · rw [Function.update_of_ne hsame] at hname
      obtain ⟨hleft, y, hy, hyname⟩ := h.map name d hname
      refine ⟨(List.mem_cons.mp hleft).resolve_left ?_, y, hy, hyname⟩
      rintro rfl
      rw [hx, Option.some.injEq] at hy
      exact hsame (hy ▸ hyname.symm)
  · unfold DestructionWaits
    change s.conns d = some y at hy
    rw [htodo, List.mem_append]
    by_cases hd : d = c
    · subst hd
      rw [hx, Option.some.injEq] at hy
      rw [hy, if_pos rfl]
      exact Or.inr (Or.inr List.mem_cons_self)
    · have hnot : d ∉ c :: left := fun hmem => hleft ((List.mem_cons.mp hmem).resolve_left hd)
      exact (h.waits d y hy hnot).imp_right Or.inl
  · rcases h.order d y hy with hdone | ⟨hnot, pre, post, hpre, hbefore⟩
    · exact Or.inl hdone
    · refine Or.inr ⟨hnot, pre, post ++ if y.loop = x.loop then [.connectionDestroyed c] else [], ?_, hbefore⟩
      rw [htodo]
      change (s.loops y.loop).todo ++ _ = _
      rw [hpre, List.append_assoc]
      rfl

theorem Ending.destroyConnection {c : Nat} (h : Ending (c :: left) s) : Ending left (s.destroyConnection c) := by
  unfold TcpServer.destroyConnection
  cases hx : s.conns c with
  | none =>
    have hne {d : Nat} {y : ServerConn} (hy : s.conns d = some y) : d ≠ c := by
      rintro rfl
      rw [hx] at hy
      cases hy
    refine ⟨h.removal, h.home, h.place, fun name d hname => ?_, fun d y hy hleft => ?_, h.order⟩
    · obtain ⟨hleft, y, hy, hyname⟩ := h.map name d hname
      exact ⟨(List.mem_cons.mp hleft).resolve_left (hne hy), y, hy, hyname⟩
    · exact h.waits d y hy (fun hmem => hleft ((List.mem_cons.mp hmem).resolve_left (hne hy)))
  | some x => exact h.visit hx

/-- The connections that the destructor visits are those of the map. -/
lemma mem_mapped {c : Nat} {x : ServerConn} (h : ServerInv s) (hx : s.conns c = some x) :
    c ∈ s.mapped ↔ InMap s c x := by
  have hbound := (h.conn c x hx).bound
  simp [TcpServer.mapped, hx, hbound, InMap]

/-- A connection that is still to be established has no other task. -/
lemma ConnInv.establishmentWaits {c : Nat} {x : ServerConn} (h : ConnInv s c x) :
    .established ∈ x.history ∨ EstablishmentWaits s c x := by
  cases h.stage with
  | fresh _ history _ task =>
    have hmem : .connectionEstablished c ∈ (s.loops x.loop).todo :=
      (mem_todoOf.mp (task ▸ List.mem_cons_self)).1
    obtain ⟨pre, post, hpre⟩ := List.append_of_mem hmem
    refine Or.inr ⟨by simp [history], pre, post, hpre, fun hbefore => ?_⟩
    have htask : .connectionDestroyed c ∈ todoOf s x.loop c :=
      mem_todoOf.mpr ⟨hpre ▸ List.mem_append_left _ hbefore, rfl⟩
    rw [task] at htask
    simp at htask
  | live _ history | closed _ _ history =>
    obtain ⟨rest, hrest, -⟩ := history
    exact Or.inl (hrest ▸ List.mem_cons_self)
  | gone _ _ _ history =>
    obtain ⟨rest, hrest, -⟩ := history
    exact Or.inl (hrest ▸ List.mem_cons_self)

/-- The server as the destructor finds it. -/
theorem ending_of_inv (h : ServerInv s) (hperm : left.Perm s.mapped) : Ending left s := by
  have hmapped {c : Nat} {x : ServerConn} (hx : s.conns c = some x) : c ∈ left ↔ InMap s c x := by
    rw [hperm.mem_iff]
    exact mem_mapped h hx
  refine ⟨fun l c hmem => ?_, fun l c x hx hmem => ?_, fun c x hx => (h.conn c x hx).loop, fun name c hname => ?_,
    fun c x hx hleft => ?_, fun c x hx => (h.conn c x hx).establishmentWaits⟩
  · have htask : .removeConnectionInLoop c ∈ todoOf s l c := mem_todoOf.mpr ⟨hmem, rfl⟩
    cases hx : s.conns c with
    | none =>
      rw [(h.unborn c hx l).1] at htask
      cases htask
    | some x =>
      rcases ((h.conn c x hx).closed_of_task htask (by simp)).1 l _ htask with ⟨-, hl⟩ | ⟨hne, -⟩
      · exact hl
      · cases hne
  · have htask : .connectionDestroyed c ∈ todoOf s l c := mem_todoOf.mpr ⟨hmem, rfl⟩
    rcases ((h.conn c x hx).closed_of_task htask (by simp)).1 l _ htask with ⟨hne, -⟩ | ⟨-, hl⟩
    · cases hne
    · exact hl
  · obtain ⟨x, hx, hxname⟩ := h.map name c hname
    refine ⟨(hmapped hx).mpr ?_, x, hx, hxname⟩
    unfold InMap
    rw [hxname]
    exact hname
  · exact destruction_waits (h.conn c x hx) fun hmap => hleft ((hmapped hx).mpr hmap)

end Ending

/-! ### Runs -/

/-- All that a step can do. -/
inductive EndTrans (s : ServerEnd) : EndStep → ServerEnd → Prop
  | server {a : ServerStep} {v : TcpServer} (hpc : s.pc = .running ∨ a.thread s.server ≠ some 0)
      (hnext : serverMachine.next s.server a = some v) : EndTrans s (.server a) { s with server := v }
  | destructor {order : List Nat} (hpc : s.pc = .running) (hperm : order.Perm s.server.mapped) :
      EndTrans s (.destructor order) { s with pc := .destroying order }
  | visit {c : Nat} {left : List Nat} (hpc : s.pc = .destroying (c :: left)) :
      EndTrans s .destroyNext ⟨s.server.destroyConnection c, .destroying left⟩
  | destroyed (hpc : s.pc = .destroying []) : EndTrans s .destroyNext { s with pc := .destroyed }

theorem end_trans {s s' : ServerEnd} {a : EndStep} (hnext : endMachine.next s a = some s') : EndTrans s a s' := by
  cases a with
  | server a =>
    simp only [endMachine, Option.ite_none_right_eq_some, Option.map_eq_some_iff] at hnext
    obtain ⟨hpc, v, hv, rfl⟩ := hnext
    exact .server hpc hv
  | destructor order =>
    simp only [endMachine, Option.ite_none_right_eq_some, Option.some.injEq] at hnext
    exact hnext.2 ▸ .destructor hnext.1.1 hnext.1.2
  | destroyNext =>
    simp only [endMachine] at hnext
    split at hnext
    · next c left hpc => exact Option.some.inj hnext ▸ .visit hpc
    · next hpc => exact Option.some.inj hnext ▸ .destroyed hpc
    · cases hnext

/-- Connection numbers fit, as in the runs without destructor. -/
def endIdsFit (s : ServerEnd) : EndStep → Prop
  | .server a => idsFit s.server a
  | _ => True

instance (s : ServerEnd) : (a : EndStep) → Decidable (endIdsFit s a)
  | .server a => inferInstanceAs (Decidable (idsFit s.server a))
  | .destructor _ => isTrue trivial
  | .destroyNext => isTrue trivial

/-- The server before, in and after its destructor. -/
def EndInv (s : ServerEnd) : Prop :=
  match s.pc with
  | .running => ServerInv s.server
  | .destroying left => Ending left s.server
  | .destroyed => Ending [] s.server

theorem endInv_step {s s' : ServerEnd} {a : EndStep} (h : EndInv s) (hids : endIdsFit s a)
    (hnext : endMachine.next s a = some s') : EndInv s' := by
  unfold EndInv at h ⊢
  cases end_trans hnext with
  | @server a v hpc hv =>
    dsimp only
    cases hphase : s.pc with
    | running =>
      rw [hphase] at h
      exact (serverInv_step h hids hv).1
    | destroying left =>
      rw [hphase] at h
      exact h.step (hpc.resolve_left (by simp [hphase])) hv
    | destroyed =>
      rw [hphase] at h
      exact h.step (hpc.resolve_left (by simp [hphase])) hv
  | destructor hpc hperm =>
    rw [hpc] at h
    exact ending_of_inv h hperm
  | visit hpc =>
    rw [hpc] at h
    exact h.destroyConnection
  | destroyed hpc =>
    rw [hpc] at h
    exact h

/-- A connection has been established, or it waits for that in front of its destruction. -/
lemma EndInv.establishmentWaits {s : ServerEnd} (h : EndInv s) {c : Nat} {x : ServerConn}
    (hx : s.server.conns c = some x) : .established ∈ x.history ∨ EstablishmentWaits s.server c x := by
  unfold EndInv at h
  cases hpc : s.pc with
  | running =>
    rw [hpc] at h
    exact (h.conn c x hx).establishmentWaits
  | destroying left =>
    rw [hpc] at h
    exact h.order c x hx
  | destroyed =>
    rw [hpc] at h
    exact h.order c x hx

lemma EndInv.place {s : ServerEnd} (h : EndInv s) {c : Nat} {x : ServerConn} (hx : s.server.conns c = some x) :
    x.loop ≤ s.server.config.numThreads := by
  unfold EndInv at h
  cases hpc : s.pc with
  | running =>
    rw [hpc] at h
    exact (h.conn c x hx).loop
  | destroying left =>
    rw [hpc] at h
    exact h.place c x hx
  | destroyed =>
    rw [hpc] at h
    exact h.place c x hx

/-- No connection is destroyed before it has been established. After the destructor the map is empty,
and every connection has been destroyed or is kept for its destruction, which its loop runs within
its number of steps. -/
theorem destructor_destroys_connections (config : ServerConfig) (steps : List EndStep) (s : ServerEnd)
    (hids : endMachine.Meets endIdsFit (ServerEnd.make config) steps)
    (hrun : endMachine.run (ServerEnd.make config) steps = some s) :
    (∀ c x, s.server.conns c = some x → .destroyed ∈ x.history → .established ∈ x.history) ∧
    (s.pc = .destroyed → (∀ name, s.server.connectionMap name = none) ∧
      ∀ c x, s.server.conns c = some x → .destroyed ∈ x.history ∨ s.server.Held c ∧
        ∀ more u, serverMachine.run s.server more = some u → serverMachine.Meets serverFits s.server more →
          stepsToRun (.connectionDestroyed c) (s.server.loops x.loop) ≤ more.countP (ServerStep.turns x.loop) →
          serverMachine.Reaches (Lived c .destroyed) s.server more) := by
  have hstart : EndInv (ServerEnd.make config) := serverInv_make config
  have h := endMachine.invariant_of_meets (fun _ _ _ hs hok hnext => endInv_step hs hok hnext) hstart hids hrun
  constructor
  · intro c x hx hdestroyed
    exact (h.establishmentWaits hx).resolve_right fun hwaits => hwaits.1 hdestroyed
  · intro hpc
    unfold EndInv at h
    rw [hpc] at h
    refine ⟨fun name => ?_, fun c x hx => ?_⟩
    · cases hname : s.server.connectionMap name with
      | none => rfl
      | some c => exact absurd (h.map name c hname).1 List.not_mem_nil
    · rcases h.waits c x hx List.not_mem_nil with hdone | hwaits
      · exact Or.inl hdone
      · refine Or.inr ⟨held_of_todo (h.place c x hx) (mem_todoOf.mpr ⟨hwaits, rfl⟩), fun more u hmore hfits hcount => ?_⟩
        refine reaches_of_task ?_ hwaits hfits hmore hcount
        intro v done rest r app y hy
        exact lived_store

/-- The destructor runs before the io loop has established its connection. -/
def endedEarly : List EndStep :=
  (oneLife.take 2).map .server ++ [.destructor [0], .destroyNext, .destroyNext]

/-- The io loop establishes and destroys its connection and goes on. -/
def destroyingLate : List ServerStep :=
  [.poll 1 [], .swap 1, .runTask 1 (.ok 0) [], .runTask 1 (.ok 0) [], .endBatch 1] ++ idleTurns 1 27

theorem destructor_destroys_connections_early :
    ∃ s u, endMachine.run (ServerEnd.make sampleConfig) endedEarly = some s ∧ s.pc = .destroyed ∧
      serverMachine.run s.server destroyingLate = some u ∧
      serverMachine.Reaches (Lived 0 .destroyed) s.server destroyingLate := by
  have hend : (endMachine.run (ServerEnd.make sampleConfig) endedEarly).bind (fun s =>
      (s.server.conns 0).bind fun x => (serverMachine.run s.server destroyingLate).map fun _ =>
        (s.pc, x.loop, decide (.destroyed ∈ x.history),
          decide (stepsToRun (.connectionDestroyed 0) (s.server.loops 1) ≤ destroyingLate.countP (ServerStep.turns 1)),
          decide (serverMachine.Meets serverFits s.server destroyingLate))) =
      some (.destroyed, 1, false, true, true) := by
    decide +kernel
  obtain ⟨s, hrun, hend⟩ := Option.bind_eq_some_iff.mp hend
  obtain ⟨x, hx, hend⟩ := Option.bind_eq_some_iff.mp hend
  obtain ⟨u, hmore, hend⟩ := Option.map_eq_some_iff.mp hend
  simp only [Prod.mk.injEq, decide_eq_true_eq, decide_eq_false_iff_not] at hend
  obtain ⟨hpc, hloop, hnot, hcount, hfits⟩ := hend
  rw [← hloop] at hcount
  have hall := (destructor_destroys_connections sampleConfig endedEarly s (by decide +kernel) hrun).2 hpc
  have hheld := (hall.2 0 x hx).resolve_left hnot
  exact ⟨s, u, hrun, hpc, hmore, hheld.2 destroyingLate u hmore hfits hcount⟩

end MylibMuduo.Proofs
