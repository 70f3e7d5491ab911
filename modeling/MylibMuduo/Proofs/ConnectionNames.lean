import Mathlib.Algebra.Group.Basic
import Mathlib.Tactic.NormNum
import MylibMuduo.Lib.Simulation
import MylibMuduo.Proofs.TaskAnchors

/-!
# The names of the connections

`connection_map_` is keyed by a text that ends in the number of the connection, and the number is
a 32-bit counter. Two connections have one name exactly if they were accepted a multiple of `2 ^ 32`
accepts apart. As long as no such pair meets in the map, the map holds the accepted connections
whose removal has not run; otherwise an entry is overwritten or a wrong one is erased.
-/

namespace MylibMuduo.Proofs

/-! ### Numbers and names -/

/-- The number of the connection that is accepted after `c` others. -/
def connIdOf (c : Nat) : Int := Int.bmod (c + 1) (2 ^ 32)

/-- The connections were accepted a multiple of `2 ^ 32` accepts apart. -/
def SameConnId (c d : Nat) : Prop := (2 ^ 32 : Int) ∣ (c : Int) - d

instance (c d : Nat) : Decidable (SameConnId c d) := by
  unfold SameConnId
  infer_instance

lemma incrConnId_connIdOf (c : Nat) : TcpServer.incrConnId (connIdOf c) = connIdOf (c + 1) := by
  unfold TcpServer.incrConnId connIdOf
  rw [Int.bmod_add_bmod]
  rfl

lemma connIdOf_eq_iff (c d : Nat) : connIdOf c = connIdOf d ↔ SameConnId c d := by
  unfold connIdOf SameConnId
  rw [Int.bmod_eq_bmod_iff_bmod_sub_eq_zero, ← Int.dvd_iff_bmod_eq_zero, add_sub_add_right_eq_sub]
  rfl

lemma length_connIdOf (c : Nat) : (toString (connIdOf c)).toList.length ≤ 11 := by
  have hlow : -(2 ^ 31) ≤ connIdOf c := Int.le_bmod (by norm_num)
  have hhigh : connIdOf c < 2 ^ 31 := Int.bmod_lt (by norm_num)
  rw [Int.toString_eq_repr, Int.repr_eq_if, String.length_toList]
  split
  · have hdigits : (connIdOf c).toNat.repr.length ≤ 10 :=
      (Nat.length_repr_le_iff (by norm_num)).mpr (by omega)
    omega
  · have hdigits : (-connIdOf c).toNat.repr.length ≤ 10 :=
      (Nat.length_repr_le_iff (by norm_num)).mpr (by omega)
    rw [String.length_append]
    change 1 + _ ≤ 11
    omega

lemma natRepr_injective {m n : Nat} (h : m.repr.toList = n.repr.toList) : m = n := by
  have hnum := congrArg (fun cs => Nat.ofDigitChars 10 cs 0) h
  simpa only [Nat.toList_repr, Nat.ofDigitChars_ten_toDigits] using hnum

/-- A number that is not negative has no sign. -/
lemma natRepr_ne_minus {m n : Nat} : m.repr.toList ≠ '-' :: n.repr.toList := by
  intro h
  have hminus : '-' ∈ m.repr.toList := by
    rw [h]
    exact List.mem_cons_self
  rw [Nat.toList_repr] at hminus
  exact absurd (Nat.isDigit_of_mem_toDigits (by decide) (by decide) hminus) (by decide)

lemma intRepr_injective {i j : Int} (h : i.repr.toList = j.repr.toList) : i = j := by
  cases i with
  | ofNat m =>
    cases j with
    | ofNat n => exact congrArg Int.ofNat (natRepr_injective h)
    | negSucc n =>
      simp only [Int.repr, String.toList_append] at h
      exact absurd h natRepr_ne_minus
  | negSucc m =>
    cases j with
    | ofNat n =>
      simp only [Int.repr, String.toList_append] at h
      exact absurd h.symm natRepr_ne_minus
    | negSucc n =>
      simp only [Int.repr, String.toList_append, List.append_cancel_left_eq] at h
      exact congrArg Int.negSucc (Nat.succ.inj (natRepr_injective h))

/-- The text of a number is not cut, so different numbers give different names. -/
theorem connName_eq_iff (config : ServerConfig) (c d : Nat) :
    TcpServer.connName config (connIdOf c) = TcpServer.connName config (connIdOf d) ↔ SameConnId c d := by
  rw [← connIdOf_eq_iff]
  refine ⟨fun h => ?_, fun h => by rw [h]⟩
  have hdigits := connName_digits (length_connIdOf c) (length_connIdOf d) h
  rw [Int.toString_eq_repr, Int.toString_eq_repr] at hdigits
  exact intRepr_injective hdigits

/-- The connections are named in the order of their creation. -/
structure Named (s : TcpServer) : Prop where
  names : ∀ c, (s.conns c).map ServerConn.name =
    if c < s.created then some (TcpServer.connName s.config (connIdOf c)) else none
  ids : s.nextConnId = connIdOf s.created

section Named

variable {s s' : TcpServer}

lemma Named.name_eq (h : Named s) {c : Nat} (hc : c < s.created) :
    (s.conns c).map ServerConn.name = some (TcpServer.connName s.config (connIdOf c)) := by
  rw [h.names, if_pos hc]

lemma Named.of_name (h : Named s) {c : Nat} {name : List Char}
    (hname : (s.conns c).map ServerConn.name = some name) :
    c < s.created ∧ name = TcpServer.connName s.config (connIdOf c) := by
  rw [h.names, Option.ite_none_right_eq_some, Option.some.injEq] at hname
  exact ⟨hname.1, hname.2.symm⟩

lemma SameConns.name_eq (h : SameConns s s') (c : Nat) :
    (s'.conns c).map ServerConn.name = (s.conns c).map ServerConn.name := by
  have hplace := congrArg (Option.map Prod.snd) (h.conns c)
  rw [Option.map_map, Option.map_map] at hplace
  exact hplace

lemma SameConns.named (h : SameConns s s') (hs : Named s) : Named s' := by
  refine ⟨fun c => ?_, ?_⟩
  · rw [h.name_eq, h.created, h.config]
    exact hs.names c
  · rw [h.ids, h.created]
    exact hs.ids

lemma newConnection_names (s : TcpServer) (fd c : Nat) :
    ((s.newConnection fd).conns c).map ServerConn.name =
      if c = s.created then some (TcpServer.connName s.config s.nextConnId)
      else (s.conns c).map ServerConn.name := by
  by_cases hc : c = s.created
  · rw [if_pos hc, hc, newConnection_conns_self]
    rfl
  · rw [if_neg hc, newConnection_conns_of_ne fd hc]

lemma Named.newConnection (h : Named s) (fd : Nat) : Named (s.newConnection fd) := by
  have hcreated : (s.newConnection fd).created = s.created + 1 := rfl
  have hconfig : (s.newConnection fd).config = s.config := rfl
  refine ⟨fun c => ?_, ?_⟩
  · rw [newConnection_names, hcreated, hconfig, h.ids, h.names]
    by_cases hc : c = s.created
    · rw [if_pos hc, if_pos (by omega), hc]
    · have hlt : c < s.created + 1 ↔ c < s.created := by omega
      rw [if_neg hc, if_congr hlt rfl rfl]
  · change TcpServer.incrConnId s.nextConnId = connIdOf (s.created + 1)
    rw [h.ids, incrConnId_connIdOf]

lemma named_make (config : ServerConfig) : Named (TcpServer.make config) := by
  refine ⟨fun c => rfl, ?_⟩
  change (1 : Int) = connIdOf 0
  decide

end Named

/-! ### The calls that change the map -/

/-- The server, and the connections whose `removeConnectionInLoop` has run. -/
structure MapState where
  server : TcpServer
  removed : List Nat

inductive MapStep where
  | newConnection (fd : Nat)
  | removeConnectionInLoop (c : Nat)
  deriving DecidableEq, Repr

/-- Calls of `newConnection` and `removeConnectionInLoop` in any order. A connection may be removed
more than once, as one dispatch may call the close callback more than once. -/
def mapMachine : Machine MapState MapStep where
  next m
    | .newConnection fd => some { m with server := m.server.newConnection fd }
    | .removeConnectionInLoop c => (m.server.conns c).map fun x =>
        ⟨m.server.removeConnectionInLoop c x, m.removed ++ [c]⟩

def mapStart (config : ServerConfig) : MapState := ⟨TcpServer.make config, []⟩

/-- The map holds the accepted connections whose removal has not run, under their names. -/
def MapExact (m : MapState) : Prop :=
  ∀ name c, m.server.connectionMap name = some c ↔
    (m.server.conns c).map ServerConn.name = some name ∧ c ∉ m.removed

/-- `newConnection` finds no entry under the new name. -/
def insertsNew (m : MapState) : MapStep → Prop
  | .newConnection _ =>
    m.server.connectionMap (TcpServer.connName m.server.config m.server.nextConnId) = none
  | _ => True

/-- `removeConnectionInLoop` erases no entry but that of its connection. -/
def erasesOwn (m : MapState) : MapStep → Prop
  | .removeConnectionInLoop c => ∀ m', mapMachine.next m (.removeConnectionInLoop c) = some m' →
      ∀ name, m'.server.connectionMap name = m.server.connectionMap name ∨
        m.server.connectionMap name = some c
  | _ => True

/-- No connection that waits for its removal has the number of the new connection, or of a connection
that is removed again. -/
def idFree (m : MapState) : MapStep → Prop
  | .newConnection _ =>
    ∀ c, c < m.server.created → c ∉ m.removed → ¬SameConnId c m.server.created
  | .removeConnectionInLoop c =>
    c ∈ m.removed → ∀ d, d < m.server.created → d ∉ m.removed → ¬SameConnId d c

instance decidableIdFree (m : MapState) : (a : MapStep) → Decidable (idFree m a)
  | .newConnection _ => inferInstanceAs (Decidable (∀ c, c < m.server.created → _))
  | .removeConnectionInLoop c => inferInstanceAs (Decidable (c ∈ m.removed → ∀ d, d < m.server.created → _))

structure MapInv (m : MapState) : Prop where
  named : Named m.server
  removed : ∀ c ∈ m.removed, c < m.server.created

section MapSteps

variable {m m' : MapState}

lemma map_remove {c : Nat} (hnext : mapMachine.next m (.removeConnectionInLoop c) = some m') :
    ∃ x, m.server.conns c = some x ∧
      m' = ⟨m.server.removeConnectionInLoop c x, m.removed ++ [c]⟩ := by
  obtain ⟨x, hx, rfl⟩ := Option.map_eq_some_iff.mp hnext
  exact ⟨x, hx, rfl⟩

theorem mapInv_step (m : MapState) (a : MapStep) (m' : MapState) (h : MapInv m)
    (hnext : mapMachine.next m a = some m') : MapInv m' := by
  cases a with
  | newConnection fd =>
    rw [← Option.some.inj hnext]
    exact ⟨h.named.newConnection fd, fun c hc => Nat.lt_succ_of_lt (h.removed c hc)⟩
  | removeConnectionInLoop c =>
    obtain ⟨x, hx, rfl⟩ := map_remove hnext
    refine ⟨(sameConns_removeConnectionInLoop m.server c x).named h.named, fun d hd => ?_⟩
    rcases List.mem_append.mp hd with hd | hd
    · exact h.removed d hd
    · rw [List.mem_singleton.mp hd]
      exact (h.named.of_name (c := c) (by rw [hx]; rfl)).1

lemma mapInv_start (config : ServerConfig) : MapInv (mapStart config) :=
  ⟨named_make config, fun c hc => by cases hc⟩

/-- Connections that wait for their removal have different numbers. -/
lemma MapExact.eq_of_sameConnId (h : MapExact m) (hinv : MapInv m) {c d : Nat} (hc : c < m.server.created)
    (hd : d < m.server.created) (hcr : c ∉ m.removed) (hdr : d ∉ m.removed) (hsame : SameConnId c d) : c = d := by
  have hname := (connName_eq_iff m.server.config c d).mpr hsame
  have hmapc := (h _ c).mpr ⟨hinv.named.name_eq hc, hcr⟩
  have hmapd := (h _ d).mpr ⟨hinv.named.name_eq hd, hdr⟩
  rw [hname, hmapd] at hmapc
  exact (Option.some.inj hmapc).symm

/-- The map stays exact under `newConnection` exactly if the new number is free. -/
lemma mapExact_newConnection_iff (h : MapExact m) (hinv : MapInv m) (fd : Nat) :
    MapExact { m with server := m.server.newConnection fd } ↔ idFree m (.newConnection fd) := by
  have hnew : m.server.created ∉ m.removed := fun hr => Nat.lt_irrefl _ (hinv.removed _ hr)
  have hids := hinv.named.ids
  constructor
  · intro h' c hc hcr hsame
    have hcne : c ≠ m.server.created := Nat.ne_of_lt hc
    have hentry : (m.server.newConnection fd).connectionMap
        (TcpServer.connName m.server.config (connIdOf c)) = some c := by
      refine (h' _ c).mpr ⟨?_, hcr⟩
      rw [newConnection_names, if_neg hcne]
      exact hinv.named.name_eq hc
    rw [(connName_eq_iff m.server.config c m.server.created).mpr hsame, ← hids,
      newConnection_map_self, Option.some.injEq] at hentry
    exact hcne hentry.symm
  · intro hfree name c
    change (m.server.newConnection fd).connectionMap name = some c ↔
      ((m.server.newConnection fd).conns c).map ServerConn.name = some name ∧ c ∉ m.removed
    rw [newConnection_names]
    by_cases hname : name = TcpServer.connName m.server.config m.server.nextConnId
    · rw [hname, newConnection_map_self, Option.some.injEq]
      by_cases hc : c = m.server.created
      · rw [hc, if_pos rfl]
        exact ⟨fun _ => ⟨rfl, hnew⟩, fun _ => rfl⟩
      · rw [if_neg hc]
        refine iff_of_false (Ne.symm hc) ?_
        rintro ⟨hcname, hcr⟩
        obtain ⟨hlt, heq⟩ := hinv.named.of_name hcname
        rw [hids, eq_comm, connName_eq_iff] at heq
        exact hfree c hlt hcr heq
    · rw [newConnection_map_of_ne fd hname, h name c]
      by_cases hc : c = m.server.created
      · rw [if_pos hc, hc]
        refine iff_of_false ?_ (fun hand => hname (Option.some.inj hand.1).symm)
        exact fun hand => Nat.lt_irrefl _ (hinv.named.of_name hand.1).1
      · rw [if_neg hc]

/-- The map after `removeConnectionInLoop`. -/
lemma removeConnectionInLoop_map (s : TcpServer) (c : Nat) (x : ServerConn) (name : List Char) :
    (s.removeConnectionInLoop c x).connectionMap name =
      if name = x.name then none else s.connectionMap name := by
  change Function.update s.connectionMap x.name none name = _
  rw [Function.update_apply]

/-- The map stays exact under `removeConnectionInLoop` exactly if no other connection in the map has the
number of the connection. -/
lemma mapExact_remove_iff (h : MapExact m) (hinv : MapInv m) {c : Nat} {x : ServerConn}
    (hx : m.server.conns c = some x) :
    MapExact ⟨m.server.removeConnectionInLoop c x, m.removed ++ [c]⟩ ↔
      idFree m (.removeConnectionInLoop c) := by
  have hxname : (m.server.conns c).map ServerConn.name = some x.name := by rw [hx]; rfl
  obtain ⟨hc, hcname⟩ := hinv.named.of_name hxname
  constructor
  · intro h' hcr d hd hdr hsame
    have hdc : d ≠ c := fun heq => hdr (heq ▸ hcr)
    have hentry := (h' (TcpServer.connName m.server.config (connIdOf d)) d).mpr
      ⟨hinv.named.name_eq hd, by simp [hdr, hdc]⟩
    change (m.server.removeConnectionInLoop c x).connectionMap _ = _ at hentry
    rw [removeConnectionInLoop_map, hcname, if_pos ((connName_eq_iff m.server.config d c).mpr hsame)] at hentry
    cases hentry
  · intro hfree name d
    change (m.server.removeConnectionInLoop c x).connectionMap name = some d ↔
      (m.server.conns d).map ServerConn.name = some name ∧ d ∉ m.removed ++ [c]
    rw [removeConnectionInLoop_map, List.mem_append, List.mem_singleton, not_or]
    by_cases hname : name = x.name
    · rw [if_pos hname]
      refine iff_of_false (fun hnone => nomatch hnone) ?_
      rintro ⟨hdname, hdr, hdc⟩
      obtain ⟨hd, hdname⟩ := hinv.named.of_name hdname
      have hsame : SameConnId d c := by
        rw [← connName_eq_iff m.server.config, ← hdname, ← hcname, hname]
      by_cases hcr : c ∈ m.removed
      · exact hfree hcr d hd hdr hsame
      · exact hdc (h.eq_of_sameConnId hinv hd hc hdr hcr hsame)
    · rw [if_neg hname, h name d]
      have hdc : (m.server.conns d).map ServerConn.name = some name → d ≠ c := by
        rintro hdname rfl
        exact hname (Option.some.inj (hdname.symm.trans hxname))
      exact ⟨fun hand => ⟨hand.1, hand.2, hdc hand.1⟩, fun hand => ⟨hand.1, hand.2.1⟩⟩

theorem mapExact_step_iff {a : MapStep} (h : MapExact m) (hinv : MapInv m)
    (hnext : mapMachine.next m a = some m') : MapExact m' ↔ idFree m a := by
  cases a with
  | newConnection fd =>
    rw [← Option.some.inj hnext]
    exact mapExact_newConnection_iff h hinv fd
  | removeConnectionInLoop c =>
    obtain ⟨x, hx, rfl⟩ := map_remove hnext
    exact mapExact_remove_iff h hinv hx

/-- With a free number nothing is overwritten and nothing else is erased. -/
lemma inserts_and_erases {a : MapStep} (h : MapExact m) (hinv : MapInv m) (hfree : idFree m a) :
    insertsNew m a ∧ erasesOwn m a := by
  cases a with
  | newConnection fd =>
    refine ⟨?_, trivial⟩
    cases hentry : m.server.connectionMap (TcpServer.connName m.server.config m.server.nextConnId) with
    | none => exact hentry
    | some c =>
      obtain ⟨hcname, hcr⟩ := (h _ c).mp hentry
      obtain ⟨hc, heq⟩ := hinv.named.of_name hcname
      rw [hinv.named.ids, eq_comm, connName_eq_iff] at heq
      exact absurd heq (hfree c hc hcr)
  | removeConnectionInLoop c =>
    refine ⟨trivial, fun m' hnext name => ?_⟩
    have h' := (mapExact_step_iff h hinv hnext).mpr hfree
    obtain ⟨x, hx, rfl⟩ := map_remove hnext
    cases hentry : m.server.connectionMap name with
    | none =>
      left
      change (m.server.removeConnectionInLoop c x).connectionMap name = none
      rw [removeConnectionInLoop_map, hentry, ite_self]
    | some d =>
      by_cases hdc : d = c
      · exact Or.inr (congrArg some hdc)
      · left
        obtain ⟨hdname, hdr⟩ := (h name d).mp hentry
        exact (h' name d).mpr ⟨hdname, by simp [hdr, hdc]⟩

end MapSteps

/-- In every run of the server the map holds exactly the connections whose removal has not run, and no
entry is overwritten or erased for another connection, if and only if no connection is accepted, or
removed again, while one with the same number modulo `2 ^ 32` waits for its removal. -/
theorem connection_map_exact_iff (config : ServerConfig) (steps : List MapStep) (m : MapState)
    (hrun : mapMachine.run (mapStart config) steps = some m) :
    (mapMachine.Always MapExact (mapStart config) steps ∧
      mapMachine.Meets insertsNew (mapStart config) steps ∧
      mapMachine.Meets erasesOwn (mapStart config) steps) ↔
      mapMachine.Meets idFree (mapStart config) steps := by
  have hempty : MapExact (mapStart config) := by
    intro name c
    exact iff_of_false (fun hsome => nomatch hsome) (fun hand => nomatch hand.1)
  have hiff := mapMachine.always_iff_meets (I := MapInv)
    (fun s a s' hs hP hnext => ⟨mapExact_step_iff hP hs hnext, fun _ => mapInv_step s a s' hs hnext⟩)
    (mapInv_start config) hempty hrun
  constructor
  · rintro ⟨halways, -⟩
    exact hiff.mp halways
  · intro hfree
    have hagree : ∀ s a s', MapInv s ∧ MapExact s → mapMachine.next s a = some s' →
        (idFree s a ↔ idFree s a ∧ insertsNew s a ∧ erasesOwn s a) := by
      intro s a s' hs _
      exact (and_iff_left_of_imp (inserts_and_erases hs.2 hs.1)).symm
    have hboth := (mapMachine.meets_iff_meets (I := fun s => MapInv s ∧ MapExact s)
      (fun s a s' hs hok hnext =>
        ⟨mapInv_step s a s' hs.1 hnext, (mapExact_step_iff hs.2 hs.1 hnext).mpr hok⟩)
      hagree ⟨mapInv_start config, hempty⟩ hrun).mp hfree
    exact ⟨hiff.mpr hfree, hboth.mono mapMachine fun _ _ hok => hok.2.1,
      hboth.mono mapMachine fun _ _ hok => hok.2.2⟩

/-- Two connections, the removal of the first, which runs twice, and a third on its descriptor. -/
def reusedDescriptor : List MapStep :=
  [.newConnection 5, .newConnection 6, .removeConnectionInLoop 0, .newConnection 5, .removeConnectionInLoop 0]

theorem connection_map_exact_few_connections :
    ∃ m, mapMachine.run (mapStart sampleConfig) reusedDescriptor = some m ∧ m.server.created = 3 ∧
      mapMachine.Always MapExact (mapStart sampleConfig) reusedDescriptor := by
  have hend : (mapMachine.run (mapStart sampleConfig) reusedDescriptor).map (·.server.created) = some 3 := by
    decide +kernel
  obtain ⟨m, hrun, hcreated⟩ := Option.map_eq_some_iff.mp hend
  refine ⟨m, hrun, hcreated, ?_⟩
  exact ((connection_map_exact_iff sampleConfig reusedDescriptor m hrun).mpr (by decide +kernel)).1

/-- A connection that stays, and `n` connections that come and go one after the other. -/
def shortConnections : Nat → List MapStep
  | 0 => [.newConnection 5]
  | n + 1 => shortConnections n ++ [.newConnection 6, .removeConnectionInLoop (n + 1)]

lemma shortConnections_run (config : ServerConfig) (n : Nat) :
    ∃ m, mapMachine.run (mapStart config) (shortConnections n) = some m ∧ m.server.created = n + 1 ∧
      0 ∉ m.removed := by
  induction n with
  | zero => exact ⟨_, rfl, rfl, by simp [mapStart]⟩
  | succ n ih =>
    obtain ⟨m, hrun, hcreated, hkept⟩ := ih
    have hconn := newConnection_conns_self m.server 6
    rw [hcreated] at hconn
    refine ⟨⟨(m.server.newConnection 6).removeConnectionInLoop (n + 1) (freshConn m.server 6),
      m.removed ++ [n + 1]⟩, ?_, ?_, ?_⟩
    · rw [shortConnections, Machine.run_append_eq_some]
      refine ⟨m, hrun, ?_⟩
      simp only [Machine.run, mapMachine, Option.bind_some, hconn, Option.map_some]
    · change m.server.created + 1 = n + 1 + 1
      rw [hcreated]
    · simp [hkept]

/-- After `2 ^ 32 - 1` short connections the next one gets the number and the name of the connection
that stays, and takes its entry. -/
theorem wrapped_id_overwrites_connection :
    ¬∀ (config : ServerConfig) (steps : List MapStep) (m : MapState),
      mapMachine.run (mapStart config) steps = some m →
      mapMachine.Always MapExact (mapStart config) steps ∧
        mapMachine.Meets insertsNew (mapStart config) steps ∧
        mapMachine.Meets erasesOwn (mapStart config) steps := by
  intro hall
  obtain ⟨n, hn⟩ : ∃ n, n + 1 = 2 ^ 32 := ⟨2 ^ 32 - 1, by norm_num⟩
  obtain ⟨m, hrun, hcreated, hkept⟩ := shortConnections_run sampleConfig n
  have hlast : mapMachine.next m (.newConnection 7) =
      some { m with server := m.server.newConnection 7 } := rfl
  have hend : mapMachine.run (mapStart sampleConfig) (shortConnections n ++ [.newConnection 7]) =
      some { m with server := m.server.newConnection 7 } :=
    (mapMachine.run_append_eq_some _ _ _ _).mpr
      ⟨m, hrun, (mapMachine.run_cons_eq_some _ _ _ _).mpr ⟨_, hlast, rfl⟩⟩
  have halways := (hall sampleConfig _ _ hend).1.of_append mapMachine hrun
  have hinv : MapInv m := mapMachine.invariant mapInv_step (mapInv_start sampleConfig) hrun
  have hfree := (mapExact_step_iff halways.1 hinv hlast).mp (halways.2 _ hlast)
  refine hfree 0 (by omega) hkept ?_
  unfold SameConnId
  rw [hcreated, hn]
  norm_num

/-! ### The calls in a run of the server -/

/-- The servers have the same map, and their connections the same names. -/
structure SameMap (s s' : TcpServer) : Prop where
  config : s'.config = s.config
  created : s'.created = s.created
  ids : s'.nextConnId = s.nextConnId
  map : s'.connectionMap = s.connectionMap
  names : ∀ c, (s'.conns c).map ServerConn.name = (s.conns c).map ServerConn.name

/-- The call of `newConnection` or `removeConnectionInLoop` that a step makes. On the base loop the
close callback calls `removeConnectionInLoop` directly, on the others it queues it. -/
def mapCalls (s : TcpServer) : ServerStep → List MapStep
  | .accept (some (fd + 1)) => [.newConnection (fd + 1)]
  | .handler l i =>
    match (s.loops l).phase with
    | .handling c revent h _ => (s.conns c).elim [] fun x =>
        if l = 0 ∧ x.calls.count .close < ((s.context c x).runHandler revent i h).calls.count .close then
          [.removeConnectionInLoop c] else []
    | _ => []
  | .runTask l _ _ =>
    match (s.loops l).phase with
    | .running _ (.removeConnectionInLoop c :: _) => [.removeConnectionInLoop c]
    | _ => []
  | _ => []

section Calls

variable {s s' s₁ : TcpServer} {m : MapState}

lemma SameMap.trans (h : SameMap s s') (h' : SameMap s' s₁) : SameMap s s₁ :=
  ⟨h'.config.trans h.config, h'.created.trans h.created, h'.ids.trans h.ids, h'.map.trans h.map,
    fun c => (h'.names c).trans (h.names c)⟩

lemma SameMap.symm (h : SameMap s s') : SameMap s' s :=
  ⟨h.config.symm, h.created.symm, h.ids.symm, h.map.symm, fun c => (h.names c).symm⟩

lemma SameConns.sameMap (h : SameConns s s') (hmap : s'.connectionMap = s.connectionMap) : SameMap s s' :=
  ⟨h.config, h.created, h.ids, hmap, h.name_eq⟩

lemma SameMap.newConnection (h : SameMap s s') (fd : Nat) :
    SameMap (s.newConnection fd) (s'.newConnection fd) := by
  refine ⟨h.config, congrArg (· + 1) h.created, congrArg TcpServer.incrConnId h.ids, ?_, fun c => ?_⟩
  · change Function.update s'.connectionMap _ (some s'.created) = Function.update s.connectionMap _ (some s.created)
    rw [h.map, h.created, h.config, h.ids]
  · rw [newConnection_names, newConnection_names, h.created, h.config, h.ids, h.names]

lemma SameMap.removeConnectionInLoop (h : SameMap s s') {c : Nat} {x : ServerConn} (hx : s.conns c = some x) :
    ∃ x', s'.conns c = some x' ∧ SameMap (s.removeConnectionInLoop c x) (s'.removeConnectionInLoop c x') := by
  have hname := h.names c
  rw [hx, Option.map_some] at hname
  obtain ⟨x', hx', hname⟩ := Option.map_eq_some_iff.mp hname
  refine ⟨x', hx', h.config, h.created, h.ids, ?_, h.names⟩
  change Function.update s'.connectionMap x'.name none = Function.update s.connectionMap x.name none
  rw [h.map, hname]

/-- A step that leaves the map alone. -/
lemma sameMap_silent (h : SameMap s m.server) (hsame : SameMap s s') :
    ∃ m', mapMachine.run m [] = some m' ∧ SameMap s' m'.server :=
  ⟨m, rfl, hsame.symm.trans h⟩

/-- A step that removes a connection from the map. -/
lemma sameMap_remove (h : SameMap s m.server) {c : Nat} {x : ServerConn} (hx : s.conns c = some x)
    (hsame : SameMap (s.removeConnectionInLoop c x) s') :
    ∃ m', mapMachine.run m [.removeConnectionInLoop c] = some m' ∧ SameMap s' m'.server := by
  obtain ⟨x', hx', hremoved⟩ := h.removeConnectionInLoop hx
  refine ⟨⟨m.server.removeConnectionInLoop c x', m.removed ++ [c]⟩, ?_, hsame.symm.trans hremoved⟩
  simp only [Machine.run, mapMachine, hx', Option.map_some, Option.bind_some]

lemma sameMap_runHandler {c : Nat} {x : ServerConn} (hx : s.conns c = some x) (l : Nat) (revent : EventMask)
    (h : Handler) (active : List (Nat × EventMask)) (i : ConnContext.EventInput) :
    SameMap (if l = 0 ∧ x.calls.count .close < ((s.context c x).runHandler revent i h).calls.count .close then
      s.removeConnectionInLoop c x else s) (s.runHandler l c revent h active i x) := by
  have hstore : SameConns s ((s.setPhase l (Phase.afterHandler c revent active h)).store c x
      ((s.context c x).runHandler revent i h) []) :=
    (sameConns_setLoop s _ _).trans (sameConns_store (s := s.setPhase _ _) hx _ _)
  have hmap := hstore.sameMap rfl
  unfold TcpServer.runHandler TcpServer.closeCallback TcpServer.removeConnection
  dsimp only
  by_cases hcount : x.calls.count .close < ((s.context c x).runHandler revent i h).calls.count .close
  · by_cases hl : l = 0
    · rw [if_pos hcount, if_pos hl, if_pos ⟨hl, hcount⟩]
      exact ⟨hmap.config, hmap.created, hmap.ids, rfl, hmap.names⟩
    · rw [if_pos hcount, if_neg hl, if_neg fun hboth => hl hboth.1]
      exact ⟨hmap.config, hmap.created, hmap.ids, hmap.map, hmap.names⟩
  · rw [if_neg hcount, if_neg fun hboth => hcount hboth.2]
    exact hmap

theorem mapCalls_step (s : TcpServer) (m : MapState) (a : ServerStep) (s' : TcpServer)
    (h : SameMap s m.server) (hnext : serverMachine.next s a = some s') :
    ∃ m', mapMachine.run m (mapCalls s a) = some m' ∧ SameMap s' m'.server := by
  cases server_trans hnext with
  | @accept r hclosed =>
    match r with
    | none => exact sameMap_silent h ⟨rfl, rfl, rfl, rfl, fun _ => rfl⟩
    | some 0 => exact sameMap_silent h ⟨rfl, rfl, rfl, rfl, fun _ => rfl⟩
    | some (fd + 1) => exact ⟨_, rfl, h.newConnection (fd + 1)⟩
  | @handler l i c revent hd active hphase x hx =>
    have hsame := sameMap_runHandler hx l revent hd active i
    simp only [mapCalls, hphase, hx, Option.elim_some]
    split at hsame
    · rename_i hclose
      rw [if_pos hclose]
      exact sameMap_remove h hx hsame
    · rename_i hclose
      rw [if_neg hclose]
      exact sameMap_silent h hsame
  | @runTask l r app done t rest hphase x hx =>
    have hconns := sameConns_step hnext (by simp)
    simp only [mapCalls, hphase]
    cases t with
    | removeConnectionInLoop c =>
      exact sameMap_remove h hx ⟨rfl, rfl, rfl, rfl, fun _ => rfl⟩
    | connectionEstablished c => exact sameMap_silent h (hconns.sameMap rfl)
    | connectionDestroyed c => exact sameMap_silent h (hconns.sameMap rfl)
    | functor c f => exact sameMap_silent h (hconns.sameMap rfl)
  | _ => exact sameMap_silent h ((sameConns_step hnext (by simp)).sameMap rfl)

/-- In every run of the server and its loops, the map is the one that its calls of `newConnection` and
`removeConnectionInLoop` make. -/
theorem server_map_of_calls (config : ServerConfig) (steps : List ServerStep) (s : TcpServer)
    (hrun : serverMachine.run (TcpServer.make config) steps = some s) :
    ∃ m, mapMachine.run (mapStart config) (serverMachine.emitted mapCalls (TcpServer.make config) steps) =
      some m ∧ SameMap s m.server :=
  serverMachine.run_emitted mapCalls_step ⟨rfl, rfl, rfl, rfl, fun _ => rfl⟩ hrun

end Calls

end MylibMuduo.Proofs
