import Mathlib.Data.List.TakeWhile
import Mathlib.Tactic.IntervalCases
import MylibMuduo.InetAddress
import MylibMuduo.Proofs.ConnectionNames

/-!
# The text of an address

The C library reads back what `inet_ntop` prints, so an `InetAddress` is determined by `toIp` and
`toPort`. The text of `toIpPort` is never cut by its buffer and determines the address as well, and
with it the names that servers give to their connections tell servers on different addresses apart.
-/

namespace MylibMuduo.Proofs

/-! ### Decimal numbers -/

lemma digitValue_of_isDigit {c : Char} (h : c.isDigit = true) : digitValue c = c.toNat - '0'.toNat :=
  if_pos h

lemma digitValue_lt_of_isDigit {c : Char} (h : c.isDigit = true) : digitValue c < 10 := by
  rw [digitValue_of_isDigit h]
  have hle : c.toNat ≤ 57 := (Char.isDigit_iff_toNat.mp h).2
  change c.toNat - 48 < 10
  omega

/-- The text goes on with something that is no digit of the base. -/
def StopsAt (base : Nat) (rest : List Char) : Prop := ∀ c ∈ rest.head?, base ≤ digitValue c

lemma readDigits_append {base : Nat} {digits rest : List Char} (hdigits : ∀ c ∈ digits, digitValue c < base)
    (hrest : StopsAt base rest) :
    readDigits base (digits ++ rest) = (digits.foldl (fun n c => base * n + digitValue c) 0, rest) := by
  have hall : ∀ c ∈ digits, decide (digitValue c < base) = true := fun c hc => decide_eq_true (hdigits c hc)
  have hstop : rest.takeWhile (fun c => decide (digitValue c < base)) = [] ∧
      rest.dropWhile (fun c => decide (digitValue c < base)) = rest := by
    cases rest with
    | nil => exact ⟨rfl, rfl⟩
    | cons c rest =>
      have hc : ¬digitValue c < base := Nat.not_lt.mpr (hrest c rfl)
      exact ⟨List.takeWhile_cons_of_neg (by simpa using hc), List.dropWhile_cons_of_neg (by simpa using hc)⟩
  unfold readDigits
  rw [List.takeWhile_append_of_pos hall, List.dropWhile_append_of_pos hall, hstop.1, hstop.2, List.append_nil]

lemma foldl_digitValue {digits : List Char} (h : ∀ c ∈ digits, c.isDigit = true) (n : Nat) :
    digits.foldl (fun n c => 10 * n + digitValue c) n = Nat.ofDigitChars 10 digits n := by
  induction digits generalizing n with
  | nil => exact Nat.ofDigitChars_nil.symm
  | cons c digits ih =>
    rw [List.foldl_cons, digitValue_of_isDigit (h c List.mem_cons_self), Nat.ofDigitChars_cons,
      ih fun d hd => h d (List.mem_cons_of_mem c hd)]

lemma isDigit_toDigits {n : Nat} {c : Char} (hc : c ∈ Nat.toDigits 10 n) : c.isDigit = true :=
  Nat.isDigit_of_mem_toDigits (by norm_num) (by norm_num) hc

/-- A number is printed without leading zeros. -/
lemma head_toDigits {n : Nat} (hn : 0 < n) : ∃ c cs, Nat.toDigits 10 n = c :: cs ∧ c ≠ '0' := by
  induction n using Nat.strong_induction_on with
  | _ n ih =>
    by_cases hlt : n < 10
    · refine ⟨n.digitChar, [], Nat.toDigits_of_lt_base hlt, ?_⟩
      interval_cases n <;> decide
    · obtain ⟨c, cs, hcs, hc⟩ := ih (n / 10) (by omega) (by omega)
      refine ⟨c, cs ++ [(n % 10).digitChar], ?_, hc⟩
      rw [Nat.toDigits_of_base_le (by norm_num) (by omega), hcs]
      rfl

lemma readDigits_toDigits (n : Nat) {rest : List Char} (hrest : StopsAt 10 rest) :
    readDigits 10 (Nat.toDigits 10 n ++ rest) = (n, rest) := by
  rw [readDigits_append (fun c hc => digitValue_lt_of_isDigit (isDigit_toDigits hc)) hrest,
    foldl_digitValue fun c hc => isDigit_toDigits hc, Nat.ofDigitChars_ten_toDigits]

/-! ### Addresses -/

/-- The end of the text, or the point in front of the next number. -/
def AfterNumber (rest : List Char) : Prop := rest = [] ∨ ∃ tail, rest = '.' :: tail

lemma AfterNumber.stopsAt {rest : List Char} (h : AfterNumber rest) {base : Nat} (hbase : base ≤ 16) :
    StopsAt base rest := by
  obtain rfl | ⟨tail, rfl⟩ := h
  · intro c hc
    exact absurd hc (Option.not_mem_none c)
  · intro c hc
    obtain rfl : '.' = c := Option.some.inj hc
    exact hbase

lemma strtoul_toDigits (n : Nat) {rest : List Char} (hrest : AfterNumber rest) :
    strtoul (Nat.toDigits 10 n ++ rest) = (n, rest) := by
  rcases Nat.eq_zero_or_pos n with rfl | hn
  · -- A single zero is read as an octal number.
    have hzero : ∀ c ∈ ['0'], digitValue c < 8 := by
      intro c hc
      rw [List.mem_singleton.mp hc]
      decide
    have hoctal := readDigits_append hzero (hrest.stopsAt (show 8 ≤ 16 by norm_num))
    rw [Nat.toDigits_zero]
    obtain rfl | ⟨tail, rfl⟩ := hrest
    · exact hoctal
    · cases tail with
      | nil => exact hoctal
      | cons c tail =>
        have hpoint : ¬(('.' = 'x' ∨ '.' = 'X') ∧ digitValue c < 16) := fun h => absurd h.1 (by decide)
        rw [List.singleton_append, strtoul, if_neg hpoint]
        exact hoctal
  · have hread := readDigits_toDigits n (hrest.stopsAt (show 10 ≤ 16 by norm_num))
    obtain ⟨c, cs, hcs, hc⟩ := head_toDigits hn
    rw [hcs] at hread ⊢
    unfold strtoul
    split
    · next heq => exact absurd (List.cons.inj heq).1 hc
    · next heq => exact absurd (List.cons.inj heq).1 hc
    · exact hread

lemma startsWithDigit_toDigits (n : Nat) (rest : List Char) :
    (Nat.toDigits 10 n ++ rest).head?.any Char.isDigit = true := by
  cases hdigits : Nat.toDigits 10 n with
  | nil => exact absurd hdigits Nat.toDigits_ne_nil
  | cons c cs => exact isDigit_toDigits (n := n) (hdigits ▸ List.mem_cons_self)

/-- The limit of 255 holds for every number of the dotted form. -/
lemma inetAtonFrom_point (dots word n : Nat) (rest : List Char) :
    inetAtonFrom (dots + 1) word (Nat.toDigits 10 n ++ '.' :: rest) =
      if n ≤ 0xff then inetAtonFrom dots (word + n * 256 ^ (dots + 1)) rest else none := by
  rw [inetAtonFrom.eq_def (dots + 1), if_pos (startsWithDigit_toDigits n _), strtoul_toDigits n (.inr ⟨rest, rfl⟩)]
  rfl

lemma inetAtonFrom_last (word n : Nat) :
    inetAtonFrom 0 word (Nat.toDigits 10 n) = if n ≤ 0xff then some (word + n) else none := by
  have hread := strtoul_toDigits n (.inl rfl)
  have hdigit := startsWithDigit_toDigits n []
  have hlimit : (n < 256 ^ (0 + 1) ∧ ([] : List Char).head?.all isSpace = true) ↔ n ≤ 0xff :=
    ⟨fun h => Nat.le_of_lt_succ h.1, fun h => ⟨Nat.lt_succ_of_le h, rfl⟩⟩
  rw [List.append_nil] at hread hdigit
  unfold inetAtonFrom
  rw [if_pos hdigit, hread]
  exact if_congr hlimit rfl rfl

/-- Four numbers with points between them. -/
def dotted (n0 n1 n2 n3 : Nat) : List Char :=
  Nat.toDigits 10 n0 ++ '.' :: Nat.toDigits 10 n1 ++ '.' :: Nat.toDigits 10 n2 ++ '.' :: Nat.toDigits 10 n3

lemma inetNtop_eq (a : InAddr) : inetNtop a = dotted a.b0.toNat a.b1.toNat a.b2.toNat a.b3.toNat := rfl

lemma inetAtonFrom_dotted (n0 n1 n2 n3 : Nat) :
    inetAtonFrom 3 0 (dotted n0 n1 n2 n3) =
      if n0 ≤ 0xff ∧ n1 ≤ 0xff ∧ n2 ≤ 0xff ∧ n3 ≤ 0xff then
        some (n0 * 2 ^ 24 + n1 * 2 ^ 16 + n2 * 2 ^ 8 + n3)
      else none := by
  unfold dotted
  rw [List.append_assoc, List.append_assoc, List.cons_append, List.cons_append, inetAtonFrom_point,
    inetAtonFrom_point, inetAtonFrom_point, inetAtonFrom_last, ite_and, ite_and, ite_and, Nat.zero_add]
  rfl

lemma htonl_bytes (n0 : Nat) {n1 n2 n3 : Nat} (h1 : n1 ≤ 0xff) (h2 : n2 ≤ 0xff) (h3 : n3 ≤ 0xff) :
    htonl (n0 * 2 ^ 24 + n1 * 2 ^ 16 + n2 * 2 ^ 8 + n3) =
      ⟨UInt8.ofNat n0, UInt8.ofNat n1, UInt8.ofNat n2, UInt8.ofNat n3⟩ := by
  simp only [htonl, InAddr.mk.injEq, ← UInt8.toNat_inj, UInt8.toNat_ofNat']
  refine ⟨?_, ?_, ?_, ?_⟩ <;> omega

/-- `inet_addr` reads back what `inet_ntop` has printed. -/
lemma inetAddr_inetNtop (a : InAddr) : inetAddr (inetNtop a) = a := by
  have h0 := Nat.le_of_lt_succ a.b0.toNat_lt
  have h1 := Nat.le_of_lt_succ a.b1.toNat_lt
  have h2 := Nat.le_of_lt_succ a.b2.toNat_lt
  have h3 := Nat.le_of_lt_succ a.b3.toNat_lt
  unfold inetAddr
  rw [inetNtop_eq, inetAtonFrom_dotted, if_pos ⟨h0, h1, h2, h3⟩, Option.getD_some, htonl_bytes a.b0.toNat h1 h2 h3,
    UInt8.ofNat_toNat, UInt8.ofNat_toNat, UInt8.ofNat_toNat, UInt8.ofNat_toNat]

lemma ntohs_htons (p : UInt16) : ntohs (htons p) = p := by
  have hp := p.toNat_lt
  simp only [ntohs, htons, ← UInt16.toNat_inj, UInt16.toNat_ofNat', UInt8.toNat_ofNat']
  omega

lemma htons_ntohs (b : UInt8 × UInt8) : htons (ntohs b) = b := by
  obtain ⟨b0, b1⟩ := b
  have h0 := b0.toNat_lt
  have h1 := b1.toNat_lt
  simp only [ntohs, htons, Prod.mk.injEq, ← UInt8.toNat_inj, UInt16.toNat_ofNat', UInt8.toNat_ofNat']
  constructor <;> omega

/-! ### The texts of an address are not cut -/

lemma length_toDigits_byte (b : UInt8) : (Nat.toDigits 10 b.toNat).length ≤ 3 := by
  have hb := b.toNat_lt
  exact (Nat.length_toDigits_le_iff (by norm_num) (by norm_num)).mpr (by omega)

lemma length_inetNtop (a : InAddr) : (inetNtop a).length ≤ 15 := by
  have h0 := length_toDigits_byte a.b0
  have h1 := length_toDigits_byte a.b1
  have h2 := length_toDigits_byte a.b2
  have h3 := length_toDigits_byte a.b3
  simp only [inetNtop, List.length_append, List.length_cons]
  omega

lemma toIp_eq (a : InetAddress) : a.toIp = inetNtop a.addr.addr :=
  List.take_of_length_le ((length_inetNtop a.addr.addr).trans (by norm_num))

lemma length_toDigits_port (p : UInt16) : (Nat.toDigits 10 p.toNat).length ≤ 5 := by
  have hp := p.toNat_lt
  exact (Nat.length_toDigits_le_iff (by norm_num) (by norm_num)).mpr (by omega)

lemma toIpPort_eq (a : InetAddress) :
    a.toIpPort = inetNtop a.addr.addr ++ ':' :: Nat.toDigits 10 a.toPort.toNat := by
  have hip := length_inetNtop a.addr.addr
  have hport := length_toDigits_port a.toPort
  unfold InetAddress.toIpPort
  rw [toIp_eq, List.take_of_length_le]
  rw [List.length_cons]
  omega

lemma length_toIpPort (a : InetAddress) : a.toIpPort.length ≤ 21 := by
  have hip := length_inetNtop a.addr.addr
  have hport := length_toDigits_port a.toPort
  rw [toIpPort_eq, List.length_append, List.length_cons]
  omega

lemma mem_dotted {n0 n1 n2 n3 : Nat} {c : Char} (hc : c ∈ dotted n0 n1 n2 n3) : c.isDigit = true ∨ c = '.' := by
  simp only [dotted, List.mem_append, List.mem_cons] at hc
  obtain ((h | rfl | h) | rfl | h) | rfl | h := hc
  all_goals first
    | exact .inl (isDigit_toDigits h)
    | exact .inr rfl

lemma notMem_toIpPort {a : InetAddress} : '#' ∉ a.toIpPort := by
  intro hc
  rw [toIpPort_eq, List.mem_append, List.mem_cons] at hc
  obtain hc | hc | hc := hc
  · obtain h | h := mem_dotted hc <;> exact absurd h (by decide)
  · exact absurd hc (by decide)
  · exact absurd (isDigit_toDigits hc) (by decide)

lemma cStr_dotted (n0 n1 n2 n3 : Nat) : cStr (dotted n0 n1 n2 n3) = dotted n0 n1 n2 n3 := by
  refine List.takeWhile_eq_self_iff.mpr fun c hc => ?_
  rw [decide_eq_true_iff]
  rintro rfl
  obtain h | h := mem_dotted hc <;> exact absurd h (by decide)

/-! ### Addresses and their texts -/

lemma make_toPort_toIp {a : InetAddress} (h : a.addr.family = afInet) : InetAddress.make a.toPort a.toIp = a := by
  obtain ⟨family, port, addr⟩ := a
  change family = afInet at h
  unfold InetAddress.make
  rw [toIp_eq, inetNtop_eq, cStr_dotted, ← inetNtop_eq, inetAddr_inetNtop, InetAddress.toPort, htons_ntohs, h]

lemma toIp_make_dotted (port : UInt16) (n0 n1 n2 n3 : Nat) :
    (InetAddress.make port (dotted n0 n1 n2 n3)).toIp =
      if n0 ≤ 0xff ∧ n1 ≤ 0xff ∧ n2 ≤ 0xff ∧ n3 ≤ 0xff then dotted n0 n1 n2 n3
      else dotted 255 255 255 255 := by
  have haddr : (InetAddress.make port (dotted n0 n1 n2 n3)).addr.addr = inetAddr (dotted n0 n1 n2 n3) :=
    congrArg inetAddr (cStr_dotted n0 n1 n2 n3)
  rw [toIp_eq, haddr, inetAddr, inetAtonFrom_dotted]
  split
  · next h =>
    obtain ⟨h0, h1, h2, h3⟩ := h
    have hbyte : ∀ n, n ≤ 0xff → (UInt8.ofNat n).toNat = n := fun n hn =>
      UInt8.toNat_ofNat_of_lt (Nat.lt_succ_of_le hn)
    rw [Option.getD_some, htonl_bytes n0 h1 h2 h3, inetNtop_eq, hbyte n0 h0, hbyte n1 h1, hbyte n2 h2, hbyte n3 h3]
  · rfl

/-- An address is determined by its texts, and printing it makes a text canonical. Of the texts of
four numbers those with a number over 255 are taken, without an error, for the broadcast address. -/
theorem address_round_trip :
    (∀ a : InetAddress, a.addr.family = afInet → InetAddress.make a.toPort a.toIp = a) ∧
      (∀ port ip, (InetAddress.make port ip).toPort = port ∧
        InetAddress.make port (InetAddress.make port ip).toIp = InetAddress.make port ip) ∧
      ∀ port n0 n1 n2 n3, (InetAddress.make port (dotted n0 n1 n2 n3)).toIp =
        if n0 ≤ 0xff ∧ n1 ≤ 0xff ∧ n2 ≤ 0xff ∧ n3 ≤ 0xff then dotted n0 n1 n2 n3
        else dotted 255 255 255 255 := by
  have hport : ∀ port ip, (InetAddress.make port ip).toPort = port := fun port _ => ntohs_htons port
  refine ⟨fun a => make_toPort_toIp, fun port ip => ⟨hport port ip, ?_⟩, toIp_make_dotted⟩
  have htext := make_toPort_toIp (a := InetAddress.make port ip) rfl
  rwa [hport] at htext

/-- The default address of the class with port 8080, through its texts. -/
theorem address_round_trip_loopback :
    InetAddress.make (InetAddress.make 8080 (dotted 127 0 0 1)).toPort
        (InetAddress.make 8080 (dotted 127 0 0 1)).toIp = InetAddress.make 8080 (dotted 127 0 0 1) :=
  address_round_trip.1 (InetAddress.make 8080 (dotted 127 0 0 1)) rfl

/-! ### Servers on different addresses -/

/-- The arguments of `TcpServer::TcpServer`, which keeps the text of the address. -/
def configOn (name : List Char) (bindAddr : InetAddress) (numThreads : Nat) (callbacks : Callbacks)
    (files : Nat → Bytes) : ServerConfig where
  name := name
  ipPort := bindAddr.toIpPort
  ipPort_length := length_toIpPort bindAddr
  numThreads := numThreads
  callbacks := callbacks
  files := files

lemma toIpPort_eq_iff (a b : InetAddress) :
    a.toIpPort = b.toIpPort ↔ a.addr.addr = b.addr.addr ∧ a.addr.port = b.addr.port := by
  have hip : ':' ∉ inetNtop a.addr.addr := by
    intro hc
    obtain h | h := mem_dotted hc <;> exact absurd h (by decide)
  have hdigits : ':' ∉ Nat.toDigits 10 a.toPort.toNat := fun hc => absurd (isDigit_toDigits hc) (by decide)
  have haddr : inetNtop a.addr.addr = inetNtop b.addr.addr ↔ a.addr.addr = b.addr.addr :=
    (Function.LeftInverse.injective inetAddr_inetNtop).eq_iff
  have hport : Nat.toDigits 10 a.toPort.toNat = Nat.toDigits 10 b.toPort.toNat ↔ a.addr.port = b.addr.port := by
    refine ⟨fun h => ?_, fun h => by rw [InetAddress.toPort, InetAddress.toPort, h]⟩
    have hnum := congrArg (fun cs => Nat.ofDigitChars 10 cs 0) h
    simp only [Nat.ofDigitChars_ten_toDigits] at hnum
    exact (Function.LeftInverse.injective htons_ntohs) (UInt16.toNat_inj.mp hnum)
  rw [toIpPort_eq, toIpPort_eq, ← haddr, ← hport, List.append_cons_inj_of_notMem hip hdigits]
  exact and_congr_right fun _ => and_iff_right rfl

lemma notMem_toString (i : Int) : '#' ∉ (toString i).toList := by
  have hnat : ∀ n : Nat, '#' ∉ n.repr.toList := by
    intro n hc
    rw [Nat.toList_repr] at hc
    exact absurd (isDigit_toDigits hc) (by decide)
  rw [Int.toString_eq_repr, Int.repr_eq_if]
  split
  · exact hnat _
  · rw [String.toList_append, List.mem_append]
    rintro (hc | hc)
    · exact absurd hc (by decide)
    · exact hnat _ hc

/-- The part of a name behind the name of the server is not cut. -/
lemma connName_eq (config : ServerConfig) (c : Nat) :
    TcpServer.connName config (connIdOf c) =
      config.name ++ (('-' :: config.ipPort) ++ '#' :: (toString (connIdOf c)).toList) := by
  unfold TcpServer.connName
  rw [List.take_of_length_le (length_connName_le config (length_connIdOf c))]

/-- The buffers of `toIpPort` and `newConnection` never cut their texts. Two servers of one name give
one name to a connection each exactly if they are bound to the same address and the connections were
accepted a multiple of `2 ^ 32` accepts apart. -/
theorem connection_names_tell_servers_apart (name : List Char) (a b : InetAddress) (m n : Nat)
    (ca cb : Callbacks) (fa fb : Nat → Bytes) (c d : Nat) :
    a.toIpPort = inetNtop a.addr.addr ++ ':' :: Nat.toDigits 10 a.toPort.toNat ∧
    TcpServer.connName (configOn name a m ca fa) (connIdOf c) =
      name ++ (('-' :: a.toIpPort) ++ '#' :: (toString (connIdOf c)).toList) ∧
    (TcpServer.connName (configOn name a m ca fa) (connIdOf c) =
        TcpServer.connName (configOn name b n cb fb) (connIdOf d) ↔
      (a.addr.addr = b.addr.addr ∧ a.addr.port = b.addr.port) ∧ SameConnId c d) := by
  have haddr : '#' ∉ '-' :: a.toIpPort := by
    rw [List.mem_cons, not_or]
    exact ⟨by decide, notMem_toIpPort⟩
  have hids : (toString (connIdOf c)).toList = (toString (connIdOf d)).toList ↔ SameConnId c d := by
    rw [← connIdOf_eq_iff, Int.toString_eq_repr, Int.toString_eq_repr]
    exact ⟨fun h => intRepr_injective h, fun h => by rw [h]⟩
  refine ⟨toIpPort_eq a, connName_eq _ c, ?_⟩
  rw [connName_eq, connName_eq]
  change name ++ (('-' :: a.toIpPort) ++ _) = name ++ (('-' :: b.toIpPort) ++ _) ↔ _
  rw [List.append_cancel_left_eq, List.append_cons_inj_of_notMem haddr (notMem_toString (connIdOf c)), hids,
    ← toIpPort_eq_iff, List.cons.injEq]
  exact and_congr (and_iff_right rfl) (and_iff_right rfl)

end MylibMuduo.Proofs
