import Mathlib.Algebra.Group.Nat.Defs
import Mathlib.Data.List.Basic

/-!
# InetAddress

The IPv4 address and port of `InetAddress.cc`, and the functions of the C library that it calls.
Addresses and ports are kept as the bytes of `sockaddr_in`, in network order.
-/

namespace MylibMuduo

/-- `AF_INET`. -/
def afInet : Nat := 2

/-- `in_addr`. -/
structure InAddr where
  b0 : UInt8
  b1 : UInt8
  b2 : UInt8
  b3 : UInt8
  deriving DecidableEq, Repr

/-- `sockaddr_in` without its padding. -/
structure SockAddrIn where
  family : Nat
  port : UInt8 × UInt8
  addr : InAddr
  deriving DecidableEq, Repr

/-! ### The C library -/

/-- The bytes of `htons`. -/
def htons (p : UInt16) : UInt8 × UInt8 := (UInt8.ofNat (p.toNat / 256), UInt8.ofNat p.toNat)

def ntohs (b : UInt8 × UInt8) : UInt16 := UInt16.ofNat (256 * b.1.toNat + b.2.toNat)

/-- The bytes of `htonl`. -/
def htonl (n : Nat) : InAddr :=
  ⟨UInt8.ofNat (n / 2 ^ 24), UInt8.ofNat (n / 2 ^ 16), UInt8.ofNat (n / 2 ^ 8), UInt8.ofNat n⟩

/-- The number that the digit stands for in bases up to 16. -/
def digitValue (c : Char) : Nat :=
  if c.isDigit then c.toNat - '0'.toNat
  else if 'a' ≤ c ∧ c ≤ 'f' then c.toNat - 'a'.toNat + 10
  else if 'A' ≤ c ∧ c ≤ 'F' then c.toNat - 'A'.toNat + 10
  else 16

/-- The digits at the front of the text, as a number, and the rest. -/
def readDigits (base : Nat) (text : List Char) : Nat × List Char :=
  ((text.takeWhile fun c => decide (digitValue c < base)).foldl (fun n c => base * n + digitValue c) 0,
    text.dropWhile fun c => decide (digitValue c < base))

/-- `strtoul` with base 0 on a text that starts with a digit. -/
def strtoul (text : List Char) : Nat × List Char :=
  match text with
  | '0' :: x :: d :: rest =>
    if (x = 'x' ∨ x = 'X') ∧ digitValue d < 16 then readDigits 16 (d :: rest) else readDigits 8 text
  | '0' :: _ => readDigits 8 text
  | _ => readDigits 10 text

/-- `isspace`. -/
def isSpace (c : Char) : Bool := c = ' ' ∨ ('\t' ≤ c ∧ c ≤ '\r')

/-- The loop of `inet_aton` in front of a number. After it `dots` more numbers may follow; the last
one fills all the bytes that are left. -/
def inetAtonFrom (dots word : Nat) (text : List Char) : Option Nat :=
  if text.head?.any Char.isDigit then
    match strtoul text, dots with
    | (val, '.' :: rest), dots + 1 =>
      if val ≤ 0xff then inetAtonFrom dots (word + val * 256 ^ (dots + 1)) rest else none
    | (val, rest), dots =>
      if val < 256 ^ (dots + 1) ∧ rest.head?.all isSpace then some (word + val) else none
  else none

/-- `inet_addr`. A text that is no address gives `INADDR_NONE`. -/
def inetAddr (text : List Char) : InAddr := htonl ((inetAtonFrom 3 0 text).getD 0xffffffff)

/-- `inet_ntop` for `AF_INET`. -/
def inetNtop (a : InAddr) : List Char :=
  Nat.toDigits 10 a.b0.toNat ++ '.' :: Nat.toDigits 10 a.b1.toNat ++ '.' :: Nat.toDigits 10 a.b2.toNat ++
    '.' :: Nat.toDigits 10 a.b3.toNat

/-- The characters of `std::string::c_str` in front of the first null character. -/
def cStr (text : List Char) : List Char := text.takeWhile (· ≠ Char.ofNat 0)

/-! ### The class -/

structure InetAddress where
  addr : SockAddrIn
  deriving DecidableEq, Repr

namespace InetAddress

/-- `InetAddress::InetAddress(uint16_t, std::string)`. -/
def make (port : UInt16) (ip : List Char) : InetAddress := ⟨⟨afInet, htons port, inetAddr (cStr ip)⟩⟩

variable (a : InetAddress)

/-- `InetAddress::toIp`. The buffer has 64 bytes with the null character. -/
def toIp : List Char := (inetNtop a.addr.addr).take 63

/-- `InetAddress::toPort`. -/
def toPort : UInt16 := ntohs a.addr.port

/-- `InetAddress::toIpPort`; `snprintf` cuts at the end of the buffer. -/
def toIpPort : List Char :=
  a.toIp ++ (':' :: Nat.toDigits 10 a.toPort.toNat).take (63 - a.toIp.length)

end InetAddress

end MylibMuduo
