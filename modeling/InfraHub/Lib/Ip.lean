import InfraHub.Lib.Text
import Mathlib.Algebra.Group.Nat.Defs

/-!
# Library — Ip

IP addresses and networks, and their texts as Python's `ipaddress` reads them.

* An address of version 4 is four decimal numbers without leading zeros; one of version 6 is eight
  groups of hex digits, of which `::` stands for some zeros and the last two may be an address of
  version 4, and maybe a scope.
* A network is an address and a length, or a mask, and has no bits behind it.
* `dotted n` is the text of a number of 32 bits, which is read as the number (`ipv4_int_dotted`).
-/

namespace InfraHub.Lib.Ip

inductive Version
  | v4
  | v6
  deriving DecidableEq

def Version.bits : Version → Nat
  | .v4 => 32
  | .v6 => 128

structure Address where
  version : Version
  ip : Nat
  scope_id : Option Str
  deriving DecidableEq

structure Network where
  network_address : Address
  prefixlen : Nat
  deriving DecidableEq

/-! ### Version 4 -/

def ascii_digit (c : Nat) : Bool := '0'.toNat ≤ c ∧ c ≤ '9'.toNat

/-- `int(s)` of digits. -/
def decimal_value (s : Str) : Nat := s.foldl (fun n c => 10 * n + (c - '0'.toNat)) 0

/-- `IPv4Address._parse_octet`. -/
def parse_octet (octet_str : Str) : Option Nat :=
  if octet_str ≠ [] ∧ octet_str.all ascii_digit ∧ octet_str.length ≤ 3 ∧
      (octet_str = str "0" ∨ octet_str.head? ≠ some '0'.toNat) ∧ decimal_value octet_str ≤ 255 then
    some (decimal_value octet_str)
  else none

/-- `IPv4Address._ip_int_from_string`. -/
def ipv4_int (ip_str : Str) : Option Nat :=
  let octets := ip_str.splitOn '.'.toNat
  if octets.length = 4 then (octets.mapM parse_octet).map fun octets =>
    octets.foldl (fun n octet => n * 0x100 + octet) 0
  else none

/-- `inet_ntoa` of a number of 32 bits. -/
def dotted (n : Nat) : Str :=
  ['.'.toNat].intercalate
    [strOfNat (n / 2 ^ 24), strOfNat (n / 2 ^ 16 % 2 ^ 8), strOfNat (n / 2 ^ 8 % 2 ^ 8),
    strOfNat (n % 2 ^ 8)]

theorem parse_octet_strOfNat {n : Nat} (h : n < 2 ^ 8) : parse_octet (strOfNat n) = some n := by
  have hall : ∀ n < 2 ^ 8, parse_octet (strOfNat n) = some n := by decide +kernel
  exact hall n h

/-- The text of a number is read as it. -/
theorem ipv4_int_dotted {n : Nat} (h : n < 2 ^ 32) : ipv4_int (dotted n) = some n := by
  have hpoint (n : Nat) : 0x2e ∉ strOfNat n :=
    fun hmem => absurd (digit_of_mem_strOfNat hmem).1 (by decide)
  have hsplit : (dotted n).splitOn '.'.toNat =
      [strOfNat (n / 2 ^ 24), strOfNat (n / 2 ^ 16 % 2 ^ 8),
      strOfNat (n / 2 ^ 8 % 2 ^ 8), strOfNat (n % 2 ^ 8)] :=
    List.splitOn_intercalate _ (by simp [hpoint]) (by simp)
  have hfirst := parse_octet_strOfNat (show n / 2 ^ 24 < 2 ^ 8 by omega)
  have hlater (n : Nat) := parse_octet_strOfNat (show n % 2 ^ 8 < 2 ^ 8 by omega)
  have hvalue : ((n / 2 ^ 24 * 0x100 + n / 2 ^ 16 % 2 ^ 8) * 0x100 + n / 2 ^ 8 % 2 ^ 8) * 0x100 +
      n % 2 ^ 8 = n := by
    omega
  simp only [ipv4_int, hsplit]
  rw [List.mapM_cons, List.mapM_cons, List.mapM_cons, List.mapM_cons, hfirst, hlater, hlater,
    hlater]
  simpa using hvalue

/-! ### Version 6 -/

def hex_digit (c : Nat) : Option Nat :=
  if '0'.toNat ≤ c ∧ c ≤ '9'.toNat then some (c - '0'.toNat)
  else if 'a'.toNat ≤ c ∧ c ≤ 'f'.toNat then some (c - 'a'.toNat + 10)
  else if 'A'.toNat ≤ c ∧ c ≤ 'F'.toNat then some (c - 'A'.toNat + 10)
  else none

/-- `IPv6Address._parse_hextet`. -/
def parse_hextet (hextet_str : Str) : Option Nat :=
  if hextet_str ≠ [] ∧ hextet_str.length ≤ 4 then
    (hextet_str.mapM hex_digit).map fun digits => digits.foldl (fun n digit => n * 0x10 + digit) 0
  else none

/-- The numbers of the parts: an IPv4-style suffix has two. -/
inductive Group
  | hextet (text : Str)
  | number (n : Nat)
  deriving DecidableEq

def Group.value : Group → Option Nat
  | .hextet text => parse_hextet text
  | .number n => some n

/-- The parts, with an IPv4-style suffix converted. -/
def groups (parts : List Str) : Option (List Group) :=
  match parts.getLast? with
  | some last =>
    if '.'.toNat ∈ last then
      (ipv4_int last).map fun n => (parts.dropLast.map .hextet) ++
        [.number (n / 0x10000), .number (n % 0x10000)]
    else some (parts.map .hextet)
  | none => none

/-- The parts on one side of `::`, without the empty part of an endpoint that it covers. -/
def trimmed (side : List Group) (endpoint : Option Group) : Option (List Group) :=
  if endpoint = some (.hextet []) then (if side.length = 1 then some [] else none) else some side

/-- The eight groups: those before `::`, zeros, and those after it. -/
def expanded (parts : List Group) : Option (List Group) :=
  match (List.range parts.length).filter fun i => 1 ≤ i ∧ i + 1 < parts.length ∧
    parts[i]? = some (.hextet []) with
  | [] => if parts.length = 8 then some parts else none
  | [skip_index] => do
    let parts_hi ← trimmed (parts.take skip_index) parts.head?
    let parts_lo ← trimmed (parts.drop (skip_index + 1)) parts.getLast?
    if parts_hi.length + parts_lo.length < 8 then
      return parts_hi ++ List.replicate (8 - (parts_hi.length + parts_lo.length)) (.number 0) ++
        parts_lo
    else none
  | _ => none

/-- `IPv6Address._ip_int_from_string`. -/
def ipv6_int (ip_str : Str) : Option Nat := do
  let parts := ip_str.splitOn ':'.toNat
  if parts.length < 3 then none
  else
    let parts ← groups parts
    if 9 < parts.length then none
    else
      let values ← (← expanded parts).mapM Group.value
      return values.foldl (fun n value => n * 0x10000 + value) 0

/-- `_split_scope_id`: no scope, or one that is not empty. -/
def split_scope_id (ip_str : Str) : Option (Str × Option Str) :=
  match ip_str.splitOn '%'.toNat with
  | [addr] => some (addr, none)
  | [addr, scope_id] => if scope_id = [] then none else some (addr, some scope_id)
  | _ => none

/-! ### Addresses and networks -/

def IPv4Address (address : Str) : Option Address :=
  if '/'.toNat ∈ address then none else (ipv4_int address).map fun ip => ⟨.v4, ip, none⟩

def IPv6Address (address : Str) : Option Address :=
  if '/'.toNat ∈ address then none
  else (split_scope_id address).bind fun (addr, scope_id) => (ipv6_int addr).map fun ip =>
    ⟨.v6, ip, scope_id⟩

/-- `ip_address(address)`; nothing if it raises `ValueError`. -/
def ip_address (address : Str) : Option Address := (IPv4Address address).or (IPv6Address address)

def netmask (version : Version) (prefixlen : Nat) : Nat :=
  2 ^ version.bits - 2 ^ (version.bits - prefixlen)

/-- `_prefix_from_prefix_string`. -/
def prefix_from_prefix_string (version : Version) (prefixlen_str : Str) : Option Nat :=
  if prefixlen_str ≠ [] ∧ prefixlen_str.all ascii_digit ∧
    decimal_value prefixlen_str ≤ version.bits then
    some (decimal_value prefixlen_str)
  else none

/-- `_prefix_from_ip_int`: the length whose mask it is. -/
def prefix_from_ip_int (ip_int : Nat) : Option Nat :=
  (List.range 33).find? fun p => netmask .v4 p = ip_int

/-- `_prefix_from_ip_string`: a netmask, or a hostmask. -/
def prefix_from_ip_string (ip_str : Str) : Option Nat :=
  (ipv4_int ip_str).bind fun ip_int =>
    (prefix_from_ip_int ip_int).or (prefix_from_ip_int (2 ^ 32 - 1 - ip_int))

/-- `_make_netmask`. -/
def make_netmask (version : Version) (arg : Str) : Option Nat :=
  (prefix_from_prefix_string version arg).or
    (match version with
    | .v4 => prefix_from_ip_string arg
    | .v6 => none)

/-- The network of an address and what comes after the slash. -/
def network_of (version : Version) (address : Str → Option Address) : List Str → Option Network
  | [addr] => (address addr).map fun a => ⟨a, version.bits⟩
  | [addr, mask] => do
    let a ← address addr
    let prefixlen ← make_netmask version mask
    -- no bits of the host
    if a.ip &&& netmask version prefixlen = a.ip then return ⟨a, prefixlen⟩ else none
  | _ => none

/-- `ip_network(address)`; nothing if it raises `ValueError`.  One of version 4 with bits of the
host raises at once, and is none of version 6 either. -/
def ip_network (address : Str) : Option Network :=
  let parts := address.splitOn '/'.toNat
  (network_of .v4 IPv4Address parts).or (network_of .v6 IPv6Address parts)

/-- `address in network`. -/
def Network.contains (network : Network) (address : Address) : Bool :=
  network.network_address.version = address.version ∧
    address.ip &&& netmask address.version network.prefixlen = network.network_address.ip

example : ip_address (str "2001:0db8::1") = ip_address (str "2001:db8:0:0:0:0:0.0.0.1") := by
  decide +kernel

example : ((ip_network (str "192.168.1.0/24")).bind fun network =>
    (ip_address (str "192.168.1.7")).map network.contains) = some true := by decide +kernel

end InfraHub.Lib.Ip
