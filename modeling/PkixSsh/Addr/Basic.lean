import Mathlib.Data.BitVec
import PkixSsh.Libc

/-!
# Addresses and networks

`addrmatch.c`. An address is its bytes in memory, with words in the byte order of the host; what
`getaddrinfo` makes of a text is a parameter.
-/

namespace PkixSsh.Addr

inductive Af where
  | inet | inet6
  deriving DecidableEq

inductive Host where
  | bigEndian | littleEndian

abbrev Memory := Fin 16 → BitVec 8

structure Xaddr where
  af : Af
  addr8 : Memory
  scopeId : BitVec 32

variable (host : Host) (a : Xaddr)

/-- The byte of a word at an offset from its address. -/
def byteOf (w : BitVec 32) (r : Nat) : BitVec 8 :=
  match host with
  | .bigEndian => w.extractLsb' (8 * (3 - r)) 8
  | .littleEndian => w.extractLsb' (8 * r) 8

/-- The word of four bytes, in the order of their addresses. -/
def wordOf (b0 b1 b2 b3 : BitVec 8) : BitVec 32 :=
  match host with
  | .bigEndian => b0 ++ b1 ++ b2 ++ b3
  | .littleEndian => b3 ++ b2 ++ b1 ++ b0

def htonl (w : BitVec 32) : BitVec 32 :=
  wordOf host (byteOf .bigEndian w 0) (byteOf .bigEndian w 1) (byteOf .bigEndian w 2)
    (byteOf .bigEndian w 3)

def Memory.addr32 (m : Memory) (i : Fin 4) : BitVec 32 :=
  wordOf host (m ⟨4 * i,by omega⟩) (m ⟨4 * i + 1,by omega⟩) (m ⟨4 * i + 2,by omega⟩)
    (m ⟨4 * i + 3,by omega⟩)

def Memory.set32 (m : Memory) (i : Fin 4) (w : BitVec 32) : Memory :=
  fun j => if j.val / 4 = i.val then byteOf host w (j.val % 4) else m j

def Memory.zero : Memory := fun _ => 0

def Memory.setWords (af : Af) (m : Memory) (f : Fin 4 → BitVec 32) : Memory :=
  match af with
  | .inet => m.set32 host 0 (f 0)
  | .inet6 => (((m.set32 host 0 (f 0)).set32 host 1 (f 1)).set32 host 2 (f 2)).set32 host 3 (f 3)

def addrUnicastMasklen : Af → Nat
  | .inet => 32
  | .inet6 => 128

def masklenValid : Af → Nat → Bool
  | .inet, masklen => masklen ≤ 32
  | .inet6, masklen => masklen ≤ 128

def maskWord (l : Nat) : BitVec 32 := (0xffffffff#32 <<< (32 - l)) &&& 0xffffffff#32

/-- The loop over the words of an IPv6 mask, and the word behind the full ones. -/
def netmask6 (host : Host) : List (Fin 4) → Nat → Memory → Memory
  | [], _, m => m
  | i :: is, l, m =>
    if l ≥ 32 then netmask6 host is (l - 32) (m.set32 host i 0xffffffff#32)
    else if l ≠ 0 then m.set32 host i (htonl host (maskWord l))
    else m

def addrNetmask (af : Af) (l : Nat) : Option Xaddr :=
  if !masklenValid af l then none
  else
    match af with
    | .inet =>
      if l = 0 then some ⟨.inet,.zero,0⟩
      else some ⟨.inet,Memory.zero.set32 host 0 (htonl host (maskWord l)),0⟩
    | .inet6 => some ⟨.inet6,netmask6 host [0,1,2,3] l .zero,0⟩

def addrAnd (b : Xaddr) : Option Xaddr :=
  if a.af ≠ b.af then none
  else some { a with
    addr8 := a.addr8.setWords host a.af fun i => a.addr8.addr32 host i &&& b.addr8.addr32 host i }

def cmpBytes (a b : Memory) : List (Fin 16) → Int
  | [] => 0
  | i :: is => if a i ≠ b i then if a i > b i then 1 else -1 else cmpBytes a b is

def addrCmp (b : Xaddr) : Int :=
  if a.af ≠ b.af then if a.af = .inet6 then 1 else -1
  else
    match a.af with
    | .inet =>
      let x := a.addr8.addr32 host 0
      let y := b.addr8.addr32 host 0
      if x = y then 0 else if htonl host x > htonl host y then 1 else -1
    | .inet6 =>
      let r := cmpBytes a.addr8 b.addr8 (List.finRange 16)
      if r ≠ 0 then r
      else if a.scopeId = b.scopeId then 0
      else if a.scopeId > b.scopeId then 1 else -1

def addrInvert (n : Xaddr) : Xaddr :=
  { n with addr8 := n.addr8.setWords host n.af fun i => ~~~ n.addr8.addr32 host i }

def addrHostmask (af : Af) (l : Nat) : Option Xaddr :=
  (addrNetmask host af l).map (addrInvert host)

/-- `addr_is_all0s`, true where the function returns 0. -/
def addrIsAll0s : Bool :=
  match a.af with
  | .inet => a.addr8.addr32 host 0 = 0
  | .inet6 => a.addr8.addr32 host 0 = 0 && a.addr8.addr32 host 1 = 0 &&
      a.addr8.addr32 host 2 = 0 && a.addr8.addr32 host 3 = 0

/-- `addr_host_is_all0s`, true where the function returns 0. -/
def addrHostIsAll0s (masklen : Nat) : Bool :=
  match addrHostmask host a.af masklen with
  | none => false
  | some mask =>
    match addrAnd host a mask with
    | none => false
    | some r => addrIsAll0s host r

def addrNetmatch (net : Xaddr) (masklen : Nat) : Int :=
  if a.af ≠ net.af then -1
  else
    match addrNetmask host a.af masklen with
    | none => -1
    | some mask =>
      match addrAnd host a mask with
      | none => -1
      | some r => addrCmp host r net

/-- A socket address as `getaddrinfo` returns it, with the bytes in memory. -/
inductive Sockaddr where
  | inet (addr : Fin 4 → BitVec 8)
  | inet6 (addr : Fin 16 → BitVec 8) (scopeId : BitVec 32)
  | other

def addrSaToXaddr : Sockaddr → Option Xaddr
  | .inet addr => some ⟨.inet,fun j => if h : j.val < 4 then addr ⟨j,h⟩ else 0,0⟩
  | .inet6 addr scopeId => some ⟨.inet6,addr,scopeId⟩
  | .other => none

variable (getaddrinfo : Bytes → Option Sockaddr)

def addrPton (p : Bytes) : Option Xaddr :=
  (getaddrinfo p).bind addrSaToXaddr

def ulongMax : Nat := 2 ^ 64 - 1

def digitsValue (s : Bytes) : Nat := s.foldl (fun n c => 10 * n + (c.toNat - 48)) 0

/-- `strtoul` with base 10: the value and what is left of the text. A minus negates an unsigned
number. -/
def strtoul (s : Bytes) : Nat × Bytes :=
  let t := s.dropWhile isspace
  let negative := t.head? = some 45
  let t := if t.head? = some 45 ∨ t.head? = some 43 then t.drop 1 else t
  let digits := t.takeWhile isdigit
  if digits = [] then (0,s)
  else
    let n := digitsValue digits
    let n := if n > ulongMax then ulongMax else if negative then (2 ^ 64 - n) % 2 ^ 64 else n
    (n,t.dropWhile isdigit)

inductive CidrError where
  | parse | inconsistent

/-- The length behind the slash of a network, if there is a slash. -/
def cidrMasklen (p : Bytes) : Except CidrError (Option Nat) :=
  match p.dropWhile (· ≠ slash) with
  | [] => .ok none
  | _ :: mp =>
    let (masklen,cp) := strtoul mp
    if mp = [] ∨ cp ≠ [] ∨ masklen > 128 then .error .parse else .ok (some masklen)

def addrPtonCidr (p : Bytes) : Except CidrError (Xaddr × Nat) :=
  if p.length ≥ 64 then .error .parse
  else
    match cidrMasklen p with
    | .error e => .error e
    | .ok masklen =>
      match addrPton getaddrinfo (p.takeWhile (· ≠ slash)) with
      | none => .error .parse
      | some tmp =>
        let masklen := masklen.getD (addrUnicastMasklen tmp.af)
        if !masklenValid tmp.af masklen then .error .inconsistent
        else if !addrHostIsAll0s host tmp masklen then .error .inconsistent
        else .ok (tmp,masklen)

def inet6Addrstrlen : Nat := 46

def validCidrChars : Bytes := cstr "0123456789abcdefABCDEF.:/"

/-- The loop of `addr_match_cidr_list` over the entries, with the result so far. -/
def cidrLoop (host : Host) (getaddrinfo : Bytes → Option Sockaddr) (addr : Option Xaddr) :
    Int → List Bytes → Int
  | ret, [] => ret
  | ret, cp :: rest =>
    if cp = [] then -1
    else if cp.length > inet6Addrstrlen + 3 then -1
    else
      -- this error does not leave the loop
      let ret := if cp.all (· ∈ validCidrChars) then ret else -1
      match addrPtonCidr host getaddrinfo cp with
      | .error _ => -1
      | .ok (net,masklen) =>
        match addr with
        | some a =>
          cidrLoop host getaddrinfo addr
            (if addrNetmatch host a net masklen = 0 then 1 else ret) rest
        | none => cidrLoop host getaddrinfo addr ret rest

def addrMatchCidrList (addr : Option Bytes) (list : Bytes) : Int :=
  match addr with
  | none => cidrLoop host getaddrinfo none 0 (splitCommas list)
  | some text =>
    match addrPton getaddrinfo text with
    | none => 0
    | some a => cidrLoop host getaddrinfo (some a) 0 (splitCommas list)

end PkixSsh.Addr
