import Mathlib.Data.List.DropRight
import Mathlib.Data.Nat.Digits.Defs
import PkixSsh.Libc

/-!
# Comparison of distinguished names

`x509_nm_cmp.c`. The comparators return the `int` of the C functions; OpenSSL is `Openssl`.
-/

namespace PkixSsh.X509

abbrev Oid := Bytes

inductive Asn1Tag where
  | utf8String | printableString | t61String | ia5String | universalString | bmpString
  | other (type : Nat)
  deriving DecidableEq

structure Asn1String where
  tag : Asn1Tag
  data : Bytes
  deriving DecidableEq

structure NameEntry where
  object : Oid
  value : Asn1String
  deriving DecidableEq

abbrev X509Name := List NameEntry

def nidUndef : Nat := 0

def nidEmailAddress : Nat := 48

/-- What the file uses of OpenSSL. An object without a numeric identifier has the
undefined one, and the undefined one stands for no object an entry can carry. -/
structure Openssl where
  /-- `OBJ_obj2nid` -/
  obj2nid : Oid → Nat
  /-- The object `X509_NAME_get_index_by_NID` looks for. -/
  nid2obj : Nat → Option Oid
  /-- `ASN1_STRING_to_UTF8`, `none` for a negative result. -/
  asn1StringToUTF8 : Asn1String → Option Bytes
  /-- `i2d_ASN1_OBJECT` -/
  i2dAsn1Object : Oid → Bytes
  nid2obj_undef : nid2obj nidUndef = none
  nid2obj_obj2nid : ∀ o, obj2nid o ≠ nidUndef → nid2obj (obj2nid o) = some o

/-- `ssh_ASN1_OBJECT_cmp`. Both buffers are filled with the encoding of `a`; it is `none` if that is
written over the end of the second one. -/
def sshAsn1ObjectCmp (ssl : Openssl) (a b : Oid) : Option Int :=
  let aLength := (ssl.i2dAsn1Object a).length
  let bLength := (ssl.i2dAsn1Object b).length
  let aData := ssl.i2dAsn1Object a
  let bData := ssl.i2dAsn1Object a
  if bLength < bData.length then none
  else
    let ret := memcmp (min aLength bLength) aData bData
    some (if ret = 0 then (bLength : Int) - aLength else ret)

variable (ssl : Openssl) (a b : Asn1String)

def sshAsn1StringCasecmp : Int :=
  let la := a.data.length
  let lb := b.data.length
  if strncasecmp (min la lb) a.data b.data ≠ 0 then (lb : Int) - la else 0

/-- The `while` loop of `ssh_printable_casecmp`. Every turn takes a byte of the first string at
least. -/
def printableCasecmpLoop : Nat → Bytes → Bytes → Int
  | fuel + 1, a :: as, b :: bs =>
    if tolower a ≠ tolower b then byteDiff (tolower b) (tolower a)
    else if isspace (tolower a) then
      printableCasecmpLoop fuel (as.dropWhile isspace) (bs.dropWhile isspace)
    else printableCasecmpLoop fuel as bs
  | _, as, bs => (bs.length : Int) - as.length

def trim (s : Bytes) : Bytes := (s.dropWhile isspace).rdropWhile isspace

def sshPrintableCasecmp (pa pb : Bytes) : Int :=
  printableCasecmpLoop (trim pa).length (trim pa) (trim pb)

def sshAsn1StringToUTF8 (s : Asn1String) : Option Bytes :=
  if s.tag ≠ .utf8String then ssl.asn1StringToUTF8 s else some s.data

/-- Both strings converted, as `ssh_ASN1_PRINTABLESTRING_cmp` and
`ssh_ASN1_DIRECTORYSTRING_cmp` do for strings of different types. A failed or empty
conversion of the first string gives -1, of the second 1. -/
def convertBoth (cmp : Bytes → Bytes → Int) : Int :=
  match sshAsn1StringToUTF8 ssl a with
  | none | some [] => -1
  | some ua =>
    match sshAsn1StringToUTF8 ssl b with
    | none | some [] => 1
    | some ub => cmp ua ub

def sshAsn1PrintablestringCmp : Int :=
  if a.tag ≠ .printableString ∧ b.tag ≠ .printableString then -1
  else if a.tag = b.tag then sshPrintableCasecmp a.data b.data
  else convertBoth ssl a b sshPrintableCasecmp

def memcmpLength (pa pb : Bytes) : Int :=
  let n := memcmp (min pa.length pb.length) pa pb
  if n = 0 then (pb.length : Int) - pa.length else n

def sshAsn1DirectorystringCmp : Int :=
  if a.tag = .printableString ∨ b.tag = .printableString then
    sshAsn1PrintablestringCmp ssl a b
  else if a.tag = b.tag then memcmpLength a.data b.data
  else convertBoth ssl a b memcmpLength

def sshIsDirectoryString (s : Asn1String) : Bool :=
  match s.tag with
  | .t61String | .printableString | .universalString | .utf8String | .bmpString => true
  | _ => false

/-- The comparison of one pair of entries between the labels `trynextentry` and
`entryisok` of `ssh_X509_NAME_cmp`. -/
def entryCmp (nid : Nat) (neA neB : NameEntry) : Int :=
  let nvA := neA.value
  let nvB := neB.value
  if nid = nidEmailAddress then sshAsn1StringCasecmp nvA nvB
  else if nvA.tag = .printableString ∨ nvB.tag = .printableString then
    sshAsn1PrintablestringCmp ssl nvA nvB
  else if sshIsDirectoryString nvA ∧ sshIsDirectoryString nvB then
    sshAsn1DirectorystringCmp ssl nvA nvB
  else if (nvA.data.length : Int) - nvB.data.length ≠ 0 then
    (nvA.data.length : Int) - nvB.data.length
  else if memcmp nvA.data.length nvA.data nvB.data ≠ 0 then
    memcmp nvA.data.length nvA.data nvB.data
  -- the entries are of one type, so that the buffers are of one size
  else (sshAsn1ObjectCmp ssl neA.object neB.object).getD (-1)

/-- The search for the partner of one entry among the entries that
`X509_NAME_get_index_by_NID` enumerates, from position `loc` on. `n` is the result of
the last comparison made; without a partner it is the result of the whole function. -/
def findEntry (ssl : Openssl) (nid : Nat) (neA : NameEntry) :
    Nat → List NameEntry → Int → Int × Option Nat
  | _, [], n => (n,none)
  | loc, neB :: rest, n =>
    if ssl.nid2obj nid = some neB.object then
      -- `trynextentry`
      if entryCmp ssl nid neA neB = 0 then (0,some loc)
      else findEntry ssl nid neA (loc + 1) rest (entryCmp ssl nid neA neB)
    else findEntry ssl nid neA (loc + 1) rest n

/-- The `for` loop over the entries of the first name, last entry first. `b` is the
copy of the second name from which `X509_NAME_delete_entry` removes used entries. -/
def nameCmpLoop (ssl : Openssl) : List NameEntry → X509Name → Int
  | [], _ => 0
  | neA :: rest, b =>
    match findEntry ssl (ssl.obj2nid neA.object) neA 0 b (-1) with
    | (n,none) => n
    | (_,some loc) => nameCmpLoop ssl rest (b.eraseIdx loc)

def sshX509NameCmp : Option X509Name → Option X509Name → Int
  | none, none => 0
  | none, some _ => 1
  | some _, none => -1
  | some a, some b =>
    if a.length ≠ b.length then (b.length : Int) - a.length
    else nameCmpLoop ssl a.reverse b

end PkixSsh.X509
