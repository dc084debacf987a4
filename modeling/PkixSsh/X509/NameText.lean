import PkixSsh.Sshbuf.Basic
import PkixSsh.X509.NameMatching

/-!
# Distinguished names as text

`ssh_X509_NAME_print` writes a name with quotes, and `x509key_str2X509NAME`, which reads one, looks
for separators before escapes and does not know of quotes.
-/

namespace PkixSsh.X509

open Sshbuf

def equalsSign : UInt8 := 61

def quotationMark : UInt8 := 34

/-- What the functions use of OpenSSL. `fieldName` is the short name of an object, or its dotted
form; `utf8Getc` returns a character and the number of its bytes; `addEntryByNid` is
`X509_NAME_add_entry_by_NID`, which gets a text in ASCII or in UTF-8 and may refuse it; `dump` is
what is written for a value that is no character string. -/
structure NameLib where
  ssl : Openssl
  fieldName : Oid → Bytes
  txt2nid : Bytes → Nat
  utf8Getc : Bytes → Option (Nat × Nat)
  utf8Putc : Nat → Bytes
  utf8Putc_ne_nil : ∀ ch, utf8Putc ch ≠ []
  addEntryByNid : Nat → Bool → Bytes → Option NameEntry
  dump : Asn1String → Bytes

def hexDigit (n : Nat) : UInt8 := (if n < 10 then 48 + n else 55 + n).toUInt8

/-- A character as `X509_NAME_print_ex` writes it; quotation marks and backslashes are escaped
also where the value is in quotes. -/
def escapeChar (c : UInt8) : Bytes :=
  if c = quotationMark || c = backslash then [backslash,c]
  else if c < 32 || c = 127 then [backslash,hexDigit (c.toNat / 16),hexDigit (c.toNat % 16)]
  else [c]

/-- The characters for which a value is put in quotes, wherever they stand. -/
def isSpecial (c : UInt8) : Bool := c ∈ cstr ",+;<>"

/-- The special characters of RFC 2253: some anywhere, a number sign and a space in front, and a
space at the end. -/
def needsQuotes (text : Bytes) : Bool :=
  text.any isSpecial || text.head? = some 35 || text.head? = some 32 || text.getLast? = some 32

def printValue (text : Bytes) : Bytes :=
  if needsQuotes text then quotationMark :: text.flatMap escapeChar ++ [quotationMark]
  else text.flatMap escapeChar

section

variable (lib : NameLib)

def printEntry (e : NameEntry) : Bytes :=
  lib.fieldName e.object ++ equalsSign ::
    match sshAsn1StringToUTF8 lib.ssl e.value with
    | some text => printValue text
    | none => lib.dump e.value

/-- `ssh_X509_NAME_print` of a name that has one attribute in each of its parts. -/
def sshX509NamePrint (name : X509Name) : Bytes :=
  [comma].intercalate (name.map (printEntry lib))

def sshHctol (c : UInt8) : Option Nat :=
  if 48 ≤ c && c ≤ 57 then some (c.toNat - 48)
  else if 65 ≤ c && c ≤ 70 then some (c.toNat - 55)
  else if 97 ≤ c && c ≤ 102 then some (c.toNat - 87)
  else none

def sshHatol (str : Bytes) : Option Nat :=
  str.foldlM (fun v c => (sshHctol c).map fun d => 16 * v + d) 0

/-- `get_escsymbol`: the symbol and the number of characters behind the backslash. -/
def getEscsymbol : Bytes → Option (Nat × Nat)
  | [] => none
  | c :: str =>
    if c = backslash then some (c.toNat,1)
    else if c = 87 then
      if str.length < 8 then none else (sshHatol (str.take 8)).map fun v => (v,9)
    else if c = 85 then
      if str.length < 4 then none else (sshHatol (str.take 4)).map fun v => (v,5)
    else
      match sshHctol c with
      | none => if c > 127 then none else some (c.toNat,1)
      | some v =>
        match str with
        | [] => none
        | lo :: _ => (sshHctol lo).map fun d => (16 * v + d,2)

def bufSize : Nat := 129 * 6 + 1

/-- The loop of `ssh_X509_NAME_add_entry_by_NID`, over a bound on its steps; `k` is the room in
the buffer. -/
def unescapeLoop : Nat → Nat → Bytes → Option Bytes
  | _, _, [] => some []
  | 0, _, _ => none
  | fuel + 1, k, c :: str =>
    let put (symbol rest : Bytes) :=
      if k < symbol.length then none
      else (unescapeLoop fuel (k - symbol.length) rest).map fun out => symbol ++ out
    if k = 0 then none
    else if c = 0 then none
    else if c = backslash then
      match getEscsymbol str with
      | none => none
      -- two hexadecimal digits are a byte, not a character
      | some (ch,2) => put [ch.toUInt8] (str.drop 2)
      | some (ch,n) => put (lib.utf8Putc ch) (str.drop n)
    else
      match lib.utf8Getc (c :: str) with
      | none => none
      | some (ch,n) => put (lib.utf8Putc ch) ((c :: str).drop n)

/-- What is handed to `X509_NAME_add_entry_by_NID`. The final NUL of a text that fills the buffer is
written behind it. -/
def attributeValue (str : Bytes) : Option Bytes :=
  (unescapeLoop lib str.length bufSize str).map untilNul

def sshX509NameAddEntryByNid (nid : Nat) (str : Bytes) : Option NameEntry :=
  (attributeValue lib str).bind fun buf => lib.addEntryByNid nid (buf.any fun c => c > 127) buf

/-- The identifier of an attribute name, with the older name of e-mail addresses. -/
def fieldNid (field : Bytes) : Nat :=
  let nid := lib.txt2nid field
  if nid = nidUndef && field.map tolower = cstr "email" then lib.txt2nid (cstr "emailAddress")
  else nid

/-- An attribute between two separators, without the white space in front of it. -/
def entryOfToken (token : Bytes) : Option NameEntry :=
  if equalsSign ∉ token then none
  else
    let field := (token.takeWhile (· ≠ equalsSign)).rdropWhile isspace
    let value := (token.dropWhile (· ≠ equalsSign)).drop 1
    if fieldNid lib field = nidUndef then none
    else if value = [] then none
    else sshX509NameAddEntryByNid lib (fieldNid lib field) (trim value)

def isSeparator (c : UInt8) : Bool := c = comma || c = slash

def str2nameLoop : Nat → Bytes → Option X509Name
  | 0, _ => none
  | fuel + 1, p =>
    match p.dropWhile isspace with
    | [] => some []
    | c :: p =>
      let token := (c :: p).takeWhile fun c => !isSeparator c
      let rest := (c :: p).dropWhile fun c => !isSeparator c
      match entryOfToken lib token with
      | none => none
      | some e => (str2nameLoop fuel (rest.drop 1)).map fun es => e :: es

def x509keyStr2X509NAME (str : Bytes) : Option X509Name := str2nameLoop lib (str.length + 1) str

end

def subjectKeywords : List Bytes :=
  [cstr "subject",cstr "distinguished name",cstr "distinguished-name",cstr "distinguished_name",
   cstr "distinguishedname",cstr "dn"]

/-- White space skipped behind a character, unless that is the end. -/
def skipBehind (chars p : Bytes) : Option Bytes :=
  match p with
  | c :: p' =>
    if c ∈ chars then
      match p'.dropWhile isspace with
      | [] => none
      | c :: p => some (c :: p)
    else some p
  | [] => none

def x509keyFindSubject (s : Bytes) : Option Bytes :=
  let s := s.dropWhile isspace
  match subjectKeywords.find? fun q => (s.take q.length).map tolower = q with
  | none => none
  | some q =>
    skipBehind (cstr ":=") ((s.drop q.length).dropWhile isspace) >>= skipBehind (cstr "/,")

end PkixSsh.X509
