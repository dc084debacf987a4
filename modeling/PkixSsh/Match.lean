import PkixSsh.Libc

/-!
# Matching lists of names

`match_list` finds the first name in common; `match_pattern_list` takes patterns with wildcards,
any of them negated.
-/

namespace PkixSsh.Match

def maxProp : Nat := 40

/-- The names of the server that are looked at: up to an empty one, and not too many. -/
def sproposals (server : Bytes) : List Bytes :=
  ((splitCommas server).takeWhile (· ≠ [])).take maxProp

/-- The loop over the names of the client, from a position in its list. `len` is what `strlen` gives
for the copy of the list that `strsep` has cut. -/
def matchLoop (len : Nat) (server : List Bytes) : Nat → List Bytes → Option Bytes × Nat
  | _, [] => (none,len)
  | pos, p :: rest =>
    if p = [] then (none,len)
    else if p ∈ server then (some p,if rest = [] then len else pos + p.length + 1)
    else matchLoop len server (pos + p.length + 1) rest

def matchList (client server : Bytes) : Option Bytes × Nat :=
  matchLoop ((splitCommas client).headD []).length (sproposals server) 0 (splitCommas client)

def asterisk : UInt8 := 42

def questionMark : UInt8 := 63

def exclamationMark : UInt8 := 33

/-- A loop over the positions of a string before its end. -/
def anyPosition (f : Bytes → Bool) : Bytes → Bool
  | [] => false
  | c :: s => f (c :: s) || anyPosition f s

/-- `match_pattern`, by recursion on the pattern. -/
def matchPattern : Bytes → Bytes → Bool
  | [], s => s.isEmpty
  | p :: pattern, s =>
    if p = asterisk then
      match pattern with
      | [] => true
      | q :: rest =>
        if q ≠ questionMark ∧ q ≠ asterisk then
          -- the positions of the next character are tried
          anyPosition (fun t => t.head? = some q && matchPattern rest (t.drop 1)) s
        else anyPosition (matchPattern (q :: rest)) s
    else
      match s with
      | [] => false
      | c :: s => if p ≠ questionMark ∧ p ≠ c then false else matchPattern pattern s

/-- The subpatterns between commas. A comma at the end starts none. -/
def subpatterns (pattern : Bytes) : List Bytes :=
  let items := splitCommas pattern
  if items.getLast? = some [] then items.dropLast else items

def matchSubpatterns (string : Bytes) (dolower : Bool) : Bool → List Bytes → Int
  | gotPositive, [] => if gotPositive then 1 else 0
  | gotPositive, item :: items =>
    let negated := item.head? = some exclamationMark
    let sub := if negated then item.drop 1 else item
    let sub := if dolower then sub.map tolower else sub
    -- `sub` has 1024 bytes
    if 1023 ≤ sub.length then 0
    else if matchPattern sub string then
      if negated then -1 else matchSubpatterns string dolower true items
    else matchSubpatterns string dolower gotPositive items

def matchPatternList (string pattern : Bytes) (dolower : Bool) : Int :=
  matchSubpatterns string dolower false (subpatterns pattern)

def matchHostname (host pattern : Bytes) : Int :=
  matchPatternList (host.map tolower) pattern true

end PkixSsh.Match
