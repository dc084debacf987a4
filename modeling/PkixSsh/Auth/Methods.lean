import PkixSsh.Libc

/-!
# Lists of authentication methods

The comma-separated lists of `AuthenticationMethods` as `auth2.c` walks through them.
-/

namespace PkixSsh.Auth

def colon : UInt8 := 58

inductive MatchResult where
  | matchNone | matchMethod | matchBoth | matchPartial
  deriving DecidableEq

/-- A match counts only at the end of an item of the list. -/
def atItemEnd (p : Bytes) (found : MatchResult) : MatchResult :=
  match p with
  | [] => found
  | c :: _ => if c = comma then found else .matchNone

def listStartsWith (methods method : Bytes) (submethod : Option Bytes) : MatchResult :=
  if !method.isPrefixOf methods then .matchNone
  else
    let p := methods.drop method.length
    if p.head? = some colon then
      match submethod with
      | none => .matchPartial
      | some sub =>
        if !sub.isPrefixOf p.tail then .matchNone
        else atItemEnd (p.tail.drop sub.length) .matchBoth
    else atItemEnd p .matchMethod

/-- The list without its first method, `none` when it starts with another one. -/
def removeMethod (methods method : Bytes) (submethod : Option Bytes) : Option Bytes :=
  let found := listStartsWith methods method submethod
  if found ≠ .matchMethod ∧ found ≠ .matchBoth then none
  else
    let p := methods.drop method.length
    let p := match submethod with
      | some sub => if found = .matchBoth then p.drop (1 + sub.length) else p
      | none => p
    some (if p.head? = some comma then p.tail else p)

/-- The loop: the lists after it, whether the method was found, and whether a list is complete,
which ends it. -/
def updateMethodsLoop (method : Bytes) (submethod : Option Bytes) :
    List Bytes → List Bytes × Bool × Bool
  | [] => ([],false,false)
  | l :: ls =>
    match removeMethod l method submethod with
    | none =>
      let (ls',found,complete) := updateMethodsLoop method submethod ls
      (l :: ls',found,complete)
    | some [] => ([] :: ls,true,true)
    | some l' =>
      let (ls',_,complete) := updateMethodsLoop method submethod ls
      (l' :: ls',true,complete)

/-- The lists left and whether authentication is complete; `none` is `fatal`, for a method that
starts no list. -/
def auth2UpdateMethodsLists (methods : List Bytes) (method : Bytes) (submethod : Option Bytes) :
    Option (List Bytes × Bool) :=
  let (methods',found,complete) := updateMethodsLoop method submethod methods
  if complete then some (methods',true) else if found then some (methods',false) else none

inductive Authmethod where
  | none | publickey | password | keyboardInteractive | hostbased

namespace Authmethod

def name : Authmethod → Bytes
  | none => cstr "none"
  | publickey => cstr "publickey"
  | password => cstr "password"
  | keyboardInteractive => cstr "keyboard-interactive"
  | hostbased => cstr "hostbased"

end Authmethod

def authmethods : List Authmethod :=
  [.none,.publickey,.password,.keyboardInteractive,.hostbased]

/-- `auth2_methods_valid` with `need_enable`. The submethod of an item is cut off before names are
compared. -/
def auth2MethodsValid (enabled : Authmethod → Bool) (methods : Bytes) : Bool :=
  methods ≠ [] &&
    (splitCommas methods).all fun item =>
      match authmethods.find? (fun m => m.name = item.takeWhile (· ≠ colon)) with
      | some m => enabled m
      | none => false

end PkixSsh.Auth
