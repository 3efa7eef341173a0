import Runbook.Net.Address

/-!
# Web addresses

* `Url.split`: the scheme and the authority of a web address.
* `Url.host?`: the host inside the authority.
* `Url.checkSafe`: a web address may be called if it is plain HTTP or HTTPS to a host that is neither the
  local one nor a restricted address literal.
-/

namespace Runbook

/-- Why a text is not split as a web address. -/
inductive UrlError where
  | brackets
  | futureAddress
  | notAddress (host : String)
  | bracketedV4
  | lookalike (authority : String)
  deriving DecidableEq, Repr

/-- Why a web address must not be called. -/
inductive UnsafeUrl where
  | scheme (name : String)
  | noHost
  | blocked (host : String)
  deriving DecidableEq, Repr

/-- The message about a web address that must not be called. -/
def UnsafeUrl.message : UnsafeUrl → String
  | .scheme name =>
    "Unsupported scheme: " ++ (if name.isEmpty then "(none)" else name) ++ ". Only HTTP and HTTPS allowed."
  | .noHost => "URL must have a valid hostname"
  | .blocked host => "Connections to " ++ host ++ " are not allowed"

/-- The parts of a web address that decide where it leads. -/
structure Url where
  scheme : List Char
  authority : List Char
  deriving DecidableEq, Repr

namespace Url

/-- The text around the first occurrence of a character: what is before it, whether it is there, and
what comes after it. -/
def cut (sep : Char) (cs : List Char) : List Char × Bool × List Char :=
  match cs.span (· != sep) with
  | (before, _ :: after) => (before, true, after)
  | (before, []) => (before, false, [])

/-- The text after the last occurrence of a character, all of it if there is none. -/
def afterLast (sep : Char) (cs : List Char) : List Char := (cs.reverse.takeWhile (· != sep)).reverse

def isSchemeChar (c : Char) : Bool := c.isAlphanum || c == '+' || c == '-' || c == '.'

/-- Blanks and controls at the front and tabs and line ends anywhere are not part of an address. -/
def clean (cs : List Char) : List Char :=
  (cs.dropWhile (·.toNat ≤ 0x20)).filter fun c => c != '\t' && c != '\r' && c != '\n'

/-- The scheme in small letters, empty if there is none, and the rest. -/
def splitScheme (cs : List Char) : List Char × List Char :=
  match cut ':' cs with
  | (before, true, after) =>
    if before.head?.any Char.isAlpha && before.all isSchemeChar then (before.map Char.toLower, after)
    else ([], cs)
  | _ => ([], cs)

/-- The authority after two slashes, up to the path, query or fragment. -/
def authorityOf : List Char → List Char
  | '/' :: '/' :: rest => rest.takeWhile fun c => c != '/' && c != '?' && c != '#'
  | _ => []

/-- The host and port part of an authority, behind any user information. -/
def hostInfo (authority : List Char) : List Char := afterLast '@' authority

/-- Characters whose compatibility form contains one of the characters that divide an address. -/
def lookalikes : List Nat := [
  0x2047, 0x2048, 0x2049, 0x2100, 0x2101, 0x2105, 0x2106, 0x2a74, 0xfe13, 0xfe16, 0xfe55, 0xfe56, 0xfe5f,
  0xfe6b, 0xff03, 0xff0f, 0xff1a, 0xff1f, 0xff20]

/-- An address of a future version: `v`, hexadecimal digits, a point and at least one character. -/
def isFutureAddress (cs : List Char) : Bool :=
  match cs with
  | 'v' :: rest =>
    let (version, tail) := rest.span fun c => (Address.hexValue? c).isSome
    !version.isEmpty && match tail with
      | '.' :: body => !body.isEmpty
      | _ => false
  | _ => false

/-- Checks what stands between brackets: an address of version 6 or of a future version. -/
def checkBracketedHost (host : List Char) : Except UrlError Unit :=
  if host.head? = some 'v' then (if isFutureAddress host then .ok () else .error .futureAddress)
  else match Address.read? host with
    | none => .error (.notAddress (String.ofList host))
    | some (.v4 _) => .error .bracketedV4
    | some (.v6 _) => .ok ()

/-- Checks an authority with brackets: nothing before the opening one, and only a port after the
closing one. -/
def checkBrackets (authority : List Char) : Except UrlError Unit :=
  match cut '[' (hostInfo authority) with
  | (before, true, bracketed) =>
    if !before.isEmpty then .error .brackets
    else
      let (host, _, port) := cut ']' bracketed
      if !port.isEmpty && port.head? != some ':' then .error .brackets else checkBracketedHost host
  | (whole, false, _) => checkBracketedHost (cut ':' whole).1

/-- The scheme and the authority of a web address. -/
def split (text : String) : Except UrlError Url :=
  let (scheme, rest) := splitScheme (clean text.toList)
  let authority := authorityOf rest
  let opened := authority.contains '['
  let closed := authority.contains ']'
  if opened != closed then .error .brackets
  else
    match if opened then checkBrackets authority else .ok () with
    | .error e => .error e
    | .ok () =>
      if authority.any fun c => lookalikes.contains c.toNat then
        .error (.lookalike (String.ofList authority))
      else .ok ⟨scheme, authority⟩

/-- The host of an address in small letters, except for a zone after `%`. -/
def host? (u : Url) : Option String :=
  let host := match cut '[' (hostInfo u.authority) with
    | (_, true, bracketed) => (cut ']' bracketed).1
    | (whole, false, _) => (cut ':' whole).1
  if host.isEmpty then none
  else
    let (name, zone) := host.span (· != '%')
    some (String.ofList (name.map Char.toLower ++ zone))

/-- Whether a host is the local one or the literal of a restricted address. -/
def isBlockedHost (host : String) : Bool :=
  String.ofList (host.toList.map Char.toLower) == "localhost" ||
    (Address.read? host.toList).any Address.isRestricted

/-- Whether a scheme is one that can be called. -/
def isWebScheme (scheme : List Char) : Bool :=
  scheme == ['h', 't', 't', 'p'] || scheme == ['h', 't', 't', 'p', 's']

/-- Why the address must not be called, if so. -/
def unsafe? (u : Url) : Option UnsafeUrl :=
  if !isWebScheme u.scheme then some (.scheme (String.ofList u.scheme))
  else match u.host? with
    | none => some .noHost
    | some host => if isBlockedHost host then some (.blocked host) else none

end Url

end Runbook
