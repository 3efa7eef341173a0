import Runbook.Text.Class
import Runbook.Number.Digits

/-!
# Internet addresses

Address literals of both versions and the blocks of addresses that do not belong to the public network.

* `Address.read?`: the address that a literal denotes. Version 4 is four decimal parts without leading
  zeros; version 6 may skip one run of zero groups and may name a zone.
* `Address.isPrivate`, `isLoopback`, `isLinkLocal`, `isReserved`: the special blocks.
* `Address.isRestricted`: whether an address lies in any of them.
-/

namespace Runbook

/-- An address as a number of 32 or of 128 bits. -/
inductive Address where
  | v4 (n : Nat)
  | v6 (n : Nat)
  deriving DecidableEq, Repr

/-- A block of addresses: those that agree with `base` above the lowest `free` bits. -/
structure Block where
  base : Nat
  free : Nat
  deriving DecidableEq, Repr

namespace Block

/-- Whether a number lies in the block. -/
def contains (b : Block) (n : Nat) : Bool := n / Nat.pow 2 b.free == b.base / Nat.pow 2 b.free

/-- The block of version 4 addresses with the first `length` bits of `a.b.c.d`. -/
def v4 (a b c d length : Nat) : Block := ⟨((a * 256 + b) * 256 + c) * 256 + d, 32 - length⟩

/-- The block of version 6 addresses with the first `length` bits of the given leading groups. -/
def v6 (groups : List Nat) (length : Nat) : Block :=
  ⟨groups.foldl (fun n g => n * 65536 + g) 0 * Nat.pow 2 (16 * (8 - groups.length)), 128 - length⟩

end Block

namespace Address

/-- One of the four parts of a version 4 address. -/
def readOctet? (cs : List Char) : Option Nat :=
  if cs.isEmpty || !cs.all Char.isDigit || 3 < cs.length then none
  else if cs ≠ ['0'] ∧ cs.head? = some '0' then none
  else
    let n := Digits.toNat cs
    if 255 < n then none else some n

/-- The number of a version 4 literal. -/
def readV4? (cs : List Char) : Option Nat :=
  match (Text.splitChars '.' cs).map readOctet? with
  | [some a, some b, some c, some d] => some (((a * 256 + b) * 256 + c) * 256 + d)
  | _ => none

/-- The value of a hexadecimal digit. -/
def hexValue? (c : Char) : Option Nat :=
  if c.isDigit then some (c.toNat - '0'.toNat)
  else if 'a' ≤ c ∧ c ≤ 'f' then some (c.toNat - 'a'.toNat + 10)
  else if 'A' ≤ c ∧ c ≤ 'F' then some (c.toNat - 'A'.toNat + 10)
  else none

/-- A group of one to four hexadecimal digits. -/
def readGroup? (cs : List Char) : Option Nat :=
  if cs.isEmpty || 4 < cs.length then none
  else cs.foldl (fun acc c => acc.bind fun n => (hexValue? c).map (n * 16 + ·)) (some 0)

/-- The number of a list of groups. -/
def ofGroups? (parts : List (List Char)) : Option Nat :=
  (parts.mapM readGroup?).map (·.foldl (fun n g => n * 65536 + g) 0)

/-- A version 4 address at the end stands for the last two groups. -/
def expandTail (parts : List (List Char)) : Option (List (List Char)) :=
  match parts.getLast? with
  | some tail =>
    if '.' ∈ tail then
      (readV4? tail).map fun n =>
        parts.dropLast ++ [Nat.toDigits 16 (n / 65536), Nat.toDigits 16 (n % 65536)]
    else some parts
  | none => none

/-- The parts before and after the skipped run of zeros, if there is exactly one; an empty part at
either end belongs to the run. -/
def aroundGap? (parts : List (List Char)) : Option (List (List Char) × List (List Char)) :=
  let inner := parts.dropLast.drop 1
  let gap := inner.findIdx (·.isEmpty) + 1
  let before := parts.take gap
  let after := parts.drop (gap + 1)
  let before? := match before with
    | [] :: rest => if rest.isEmpty then some [] else none
    | _ => some before
  let after? := match after.getLast? with
    | some [] => if after.length = 1 then some [] else none
    | _ => some after
  match before?, after? with
  | some before, some after => some (before, after)
  | _, _ => none

/-- The number of a version 6 literal without a zone. -/
def readGroups? (cs : List Char) : Option Nat := do
  let parts := Text.splitChars ':' cs
  if parts.length < 3 then none
  else
    let parts ← expandTail parts
    if 9 < parts.length then none
    else
      match ((parts.dropLast.drop 1).filter (·.isEmpty)).length with
      | 0 => if parts.length = 8 then ofGroups? parts else none
      | 1 =>
        let (before, after) ← aroundGap? parts
        if 7 < before.length + after.length then none
        else
          let high ← ofGroups? before
          let low ← ofGroups? after
          some (high * Nat.pow 65536 (8 - before.length) + low)
      | _ => none

/-- The number of a version 6 literal; a zone after `%` must not be empty. -/
def readV6? (cs : List Char) : Option Nat :=
  if '/' ∈ cs then none
  else
    match cs.span (· != '%') with
    | (address, []) => readGroups? address
    | (address, _ :: zone) => if zone.isEmpty || '%' ∈ zone then none else readGroups? address

/-- The address of a literal. -/
def read? (cs : List Char) : Option Address :=
  match readV4? cs with
  | some n => some (.v4 n)
  | none => (readV6? cs).map .v6

/-! ## Special blocks -/

def privateV4 : List Block := [
  .v4 0 0 0 0 8, .v4 10 0 0 0 8, .v4 127 0 0 0 8, .v4 169 254 0 0 16, .v4 172 16 0 0 12,
  .v4 192 0 0 0 24, .v4 192 0 2 0 24, .v4 192 168 0 0 16, .v4 198 18 0 0 15, .v4 198 51 100 0 24,
  .v4 203 0 113 0 24, .v4 240 0 0 0 4]

/-- Public addresses inside private blocks of version 4. -/
def publicV4 : List Block := [.v4 192 0 0 9 32, .v4 192 0 0 10 32]

def loopbackV4 : Block := .v4 127 0 0 0 8

def linkLocalV4 : Block := .v4 169 254 0 0 16

def reservedV4 : Block := .v4 240 0 0 0 4

/-- Version 6 addresses that stand for version 4 addresses. -/
def mappedV4 : Block := .v6 [0, 0, 0, 0, 0, 0xffff] 96

def privateV6 : List Block := [
  .v6 [0, 0, 0, 0, 0, 0, 0, 1] 128, .v6 [0] 128, .v6 [0x64, 0xff9b, 1] 48, .v6 [0x100] 64,
  .v6 [0x2001] 23, .v6 [0x2001, 0xdb8] 32, .v6 [0x2002] 16, .v6 [0xfc00] 7, .v6 [0xfe80] 10]

/-- Public addresses inside private blocks of version 6. -/
def publicV6 : List Block := [
  .v6 [0x2001, 1, 0, 0, 0, 0, 0, 1] 128, .v6 [0x2001, 1, 0, 0, 0, 0, 0, 2] 128, .v6 [0x2001, 3] 32,
  .v6 [0x2001, 4, 0x112] 48, .v6 [0x2001, 0x20] 28, .v6 [0x2001, 0x30] 28]

def loopbackV6 : Block := .v6 [0, 0, 0, 0, 0, 0, 0, 1] 128

def linkLocalV6 : Block := .v6 [0xfe80] 10

def reservedV6 : List Block := [
  .v6 [0] 8, .v6 [0x100] 8, .v6 [0x200] 7, .v6 [0x400] 6, .v6 [0x800] 5, .v6 [0x1000] 4,
  .v6 [0x4000] 3, .v6 [0x6000] 3, .v6 [0x8000] 3, .v6 [0xa000] 3, .v6 [0xc000] 3, .v6 [0xe000] 4,
  .v6 [0xf000] 5, .v6 [0xf800] 6, .v6 [0xfe00] 9]

def isPrivateV4 (n : Nat) : Bool := privateV4.any (·.contains n) && !publicV4.any (·.contains n)

/-- Whether an address is not reachable from everywhere; a version 6 address that stands for one of
version 4 is what that one is. -/
def isPrivate : Address → Bool
  | v4 n => isPrivateV4 n
  | v6 n =>
    if mappedV4.contains n then isPrivateV4 (n % 4294967296)
    else privateV6.any (·.contains n) && !publicV6.any (·.contains n)

def isLoopback : Address → Bool
  | v4 n => loopbackV4.contains n
  | v6 n => loopbackV6.contains n

def isLinkLocal : Address → Bool
  | v4 n => linkLocalV4.contains n
  | v6 n => linkLocalV6.contains n

def isReserved : Address → Bool
  | v4 n => reservedV4.contains n
  | v6 n => reservedV6.any (·.contains n)

/-- Whether an address is private, loopback, link-local or reserved. -/
def isRestricted (a : Address) : Bool := a.isPrivate || a.isLoopback || a.isLinkLocal || a.isReserved

end Address

end Runbook
