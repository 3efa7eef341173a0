import Runbook.Value

/-!
# Reading JSON

A JSON text is read into a value. Besides plain JSON, the words `NaN`, `Infinity` and `-Infinity` are
numbers, and of equal keys the last one counts. A text that is no JSON is refused with the reason and
the place.

* `Json.read`: the value of a text.
-/

namespace Runbook

/-- What is wrong with a JSON text. -/
inductive JsonFault where
  | value
  | key
  | colon
  | comma
  | extra
  | unterminated
  | control
  | escape
  | unitEscape
  deriving DecidableEq, Repr

/-- Why a JSON text was refused. -/
inductive JsonError where
  | malformed (fault : JsonFault) (line column position : Nat)
  | numberTooLong (digits : Nat)
  deriving DecidableEq, Repr

/-- The description of a fault. -/
def JsonFault.message : JsonFault → String
  | .value => "Expecting value"
  | .key => "Expecting property name enclosed in double quotes"
  | .colon => "Expecting ':' delimiter"
  | .comma => "Expecting ',' delimiter"
  | .extra => "Extra data"
  | .unterminated => "Unterminated string starting at"
  | .control => "Invalid control character at"
  | .escape => "Invalid \\escape"
  | .unitEscape => "Invalid \\uXXXX escape"

namespace Json

/-- Where a fault was found. -/
structure Place where
  fault : JsonFault
  position : Nat

/-- A refusal while reading. -/
inductive Refusal where
  | at (place : Place)
  | numberTooLong (digits : Nat)

/-- A part that was read, with the position after it and the rest of the text. -/
abbrev Part (α : Type) := α × Nat × List Char

def refuse {α : Type} (fault : JsonFault) (position : Nat) : Except Refusal (Part α) :=
  .error (.at ⟨fault, position⟩)

def isGap (c : Char) : Bool := c == ' ' || c == '\t' || c == '\n' || c == '\r'

/-- Skips blanks. -/
def skip (pos : Nat) (cs : List Char) : Nat × List Char :=
  let gap := cs.takeWhile isGap
  (pos + gap.length, cs.drop gap.length)

/-- The value of a hexadecimal digit. -/
def hexValue? (c : Char) : Option Nat :=
  if c.isDigit then some (c.toNat - '0'.toNat)
  else if 'a' ≤ c ∧ c ≤ 'f' then some (c.toNat - 'a'.toNat + 10)
  else if 'A' ≤ c ∧ c ≤ 'F' then some (c.toNat - 'A'.toNat + 10)
  else none

/-- The UTF-16 unit that four hexadecimal digits stand for. -/
def unit? (cs : List Char) : Option Nat :=
  let front := cs.take 4
  if front.length = 4 then
    front.foldl (fun acc c => acc.bind fun n => (hexValue? c).map (n * 16 + ·)) (some 0)
  else none

def isHighUnit (n : Nat) : Bool := 0xd800 ≤ n && n < 0xdc00

def isLowUnit (n : Nat) : Bool := 0xdc00 ≤ n && n < 0xe000

/-- The character of a lone unit; half of a pair has no character of its own. -/
def unitChar (n : Nat) : Char := if isHighUnit n || isLowUnit n then Char.ofNat 0xfffd else Char.ofNat n

/-- The character of an escape of one letter. -/
def simpleEscape? (c : Char) : Option Char :=
  if c = '"' ∨ c = '\\' ∨ c = '/' then some c
  else if c = 'b' then some (Char.ofNat 0x8)
  else if c = 'f' then some (Char.ofNat 0xc)
  else if c = 'n' then some '\n'
  else if c = 'r' then some '\r'
  else if c = 't' then some '\t'
  else none

/-- The characters of a text after its opening quote, which stands at `start`. The fuel bounds the
number of characters left. -/
def readChars (start : Nat) : (fuel : Nat) → Nat → List Char → Except Refusal (Part (List Char))
  | 0, _, _ => refuse .unterminated start
  | fuel + 1, pos, cs =>
    match cs with
    | [] => refuse .unterminated start
    | '"' :: rest => .ok ([], pos + 1, rest)
    | '\\' :: [] => refuse .unterminated start
    | '\\' :: 'u' :: rest =>
      if rest.length < 5 then refuse .unitEscape (pos + 1)
      else match unit? rest with
        | none => refuse .unitEscape (pos + 1)
        | some n =>
          let after := rest.drop 4
          let single : Unit → Except Refusal (Part (List Char)) := fun _ => do
            let (tail, next) ← readChars start fuel (pos + 6) after
            return (unitChar n :: tail, next)
          match isHighUnit n && decide (6 < after.length), after with
          | true, '\\' :: 'u' :: pair =>
            match unit? pair with
            | none => refuse .unitEscape (pos + 7)
            | some m =>
              if isLowUnit m then do
                let c := Char.ofNat (0x10000 + (n - 0xd800) * 0x400 + (m - 0xdc00))
                let (tail, next) ← readChars start fuel (pos + 12) (pair.drop 4)
                return (c :: tail, next)
              else single ()
          | _, _ => single ()
    | '\\' :: c :: rest =>
      match simpleEscape? c with
      | none => refuse .escape pos
      | some d => do
        let (tail, next) ← readChars start fuel (pos + 2) rest
        return (d :: tail, next)
    | c :: rest =>
      if c.toNat < 0x20 then refuse .control pos
      else do
        let (tail, next) ← readChars start fuel (pos + 1) rest
        return (c :: tail, next)

/-- The text after an opening quote at `pos`. -/
def readString (pos : Nat) (rest : List Char) : Except Refusal (Part String) := do
  let (cs, next) ← readChars pos (rest.length + 1) (pos + 1) rest
  return (String.ofList cs, next)

/-- The longest text of digits that is read as an integer. -/
def maxDigits : Nat := 4300

/-- A number at `pos`: an integer part without leading zeros, then a fraction and a power of ten. -/
def readNumber (pos : Nat) (cs : List Char) : Except Refusal (Part Value) :=
  let (negative, body) := match cs with
    | '-' :: rest => (true, rest)
    | _ => (false, cs)
  let whole := match body with
    | '0' :: _ => ['0']
    | _ => body.takeWhile Char.isDigit
  if whole.isEmpty then refuse .value pos
  else
    let rest := body.drop whole.length
    let fraction := match rest with
      | '.' :: tail => tail.takeWhile Char.isDigit
      | _ => []
    let rest := if fraction.isEmpty then rest else rest.drop (fraction.length + 1)
    let (power, used) := match rest with
      | mark :: tail =>
        if mark = 'e' ∨ mark = 'E' then
          let (sign, tail, width) := match tail with
            | '-' :: tail => (true, tail, 1)
            | '+' :: tail => (false, tail, 1)
            | _ => (false, tail, 0)
          let ds := tail.takeWhile Char.isDigit
          if ds.isEmpty then (none, 0)
          else
            let n : Int := Digits.toNat ds
            (some (if sign then -n else n), ds.length + width + 1)
        else (none, 0)
      | [] => (none, 0)
    let rest := rest.drop used
    let next := pos + (cs.length - rest.length)
    if fraction.isEmpty && power.isNone then
      if maxDigits < whole.length then .error (.numberTooLong whole.length)
      else
        let n : Int := Digits.toNat whole
        .ok (.int (if negative then -n else n), next, rest)
    else
      let x := Binary64.ofDecimal negative (Digits.toNat (whole ++ fraction))
        (power.getD 0 - fraction.length)
      .ok (.float x, next, rest)

/-- The words that stand for values. -/
def words : List (List Char × Value) := [
  (['n', 'u', 'l', 'l'], .null),
  (['t', 'r', 'u', 'e'], .bool true),
  (['f', 'a', 'l', 's', 'e'], .bool false),
  (['N', 'a', 'N'], .float Json.nan),
  (['I', 'n', 'f', 'i', 'n', 'i', 't', 'y'], .float (.inf false)),
  (['-', 'I', 'n', 'f', 'i', 'n', 'i', 't', 'y'], .float (.inf true))]

mutual

/-- A value at `pos`. The fuel bounds the length of what is left. -/
def readValue : (fuel : Nat) → Nat → List Char → Except Refusal (Part Value)
  | 0, pos, _ => refuse .value pos
  | fuel + 1, pos, cs =>
    match cs with
    | [] => refuse .value pos
    | '"' :: rest => do
      let (s, next) ← readString pos rest
      return (.str s, next)
    | '[' :: rest =>
      match skip (pos + 1) rest with
      | (pos, ']' :: rest) => .ok (.list [], pos + 1, rest)
      | (pos, rest) => do
        let (xs, next) ← readItems fuel pos rest
        return (.list xs, next)
    | '\x7b' :: rest =>
      match skip (pos + 1) rest with
      | (pos, '\x7d' :: rest) => .ok (.dict [], pos + 1, rest)
      | (pos, rest) => do
        let (es, next) ← readEntries fuel pos rest []
        return (.dict es, next)
    | cs =>
      match words.find? fun (w, _) => w.isPrefixOf cs with
      | some (w, v) => .ok (v, pos + w.length, cs.drop w.length)
      | none => readNumber pos cs

/-- The items of a list up to its closing bracket. -/
def readItems : (fuel : Nat) → Nat → List Char → Except Refusal (Part (List Value))
  | 0, pos, _ => refuse .value pos
  | fuel + 1, pos, cs => do
    let (x, pos, rest) ← readValue fuel pos cs
    match skip pos rest with
    | (pos, ']' :: rest) => return ([x], pos + 1, rest)
    | (pos, ',' :: rest) =>
      let (pos, rest) := skip (pos + 1) rest
      let (xs, next) ← readItems fuel pos rest
      return (x :: xs, next)
    | (pos, _) => refuse .comma pos

/-- The entries of a dictionary up to its closing brace, after those read so far. -/
def readEntries : (fuel : Nat) → Nat → List Char → Entries → Except Refusal (Part Entries)
  | 0, pos, _, _ => refuse .key pos
  | fuel + 1, pos, cs, acc =>
    match cs with
    | '"' :: rest => do
      let (key, pos, rest) ← readString pos rest
      match skip pos rest with
      | (pos, ':' :: rest) =>
        let (pos, rest) := skip (pos + 1) rest
        let (v, pos, rest) ← readValue fuel pos rest
        let acc := acc.set key v
        match skip pos rest with
        | (pos, '\x7d' :: rest) => return (acc, pos + 1, rest)
        | (pos, ',' :: rest) =>
          let (pos, rest) := skip (pos + 1) rest
          readEntries fuel pos rest acc
        | (pos, _) => refuse .comma pos
      | (pos, _) => refuse .colon pos
    | _ => refuse .key pos

end

/-- The line and the column of a position. -/
def lineColumn (cs : List Char) (position : Nat) : Nat × Nat :=
  let before := cs.take position
  (before.count '\n' + 1, (before.reverse.takeWhile (· != '\n')).length + 1)

/-- A byte order mark at the front of a text is not part of it. -/
def withoutMark : List Char → List Char
  | [] => []
  | c :: cs => if c.toNat = 0xfeff then cs else c :: cs

/-- The value of a JSON text. -/
def read (text : String) : Except JsonError Value :=
  let cs := withoutMark text.toList
  let located (place : Place) : JsonError :=
    let (line, column) := lineColumn cs place.position
    .malformed place.fault line column place.position
  let (start, body) := skip 0 cs
  match readValue (2 * body.length + 2) start body with
  | .error (.at place) => .error (located place)
  | .error (.numberTooLong n) => .error (.numberTooLong n)
  | .ok (v, pos, rest) =>
    match skip pos rest with
    | (_, []) => .ok v
    | (pos, _) => .error (located ⟨.extra, pos⟩)

end Json

/-- The message about a refused JSON text. -/
def JsonError.message : JsonError → String
  | .malformed fault line column position =>
    let n (k : Nat) := String.ofList (Digits.ofNat k)
    fault.message ++ ": line " ++ n line ++ " column " ++ n column ++ " (char " ++ n position ++ ")"
  | .numberTooLong digits =>
    "Exceeds the limit (4300 digits) for integer string conversion: value has " ++
      String.ofList (Digits.ofNat digits) ++
      " digits; use sys.set_int_max_str_digits() to increase the limit"

end Runbook
