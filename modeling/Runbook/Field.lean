import Runbook.Value.Text

/-!
# Reading fields

A stored object is read field by field into a typed one. All faults are collected, each with the path of
the field it was found in.

* `Problem`: what is wrong with a field.
* `Checked`: a typed result, or all faults that were found.
* `Field.text`, `Field.integer`, `Field.number`, `Field.truth`, `Field.choice`, `Field.sequence`: the
  readers of single fields.
* `Field.required`, `Field.optional`: a field that may go by several names.
-/

namespace Runbook

/-- What is wrong with a field. -/
inductive Problem where
  | missing
  | unexpected
  | text
  | undecodedText
  | dictionary
  | record (name : String)
  | sequence
  | integer
  | integerText
  | integerSize
  | fraction
  | notFinite
  | number
  | numberText
  | truth
  | truthText
  | empty
  | negative
  | choice (names : List String)
  deriving DecidableEq, Repr

/-- Names between single quotes, `or` before the last one. -/
def alternatives (names : List String) : String :=
  let quoted := names.map fun n => "'" ++ n ++ "'"
  match quoted.reverse with
  | [] => ""
  | [only] => only
  | last :: front => ", ".intercalate front.reverse ++ " or " ++ last

/-- The message about a problem. -/
def Problem.message : Problem → String
  | missing => "Field required"
  | unexpected => "Extra inputs are not permitted"
  | text => "Input should be a valid string"
  | undecodedText => "Input should be a valid string, unable to parse raw data as a unicode string"
  | dictionary => "Input should be a valid dictionary"
  | record name => "Input should be a valid dictionary or instance of " ++ name
  | sequence => "Input should be a valid tuple"
  | integer => "Input should be a valid integer"
  | integerText => "Input should be a valid integer, unable to parse string as an integer"
  | integerSize => "Unable to parse input string as an integer, exceeded maximum size"
  | fraction => "Input should be a valid integer, got a number with a fractional part"
  | notFinite => "Input should be a finite number"
  | number => "Input should be a valid number"
  | numberText => "Input should be a valid number, unable to parse string as a number"
  | truth => "Input should be a valid boolean"
  | truthText => "Input should be a valid boolean, unable to interpret input"
  | empty => "String should have at least 1 character"
  | negative => "Input should be greater than or equal to 0"
  | choice names => "Input should be " ++ alternatives names

/-- A problem and the path of the field it was found in, outermost name first. -/
structure FieldError where
  path : List String
  problem : Problem
  deriving DecidableEq, Repr

namespace FieldError

/-- The path with points between its names. -/
def location (e : FieldError) : String := ".".intercalate e.path

end FieldError

/-- A result, or the faults that were found in the order of the fields, at least one. -/
inductive Checked (α : Type) where
  | ok (result : α)
  | failed (first : FieldError) (others : List FieldError)

namespace Checked

/-- Applies a checked function to a checked argument, with the faults of both. -/
def apply {α β : Type} (f : Checked (α → β)) (x : Checked α) : Checked β :=
  match f, x with
  | ok f, ok x => ok (f x)
  | failed e es, ok _ => failed e es
  | ok _, failed e es => failed e es
  | failed e es, failed e' es' => failed e (es ++ e' :: es')

instance : Applicative Checked where
  pure := ok
  seq f x := apply f (x ())

/-- One problem with the value as a whole. -/
def fail {α : Type} (p : Problem) : Checked α := failed ⟨[], p⟩ []

/-- The same faults, found under a field of the given name. -/
def under {α : Type} (name : String) : Checked α → Checked α
  | ok x => ok x
  | failed e es => failed (inner e) (es.map inner)
where
  inner (e : FieldError) : FieldError := ⟨name :: e.path, e.problem⟩

/-- Goes on with a result. -/
def andThen {α β : Type} (x : Checked α) (f : α → Checked β) : Checked β :=
  match x with
  | ok x => f x
  | failed e es => failed e es

/-- The first way to read a value, or the second one if it fails; if both do, the faults of the first. -/
def orElse {α : Type} (x y : Checked α) : Checked α :=
  match x, y with
  | ok x, _ => ok x
  | _, ok y => ok y
  | failed e es, _ => failed e es

/-- The results of a list of checks. -/
def all {α : Type} : List (Checked α) → Checked (List α)
  | [] => ok []
  | x :: xs => apply (apply (ok List.cons) x) (all xs)

end Checked

namespace Field

/-- A byte string as a text. -/
def decode? (bs : List UInt8) : Option String := String.fromUTF8? ⟨bs.toArray⟩

/-- A text. -/
def text : Value → Checked String
  | .str s => .ok s
  | .bytes bs => match decode? bs with
    | some s => .ok s
    | none => .fail .undecodedText
  | _ => .fail .text

/-- A text or null. -/
def textOrNull : Value → Checked (Option String)
  | .null => .ok none
  | v => some <$> text v

/-- A text that is not empty. -/
def nonEmptyText (v : Value) : Checked String :=
  (text v).andThen fun s => if s.isEmpty then .fail .empty else .ok s

/-- Digits with single underscores between them. -/
def plainDigits? (cs : List Char) : Option (List Char) :=
  let groups := Text.splitChars '_' cs
  if groups.all fun g => !g.isEmpty && g.all Char.isDigit then some groups.flatten else none

/-- The digits of a natural number: zeros may stand in front, with underscores among them, and a point
may follow with zeros only. -/
def naturalDigits? (cs : List Char) : Option (List Char) :=
  let (whole, fraction) := cs.span (· != '.')
  if !(fraction.drop 1).all (· == '0') then none
  else match whole with
    | '0' :: _ =>
      match whole.dropWhile fun c => c == '0' || c == '_' with
      | [] => if whole.getLast? = some '0' then some ['0'] else none
      | rest => plainDigits? rest
    | _ => plainDigits? whole

/-- The longest text of digits that is read as an integer. -/
def maxDigits : Nat := 4300

/-- An integer in a text, between blanks and with an optional sign. -/
def integerOfText (s : String) : Checked Int :=
  let (negative, cs) := Numeral.readSign (Text.trimBy Text.isSpace s.toList)
  match naturalDigits? cs with
  | none => .fail .integerText
  | some ds =>
    if maxDigits < ds.length then .fail .integerSize
    else .ok (if negative then -(Digits.toNat ds : Int) else Digits.toNat ds)

/-- The bound that the magnitude of a number with a point stays under to be an integer. -/
def integerBound : Int := Int64.maxValue.toInt + 1

/-- An integer: truth values count as 0 and 1, and numbers without a fraction and texts of integers
are taken too. -/
def integer : Value → Checked Int
  | .int n => .ok n
  | .bool b => .ok (if b then 1 else 0)
  | .str s => integerOfText s
  | .bytes bs => match decode? bs with
    | some s => integerOfText s
    | none => .fail .integerText
  | .float x => match x.truncate? with
    | none => .fail .notFinite
    | some n =>
      if !x.isIntegral then .fail .fraction
      else if -integerBound < n ∧ n < integerBound then .ok n else .fail .integerSize
  | .decimal d => match d.toRat? with
    | none => .fail .notFinite
    | some q => if q.den = 1 then .ok q.num else .fail .fraction
  | _ => .fail .integer

/-- A natural number among the integers. -/
def natural (v : Value) : Checked Nat :=
  (integer v).andThen fun n => if n < 0 then .fail .negative else .ok n.toNat

/-- A number in a text, between blanks, or with single underscores between its characters. -/
def numberOfText (s : String) : Checked Binary64 :=
  match Binary64.read? (String.ofList (Text.trimBy Text.isSpace s.toList)) with
  | some x => .ok x
  | none =>
    let groups := Text.splitChars '_' s.toList
    if groups.any List.isEmpty then .fail .numberText
    else match Binary64.read? (String.ofList groups.flatten) with
      | some x => .ok x
      | none => .fail .numberText

/-- A number; an integer beyond the range of numbers is none. -/
def number : Value → Checked Binary64
  | .float x => .ok x
  | .bool b => .ok (if b then 1 else 0)
  | .int n => if (Binary64.ofInt n).isFinite then .ok (Binary64.ofInt n) else .fail .number
  | .str s => numberOfText s
  | .bytes bs => match decode? bs with
    | some s => numberOfText s
    | none => .fail .numberText
  | .decimal d => match d.toBinary64? with
    | some x => .ok x
    | none => .fail .number
  | _ => .fail .number

/-- A number or null. -/
def numberOrNull : Value → Checked (Option Binary64)
  | .null => .ok none
  | v => some <$> number v

/-- A number that is not negative and not a NaN. -/
def nonNegative (v : Value) : Checked Binary64 :=
  (number v).andThen fun x => if Binary64.le 0 x then .ok x else .fail .negative

/-- The words for a truth value. -/
def trueWords : List String := ["1", "on", "t", "true", "y", "yes"]

/-- The words for the other truth value. -/
def falseWords : List String := ["0", "off", "f", "false", "n", "no"]

/-- A truth value in a text, in small or capital letters. -/
def truthOfText (s : String) : Checked Bool :=
  let word := String.ofList (s.toList.map Char.toLower)
  if trueWords.contains word then .ok true
  else if falseWords.contains word then .ok false
  else .fail .truthText

/-- A truth value, 0 and 1 among the numbers, or a word for one. -/
def truth : Value → Checked Bool
  | .bool b => .ok b
  | .str s => truthOfText s
  | .bytes bs => match decode? bs with
    | some s => truthOfText s
    | none => .fail .truthText
  | .int n => if n = 0 then .ok false else if n = 1 then .ok true else .fail .truthText
  | .float x =>
    if x.isZero then .ok false
    else if x = 1 then .ok true
    else if x.isIntegral then .fail .truthText else .fail .truth
  | _ => .fail .truth

/-- One of several names. -/
def choice {α : Type} (all : List α) (name : α → String) : Value → Checked α
  | .str s => match all.find? (name · == s) with
    | some a => .ok a
    | none => .fail (.choice (all.map name))
  | _ => .fail (.choice (all.map name))

/-- The items of a value that holds a sequence. -/
def items? : Value → Option (List Value)
  | .list xs | .tuple xs | .set xs => some xs
  | _ => none

/-- A sequence each item of which is read in one way; the path of an item's fault has its index. -/
def sequence {α : Type} (read : Value → Checked α) (v : Value) : Checked (List α) :=
  match items? v with
  | none => .fail .sequence
  | some xs => .all (xs.mapIdx fun i x => (read x).under (String.ofList (Digits.ofNat i)))

/-- Any value. -/
def any (v : Value) : Checked Value := .ok v

/-- The name of a key in the path of a fault; a truth value counts as a number. -/
def keyName : Value → String
  | .str s => s
  | .bool b => if b then "1" else "0"
  | k => k.literal

/-- The text of a key of a dictionary with text keys. -/
def key (k : Value) : Checked String := ((text k).under "[key]").under (keyName k)

/-- A dictionary with text keys, each value read in one way. -/
def dictionary {α : Type} (read : Value → Checked α) : Value → Checked (List (String × α))
  | .dict es => .all (es.map fun (k, v) =>
      Checked.apply (Checked.apply (.ok Prod.mk) (key k)) ((read v).under (keyName k)))
  | _ => .fail .dictionary

/-- The first of several names that a dictionary has, and the value under it. -/
def find? (es : Entries) : (names : List String) → Option (String × Value)
  | [] => none
  | name :: rest => match es.get? name with
    | some v => some (name, v)
    | none => find? es rest

/-- A field that must be there under one of its names; a missing one is reported under the first. -/
def required {α : Type} (es : Entries) (names : List String) (read : Value → Checked α) : Checked α :=
  match find? es names with
  | some (name, v) => (read v).under name
  | none => (Checked.fail .missing).under (names.headD "")

/-- A field that has a default. -/
def optional {α : Type} (es : Entries) (names : List String) (default : α)
    (read : Value → Checked α) : Checked α :=
  match find? es names with
  | some (name, v) => (read v).under name
  | none => .ok default

end Field

end Runbook
