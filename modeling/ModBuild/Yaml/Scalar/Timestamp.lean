import ModBuild.Yaml.Character
import ModBuild.Yaml.Fault

/-!
# Dates and times

A date has a year of four digits, and a month and a day of one or two.  A time
of day may follow, with a fraction of a second and with an offset from universal
time.  A plain scalar is read as a date only if month and day have two digits or
a time follows.

`Timestamp.parse?` reads the form alone, and `Timestamp.check` looks for parts
that are out of range.
-/

namespace ModBuild.Yaml

/-- A text without one line feed at its end. -/
def dropFinalBreak (cs : List Char) : List Char :=
  if cs.getLast? = some '\n' then cs.dropLast else cs

/-- A time of day. -/
structure Clock where
  hour : Nat
  minute : Nat
  second : Nat
  micro : Nat
  /-- The offset from universal time in seconds, if it is given. -/
  offset : Option Int
deriving DecidableEq, Repr

/-- A date, perhaps with a time of day. -/
structure Timestamp where
  year : Nat
  month : Nat
  day : Nat
  clock : Option Clock
deriving DecidableEq, Repr

namespace Timestamp

/-- Read a number that has at least `least` and at most `most` digits. -/
def number? (least most : Nat) (cs : List Char) : Option (Nat × List Char) :=
  let digits := (cs.takeWhile Char.isDigit).take most
  if least ≤ digits.length then
    some (Text.digitsValue 0 digits, cs.drop digits.length)
  else
    none

/-- Read a character. -/
def mark? (c : Char) : List Char → Option (List Char)
  | [] => none
  | d :: ds => if d = c then some ds else none

/-- The first six digits of a fraction, with zeros for those that are missing. -/
def microOf (digits : List Char) : Nat :=
  Text.digitsValue 0 ((digits ++ List.replicate 6 '0').take 6)

/-- Read an offset, up to the end. -/
def offset? (cs : List Char) : Option (Option Int) :=
  if cs = [] then
    some none
  else
    match cs.dropWhile isWhite with
    | ['Z'] => some (some 0)
    | s :: cs =>
      if s = '+' ∨ s = '-' then do
        let (hours, cs) ← number? 1 2 cs
        let minutes ←
          if cs = [] then some 0 else do
            let cs ← mark? ':' cs
            let (minutes, cs) ← number? 2 2 cs
            if cs = [] then some minutes else none
        let seconds : Int := (60 * hours + minutes) * 60
        return some (if s = '-' then -seconds else seconds)
      else
        none
    | [] => none

/-- Read a time of day, up to the end. -/
def clock? (cs : List Char) : Option Clock := do
  let (hour, cs) ← number? 1 2 cs
  let cs ← mark? ':' cs
  let (minute, cs) ← number? 2 2 cs
  let cs ← mark? ':' cs
  let (second, cs) ← number? 2 2 cs
  match cs with
  | '.' :: cs =>
    let offset ← offset? (cs.dropWhile Char.isDigit)
    return ⟨hour, minute, second, microOf (cs.takeWhile Char.isDigit), offset⟩
  | _ =>
    let offset ← offset? cs
    return ⟨hour, minute, second, 0, offset⟩

/-- Read what is between a date and a time of day. -/
def gap? : List Char → Option (List Char)
  | 'T' :: cs => some cs
  | 't' :: cs => some cs
  | c :: cs => if isWhite c then some (cs.dropWhile isWhite) else none
  | [] => none

/-- Read a date, up to the end. -/
def parse? (cs : List Char) : Option Timestamp := do
  let (year, cs) ← number? 4 4 cs
  let cs ← mark? '-' cs
  let (month, cs) ← number? 1 2 cs
  let cs ← mark? '-' cs
  let (day, cs) ← number? 1 2 cs
  if cs = [] then
    return ⟨year, month, day, none⟩
  else
    let clock ← clock? (← gap? cs)
    return ⟨year, month, day, some clock⟩

/-- The form of a plain scalar that is a date. -/
def isPlainForm (cs : List Char) : Bool :=
  match parse? cs with
  | some t => t.clock.isSome || cs.length == 10
  | none => false

/-- Whether a year has a day more. -/
def isLeap (year : Nat) : Bool :=
  year % 4 == 0 && (year % 100 != 0 || year % 400 == 0)

/-- The number of days in a month. -/
def daysIn (year month : Nat) : Nat :=
  if month = 2 then (if isLeap year then 29 else 28)
  else if month ∈ [4, 6, 9, 11] then 30
  else 31

/-- The first part of a date that is out of range. -/
def dateFault? (t : Timestamp) : Option ScalarFault :=
  if t.year = 0 then some (.year 0)
  else if t.month = 0 ∨ 12 < t.month then some .month
  else if t.day = 0 ∨ daysIn t.year t.month < t.day then some .day
  else none

/-- The first part of a time of day that is out of range. -/
def clockFault? (c : Clock) : Option ScalarFault :=
  if 23 < c.hour then some .hour
  else if 59 < c.minute then some .minute
  else if 59 < c.second then some .second
  else none

/-- An offset that is a day or more. -/
def offsetFault? (c : Clock) : Option ScalarFault :=
  match c.offset with
  | some o => if -86400 < o ∧ o < 86400 then none else some (.offset o)
  | none => none

/-- The first part that is out of range, where the offset comes first. -/
def fault? (t : Timestamp) : Option ScalarFault :=
  match t.clock with
  | none => t.dateFault?
  | some c => offsetFault? c <|> t.dateFault? <|> clockFault? c

/-- A number with zeros in front of it. -/
def padded (width n : Nat) : List Char :=
  let digits := Nat.toDigits 10 n
  List.replicate (width - digits.length) '0' ++ digits

/-- An offset in hours and minutes. -/
def offsetText (seconds : Int) : List Char :=
  let minutes := seconds.natAbs / 60
  (if seconds < 0 then '-' else '+') :: (padded 2 (minutes / 60) ++ ':' :: padded 2 (minutes % 60))

/-- A time of day. -/
def clockText (c : Clock) : List Char :=
  padded 2 c.hour ++ ':' :: padded 2 c.minute ++ ':' :: padded 2 c.second ++
    (if c.micro = 0 then [] else '.' :: padded 6 c.micro) ++
    ((c.offset.map offsetText).getD [])

/-- A date as messages show it. -/
def shown (t : Timestamp) : String :=
  .ofList (padded 4 t.year ++ '-' :: padded 2 t.month ++ '-' :: padded 2 t.day ++
    ((t.clock.map fun c => ' ' :: clockText c).getD []))

/-- Read a date, which must have the form and no part out of range. -/
def ofText (text : String) : Except ScalarFault Timestamp :=
  match parse? (dropFinalBreak text.toList) with
  | none => .error .notDate
  | some t =>
    match t.fault? with
    | none => .ok t
    | some f => .error f

example : ((ofText "2024-1-2t3:04:05.5 -1:30").toOption.map shown) =
    some "2024-01-02 03:04:05.500000-01:30" := by decide +kernel
example : (parse? "2023-02-29".toList).bind fault? = some .day := by decide +kernel

end Timestamp

end ModBuild.Yaml
