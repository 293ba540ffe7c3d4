/-
Moments of TOML documents: a date, a time of day, or both with or without the distance of the clock
from universal time. However a moment is spelt, it is written in one way: with a capital letter
between date and time, and with as many digits of the second as it takes, nine at most.
-/
import DoomLex.Text.Digits

namespace DoomLex

/-- A day. -/
structure Date where
  year : Nat
  month : Nat
  day : Nat
deriving DecidableEq, Repr

/-- A time of day. -/
structure Time where
  hour : Nat
  minute : Nat
  second : Nat
  nanosecond : Nat
deriving DecidableEq, Repr

/-- What a clock shows against universal time. -/
inductive Zone where
  | universal
  /-- So many minutes more. -/
  | ahead (minutes : Int)
deriving DecidableEq, Repr

/-- A date, a time or both. -/
inductive Moment where
  | date (d : Date)
  | time (t : Time)
  | both (d : Date) (t : Time) (zone : Option Zone)
deriving DecidableEq, Repr

/-! ## Reading -/

/-- The number of a text of so many digits. -/
def Text.digits? (n : Nat) (t : Text) : Option Nat :=
  if t.length = n ∧ t.all isDigit then some (numberOf 10 t) else none

namespace Date

/-- The days of a month. -/
def daysIn (year month : Nat) : Nat :=
  if month = 2 then (if year % 4 = 0 ∧ (year % 100 ≠ 0 ∨ year % 400 = 0) then 29 else 28)
  else if month = 4 ∨ month = 6 ∨ month = 9 ∨ month = 11 then 30
  else 31

/-- Whether there is such a day. -/
def isValid (d : Date) : Bool :=
  1 ≤ d.month && d.month ≤ 12 && 1 ≤ d.day && d.day ≤ daysIn d.year d.month

/-- Reads year, month and day with dashes. -/
def ofText? (t : Text) : Option Date := do
  let year ← Text.digits? 4 (t.take 4)
  let month ← Text.digits? 2 ((t.drop 5).take 2)
  let day ← Text.digits? 2 (t.drop 8)
  let d : Date := ⟨year, month, day⟩
  if t[4]? = some '-' ∧ t[7]? = some '-' ∧ d.isValid then some d else none

end Date

namespace Time

/-- Reads hour and minute with a colon. -/
def hourMinute? (t : Text) : Option (Nat × Nat) := do
  let hour ← Text.digits? 2 (t.take 2)
  let minute ← Text.digits? 2 (t.drop 3)
  if t[2]? = some ':' ∧ hour ≤ 23 ∧ minute ≤ 59 then some (hour, minute) else none

/-- The nanoseconds that the digits after the point of a second stand for; those after the ninth do
not count. -/
def nanoseconds (digits : Text) : Nat :=
  let counted := digits.take 9
  Text.numberOf 10 (counted ++ List.replicate (9 - counted.length) '0')

/-- Reads what follows the whole seconds: nothing, or a point and digits. -/
def fraction? : Text → Option Nat
  | [] => some 0
  | c :: digits =>
    if c = '.' ∧ digits ≠ [] ∧ digits.all Text.isDigit then some (nanoseconds digits) else none

/-- Reads hour, minute and second with colons, and perhaps a fraction of the second. -/
def ofText? (t : Text) : Option Time := do
  let (hour, minute) ← hourMinute? (t.take 5)
  let second ← Text.digits? 2 ((t.drop 6).take 2)
  let nanosecond ← fraction? (t.drop 8)
  if t[5]? = some ':' ∧ second ≤ 60 then some ⟨hour, minute, second, nanosecond⟩ else none

end Time

namespace Zone

/-- Reads the distance from universal time: a letter, or a sign with hour and minute. -/
def ofText? : Text → Option Zone
  | [] => none
  | c :: t =>
    if c = 'Z' ∨ c = 'z' then (if t = [] then some universal else none)
    else
      match Time.hourMinute? t with
      | none => none
      | some (hour, minute) =>
        let minutes : Nat := 60 * hour + minute
        if c = '+' then some (ahead minutes) else if c = '-' then some (ahead (-minutes)) else none

end Zone

namespace Moment

/-- A character with which the distance from universal time starts. -/
def startsZone (c : Char) : Bool := c == 'Z' || c == 'z' || c == '+' || c == '-'

/-- Reads a date and a time that are apart. -/
def ofParts? (date time : Text) : Option Moment := do
  let clock := time.takeWhile fun c => !startsZone c
  let zone := time.drop clock.length
  let d ← Date.ofText? date
  let t ← Time.ofText? clock
  if zone = [] then some (both d t none) else (Zone.ofText? zone).map fun z => both d t (some z)

/-- Reads a date, a time, or a date, a letter and a time. -/
def ofText? (t : Text) : Option Moment :=
  ((Date.ofText? t).map date).or <|
    ((Time.ofText? t).map time).or <|
      if t[10]? = some 'T' ∨ t[10]? = some 't' then ofParts? (t.take 10) (t.drop 11) else none

end Moment

/-! ## Writing -/

/-- Year, month and day with dashes. -/
def Date.text (d : Date) : Text :=
  Text.padded 10 4 d.year ++ '-' :: Text.padded 10 2 d.month ++ '-' :: Text.padded 10 2 d.day

/-- Hour and minute with a colon. -/
def Time.hourMinuteText (hour minute : Nat) : Text :=
  Text.padded 10 2 hour ++ ':' :: Text.padded 10 2 minute

/-- A point and the digits of the nanoseconds up to the last that is not zero. -/
def Time.fractionText (nanosecond : Nat) : Text :=
  if nanosecond = 0 then []
  else '.' :: ((Text.padded 10 9 nanosecond).reverse.dropWhile (· == '0')).reverse

/-- Hour, minute and second with colons, and the fraction of the second. -/
def Time.text (t : Time) : Text :=
  Time.hourMinuteText t.hour t.minute ++ ':' :: Text.padded 10 2 t.second ++ Time.fractionText t.nanosecond

/-- A letter, or a sign with hour and minute; no distance counts as ahead. -/
def Zone.text : Zone → Text
  | universal => ['Z']
  | ahead minutes =>
    (if minutes < 0 then '-' else '+') :: Time.hourMinuteText (minutes.natAbs / 60) (minutes.natAbs % 60)

/-- The moment as it is written. -/
def Moment.text : Moment → Text
  | date d => d.text
  | time t => t.text
  | both d t zone => d.text ++ 'T' :: t.text ++ (zone.map Zone.text).getD []

end DoomLex
