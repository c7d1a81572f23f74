import SqlMapping.Calendar.Date
import SqlMapping.Text.Numeral

/-!
# Moments and their text

A moment counts microseconds from the start of 1970, without leap seconds. It is written as in
RFC 3339, in universal time, or with a blank between date and time as databases take it. Reading
takes any RFC 3339 text; a leap second counts as the first second of the next minute.
-/

namespace SqlMapping

def microsPerSecond : Int := 1000000

def secondsPerDay : Int := 86400

structure Moment where
  date : Date
  second : Nat
  micro : Nat
  deriving DecidableEq

namespace Moment

def firstYear : Int := -262143

def lastYear : Int := 262142

def ofMicros (t : Int) : Moment :=
  let s := t / microsPerSecond
  ⟨Date.ofDays (s / secondsPerDay), (s % secondsPerDay).toNat, (t % microsPerSecond).toNat⟩

def toMicros (m : Moment) : Int :=
  (m.date.toDays * secondsPerDay + m.second) * microsPerSecond + m.micro

def ofMicros? (t : Int) : Option Moment :=
  let m := ofMicros t
  if firstYear ≤ m.date.year ∧ m.date.year ≤ lastYear then some m else none

/-- Four digits, and a sign outside the years 0 to 9999. -/
def yearText (y : Int) : String :=
  if 0 ≤ y ∧ y ≤ 9999 then padded 4 y.natAbs
  else (if y < 0 then "-" else "+") ++ padded 4 y.natAbs

def dateText (d : Date) : String := yearText d.year ++ "-" ++ padded 2 d.month ++ "-" ++ padded 2 d.day

def timeText (second : Nat) : String :=
  padded 2 (second / 3600) ++ ":" ++ padded 2 (second / 60 % 60) ++ ":" ++ padded 2 (second % 60)

/-- Nothing, milliseconds or microseconds, whichever is the shortest exact fraction. -/
def fractionText (micro : Nat) : String :=
  if micro = 0 then ""
  else if micro % 1000 = 0 then "." ++ padded 3 (micro / 1000)
  else "." ++ padded 6 micro

def rfc3339 (m : Moment) : String :=
  dateText m.date ++ "T" ++ timeText m.second ++ fractionText m.micro ++ "+00:00"

/-- Date and time with a blank between, and always six places in the fraction. -/
def spaced (m : Moment) : String :=
  dateText m.date ++ " " ++ timeText m.second ++ "." ++ padded 6 m.micro

/-! ## Reading -/

def takeDigits (n : Nat) (cs : List Char) : Option (Nat × List Char) :=
  let ds := cs.take n
  if ds.length = n ∧ ds.all Char.isDigit then some (natOfDigits ds, cs.drop n) else none

def takeChar (p : Char → Bool) : List Char → Option (List Char)
  | c :: cs => if p c then some cs else none
  | [] => none

/-- The microseconds of a fraction of a second, digits beyond the sixth dropped. -/
def takeFraction : List Char → Option (Nat × List Char)
  | '.' :: cs =>
    let ds := cs.takeWhile Char.isDigit
    if ds.isEmpty then none
    else some (natOfDigits ((ds ++ List.replicate 6 '0').take 6), cs.dropWhile Char.isDigit)
  | cs => some (0, cs)

/-- The seconds by which the local time is ahead of universal time, at the end of the text. -/
def readOffset : List Char → Option Int
  | [c] => if c = 'Z' ∨ c = 'z' then some 0 else none
  | c :: cs => do
    let negative ← if c = '+' then some false else if c = '-' ∨ c = '−' then some true else none
    let (hours, cs) ← takeDigits 2 cs
    let cs ← takeChar (· == ':') cs
    let (minutes, cs) ← takeDigits 2 cs
    if cs = [] ∧ hours < 24 ∧ minutes < 60 then
      let seconds : Int := hours * 3600 + minutes * 60
      some (if negative then -seconds else seconds)
    else none
  | [] => none

def readRfc3339 (s : String) : Option Int := do
  let cs := s.toList
  let (year, cs) ← takeDigits 4 cs
  let cs ← takeChar (· == '-') cs
  let (month, cs) ← takeDigits 2 cs
  let cs ← takeChar (· == '-') cs
  let (day, cs) ← takeDigits 2 cs
  let cs ← takeChar (fun c => c == 'T' || c == 't' || c == ' ') cs
  let (hour, cs) ← takeDigits 2 cs
  let cs ← takeChar (· == ':') cs
  let (minute, cs) ← takeDigits 2 cs
  let cs ← takeChar (· == ':') cs
  let (second, cs) ← takeDigits 2 cs
  let (micro, cs) ← takeFraction cs
  let offset ← readOffset cs
  let date : Date := ⟨year, month, day⟩
  if date.IsValid ∧ hour < 24 ∧ minute < 60 ∧ second ≤ 60 then
    some ((Moment.mk date (hour * 3600 + minute * 60 + second) micro).toMicros - offset * microsPerSecond)
  else none

end Moment

end SqlMapping
