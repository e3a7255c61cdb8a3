import MessageBlocks.Calendar.Date
import MessageBlocks.Number.Reading
import MessageBlocks.Text.Blank

/-!
# Timestamps

A timestamp counts the seconds since the start of 1970 in universal time. It is
written as date and time of day and read from a number or from the Internet
format, `2014-02-18T14:39:42Z`.
-/

namespace MessageBlocks.Timestamp

/-- Hours, minutes and seconds of a second of the day. -/
def clockText (second : Nat) : List Char :=
  Date.padded 2 (second / 3600) ++ ':' :: Date.padded 2 (second / 60 % 60) ++
    ':' :: Date.padded 2 (second % 60)

def date (seconds : Int) : Date :=
  .ofDays (seconds / 86400)

def secondOfDay (seconds : Int) : Nat :=
  (seconds % 86400).toNat

/-- Whether the year of a timestamp is one that can be written. -/
def isWritable (seconds : Int) : Bool :=
  -262143 ≤ (date seconds).year && (date seconds).year ≤ 262142

/-- Date and time as shown to a reader, `2014-02-18 14:39:42 UTC`; the bare number
if the year cannot be written. -/
def readable (seconds : Int) : List Char :=
  if isWritable seconds then
    (date seconds).text ++ ' ' :: clockText (secondOfDay seconds) ++ [' ', 'U', 'T', 'C']
  else Number.intText seconds

/-- The fraction of a second in three, six or nine digits, as few as it needs. -/
def fractionText (nanoseconds : Nat) : List Char :=
  if nanoseconds = 0 then []
  else if nanoseconds % 1000000 = 0 then '.' :: Date.padded 3 (nanoseconds / 1000000)
  else if nanoseconds % 1000 = 0 then '.' :: Date.padded 6 (nanoseconds / 1000)
  else '.' :: Date.padded 9 nanoseconds

/-- Date and time in the Internet format, in universal time. -/
def internetText (seconds : Int) (nanoseconds : Nat) : List Char :=
  (date seconds).text ++ 'T' :: clockText (secondOfDay seconds) ++
    fractionText nanoseconds ++ ['Z']

/-- A number of exactly the given count of digits. -/
def readNumber? (places : Nat) (text : List Char) : Option (Nat × List Char) :=
  let digits := text.take places
  if digits.length = places && digits.all Char.isDigit then
    some (Number.ofDigits digits, text.drop places)
  else none

def readMark? (isMark : Char → Bool) : List Char → Option (List Char)
  | [] => none
  | character :: rest => if isMark character then some rest else none

/-- Two numbers of two digits with a colon between. -/
def readClock? (text : List Char) : Option ((Nat × Nat) × List Char) := do
  let (hour, text) ← readNumber? 2 text
  let text ← readMark? (· == ':') text
  let (minute, text) ← readNumber? 2 text
  return ((hour, minute), text)

def skipFraction? : List Char → Option (List Char)
  | '.' :: rest =>
      let (digits, rest) := Number.spanDigits rest
      if digits.isEmpty then none else some rest
  | text => some text

/-- The offset from universal time in seconds: `Z`, or a sign with hours and
minutes. Nothing may follow it. -/
def readOffset? : List Char → Option Int
  | ['Z'] | ['z'] => some 0
  | sign :: rest => do
      let negative ←
        if sign == '+' then some false
        else if sign == '-' || sign == '\u2212' then some true
        else none
      let ((hours, minutes), rest) ← readClock? rest
      if !rest.isEmpty || 59 < minutes || 23 < hours then none
      let offset : Int := 3600 * hours + 60 * minutes
      return if negative then -offset else offset
  | [] => none

/-- The timestamp of date and time in the Internet format. The sixtieth second is
a leap second and counts as the one before it. -/
def ofInternet? (text : List Char) : Option Int := do
  let (year, text) ← readNumber? 4 text
  let text ← readMark? (· == '-') text
  let (month, text) ← readNumber? 2 text
  let text ← readMark? (· == '-') text
  let (day, text) ← readNumber? 2 text
  let text ← readMark? (fun mark => mark == 'T' || mark == 't' || mark == ' ') text
  let ((hour, minute), text) ← readClock? text
  let text ← readMark? (· == ':') text
  let (second, text) ← readNumber? 2 text
  let text ← skipFraction? text
  let offset ← readOffset? text
  let date : Date := ⟨year, month, day⟩
  if !date.isValid || 23 < hour || 59 < minute || 60 < second then none
  return 86400 * date.toDays + 3600 * hour + 60 * minute + min second 59 - offset

/-- The timestamp in an attribute: a number of seconds, rounded down, or date and
time in the Internet format. -/
def read? (text : List Char) : Option Int :=
  let text := Text.trim text
  match Number.readFloat? text with
  | some seconds =>
      (Number.Binary.ofFloat? seconds).map fun number => Number.clampInt64 number.floor
  | none => ofInternet? text

end MessageBlocks.Timestamp
