/-!
# Timestamps

Dates, and dates with a time and perhaps a distance from universal time, as they are written and
checked against the calendar.
-/

namespace SdlAssembly.Yaml

/-- A time of day with a fraction of a second in millionths, and the minutes that a clock is ahead
of universal time. -/
structure TimeOfDay where
  hour : Nat
  minute : Nat
  second : Nat
  micros : Nat
  ahead : Option Int
  deriving Repr, BEq, DecidableEq

structure Timestamp where
  year : Nat
  month : Nat
  day : Nat
  time : Option TimeOfDay
  deriving Repr, BEq, DecidableEq

namespace Timestamp

/-! ## Reading -/

private def number (digits : List Char) : Nat := Nat.ofDigitChars 10 digits 0

/-- Takes between `least` and `most` digits, as many as there are. -/
def digits (least most : Nat) (cs : List Char) : Option (List Char × List Char) :=
  let taken := (cs.take most).takeWhile Char.isDigit
  if least ≤ taken.length then some (taken, cs.drop taken.length) else none

/-- Takes one given character. -/
def mark (c : Char) : List Char → Option (List Char)
  | d :: rest => if d == c then some rest else none
  | [] => none

private def isBlank (c : Char) : Bool := c == ' ' || c == '\t'

/-- What parts the date from the time: a letter T, or blanks. -/
def gap (cs : List Char) : Option (List Char) :=
  match cs with
  | 'T' :: rest | 't' :: rest => some rest
  | _ =>
    let rest := cs.dropWhile isBlank
    if rest.length < cs.length then some rest else none

/-- The fraction of a second in millionths; further digits are dropped. -/
def fraction (cs : List Char) : Nat × List Char :=
  match cs with
  | '.' :: rest =>
    let taken := rest.takeWhile Char.isDigit
    let six := taken.take 6
    (number (six ++ List.replicate (6 - six.length) '0'), rest.drop taken.length)
  | _ => (0, cs)

/-- The zone at the end of a timestamp, which may be missing. -/
def zone (cs : List Char) : Option (Option Int) :=
  if cs.isEmpty then some none
  else
    match cs.dropWhile isBlank with
    | ['Z'] => some (some 0)
    | sign :: rest =>
      if sign == '+' || sign == '-' then do
        let (hours, rest) ← digits 1 2 rest
        let minutes ← if rest.isEmpty then some 0
          else do
            let (minutes, rest) ← digits 2 2 (← mark ':' rest)
            if rest.isEmpty then some (number minutes) else none
        let ahead : Int := number hours * 60 + minutes
        return some (if sign == '-' then -ahead else ahead)
      else none
    | [] => none

/-- A timestamp, and whether its date has the full number of digits. -/
def parse (text : List Char) : Option (Timestamp × Bool) := do
  let (year, rest) ← digits 4 4 text
  let (month, rest) ← digits 1 2 (← mark '-' rest)
  let (day, rest) ← digits 1 2 (← mark '-' rest)
  let full := month.length == 2 && day.length == 2
  let date (time : Option TimeOfDay) : Timestamp × Bool :=
    (⟨number year, number month, number day, time⟩, full)
  if rest.isEmpty then return date none
  else
    let (hour, rest) ← digits 1 2 (← gap rest)
    let (minute, rest) ← digits 2 2 (← mark ':' rest)
    let (second, rest) ← digits 2 2 (← mark ':' rest)
    let (micros, rest) := fraction rest
    let ahead ← zone rest
    return date (some ⟨number hour, number minute, number second, micros, ahead⟩)

/-- Whether a text without a tag is a timestamp: a date alone must have its full number of
digits. -/
def isWritten (text : List Char) : Bool :=
  match parse text with
  | some (t, full) => full || t.time.isSome
  | none => false

/-! ## Checking -/

def isLeap (year : Nat) : Bool := year % 4 = 0 && (year % 100 != 0 || year % 400 = 0)

def daysIn (year month : Nat) : Nat :=
  if month = 2 then if isLeap year then 29 else 28
  else if [4, 6, 9, 11].contains month then 30
  else 31

/-- Why there is no such time, if there is none. -/
def problem (t : Timestamp) : Option String :=
  let zone := (t.time.bind (·.ahead)).getD 0
  if 1440 ≤ zone.natAbs then
    let days := zone / 1440
    let seconds := (zone % 1440) * 60
    some ("offset must be a timedelta strictly between -timedelta(hours=24) and "
      ++ "timedelta(hours=24), not datetime.timedelta(days=" ++ toString days
      ++ (if seconds = 0 then "" else ", seconds=" ++ toString seconds) ++ ").")
  else if t.year = 0 then some "year 0 is out of range"
  else if t.month = 0 || 12 < t.month then some "month must be in 1..12"
  else if t.day = 0 || daysIn t.year t.month < t.day then some "day is out of range for month"
  else
    match t.time with
    | none => none
    | some time =>
      if 23 < time.hour then some "hour must be in 0..23"
      else if 59 < time.minute then some "minute must be in 0..59"
      else if 59 < time.second then some "second must be in 0..59"
      else none

/-! ## Order -/

/-- The days from the start of the calendar to the start of a year. -/
def daysBefore (year : Nat) : Nat :=
  let past := year - 1
  past * 365 + past / 4 - past / 100 + past / 400

/-- The number of a day, counted from the start of the calendar. -/
def dayNumber (t : Timestamp) : Nat :=
  (List.range (t.month - 1)).foldl (fun days m => days + daysIn t.year (m + 1))
    (daysBefore t.year + t.day)

/-- The millionths of a second, in universal time, from the start of the calendar. -/
def instant (t : Timestamp) (time : TimeOfDay) (ahead : Int) : Int :=
  let minutes : Int := (t.dayNumber * 24 + time.hour) * 60 + time.minute
  ((minutes - ahead) * 60 + time.second) * 1000000 + time.micros

/-- Whether two timestamps tell the same time; with a zone they are compared in universal time. -/
def sameTime (s t : Timestamp) : Bool :=
  match s.time, t.time with
  | some a, some b =>
    match a.ahead, b.ahead with
    | some m, some n => s.instant a m == t.instant b n
    | _, _ => s == t
  | _, _ => s == t

/-! ## Display -/

private def zoneText (ahead : Int) : String :=
  if ahead = 0 then "datetime.timezone.utc"
  else
    let seconds := ahead * 60
    let span := if seconds < 0 then "days=-1, seconds=" ++ toString (seconds + 86400)
      else "seconds=" ++ toString seconds
    "datetime.timezone(datetime.timedelta(" ++ span ++ "))"

/-- A timestamp in a message. -/
def describe (t : Timestamp) : String :=
  let date := [t.year, t.month, t.day]
  match t.time with
  | none => "datetime.date(" ++ ", ".intercalate (date.map toString) ++ ")"
  | some time =>
    let clock := [time.hour, time.minute] ++
      if time.micros != 0 then [time.second, time.micros]
      else if time.second != 0 then [time.second]
      else []
    let zone := match time.ahead with
      | none => ""
      | some ahead => ", tzinfo=" ++ zoneText ahead
    "datetime.datetime(" ++ ", ".intercalate ((date ++ clock).map toString) ++ zone ++ ")"

end Timestamp

end SdlAssembly.Yaml
