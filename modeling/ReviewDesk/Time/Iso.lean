import ReviewDesk.Text.Quoted
import ReviewDesk.Time.Inspection

/-!
# Dates read from their ISO form

A date is a year with a month and a day, or with a week and perhaps a day of the week, and has hyphens everywhere
or nowhere. Any one character and a time of day can follow: hours and perhaps minutes, seconds and a fraction, with
colons everywhere or nowhere, and then perhaps a zone. A text of another form is unreadable. One of this form can
still name an offset, a date or a time that there is not.

A null character ends a text. In front of a zone the time of day is read with some patience for what is left over
behind its digits.
-/
namespace ReviewDesk.Iso

/-- What is wrong with the text of a date. -/
inductive Flaw where
  /-- It is not of the form. -/
  | unreadable (text : Text)
  /-- The offset is that of a day or more. -/
  | offset (microseconds : Int)
  | year (number : Int)
  | month
  | day
  | hour
  | minute
  | second
  deriving Repr, DecidableEq

/-- The words for a flaw. -/
def Flaw.message : Flaw → Text
  | unreadable text => "Invalid isoformat string: " ++ text.quoted
  | offset microseconds =>
    "offset must be a timedelta strictly between -timedelta(hours=24) and timedelta(hours=24), not " ++
      inspectedSpan microseconds ++ "."
  | year number => Text.ofString ("year " ++ toString number ++ " is out of range")
  | month => "month must be in 1..12"
  | day => "day is out of range for month"
  | hour => "hour must be in 0..23"
  | minute => "minute must be in 0..59"
  | second => "second must be in 0..59"

section Digits

/-- The number written by digits alone. -/
def number? (cs : List Char) : Option Int :=
  if cs.isEmpty || !cs.all Char.isDigit then none
  else some (cs.foldl (fun n c => 10 * n + ((c.toNat - 48 : Nat) : Int)) 0)

/-- The number written by the first two characters, and the rest. -/
def twoDigits? : List Char → Option (Int × List Char)
  | a :: b :: rest => do return (← number? [a, b], rest)
  | _ => none

/-- The number written by the first four characters, and the rest. -/
def fourDigits? : List Char → Option (Int × List Char)
  | a :: b :: c :: d :: rest => do return (← number? [a, b, c, d], rest)
  | _ => none

end Digits

section Times

/-- A time of day or an offset as it is written, which need not be one that there is. -/
structure Hands where
  hour : Int
  minute : Int
  second : Int
  microsecond : Int
  deriving Repr, DecidableEq

/-- The microseconds since midnight. -/
def Hands.total (h : Hands) : Int :=
  h.hour * 3600000000 + h.minute * 60000000 + h.second * 1000000 + h.microsecond

/-- Whether a text ends here. -/
def endsHere : List Char → Bool
  | [] => true
  | c :: _ => c = '\x00'

/-- A fraction in millionths, and whether the text ends after it. Digits after the sixth are dropped. -/
def fraction? (cs : List Char) : Option (Int × Bool) :=
  let digits := cs.take 6
  (number? (digits ++ List.replicate (6 - digits.length) '0')).map fun n =>
    (n, endsHere ((cs.drop 6).dropWhile Char.isDigit))

/-- Up to `n` groups of two digits, a fraction, and whether the text ends after them. One ASCII character may be
left over; a point, a comma or one group more begins the fraction. -/
def groups? (colons : Bool) : Nat → List Char → Option (List Int × Int × Bool)
  | 0, cs => (fraction? cs).map fun f => ([], f)
  | n + 1, cs => do
    let (value, rest) ← twoDigits? cs
    match rest with
    | [] => return ([value], 0, true)
    | [c] => if c.toNat < 0x80 then return ([value], 0, endsHere [c]) else none
    | c :: more =>
      let (values, tail) ←
        if colons && c = ':' then groups? colons n more
        else if c = '.' || c = ',' then (fraction? more).map fun f => ([], f)
        else if colons then none
        else groups? colons n (c :: more)
      return (value :: values, tail)

/-- Hours and perhaps minutes, seconds and a fraction, and whether the text ends after them. There are colons
everywhere or nowhere. -/
def hands? (cs : List Char) : Option (Hands × Bool) := do
  let (values, microsecond, ends) ← groups? ((cs.drop 2).head? = some ':') 3 cs
  return (⟨values.getD 0 0, values.getD 1 0, values.getD 2 0, microsecond⟩, ends)

/-- An offset that was read. One of less than a second is that of universal time. -/
def settleOffset (offset : Int) : Int := if offset.natAbs < 1000000 then 0 else offset

/-- A time of day, and the zone after it: nothing, the mark of universal time, or a sign and an offset. -/
def timed? (cs : List Char) : Option (Hands × Option Int) := do
  let (time, zone) := cs.span fun c => c ≠ '+' && c ≠ '-' && c ≠ 'Z'
  let (hands, ends) ← hands? time
  match zone with
  | [] => if ends then return (hands, none) else none
  | 'Z' :: rest => if endsHere rest then return (hands, some 0) else none
  | sign :: rest =>
    let (offset, ends) ← hands? rest
    if ends then return (hands, some (settleOffset (if sign = '-' then -offset.total else offset.total)))
    else none

end Times

section Dates

/-- A date as it is written, which need not be one that there is. -/
inductive Day where
  | ofMonth (date : Date)
  | ofWeek (year week day : Int)
  deriving Repr, DecidableEq

/-- Whether a text starts with a digit. -/
def startsWithDigit : List Char → Bool
  | c :: _ => c.isDigit
  | [] => false

/-- A week of a year, and the text after it. A hyphen and a digit are a day of the week unless another digit
follows. In a text without hyphens a digit is a day if it stands alone or belongs to an even number of digits. -/
def week? (year : Int) (hyphens : Bool) (cs : List Char) : Option (Day × List Char) := do
  let (week, rest) ← twoDigits? cs
  let day? : Option (Char × List Char) := match hyphens, rest with
    | true, '-' :: d :: after => if startsWithDigit after then none else some (d, after)
    | false, d :: after =>
      let run := (rest.takeWhile Char.isDigit).length
      if run = 1 ∨ (run ≠ 0 ∧ run % 2 = 0) then some (d, after) else none
    | _, _ => none
  match day? with
  | some (d, after) => return (.ofWeek year week (← number? [d]), after)
  | none => return (.ofWeek year week 1, rest)

/-- A date, and the text after it. -/
def day? (cs : List Char) : Option (Day × List Char) := do
  let (year, rest) ← fourDigits? cs
  match rest with
  | '-' :: 'W' :: rest => week? year true rest
  | 'W' :: rest => week? year false rest
  | '-' :: rest =>
    let (month, rest) ← twoDigits? rest
    match rest with
    | '-' :: rest =>
      let (day, rest) ← twoDigits? rest
      return (.ofMonth ⟨year, month, day⟩, rest)
    | _ => none
  | rest =>
    let (month, rest) ← twoDigits? rest
    let (day, rest) ← twoDigits? rest
    return (.ofMonth ⟨year, month, day⟩, rest)

/-- The date of a day. A year without a week of that number or a week without that day has none. The weeks before
the year 1 lie in a month in front of its first one. -/
def Day.date? : Day → Option Date
  | ofMonth date => some date
  | ofWeek year week day =>
    if Date.hasWeek year week && 1 ≤ day && day ≤ 7 then
      some (if year < 1 then ⟨1, 0, day⟩ else .ofDays (Date.daysOfWeek year week day))
    else none

end Dates

/-- A date, a time of day and a zone as they are written. -/
structure Written where
  date : Date
  time : Hands
  zone : Option Int
  deriving Repr, DecidableEq

/-- What characters write. Any one character can stand between the date and the time of day. -/
def written? (cs : List Char) : Option Written := do
  let (day, rest) ← day? cs
  match rest with
  | [] => return ⟨← day.date?, ⟨0, 0, 0, 0⟩, none⟩
  | _ :: rest =>
    let (time, zone) ← timed? rest
    return ⟨← day.date?, time, zone⟩

/-- What is wrong with a date, a time of day and a zone; of several flaws the first that is looked for. -/
def Written.flaw? (w : Written) : Option Flaw :=
  let zone := w.zone.getD 0
  if 86400000000 ≤ zone.natAbs then some (.offset zone)
  else if w.date.year < 1 ∨ 9999 < w.date.year then some (.year w.date.year)
  else if w.date.month < 1 ∨ 12 < w.date.month then some .month
  else if w.date.day < 1 ∨ Date.daysIn w.date.year w.date.month < w.date.day then some .day
  else if 23 < w.time.hour then some .hour
  else if 59 < w.time.minute then some .minute
  else if 59 < w.time.second then some .second
  else none

/-- The timestamp that was written. -/
def Written.timestamp (w : Written) : Timestamp := ⟨w.date.toDays * 86400000000 + w.time.total, w.zone⟩

/-- The characters of a text that is to be read. Half of a pair can stand between the date and the time of day, at
one of the places where a date can end, and nowhere else. -/
def characters? (t : Text) : Option (List Char) :=
  let isHalf (n : Nat) : Bool := match t.points[n]? with
    | some (.half _) => true
    | _ => false
  let points := match [7, 8, 10].find? isHalf with
    | some n => t.points.set n (.char 'T')
    | none => t.points
  points.mapM CodePoint.char?

/-- The timestamp that an ISO form writes, or what is wrong with the text. -/
def read (t : Text) : Except Flaw Timestamp :=
  match (characters? t).bind written? with
  | none => .error (.unreadable t)
  | some w =>
    match w.flaw? with
    | some flaw => .error flaw
    | none => .ok w.timestamp

example : (read "2024-03-10T01:30:00.25+05:45").toOption.map Timestamp.isoText =
    some "2024-03-10T01:30:00.250000+05:45" := by decide +kernel
example : (read "20240229T013000,5-053015").toOption.map Timestamp.zuluText =
    some "2024-02-29T01:30:00.500000-05:30" := by decide +kernel
example : (read "2024-02-29T01:30:00+00:00:00.9").toOption.map Timestamp.isoText =
    some "2024-02-29T01:30:00+00:00" := by decide +kernel
example : (read "2024-W09-4 01").toOption.map Timestamp.isoText = some "2024-02-29T01:00:00" := by decide +kernel
example : (read "2024-01-01 10:30 Z").toOption.map Timestamp.isoText = some "2024-01-01T10:30:00+00:00" := by
  decide +kernel
example : (written? "2023-02-29".toList).bind Written.flaw? = some .day := by decide +kernel
example : written? "2024-01-01T10:3000".toList = none := by decide +kernel

end ReviewDesk.Iso
