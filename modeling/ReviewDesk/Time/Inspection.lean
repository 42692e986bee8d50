import ReviewDesk.Text.Basic
import ReviewDesk.Time.Timestamp

/-!
# Inspected times

Spans of time and dates as lines of text, for the places that show whatever they were given. A span tells those of
its parts that are not zero, a date its parts down to the last that is not zero, at least to the minute.
-/
namespace ReviewDesk

/-- A span of time that is not empty, in days, seconds and microseconds, of which only the days can be
negative. -/
def inspectedSpan (microseconds : Int) : Text :=
  let days := microseconds / 86400000000
  let seconds := microseconds % 86400000000 / 1000000
  let fraction := microseconds % 1000000
  let part (name : String) (n : Int) : List Text := if n = 0 then [] else [Text.ofString (name ++ toString n)]
  let parts := part "days=" days ++ part "seconds=" seconds ++ part "microseconds=" fraction
  "datetime.timedelta(" ++ Text.joined ", " parts ++ ")"

/-- The zone of a date. -/
def inspectedZone : Option Int → List Text
  | none => []
  | some offset =>
    let zone : Text :=
      if offset = 0 then Text.ofString "datetime.timezone.utc"
      else "datetime.timezone(" ++ inspectedSpan offset ++ ")"
    ["tzinfo=" ++ zone]

/-- A date with its zone. -/
def inspectedDate : Option Timestamp → Text
  | none => "None"
  | some t =>
    let date := Date.ofDays (t.wall / 86400000000)
    let time := t.wall % 86400000000
    let seconds := time / 1000000 % 60
    let fraction := time % 1000000
    let rest : List Int := if fraction = 0 then (if seconds = 0 then [] else [seconds]) else [seconds, fraction]
    let parts := date.year :: date.month :: date.day :: time / 3600000000 :: time / 60000000 % 60 :: rest
    "datetime.datetime(" ++
      Text.joined ", " (parts.map (fun n => Text.ofString (toString n)) ++ inspectedZone t.offset) ++ ")"

example : inspectedSpan (-1500000) = "datetime.timedelta(days=-1, seconds=86398, microseconds=500000)" := by
  decide +kernel

end ReviewDesk
