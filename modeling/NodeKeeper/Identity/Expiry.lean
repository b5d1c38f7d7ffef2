import NodeKeeper.Fault.Basic
import NodeKeeper.Identity.Calendar

/-!
# Expiry instants

An identity service says until when a token is valid in a text with a date, perhaps a time of day,
and perhaps an offset from universal time. Without an offset the time is the local time of whoever
reads it.

## Main definitions

* `Expiry.Moment` — what such a text says.
* `Expiry.moment?` — reading the text.
* `Expiry.Zone` — how local time runs beside universal time.
* `Expiry.Zone.universalSecond` — the second at which clocks show a local time.
* `Expiry.ofText` — the epoch seconds of the instant, or why there is none.

## Implementation notes

The grammar is over the UTF-8 units of the text. The date comes in three lengths, and the unit
after it is a separator of any kind. The time ends at the first `Z`, `+` or `-`, and one unit in
front of that mark is passed over. A fraction counts up to six digits. A null character behind the
time or the offset ends the text.
-/

namespace NodeKeeper.Expiry

/-- The text of an instant, one entry for each of its UTF-8 units. -/
abbrev Units := List Char

/-- The units of a text. -/
def units (s : String) : Units := s.toUTF8.toList.map fun b => Char.ofNat b.toNat

/-- A date: by year, month and day, or by year, week and weekday. -/
inductive Date where
  | civil (year month day : Nat)
  | week (year week day : Nat)
deriving DecidableEq, Repr

/-- A time of day or an offset, with microseconds. -/
structure Clock where
  hour : Nat := 0
  minute : Nat := 0
  second : Nat := 0
  micro : Nat := 0
deriving DecidableEq, Repr

/-- The microseconds since the start of the day. -/
def Clock.micros (c : Clock) : Nat :=
  ((c.hour * 60 + c.minute) * 60 + c.second) * 1000000 + c.micro

/-- The microseconds of an offset; less than a second counts as no offset. -/
def Clock.offsetMicros (c : Clock) : Nat := if c.micros < 1000000 then 0 else c.micros

/-- What the text of an instant says. The offset is in microseconds. -/
structure Moment where
  date : Date
  time : Clock := {}
  offset : Option Int := none
deriving Repr

/-! ## Reading -/

/-- A number of exactly so many digits. -/
def number? (width : Nat) (cs : Units) : Option (Nat × Units) :=
  let ds := cs.take width
  if ds.length = width && ds.all Char.isDigit then
    some (ds.foldl (fun n c => 10 * n + (c.toNat - 48)) 0, cs.drop width)
  else none

/-- How many units the date takes: seven for a week without dashes, eight for a day without dashes
or a week with one, ten for a day with dashes. After a week a dash and a single digit are a
weekday, and a dash and more digits a separator and a time; without dashes the count of the digits
tells whether the first of them is a weekday. -/
def dateLength (cs : Units) : Nat :=
  let digitAt := fun i => ((cs[i]?).map Char.isDigit).getD false
  if cs.length = 7 then 7
  else if cs[4]? = some '-' then
    if cs[5]? = some 'W' then
      if cs[8]? = some '-' && !digitAt 10 then 10 else 8
    else 10
  else if cs[4]? = some 'W' then
    let last := 7 + ((cs.drop 7).takeWhile Char.isDigit).length
    if last < 9 then last else if last % 2 = 0 then 7 else 8
  else 8

/-- A dash, if the date is written with dashes. -/
def dash? (dashed : Bool) (cs : Units) : Option Units :=
  if dashed then
    match cs with
    | '-' :: rest => some rest
    | _ => none
  else some cs

/-- A date that fills the units. -/
def date? (cs : Units) : Option Date := do
  let (year, rest) ← number? 4 cs
  let dashed := rest.head? == some '-'
  let rest ← dash? dashed rest
  match rest with
  | 'W' :: rest =>
    let (week, rest) ← number? 2 rest
    if rest.isEmpty then return .week year week 1
    else
      let (day, _) ← number? 1 (← dash? dashed rest)
      return .week year week day
  | _ =>
    let (month, rest) ← number? 2 rest
    let (day, _) ← number? 2 (← dash? dashed rest)
    return .civil year month day

/-- Units are left over, up to a null character. -/
def hasMore : Units → Bool
  | [] => false
  | c :: _ => c != '\x00'

/-- The fraction of a second: at most six digits count, and further digits are dropped. -/
def fraction? (cs : Units) : Option (Nat × Units) := do
  let width := min 6 cs.length
  let (n, rest) ← number? width cs
  return (n * Nat.pow 10 (6 - width), rest.dropWhile Char.isDigit)

/-- Sets hour, minute or second. -/
def Clock.setPart (c : Clock) (part value : Nat) : Clock :=
  match part with
  | 0 => { c with hour := value }
  | 1 => { c with minute := value }
  | _ => { c with second := value }

/-- A time of day from hour, minute or second (`part` 0, 1 or 2) on, and whether units are left
over. With a colon after the hour all parts have one; a point or comma begins the fraction, and so
does what follows the second. -/
def clockFrom? (fuel part : Nat) (colons : Bool) (c : Clock) (cs : Units) :
    Option (Clock × Bool) :=
  match fuel with
  | 0 => (fraction? cs).map fun (n, rest) => ({ c with micro := n }, hasMore rest)
  | fuel + 1 =>
    match number? 2 cs with
    | none => none
    | some (value, rest) =>
      let c := c.setPart part value
      match rest with
      | [] => some (c, false)
      | [_] => some (c, hasMore rest)
      | mark :: more =>
        let colons := if part = 0 then mark == ':' else colons
        if colons && mark == ':' then clockFrom? fuel (part + 1) colons c more
        else if mark == '.' || mark == ',' then
          (fraction? more).map fun (n, rest) => ({ c with micro := n }, hasMore rest)
        else if !colons then clockFrom? fuel (part + 1) colons c rest
        else none

/-- A time of day, and whether units are left over. -/
def clock? (cs : Units) : Option (Clock × Bool) := clockFrom? 3 0 false {} cs

/-- The mark at which the offset begins. -/
def isZoneMark (c : Char) : Bool := c == 'Z' || c == '+' || c == '-'

/-- A time of day, perhaps with an offset in microseconds. Units may be left over only in front of
an offset. -/
def timeAndOffset? (cs : Units) : Option (Clock × Option Int) := do
  let (time, left) ← clock? (cs.takeWhile fun c => !isZoneMark c)
  match cs.dropWhile fun c => !isZoneMark c with
  | [] => if left then none else return (time, none)
  | 'Z' :: rest => if hasMore rest then none else return (time, some 0)
  | sign :: zone =>
    let (offset, left) ← clock? zone
    if left then none
    else
      let micros : Int := offset.offsetMicros
      return (time, some (if sign == '-' then -micros else micros))

/-- Drops the character that separates date and time. -/
def dropSeparator : Units → Units
  | [] => []
  | _ :: rest => rest.dropWhile fun c => 0x80 ≤ c.toNat && c.toNat < 0xc0

/-- A week date names a week that exists. -/
def Date.isPossible : Date → Bool
  | civil _ _ _ => true
  | week y w d => (Calendar.weekOrdinal? y w d).isSome

/-- What the text of an instant says. -/
def moment? (cs : Units) : Option Moment := do
  let n := dateLength cs
  let date ← date? (cs.take n)
  if !date.isPossible then none
  else if cs.length ≤ n then return { date }
  else
    let (time, offset) ← timeAndOffset? (dropSeparator (cs.drop n))
    return { date, time, offset }

/-! ## The instant -/

/-- The microseconds of a day. -/
def dayMicros : Int := 86400000000

/-- A span of time inside a message: days, seconds and microseconds, none of them if zero; only the
days can be negative. -/
def writtenSpan (micros : Int) : String :=
  let days := micros.fdiv dayMicros
  let inDay := micros.fmod dayMicros
  let parts := [("days", days), ("seconds", inDay / 1000000), ("microseconds", inDay % 1000000)]
  let shown := (parts.filter fun p => p.2 != 0).map fun p => s!"{p.1}={p.2}"
  let listed := if shown.isEmpty then "0" else ", ".intercalate shown
  s!"datetime.timedelta({listed})"

/-- An offset is less than a day. -/
def checkOffset (offset : Option Int) : Except Fault Unit :=
  match offset with
  | some micros =>
    if micros.natAbs < 86400000000 then .ok ()
    else .error (.badValue ("offset must be a timedelta strictly between " ++
      s!"-timedelta(hours=24) and timedelta(hours=24), not {writtenSpan micros}."))
  | none => .ok ()

/-- The number of the day, if year, month and day are in range. A week of the year 0 has no month
in any year. -/
def ordinalOf (date : Date) : Except Fault Nat :=
  match date with
  | .civil year month day =>
    if year = 0 then .error (.badValue "year 0 is out of range")
    else if month < 1 || 12 < month then .error (.badValue "month must be in 1..12")
    else if day < 1 || Calendar.daysInMonth year month < day then
      .error (.badValue "day is out of range for month")
    else .ok (Calendar.ordinal year month day)
  | .week year week day =>
    let n := (Calendar.weekOrdinal? year week day).getD 0
    if year = 0 then .error (.badValue "month must be in 1..12")
    else if Calendar.lastOrdinal < n then .error (.badValue "year 10000 is out of range")
    else .ok n.toNat

/-- Hour, minute and second are in range. -/
def checkTime (c : Clock) : Except Fault Unit :=
  if 23 < c.hour then .error (.badValue "hour must be in 0..23")
  else if 59 < c.minute then .error (.badValue "minute must be in 0..59")
  else if 59 < c.second then .error (.badValue "second must be in 0..59")
  else .ok ()

/-! ## Local time -/

/-- How local time runs beside universal time: by how many seconds it is ahead at each second since
the epoch, which is less than a day. -/
structure Zone where
  ahead : Int → Int
  natAbs_ahead_lt : ∀ u, (ahead u).natAbs < 86400

namespace Zone

/-- Local time that is always as far ahead of universal time. -/
def fixed (seconds : Int) (h : seconds.natAbs < 86400 := by decide) : Zone :=
  ⟨fun _ => seconds, fun _ => h⟩

/-- Universal time. -/
def universal : Zone := fixed 0

/-- The second with which the year 1 begins. -/
def firstSecond : Int := (1 - (Calendar.epochOrdinal : Int)) * 86400

/-- The second with which the year 9999 is over. -/
def endSecond : Int := ((Calendar.lastOrdinal : Int) + 1 - Calendar.epochOrdinal) * 86400

/-- What local clocks show at a second since the epoch, counted like this second. They show no year
before 1 and none after 9999. -/
def localSecond (z : Zone) (u : Int) : Except Fault Int :=
  let shown := u + z.ahead u
  if shown < firstSecond then .error (.badValue "year 0 is out of range")
  else if endSecond ≤ shown then .error (.badValue "year 10000 is out of range")
  else .ok shown

/-- A second at which local clocks show what they should, by a second offset: the one that it leads
to, or else the first candidate, if that is one. If neither is, the clocks skip what they should
show, and the later candidate counts. -/
def settle (z : Zone) (shown first offset : Int) (firstShows : Bool) : Except Fault Int := do
  let second := shown - offset
  if (← z.localSecond second) = shown then return second
  else if firstShows then return first
  else return max first second

/-- The second since the epoch at which local clocks show a time. If they show it twice, as the
offset goes down, the earlier second counts. -/
def universalSecond (z : Zone) (shown : Int) : Except Fault Int := do
  let offset := (← z.localSecond shown) - shown
  let first := shown - offset
  let there ← z.localSecond first
  if there = shown then
    let dayBefore := first - 86400
    let earlier := (← z.localSecond dayBefore) - dayBefore
    if offset = earlier then return first else z.settle shown first earlier true
  else z.settle shown first (there - first) false

end Zone

/-- The epoch seconds of an instant on a day. With an offset the double nearest to the exact value
counts. Without one it is a local time, and whole seconds and fraction are rounded apart. -/
def seconds (zone : Zone) (day : Nat) (time : Clock) (offset : Option Int) : Except Fault Float :=
  let days : Int := (day : Int) - Calendar.epochOrdinal
  match offset with
  | some micros =>
    let total := days * dayMicros + time.micros - micros
    .ok (Decimal.negateIf (total < 0) (Decimal.toFloat ⟨total.natAbs, -6⟩))
  | none => do
    let shown : Int := days * 86400 + (time.hour * 60 + time.minute) * 60 + time.second
    return Decimal.ofInt (← zone.universalSecond shown) + Decimal.toFloat ⟨time.micro, -6⟩

/-- The epoch seconds of the instant that a text says. -/
def ofText (zone : Zone) (s : String) : Except Fault Float :=
  match moment? (units s) with
  | none => .error (.badValue s!"Invalid isoformat string: {Text.quoted s}")
  | some m => do
    checkOffset m.offset
    let day ← ordinalOf m.date
    checkTime m.time
    seconds zone day m.time m.offset

end NodeKeeper.Expiry
