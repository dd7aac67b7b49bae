import Rszigbee.Datapoints
import Rszigbee.File

/-! A thermostat's weekly schedule: a day's transitions in one datapoint, and the text they are
read and written as. It is the one behaviour that is shipped. -/
namespace Rszigbee

section Decimals

/-- A number as its text has it, before it is rounded to any format. -/
inductive Decimal
  | number (negative : Bool) (digits : ℕ) (exponent : ℤ)
  | infinity (negative : Bool)
  | nan
  deriving DecidableEq

namespace Decimal

/-- Digits after a sign, if there is one. -/
def signedDigits (cs : List Char) : Option ℤ :=
  let digits := if cs.head? = some '-' ∨ cs.head? = some '+' then cs.tail else cs
  if digits = [] then none
  else (Texts.value 10 digits 0).map fun n => if cs.head? = some '-' then -n else n

/-- What stands behind the digits: nothing, or an exponent. -/
def parseExponent : List Char → Option ℤ
  | [] => some 0
  | c::cs => if c = 'e' ∨ c = 'E' then signedDigits cs else none

/-- Digits, with a point before, among or behind them. -/
def parseNumber (negative : Bool) (cs : List Char) : Option Decimal :=
  let whole := cs.takeWhile (Texts.isDigit 10)
  let behind := cs.dropWhile (Texts.isDigit 10)
  let pointed := behind.head? = some '.'
  let fraction := if pointed then behind.tail.takeWhile (Texts.isDigit 10) else []
  let rest := if pointed then behind.tail.dropWhile (Texts.isDigit 10) else behind
  if whole ++ fraction = [] then none
  else
    (Texts.value 10 (whole ++ fraction) 0).bind fun digits =>
      (parseExponent rest).map fun exponent => number negative digits (exponent - fraction.length)

/-- The texts that `f64::from_str` accepts. -/
def parse (cs : List Char) : Option Decimal :=
  let negative := decide (cs.head? = some '-')
  let body := if negative ∨ cs.head? = some '+' then cs.tail else cs
  let lower := body.map Char.toLower
  if lower = "inf".toList ∨ lower = "infinity".toList then some (infinity negative)
  else if lower = "nan".toList then some nan
  else parseNumber negative body

/-- The nearest double-precision float. -/
def toFloat : Decimal → Float
  | number negative digits exponent =>
    let magnitude := Float.ofScientific digits (exponent < 0) exponent.natAbs
    if negative then -magnitude else magnitude
  | infinity negative => if negative then -1 / 0 else 1 / 0
  | nan => 0 / 0

end Decimal

end Decimals

namespace Schedule

section Texts

/-- `str::split_once`. -/
def splitOnce (sep : Char) (cs : List Char) : Option (List Char × List Char) :=
  if sep ∈ cs then some (cs.takeWhile (· ≠ sep),(cs.dropWhile (· ≠ sep)).tail) else none

/-- `str::split_whitespace`. -/
def splitWhitespace (cs : List Char) : List (List Char) :=
  (cs.splitOnP Texts.isWhitespace).filter fun part => part ≠ []

/-- `u8::from_str`. -/
def parseU8 (cs : List Char) : Option UInt8 := (Texts.fromStrRadix 10 256 cs).map .ofNat

/-- A temperature in tenths: `f64::round` and `as u16`, which saturates and takes no number as
zero. -/
def tenthsOf (degrees : Float) : UInt16 :=
  .ofNat (min (Tuya.scale (degrees * 10)).toInt.toNat 65535)

end Texts

/-- The name a definition refers to it by. -/
def name : String := "tuya:thermostat-schedule"

/-- Hour, minute, and a temperature of two bytes. -/
def bytesPerTransition : ℕ := 4

/-- The lowest temperature these thermostats accept, in tenths of a degree. -/
def minTenths : UInt16 := 50

def maxTenths : UInt16 := 350

/-- The day number a schedule's name has behind its last underscore. -/
def scheduleDay (capability : String) : Option UInt8 :=
  let day := ((Texts.splitLast '_' capability.toList).map Prod.snd).getD capability.toList
  if day = "monday".toList then some 1
  else if day = "tuesday".toList then some 2
  else if day = "wednesday".toList then some 3
  else if day = "thursday".toList then some 4
  else if day = "friday".toList then some 5
  else if day = "saturday".toList then some 6
  else if day = "sunday".toList then some 7
  else none

section Reading

/-- `"{hour:02}:{minute:02}/{}.{}"`. -/
def transitionText (hour minute : UInt8) (tenths : UInt16) : List Char :=
  Texts.padded 10 2 hour.toNat ++ ':'::Texts.padded 10 2 minute.toNat ++
    '/'::Nat.toDigits 10 (tenths.toNat / 10) ++ '.'::Nat.toDigits 10 (tenths.toNat % 10)

/-- The transitions one after the other; a time outside the clock is none. -/
def transitionTexts : Bytes → Option (List (List Char))
  | hour::minute::high::low::rest =>
    if 24 < hour ∨ 59 < minute then none
    else (transitionTexts rest).map fun texts =>
      transitionText hour minute (Reader.ofLe16 low high)::texts
  | _ => some []

/-- A payload as text, without its day number. -/
def decodeSchedule : Bytes → Option String
  | [] => none
  | _::body =>
    if body = [] ∨ body.length % bytesPerTransition ≠ 0 then none
    else (transitionTexts body).map fun texts => .ofList ([' '].intercalate texts)

end Reading

section Writing

/-- One transition; what is not in the range the device accepts is refused. -/
def encodeTransition (cs : List Char) : Option Bytes := do
  let (time,temperature) ← splitOnce '/' cs
  let (hour,minute) ← splitOnce ':' time
  let hour ← parseU8 hour
  let minute ← parseU8 minute
  let degrees ← Decimal.parse temperature
  let tenths := tenthsOf degrees.toFloat
  if 24 < hour ∨ 59 < minute ∨ ¬(minTenths ≤ tenths ∧ tenths ≤ maxTenths) then none
  else some (hour::minute::Tuya.be16 tenths)

/-- The text as a payload, behind a day number; no transition at all is refused. -/
def encodeSchedule (day : UInt8) (text : String) : Option Bytes :=
  ((splitWhitespace text.toList).mapM encodeTransition).bind fun transitions =>
    if transitions = [] then none else some (day::transitions.flatten)

end Writing

/-- Its own datapoints as text. What is malformed is handled all the same. -/
def decodeDatapoint (_device : DeviceInfo) (definition : Definition) (point : Tuya.Datapoint)
    (capability : String) : Outcome StateChanges :=
  match definition.tuyaDatapoints.find? fun d => d.dp = point.dp with
  | none => .notHandled
  | some entry =>
    if entry.kind ≠ .behavior name then .notHandled
    else
      match point.value with
      | .raw bytes => match decodeSchedule bytes with
        | some text => .handled (StateChanges.new.set ⟨capability⟩ (.str text))
        | none => .handled .new
      | _ => .notHandled

/-- A preset as a schedule, for the first entry that names the behaviour and its day. -/
def encodeCommand (_device : DeviceInfo) (definition : Definition) (command : CapabilityCommand) :
    Outcome (List Tuya.Datapoint) :=
  match command with
  | .setPreset text =>
    match definition.tuyaDatapoints.find? fun d => d.kind = .behavior name with
    | none => .notHandled
    | some entry =>
      match scheduleDay entry.name with
      | none => .notHandled
      | some day =>
        match encodeSchedule day text with
        | some bytes => .handled [⟨entry.dp,.raw bytes⟩]
        | none => .handled []
  | _ => .notHandled

end Schedule

/-- `TuyaThermostatSchedule`. -/
def tuyaThermostatSchedule : Behavior where
  decodeDatapoint := Schedule.decodeDatapoint
  encodeCommand := Schedule.encodeCommand

/-- The registry with every behaviour that is shipped. -/
def BehaviorRegistry.withBuiltins : BehaviorRegistry :=
  AList.insert Schedule.name tuyaThermostatSchedule ∅

end Rszigbee
