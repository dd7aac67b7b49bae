import Rszigbee.Floats
import Rszigbee.Messages

/-! Capability values, changes of them, and the commands that ask for them. -/
namespace Rszigbee

section Floats

/-- `n as f64`. -/
def floatOfInt (n : ℤ) : Float :=
  .ofModel (.pack (.ofInt .binary64 n))

/-- `f64::round`, for a result of at most 2⁵³: half-way cases go away from zero. -/
def roundFloat (x : Float) : Option ℤ :=
  match x.toModel.unpack with
  | .zero _ => some 0
  | .finite sign mantissa exponent _ =>
    let magnitude := Floats.rounded mantissa exponent
    if magnitude ≤ 2 ^ 53 then some (match sign with
      | .positive => magnitude
      | .negative => -magnitude)
    else none
  | _ => none

/-- A half, and a number no integer is near. -/
example : roundFloat (floatOfInt 5 / floatOfInt 2) = some 3 ∧
    roundFloat (floatOfInt (-5) / floatOfInt 2) = some (-3) ∧
    roundFloat (floatOfInt 1 / floatOfInt 0) = none := by
  decide

end Floats

/-- A capability value. -/
inductive StateValue
  | bool (b : Bool)
  | int (i : Int64)
  | float (x : Float)
  | str (s : String)
  | enum (s : String)
  | list (items : List StateValue)
  | map (entries : List (String × StateValue))
  | null

/-- An ordered set of capability changes; no capability is in it twice. -/
structure StateChanges where
  entries : List (CapabilityId × StateValue)
  distinct : (entries.map Prod.fst).Nodup

namespace StateChanges

def new : StateChanges := ⟨[],List.nodup_nil⟩

/-- Replaces a value where it stands, or adds it at the end. -/
def setEntry (id : CapabilityId) (value : StateValue) :
    List (CapabilityId × StateValue) → List (CapabilityId × StateValue)
  | [] => [(id,value)]
  | e::es => if e.1 = id then (id,value)::es else e::setEntry id value es

theorem map_fst_setEntry (id : CapabilityId) (value : StateValue)
    (es : List (CapabilityId × StateValue)) : (setEntry id value es).map Prod.fst =
      if id ∈ es.map Prod.fst then es.map Prod.fst else es.map Prod.fst ++ [id] := by
  induction es with
  | nil => rfl
  | cons e es ih =>
    rw [setEntry]
    by_cases he : e.1 = id
    · simp [he]
    · have hne : id ≠ e.1 := fun h => he h.symm
      rw [if_neg he,List.map_cons,ih,List.map_cons]
      by_cases hmem : id ∈ es.map Prod.fst
      · rw [if_pos hmem,if_pos (List.mem_cons_of_mem _ hmem)]
      · rw [if_neg hmem,if_neg (by simpa [hne] using hmem),List.cons_append]

def set (c : StateChanges) (id : CapabilityId) (value : StateValue) : StateChanges where
  entries := setEntry id value c.entries
  distinct := by
    rw [map_fst_setEntry]
    split
    · exact c.distinct
    · rename_i hmem
      refine List.Nodup.append c.distinct (List.nodup_singleton id) ?_
      simpa using hmem

/-- One change alone. -/
def single (name : String) (value : StateValue) : StateChanges := new.set ⟨name⟩ value

end StateChanges

/-- A level; 255 is none. -/
structure Brightness where
  raw : UInt8
  le : raw ≤ 254

/-- Clamps into range. -/
def Brightness.new (level : UInt8) : Brightness :=
  if h : level ≤ 254 then ⟨level,h⟩ else ⟨254,by decide⟩

structure Mireds where
  raw : UInt16
  deriving DecidableEq

structure Percent where
  raw : UInt8
  le : raw ≤ 100

/-- Clamps into range. -/
def Percent.new (v : UInt8) : Percent := if h : v ≤ 100 then ⟨v,h⟩ else ⟨100,by decide⟩

inductive Color
  | xy (x y : Float)
  | hueSat (hue saturation : Float)
  | rgb (r g b : UInt8)

/-- What a device can be asked to do, in terms of its capabilities. -/
inductive CapabilityCommand
  | set (changes : StateChanges)
  | get (capabilities : List CapabilityId)
  | setOn (on : Bool)
  | toggle
  | setBrightness (level : Brightness)
  | setColorTemp (mireds : Mireds)
  | setColor (color : Color)
  | setPosition (percent : Percent)
  | setTilt (percent : Percent)
  | openCover
  | closeCover
  | stopCover
  | lock
  | unlock
  | setTargetTemperature (celsius : Float)
  | setPreset (name : String)
  | identify (duration : Duration)

namespace CapabilityCommand

def ofU8 (v : UInt8) : StateValue := .int v.toUInt64.toInt64

/-- The general form of a command; reading and identifying have none. -/
def toChanges : CapabilityCommand → Option StateChanges
  | set changes => some changes
  | setOn on => some (.single "state" (.enum (if on then "ON" else "OFF")))
  | toggle => some (.single "state" (.enum "TOGGLE"))
  | setBrightness level => some (.single "brightness" (ofU8 level.raw))
  | setColorTemp mireds => some (.single "color_temp" (.int mireds.raw.toUInt64.toInt64))
  | setColor _ => some (.single "color" .null)
  | setPosition percent => some (.single "position" (ofU8 percent.raw))
  | setTilt percent => some (.single "tilt" (ofU8 percent.raw))
  | openCover => some (.single "state" (.enum "OPEN"))
  | closeCover => some (.single "state" (.enum "CLOSE"))
  | stopCover => some (.single "state" (.enum "STOP"))
  | lock => some (.single "state" (.enum "LOCK"))
  | unlock => some (.single "state" (.enum "UNLOCK"))
  | setTargetTemperature celsius => some (.single "occupied_heating_setpoint" (.float celsius))
  | setPreset name => some (.single "preset" (.enum name))
  | get _ | identify _ => none

end CapabilityCommand
end Rszigbee
