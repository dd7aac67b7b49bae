import Mathlib.Data.String.Basic
import Rszigbee.Ordered
import Rszigbee.State
import Rszigbee.Texts

/-! JSON values as `serde_json` represents them; reading and writing their text is a parameter. -/
namespace Rszigbee

/-- Whether a number is neither infinite nor NaN. -/
def isFinite (x : Float) : Bool :=
  match x.toModel.unpack with
  | .zero _ | .finite _ _ _ _ => true
  | _ => false

inductive Number
  | posInt (n : UInt64)
  | negInt (i : Int64)
  | float (x : Float)

namespace Number

def asI64 : Number → Option Int64
  | posInt n => if n.toNat < 2 ^ 63 then some n.toInt64 else none
  | negInt i => some i
  | float _ => none

def asU64 : Number → Option UInt64
  | posInt n => some n
  | negInt _ | float _ => none

def asF64 : Number → Option Float
  | posInt n => some (floatOfInt n.toNat)
  | negInt i => some (floatOfInt i.toInt)
  | float x => some x

def ofI64 (i : Int64) : Number := if i < 0 then negInt i else posInt i.toUInt64

def ofF64 (x : Float) : Option Number := if isFinite x then some (float x) else none

end Number

/-- The fields of an object stand in the order of their names, which are distinct. -/
inductive Json
  | null
  | bool (b : Bool)
  | number (n : Number)
  | string (s : String)
  | array (items : List Json)
  | object (fields : List (String × Json))

namespace Json

/-- `json!` of an integer. -/
def int (i : Int64) : Json := number (.ofI64 i)

/-- `json!` of a float: what is not finite is null. -/
def float (x : Float) : Json := ((Number.ofF64 x).map number).getD null

/-- An object from its fields, as a map collects them. -/
def ofFields (fields : List (String × Json)) : Json := object (Ordered.ofList fields).entries

end Json

/-- How `serde_json` reads and writes a value; the error is given as its text. -/
structure JsonText where
  fromSlice : Bytes → Except String Json
  toText : Json → String

section Compact

/-- A character of a string. -/
def escaped (c : Char) : List Char :=
  if c = '"' then ['\\','"']
  else if c = '\\' then ['\\','\\']
  else if c = '\n' then ['\\','n']
  else if c = '\r' then ['\\','r']
  else if c = '\t' then ['\\','t']
  else if c.toNat = 8 then ['\\','b']
  else if c.toNat = 12 then ['\\','f']
  else if c.toNat < 0x20 then ['\\','u'] ++ Texts.padded 16 4 c.toNat
  else [c]

def quoted (s : String) : List Char := '"'::s.toList.flatMap escaped ++ ['"']

mutual

/-- A value without fractions, as it is written. -/
def compact : Json → List Char
  | .null => "null".toList
  | .bool b => (toString b).toList
  | .number (.posInt n) => Nat.toDigits 10 n.toNat
  | .number (.negInt i) => (toString i.toInt).toList
  | .number (.float _) => "null".toList
  | .string s => quoted s
  | .array items => '['::compactItems items ++ [']']
  | .object fields => '\x7b'::compactFields fields ++ ['\x7d']

def compactItems : List Json → List Char
  | [] => []
  | [j] => compact j
  | j::js => compact j ++ ','::compactItems js

def compactFields : List (String × Json) → List Char
  | [] => []
  | [(key,j)] => quoted key ++ ':'::compact j
  | (key,j)::rest => quoted key ++ ':'::compact j ++ ','::compactFields rest

end

/-- A reader of one payload, and a writer of values without fractions. -/
def JsonText.reading (payload : Bytes) (j : Json) : JsonText where
  fromSlice bytes :=
    if bytes = payload then .ok j else .error "expected value at line 1 column 1"
  toText j := .ofList (compact j)

example : (JsonText.reading [] .null).toText (.ofFields [("time",.number (.posInt 60))]) =
    "\x7b\"time\":60\x7d" := by
  decide

end Compact

end Rszigbee
