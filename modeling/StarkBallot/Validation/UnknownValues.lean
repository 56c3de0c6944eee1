import StarkBallot.Runtime.Json
import StarkBallot.Schemes.Numerals

/-! Reading properties of values of type `unknown` (`validation/src/unknown-value-guards.ts`). A
    property is read of an object or an array; the properties that are asked for by name are not those
    of an array. -/

namespace StarkBallot.Validation
open Schemes

def isNonNullObject : JsValue → Bool
  | .object _ => true
  | .array _ => true
  | _ => false

def isArray : JsValue → Bool
  | .array _ => true
  | _ => false

/-- `value[key]` of a key that is no index. -/
def property (value : JsValue) (key : String) : JsValue :=
  match value with
  | .object fields => (fields.lookup (js key)).getD .undefined
  | _ => .undefined

/-- `Object.keys`. -/
def objectKeys : JsValue → List JsString
  | .object fields => fields.map Prod.fst
  | .array elements => (List.range elements.length).map decimal
  | _ => []

def getStringProperty (value : JsValue) (key : String) : Option JsString :=
  match property value key with
  | .string text => some text
  | _ => none

def getNumberProperty (value : JsValue) (key : String) : Option Num :=
  match property value key with
  | .number n => if n.isFinite then some n else none
  | _ => none

def getObjectProperty (value : JsValue) (key : String) : Option JsValue :=
  if isNonNullObject (property value key) then some (property value key) else none

def getArrayProperty (value : JsValue) (key : String) : Option (List JsValue) :=
  match property value key with
  | .array elements => some elements
  | _ => none

def getBooleanProperty (value : JsValue) (key : String) : Option Bool :=
  match property value key with
  | .boolean b => some b
  | _ => none

end StarkBallot.Validation
