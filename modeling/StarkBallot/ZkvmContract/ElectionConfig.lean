import StarkBallot.CryptoPrimitives.Hex
import StarkBallot.Domain.SessionState

/-! The digest of an election configuration (`zkvm-contract/src/zkvm/election-config.ts`): the JSON text
    of its five fields, in a fixed order, is hashed. The numbers of a configuration are integers. -/

namespace StarkBallot.ZkvmContract
open Domain CryptoPrimitives

variable (noble : NobleUtils) (sha256 : List UInt8 → Bytes 32)

/-- `utf8ToBytes`. -/
def utf8ToBytes (s : JsString) : List UInt8 := s.flatMap String.utf8EncodeChar

/-- How `JSON.stringify` shows a character of a string. -/
def jsonChar (c : Char) : JsString :=
  match c with
  | '"' => js "\\\""
  | '\\' => js "\\\\"
  | '\n' => js "\\n"
  | '\r' => js "\\r"
  | '\t' => js "\\t"
  | c =>
    if c.toNat = 8 then js "\\b"
    else if c.toNat = 12 then js "\\f"
    else if c.toNat < 32 then js "\\u00" ++ hexText [UInt8.ofNat c.toNat]
    else [c]

def jsonString (s : JsString) : JsString := ['"'] ++ s.flatMap jsonChar ++ ['"']

def jsonNumber (value : Num) : JsString := js value.toText

def jsonStrings (values : List JsString) : JsString :=
  js "[" ++ (List.intersperse (js ",") (values.map jsonString)).flatten ++ js "]"

def canonicalConfig (config : ElectionConfig) : JsString :=
  js "\x7b\"totalExpected\":" ++ jsonNumber config.totalExpected ++ js ",\"choices\":" ++
  jsonStrings config.choices ++ js ",\"version\":" ++ jsonString config.version ++
  js ",\"botCount\":" ++ jsonNumber config.botCount ++
  js ",\"merkleTreeDepth\":" ++ jsonNumber config.merkleTreeDepth ++ js "\x7d"

def hashElectionConfig (config : ElectionConfig) : JsString :=
  js "0x" ++ noble.bytesToHex (sha256 (utf8ToBytes (canonicalConfig config))).toList

def buildDefaultElectionConfig : ElectionConfig where
  totalExpected := .ofNat (botCount + 1)
  choices := [js "A", js "B", js "C", js "D", js "E"]
  version := js "v1.0"
  botCount := .ofNat botCount
  merkleTreeDepth := .ofNat 6

example : canonicalConfig buildDefaultElectionConfig =
    js "\x7b\"totalExpected\":64,\"choices\":[\"A\",\"B\",\"C\",\"D\",\"E\"],\"version\":\"v1.0\",\"botCount\":63,\"merkleTreeDepth\":6\x7d" := by
  decide

/-- A digest is spelled with a prefix. -/
theorem hashElectionConfig_eq (config : ElectionConfig) :
    hashElectionConfig noble sha256 config =
      prefixed (sha256 (utf8ToBytes (canonicalConfig config))) := by
  rw [hashElectionConfig, noble.bytesToHex_eq]
  rfl

end StarkBallot.ZkvmContract
