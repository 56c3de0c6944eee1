import StarkBallot.Domain.Constants
import StarkBallot.Runtime.Objects

/-! The schemas of the validation library (`schema.ts`), unions and transforms apart. A schema reads a
    value, reports an issue with its path for everything that is wrong, and otherwise returns the value
    rebuilt: an object property by property, with plain assignments.

        input        { a: 1, x: 2 }
        shape a      { a: 1 }            strip: x is left out    strict: x is an issue    passthrough: x is copied

    A refinement is a function of the value that it is handed. -/

namespace StarkBallot.Validation
open Domain Value

inductive PathPart where
  | key (key : JsString)
  | index (index : ℕ)
  deriving DecidableEq

structure SchemaIssue where
  path : List PathPart
  message : JsString
  deriving DecidableEq

/-- What a refinement adds. -/
structure IssueInput where
  path : Option (List PathPart)
  message : JsString

abbrev ParseResult := Except (List SchemaIssue)

def fail {α : Type} (message : JsString) (path : List PathPart) : ParseResult α :=
  .error [⟨path, message⟩]

/-- The value, if there are no issues. -/
def okUnless {α : Type} (issues : List SchemaIssue) (data : α) : ParseResult α :=
  if issues = [] then .ok data else .error issues

/-- What the language itself does with a regular expression and with a number in a text. -/
structure Language where
  regExpTest : (source flags : JsString) → JsString → Bool
  numberText : Num → JsString

/-! ### Rules -/

inductive StringConstraint where
  | minLength (value : Num)
  | maxLength (value : Num)
  | pattern (source flags : JsString)
  | uuid

inductive NumberConstraint where
  | integer
  | minimum (value : Num) (exclusive : Bool)
  | maximum (value : Num) (exclusive : Bool)

inductive ArrayConstraint where
  | minItems (value : Num)
  | maxItems (value : Num)
  | length (value : Num)

structure Rule (Constraint : Type) where
  constraint : Constraint
  message : JsString

def matchesStringRule (language : Language) (value : JsString) (rule : Rule StringConstraint) : Bool :=
  match rule.constraint with
  | .minLength length => length.le (.ofNat value.length)
  | .maxLength length => (Num.ofNat value.length).le length
  | .pattern source flags => language.regExpTest source flags value
  | .uuid => isUuid value

def matchesNumberRule (value : Num) (rule : Rule NumberConstraint) : Bool :=
  match rule.constraint with
  | .integer => value.isInteger
  | .minimum bound exclusive => if exclusive then bound.lt value else bound.le value
  | .maximum bound exclusive => if exclusive then value.lt bound else value.le bound

def matchesArrayRule (elements : List Value) (rule : Rule ArrayConstraint) : Bool :=
  match rule.constraint with
  | .minItems length => length.le (.ofNat elements.length)
  | .maxItems length => (Num.ofNat elements.length).le length
  | .length length => (Num.ofNat elements.length).eq length

def collectRuleIssues {α Constraint : Type} (value : α) (rules : List (Rule Constraint))
    (isMatch : α → Rule Constraint → Bool) (path : List PathPart) : List SchemaIssue :=
  (rules.filter fun rule => !isMatch value rule).map fun rule => ⟨path, rule.message⟩

/-! ### Schemas -/

inductive Literal where
  | string (value : JsString)
  | number (value : Num)
  | boolean (value : Bool)
  | null
  | undefined

def Literal.value : Literal → Value
  | string value => .string value
  | number value => .number value
  | boolean value => .boolean value
  | null => .null
  | undefined => .undefined

/-- `input === literal`. -/
def Literal.isSame (literal : Literal) (input : Value) : Bool :=
  match literal, input with
  | string value, .string input => input = value
  | number value, .number input => input.eq value
  | boolean value, .boolean input => input = value
  | null, .null => true
  | undefined, .undefined => true
  | _, _ => false

/-- `String(literal)`. -/
def Literal.text (language : Language) : Literal → JsString
  | string value => value
  | number value => language.numberText value
  | boolean value => js (toString value)
  | null => js "null"
  | undefined => js "undefined"

inductive UnknownKeyPolicy where
  | strip
  | strict
  | passthrough
  deriving DecidableEq

inductive Schema where
  | never
  | unknown
  | string (rules : List (Rule StringConstraint)) (requiredError : Option JsString)
  | number (rules : List (Rule NumberConstraint))
  | boolean
  | literal (value : Literal)
  | enum (values : List JsString)
  | optional (inner : Schema)
  | nullable (inner : Schema)
  | refinement (inner : Schema) (refine : Value → List IssueInput)
  | array (item : Schema) (rules : List (Rule ArrayConstraint))
  | tuple (items : List Schema)
  | object (shape : List (JsString × Schema)) (unknownKeys : UnknownKeyPolicy) (catchall : Schema)

def Schema.isNever : Schema → Bool
  | never => true
  | _ => false

/-! ### Parsing -/

def appendParsedItem (result : ParseResult Value) (state : List Value × List SchemaIssue) :
    List Value × List SchemaIssue :=
  match result with
  | .ok data => (state.1 ++ [data], state.2)
  | .error issues => (state.1, state.2 ++ issues)

/-- A declared key: an absent one stays absent. -/
def assignKnown (input : Value) (key : JsString) (result : ParseResult Value)
    (state : Value × List SchemaIssue) :
    Value × List SchemaIssue :=
  match result with
  | .ok data =>
    (if !data.isUndefined || input.hasOwn key then state.1.set key data else state.1, state.2)
  | .error issues => (state.1, state.2 ++ issues)

/-- A key of the input that is not declared; `catchall` is what the schema for such keys makes of its
    value, if there is one. -/
def parseUnknownProperty (unknownKeys : UnknownKeyPolicy) (catchall : Option (ParseResult Value))
    (input : Value) (path : List PathPart) (key : JsString) (state : Value × List SchemaIssue) :
    Value × List SchemaIssue :=
  match catchall with
  | some (.ok data) => (state.1.set key data, state.2)
  | some (.error issues) => (state.1, state.2 ++ issues)
  | none =>
    match unknownKeys with
    | .strict => (state.1, state.2 ++ [⟨path ++ [.key key], js "Unrecognized key"⟩])
    | .passthrough => (state.1.set key (input.get key), state.2)
    | .strip => state

section Parse

variable (language : Language)

mutual

def parseInternal (schema : Schema) (input : Value) (path : List PathPart) : ParseResult Value :=
  match schema with
  | .never => fail (js "Expected never") path
  | .unknown => .ok input
  | .string rules requiredError =>
    match input with
    | .undefined => fail (requiredError.getD (js "Expected string")) path
    | .string value => okUnless (collectRuleIssues value rules (matchesStringRule language) path) input
    | _ => fail (js "Expected string") path
  | .number rules =>
    match input with
    | .number value =>
      if value.isFinite = true then okUnless (collectRuleIssues value rules matchesNumberRule path) input
      else fail (js "Expected number") path
    | _ => fail (js "Expected number") path
  | .boolean =>
    match input with
    | .boolean _ => .ok input
    | _ => fail (js "Expected boolean") path
  | .literal value =>
    if value.isSame input = true then .ok value.value
      else fail (js "Expected literal " ++ value.text language) path
  | .enum values =>
    match input with
    | .string value =>
      if value ∈ values then .ok input
      else fail (js "Expected one of: " ++ (values.intersperse (js ", ")).flatten) path
    | _ => fail (js "Expected one of: " ++ (values.intersperse (js ", ")).flatten) path
  | .optional inner =>
    if input.isUndefined = true then .ok .undefined
    else parseInternal inner input path
  | .nullable inner => if input.isNull = true then .ok .null else parseInternal inner input path
  | .refinement inner refine => do
    let data ← parseInternal inner input path
    okUnless ((refine data).map fun issue => ⟨issue.path.getD path, issue.message⟩) data
  | .array item rules =>
    match input with
    | .array elements =>
      let parsed := elements.zipIdx.foldl
        (fun state element => appendParsedItem
          (parseInternal item element.1 (path ++ [.index element.2])) state)
        ([], collectRuleIssues elements rules matchesArrayRule path)
      okUnless parsed.2 (.array parsed.1)
    | _ => fail (js "Expected array") path
  | .tuple items =>
    match input with
    | .array elements =>
      if elements.length ≠ items.length then
        fail (js "Tuple must contain exactly " ++ (Nat.repr items.length).toList ++
          js " element(s)") path
      else
        let parsed := parseItems items elements path 0 ([], [])
        okUnless parsed.2 (.array parsed.1)
    | _ => fail (js "Expected tuple") path
  | .object shape unknownKeys catchall =>
    if input.isPlainRecord = true then
      let parsed := input.keys.foldl
        (fun state key =>
          if key ∈ shape.map Prod.fst then state
          else parseUnknownProperty unknownKeys
            (if catchall.isNever then none
              else
                some (parseInternal catchall (input.get key) (path ++ [.key key]))) input path key state)
        (parseKnownProperties shape input path (Value.empty, []))
      okUnless parsed.2 parsed.1
    else fail (js "Expected object") path

/-- The items of a tuple against the elements that are left. -/
def parseItems (items : List Schema) (elements : List Value) (path : List PathPart) (index : ℕ)
    (state : List Value × List SchemaIssue) : List Value × List SchemaIssue :=
  match items with
  | [] => state
  | item :: items =>
    parseItems items elements.tail path (index + 1)
      (appendParsedItem (parseInternal item (elements.headD .undefined) (path ++ [.index index])) state)

def parseKnownProperties (shape : List (JsString × Schema)) (input : Value) (path : List PathPart)
    (state : Value × List SchemaIssue) : Value × List SchemaIssue :=
  match shape with
  | [] => state
  | (key, schema) :: shape =>
    parseKnownProperties shape input path
      (assignKnown input key (parseInternal schema (input.get key) (path ++ [.key key])) state)

end

def safeParse (schema : Schema) (input : Value) : ParseResult Value :=
  parseInternal language schema input []

end Parse

end StarkBallot.Validation
