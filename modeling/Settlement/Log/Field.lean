import Settlement.Value.Conversion

/-!
# Fields of a line

Most fields of a line are written as they are. Three kinds are not.

* Some names are answered to by every table of names, whether it lists them or not
  (`Log.reservedNames`). How a field of such a name is written depends on the name alone
  (`Log.reservedField?`): its value is written without quotes, or something else is written in its
  place, or it is left out or refused. Inside the value of a field these are names like any other.
* A record with a method, headers and a socket looks like a request over HTTP and is cut down to
  what identifies it (`Log.requestRecord`). Its address is the one it was made with before any
  rewriting, else its path, else whatever it has for an address.
* An error under the name for errors is written out as a record (`Value.errorRecord`): its type, its
  message with those of its causes, its trace, the errors that it collects, and its further fields.
  Faults are errors, and so is every record with a text for its message; anything else is left as it
  is. The trace of a fault is not known here and is written empty.
-/

namespace Settlement

namespace Log

/-! ## Reserved names -/

/-- The names that every table answers to, also where it does not list them. -/
def reservedNames : List String :=
  ["constructor", "__defineGetter__", "__defineSetter__", "hasOwnProperty", "__lookupGetter__",
    "__lookupSetter__", "isPrototypeOf", "propertyIsEnumerable", "toString", "valueOf",
    "__proto__", "toLocaleString"]

/-- What stands in a line under one of the `reservedNames`, if anything. It stands there
unquoted. -/
def reservedField? (name : String) (value : Value) : Except Fault (Option String) :=
  match name with
  | "constructor" =>
    match value with
    | .null => .ok (some "[object Object]")
    | value => value.toText.map some
  | "toString" => .ok (some "[object Undefined]")
  | "isPrototypeOf" => .ok (some "false")
  | "__lookupGetter__" | "__lookupSetter__" => value.toText.map fun _ => none
  | name => .error (.reservedField name)

/-! ## Requests -/

/-- Whether a record looks like a request: `method`, `headers` and `socket` are `truthy`. -/
def isRequest (v : Value) : Bool :=
  (v.field "method").truthy && (v.field "headers").truthy && (v.field "socket").truthy

/-- `first` if it is `truthy`, and `second` otherwise. -/
def firstTruthy (first second : Value) : Value := if first.truthy then first else second

/-- The address of a request: `originalUrl`, else `path`, else `url` or the path of that. -/
def requestAddress (v : Value) : Value :=
  let url := v.field "url"
  if (v.field "originalUrl").truthy then v.field "originalUrl"
  else
    match v.field "path" with
    | .text path => .text path
    | _ => if url.truthy then firstTruthy (url.field "path") url else .undefined

/-- What is written of a request (`isRequest`), in this order; `query` and `params` only if they are
`truthy`. -/
def requestRecord (v : Value) : Value :=
  let connection := firstTruthy (v.field "info") (v.field "socket")
  let given (name : String) : List (String × Value) :=
    if (v.field name).truthy then [(name, v.field name)] else []
  .record ([("id", firstTruthy (v.field "id") ((v.field "info").field "id")),
      ("method", v.field "method"), ("url", requestAddress v)]
    ++ given "query" ++ given "params"
    ++ [("headers", v.field "headers"), ("remoteAddress", connection.field "remoteAddress"),
      ("remotePort", connection.field "remotePort")])

end Log

namespace Value

/-! ## Errors -/

mutual

/-- The message of an error and of the causes behind it (`causeMessage`); none for a value that is
no error. -/
def errorMessage? : Value → Option String
  | .fault f => some f.message
  | .record fields =>
    match fields.lookup "message" with
    | some (.text message) => some (message ++ causeMessage fields)
    | _ => none
  | _ => none

/-- The message of the cause among the fields of an error, after a colon. -/
def causeMessage : List (String × Value) → String
  | [] => ""
  | (name, value) :: fields =>
    if name = "cause" then ((errorMessage? value).map (": " ++ ·)).getD ""
    else causeMessage fields

end

/-- Whether a value has an `errorMessage?`. -/
def isError (v : Value) : Bool := v.errorMessage?.isSome

/-- A trace and that of the cause behind it, as `errorTrace` joins them. -/
def traceAfter (own cause : String) : String := own ++ "\ncaused by: " ++ cause

mutual

/-- The trace of an error and of the causes behind it (`causeTrace?`). Alone it may be anything;
before that of a cause it is made a text, which can fail. -/
def errorTrace : Value → Except Fault Value
  | .record fields => do
    let given := (fields.lookup "stack").getD .undefined
    let own := if given.truthy then given else .text ""
    match ← causeTrace? fields with
    | none => return own
    | some trace => return .text (traceAfter (← own.toText) trace)
  | _ => .ok (.text "")

/-- The `errorTrace` of the cause among the fields of an error, as a text. -/
def causeTrace? : List (String × Value) → Except Fault (Option String)
  | [] => .ok none
  | (name, value) :: fields =>
    if name = "cause" then
      if value.isError then do return some (← (← errorTrace value).toText) else .ok none
    else causeTrace? fields

end

/-- The type of a record that is an error. One with a `constructor` has its own `name`. -/
def errorType (fields : List (String × Value)) : Value :=
  if (fields.lookup "constructor").isSome then (fields.lookup "name").getD .undefined
  else .text "Object"

/-- The names under which `errorFields` shows no further field of an error. -/
def takenNames (type : Value) (collects : Bool) : List String :=
  ["message", "stack", "raw"] ++ Log.reservedNames
    ++ (match type with
      | .undefined => []
      | _ => ["type"])
    ++ if collects then ["aggregateErrors"] else []

mutual

/-- An error as a record for a line (`errorType`, `errorMessage?`, `errorTrace`, `collectedErrors?`,
`errorFields`); anything else as it is. -/
def errorRecord : Value → Except Fault Value
  | .fault f =>
    .ok (.record ([("type", .text (if f.isForeign then Fault.commonName else f.name)),
        ("message", .text f.message), ("stack", .text "")]
      ++ f.givenName?.toList.map fun name => ("name", .text name)))
  | .record fields =>
    match errorMessage? (.record fields) with
    | none => .ok (.record fields)
    | some message => do
      let type := errorType fields
      let trace ← errorTrace (.record fields)
      let collected? ← collectedErrors? fields
      let rest ← errorFields (takenNames type collected?.isSome) fields
      -- a field of the error stands for the type that it has not
      let typeField := if (rest.lookup "type").isSome then [] else [("type", type)]
      return .record (typeField ++ [("message", .text message), ("stack", trace)]
        ++ (collected?.toList.map fun errors => ("aggregateErrors", .list errors)) ++ rest)
  | v => .ok v

/-- `errorRecord` of each item. -/
def errorRecords : List Value → Except Fault (List Value)
  | [] => .ok []
  | item :: items => do return (← errorRecord item) :: (← errorRecords items)

/-- The errors that an error collects under `errors`, as records (`errorRecords`). -/
def collectedErrors? : List (String × Value) → Except Fault (Option (List Value))
  | [] => .ok none
  | (name, value) :: fields =>
    if name = "errors" then
      match value with
      | .list items => (errorRecords items).map some
      | _ => .ok none
    else collectedErrors? fields

/-- The further fields of an error, each by `errorRecord`. A cause that is an error is left out: its
message and its trace are in those of the error. -/
def errorFields (taken : List String) :
    List (String × Value) → Except Fault (List (String × Value))
  | [] => .ok []
  | (name, value) :: fields => do
    if taken.contains name || (name = "cause" && value.isError) then errorFields taken fields
    else return (name, ← errorRecord value) :: (← errorFields taken fields)

end

end Value

end Settlement
