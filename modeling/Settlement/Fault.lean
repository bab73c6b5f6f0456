import Settlement.Number.Shortest

/-!
# Faults

Why an operation could not answer, as a cause. Each fault has the name of its class and a
message; `Fault.text` joins them the way an error is written in running text.

Most faults are the library's own. A `foreign` one was raised by somebody else and may have been
given a name of its own.
-/

namespace Settlement

/-- An error raised while looking up L1 blocks, converting values, answering a cancellation,
writing a log or setting up what the program runs with. -/
inductive Fault where
  /-- An error that somebody else raised, with the name it was given, if any. -/
  | foreign (name? : Option String) (message : String)
  /-- The reason of a cancellation that gave none. -/
  | cancelled
  /-- A lookup was cancelled for a reason that is not itself an error. -/
  | lookupCancelled
  /-- The node has no block at this height. -/
  | noBlock (height : Number)
  /-- The block asked for has no hash or no number yet. -/
  | pendingBlock (asked : String)
  /-- Another block was returned than the one asked for. -/
  | otherBlock (asked returned : String)
  /-- The block returned has a field that no block reference can hold. -/
  | unsafeBlock (asked : String)
  /-- A height that is no integer cannot be asked for. -/
  | notAnInteger (x : Number)
  /-- A text does not spell an exact integer. -/
  | notANumeral (s : String)
  /-- Nothing at all is no exact integer. -/
  | noInteger (nothing : String)
  /-- An exact integer and something else have no sum. -/
  | mixedSum
  /-- An exact integer is not compared with numbers. -/
  | exactInteger
  /-- A field was read of nothing at all. -/
  | fieldOfNothing (nothing field : String)
  /-- A value has no text. -/
  | noText
  /-- An endpoint without an address. -/
  | noUrl
  /-- The delay between two passes cannot be this. -/
  | badDelay (given : String)
  /-- The number of links to keep cannot be this. -/
  | badCapacity (given : String)
  /-- So many links cannot be kept. -/
  | tooManySlots
  /-- There is no log level of this name. -/
  | unknownLevel (level : String)
  /-- A log has no such level to write at. -/
  | notALevel (level : String)
  /-- A field of a log line cannot have this name. -/
  | reservedField (name : String)
  deriving DecidableEq, Repr

namespace Fault

/-- The name of a fault that was given none, `Error`. -/
def commonName : String := "Error"

/-- The class of a fault, or the name that a `foreign` one was given; `commonName` where there is
neither. -/
def name : Fault → String
  | .foreign name? _ => name?.getD commonName
  | .cancelled => "AbortError"
  | .notAnInteger _ | .badDelay _ | .badCapacity _ | .tooManySlots => "RangeError"
  | .notANumeral _ => "SyntaxError"
  | .noInteger _ | .mixedSum | .exactInteger | .fieldOfNothing _ _ | .noText
  | .notALevel _ | .reservedField _ => "TypeError"
  | .noUrl => "UrlRequiredError"
  | .lookupCancelled | .noBlock _ | .pendingBlock _ | .otherBlock _ _ | .unsafeBlock _
  | .unknownLevel _ => commonName

/-- Whether somebody else raised the fault (`Fault.foreign`). -/
def isForeign : Fault → Bool
  | .foreign _ _ => true
  | _ => false

/-- The name that a `foreign` fault was given by whoever raised it. -/
def givenName? : Fault → Option String
  | .foreign name? _ => name?
  | _ => none

/-- The message of a fault, in the words of whatever raises it. -/
def message : Fault → String
  | .foreign _ message => message
  | .cancelled => "This operation was aborted"
  | .lookupCancelled => "L1 block lookup aborted"
  | .noBlock height => "no block " ++ height.text
  | .pendingBlock asked => "ViemL1BlockSource: block " ++ asked ++ " is still pending"
  | .otherBlock asked returned =>
    "ViemL1BlockSource: asked for block " ++ asked ++ ", RPC returned " ++ returned
  | .unsafeBlock asked =>
    "ViemL1BlockSource: block " ++ asked ++ " has fields outside the safe integer range"
  | .notAnInteger x =>
    "The number " ++ x.text ++ " cannot be converted to a BigInt because it is not an integer"
  | .notANumeral s => "Cannot convert " ++ s ++ " to a BigInt"
  | .noInteger nothing => "Cannot convert " ++ nothing ++ " to a BigInt"
  | .mixedSum => "Cannot mix BigInt and other types, use explicit conversions"
  | .exactInteger => "Cannot convert a BigInt value to a number"
  | .fieldOfNothing nothing field =>
    "Cannot read properties of " ++ nothing ++ " (reading \x27" ++ field ++ "\x27)"
  | .noText => "Cannot convert object to primitive value"
  | .noUrl =>
    "No URL was provided to the Transport. " ++ "Please provide a valid RPC URL to the Transport."
  | .badDelay given => "Finalizer: finalityDelay must be a non-negative integer, got " ++ given
  | .badCapacity given =>
    "ProvenanceBuffer: capacity must be a positive integer, got " ++ given
  | .tooManySlots => "Invalid array length"
  | .unknownLevel level =>
    "default level:" ++ level ++ " must be included in custom levels"
  | .notALevel level => level ++ " is not a function"
  | .reservedField name => name ++ " called on null or undefined"

/-- A name and a message around `: `; an empty one of them is left out with the colon. -/
def join (name message : String) : String :=
  if name.isEmpty then message
  else if message.isEmpty then name
  else name ++ ": " ++ message

/-- A fault in running text: `name` and `message` joined (`Fault.join`). -/
def text (f : Fault) : String := join f.name f.message

end Fault

end Settlement
