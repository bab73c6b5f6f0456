import Settlement.Value.Abridged
import Settlement.Value.Conversion

/-!
# Message templates

A message may be a template with directives: a percent sign and a letter that says how an
argument is written. The argument of a message goes to its first directive; that and every
later one stand for themselves if there is nothing to fill them with. Two percent signs are one.
-/

namespace Settlement.Log

/-- The text of an argument under a directive; `none` where the directive is left as it is. -/
def directive? (letter : Char) (argument : Value) : Except Fault (Option String) :=
  if letter = 's' then argument.toText.map some
  else if letter = 'd' ∨ letter = 'f' ∨ letter = 'i' then
    if argument.isNothing then .ok none
    else
      argument.toNumber.map fun x => some (if letter = 'i' then x.floor.text else x.text)
  else if letter = 'o' ∨ letter = 'O' ∨ letter = 'j' then
    match argument with
    | .text s => .ok (some ("\x27" ++ s ++ "\x27"))
    | argument => .ok argument.written?
  else .ok none

/-- The text for a directive and its letter: `directive?` of the argument, or the directive itself
where there is none. -/
def directive (letter : Char) (argument? : Option Value) : Except Fault String :=
  match argument? with
  | none => .ok (String.ofList ['%', letter])
  | some argument =>
    (directive? letter argument).map (·.getD (String.ofList ['%', letter]))

/-- A template filled with an argument, as long as there is one: the first `directive` takes it. -/
def fillChars (argument? : Option Value) : List Char → Except Fault (List Char)
  | '%' :: '%' :: cs => (fillChars argument? cs).map ('%' :: ·)
  | '%' :: letter :: cs => do
    let text ← directive letter argument?
    -- the first directive takes the argument, even if it cannot use it
    return text.toList ++ (← fillChars none cs)
  | c :: cs => (fillChars argument? cs).map (c :: ·)
  | [] => .ok []

/-- A template filled with its one argument (`fillChars`). -/
def fill (template : String) (argument : Value) : Except Fault String :=
  (fillChars (some argument) template.toList).map String.ofList

end Settlement.Log
