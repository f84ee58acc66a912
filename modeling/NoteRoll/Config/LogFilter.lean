import NoteRoll.Numeral

/-!
# Log filters

A filter is a list of directives between commas. A directive is a level, or names a target or a span
in brackets or both, with a level behind an equals sign if it has one. Targets are written with
ASCII letters here.
-/

namespace NoteRoll.LogFilter

/-- Whether some characters name a level, in letters of either case or as a digit. -/
def isLevel (cs : List Char) : Bool :=
  ["trace", "debug", "info", "warn", "error", "off", "0", "1", "2", "3", "4", "5"].contains
    (String.ofList (cs.map Char.toLower))

/-- Characters of a target. -/
def isTargetChar (c : Char) : Bool := c.isAlphanum || c == '_' || c == ':' || c == '-'

/-- The text behind a target or a span at the beginning. -/
def afterName? : List Char → Option (List Char)
  | '[' :: cs =>
    match cs.dropWhile fun c => c != ']' with
    | _ :: rest => some rest
    | [] => none
  | cs => if cs.head?.any isTargetChar then some (cs.dropWhile isTargetChar) else none

/-- Whether nothing follows, or a level behind an equals sign, which may be missing there. -/
def endsDirective : List Char → Bool
  | [] => true
  | c :: cs => c == '=' && (cs.isEmpty || isLevel cs)

/-- Whether a directive is well formed. -/
def isDirective (cs : List Char) : Bool :=
  isLevel cs || match afterName? cs with
    | none => false
    | some rest => endsDirective rest || (afterName? rest).any endsDirective

/-- Whether a filter is well formed; empty directives are passed over. -/
def isValid (text : String) : Bool :=
  (text.splitOn ",").all fun d => d.isEmpty || isDirective d.toList

end NoteRoll.LogFilter
