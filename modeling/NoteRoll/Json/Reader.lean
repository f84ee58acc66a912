import NoteRoll.Json.Lexeme

/-!
# Reading any JSON value

One reader serves values that are wanted and values that are skipped. It descends at most as often
as the text has characters, which is what `fuel` counts.
-/

namespace NoteRoll.Json

mutual

/-- Reads one value. -/
def readValue (α : Type) [NumberText α] (purpose : Purpose) : (fuel : Nat) → List Char → Reading Json
  | 0, _ => .error .grammar
  | fuel + 1, cs =>
    match skipBlanks cs with
    | [] => .error .ended
    | 'n' :: cs => (readWord ['u', 'l', 'l'] cs).map fun (_, rest) => (.null, rest)
    | 't' :: cs => (readWord ['r', 'u', 'e'] cs).map fun (_, rest) => (.flag true, rest)
    | 'f' :: cs => (readWord ['a', 'l', 's', 'e'] cs).map fun (_, rest) => (.flag false, rest)
    | '"' :: cs => (readString purpose cs).map fun (s, rest) => (.text s, rest)
    | '[' :: cs =>
      match skipBlanks cs with
      | [] => .error .ended
      | ']' :: rest => .ok (.list [], rest)
      | cs => (readItems α purpose fuel cs).map fun (vs, rest) => (.list vs, rest)
    | '{' :: cs =>
      match skipBlanks cs with
      | [] => .error .ended
      | '}' :: rest => .ok (.table [], rest)
      | cs => (readEntries α purpose fuel cs).map fun (es, rest) => (.table es, rest)
    | c :: cs =>
      if c == '-' || isDigit c then
        let l := match purpose with
          | .wanted => readNumberIn α (c :: cs)
          | .skipped => readNumber .skipped (c :: cs)
        l.map fun (l, rest) => (.number l, rest)
      else .error .grammar

/-- Reads the items of a list up to its closing bracket; there is at least one. -/
def readItems (α : Type) [NumberText α] (purpose : Purpose) :
    (fuel : Nat) → List Char → Reading (List Json)
  | 0, _ => .error .grammar
  | fuel + 1, cs =>
    match readValue α purpose fuel cs with
    | .error fault => .error fault
    | .ok (v, cs) =>
      match skipBlanks cs with
      | [] => .error .ended
      | ']' :: rest => .ok ([v], rest)
      | ',' :: cs => (readItems α purpose fuel cs).map fun (vs, rest) => (v :: vs, rest)
      | _ => .error .grammar

/-- Reads the entries of a table up to its closing brace; there is at least one. -/
def readEntries (α : Type) [NumberText α] (purpose : Purpose) :
    (fuel : Nat) → List Char → Reading (List (String × Json))
  | 0, _ => .error .grammar
  | fuel + 1, cs =>
    match skipBlanks cs with
    | [] => .error .ended
    | '"' :: cs =>
      match readString purpose cs with
      | .error fault => .error fault
      | .ok (key, cs) =>
        match skipBlanks cs with
        | [] => .error .ended
        | ':' :: cs =>
          match readValue α purpose fuel cs with
          | .error fault => .error fault
          | .ok (v, cs) =>
            match skipBlanks cs with
            | [] => .error .ended
            | '}' :: rest => .ok ([(key, v)], rest)
            | ',' :: cs => (readEntries α purpose fuel cs).map fun (es, rest) => ((key, v) :: es, rest)
            | _ => .error .grammar
        | _ => .error .grammar
    | _ => .error .grammar

end

/-- Reads past one value. -/
def skipValue (α : Type) [NumberText α] (cs : List Char) : Reading Unit :=
  (readValue α .skipped (2 * cs.length + 2) cs).map fun (_, rest) => ((), rest)

/-- The value that a whole text writes. -/
def ofText (α : Type) [NumberText α] (text : String) : Except Fault Json :=
  let cs := text.toList
  match readValue α .wanted (2 * cs.length + 2) cs with
  | .error fault => .error fault
  | .ok (v, rest) => if (skipBlanks rest).isEmpty then .ok v else .error .grammar

end NoteRoll.Json
