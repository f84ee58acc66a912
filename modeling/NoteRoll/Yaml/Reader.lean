import NoteRoll.Yaml.Token

/-!
# Reading YAML

From the tokens of a text to the value of the one document that it holds. What an alias stands for is
put in its place. A value can be named within itself, but holds nothing there. Every reader of tokens
takes one or goes into something smaller, and `fuel` counts both.
-/

namespace NoteRoll.Yaml

/-- The tokens that are left, with what was named before them. -/
structure Tokens where
  rest : List Token
  /-- The beginnings of names of types that short forms stand for. -/
  shortTags : List (String × String) := []
  anchors : List (String × Yaml) := []

namespace Tokens

/-- The next token. -/
def head? (ts : Tokens) : Option Token := ts.rest.head?

/-- Goes on past a token. -/
def next (ts : Tokens) : Tokens := { ts with rest := ts.rest.drop 1 }

/-- Whether one of some tokens comes next. -/
def startsWith (ts : Tokens) (tokens : List Token) : Bool := ts.head?.any (tokens.contains ·)

/-- Goes on past a token if it comes next. -/
def skip? (ts : Tokens) (t : Token) : Option Tokens := if ts.head? = some t then some ts.next else none

/-- Short forms of types that are always known. -/
def standardTags : List (String × String) := [("!", "!"), ("!!", "tag:yaml.org,2002:")]

/-- The whole name of a type. -/
def tagName? (ts : Tokens) (short name : String) : Option String :=
  if short = "" then some name
  else ((ts.shortTags ++ standardTags).lookup short).map (· ++ name)

/-- Reads the anchor and the type in front of a value, in either order. -/
def properties? (ts : Tokens) : Option (Option String × Option String × Tokens) :=
  match ts.rest with
  | .anchor a :: .tag short name :: rest | .tag short name :: .anchor a :: rest =>
    (ts.tagName? short name).map fun tag => (some a, some tag, { ts with rest })
  | .anchor a :: rest => some (some a, none, { ts with rest })
  | .tag short name :: rest =>
    (ts.tagName? short name).map fun tag => (none, some tag, { ts with rest })
  | _ => some (none, none, ts)

/-- Gives a name to a value that is yet to be read. -/
def announce (ts : Tokens) (anchor : Option String) : Tokens :=
  { ts with anchors := (anchor.toList.map fun name => (name, .list [])) ++ ts.anchors }

/-- Puts a value to the name that was the last of `count` when it was given. -/
def complete (ts : Tokens) (count : Nat) (v : Yaml) : Tokens :=
  { ts with anchors := ts.anchors.modify (ts.anchors.length - count) fun named => (named.1, v) }

/-- Puts the name of its type to a value. A lone exclamation mark names none. -/
def withTag (tag : Option String) (v : Yaml) : Yaml :=
  match tag with
  | some t => if t = "!" then v else .tagged t v
  | none => v

end Tokens

open Tokens

mutual

/-- Reads a value. In a block it may be a list or a table of lines, and below a key the dashes of a
list may stand in the column of the key. -/
def readNode (inBlock belowKey : Bool) : (fuel : Nat) → Tokens → Option (Yaml × Tokens)
  | 0, _ => none
  | fuel + 1, ts =>
    match ts.head? with
    | some (.alias name) => (ts.anchors.lookup name).map fun v => (v, ts.next)
    | _ => do
      let (anchor, tag, ts) ← ts.properties?
      let ts := ts.announce anchor
      let count := ts.anchors.length
      let (v, ts) ← match ts.head?, inBlock, belowKey with
        | some (.scalar style text), _, _ => some (Yaml.scalar style text, ts.next)
        | some .listOpen, _, _ =>
          (readListItems fuel true ts.next).map fun (vs, ts) => (.list vs, ts)
        | some .tableOpen, _, _ =>
          (readTableEntries fuel true ts.next).map fun (es, ts) => (.table es, ts)
        | some .dash, _, true => (readDashes fuel ts).map fun (vs, ts) => (.list vs, ts)
        | some .itemsBegin, true, _ => (readItems fuel ts.next).map fun (vs, ts) => (.list vs, ts)
        | some .entriesBegin, true, _ =>
          (readEntries fuel ts.next).map fun (es, ts) => (.table es, ts)
        | _, _, _ => if anchor.isSome || tag.isSome then some (empty, ts) else none
      let v := withTag tag v
      return (v, if anchor.isSome then ts.complete count v else ts)

/-- Reads a value, which is empty in front of some tokens. -/
def readNodeOrEmpty (inBlock belowKey : Bool) (ends : List Token) : (fuel : Nat) → Tokens →
    Option (Yaml × Tokens)
  | 0, _ => none
  | fuel + 1, ts => if ts.startsWith ends then some (empty, ts) else readNode inBlock belowKey fuel ts

/-- Reads the items of a list of lines up to its end. -/
def readItems : (fuel : Nat) → Tokens → Option (List Yaml × Tokens)
  | 0, _ => none
  | fuel + 1, ts =>
    match ts.head? with
    | some .dash => do
      let (v, ts) ← readNodeOrEmpty true false [.dash, .blockEnd] fuel ts.next
      (readItems fuel ts).map fun (vs, ts) => (v :: vs, ts)
    | some .blockEnd => some ([], ts.next)
    | _ => none

/-- Reads the items of a list whose dashes stand in the column of its key. -/
def readDashes : (fuel : Nat) → Tokens → Option (List Yaml × Tokens)
  | 0, _ => none
  | fuel + 1, ts =>
    match ts.head? with
    | some .dash => do
      let (v, ts) ← readNodeOrEmpty true false [.dash, .key, .value, .blockEnd] fuel ts.next
      (readDashes fuel ts).map fun (vs, ts) => (v :: vs, ts)
    | _ => some ([], ts)

/-- Reads the entries of a table of lines up to its end. -/
def readEntries : (fuel : Nat) → Tokens → Option (List (Yaml × Yaml) × Tokens)
  | 0, _ => none
  | fuel + 1, ts =>
    match ts.head? with
    | some .key => do
      let (k, ts) ← readNodeOrEmpty true true [.key, .value, .blockEnd] fuel ts.next
      let (v, ts) ← match ts.skip? .value with
        | some ts => readNodeOrEmpty true true [.key, .value, .blockEnd] fuel ts
        | none => some (empty, ts)
      (readEntries fuel ts).map fun (es, ts) => ((k, v) :: es, ts)
    | some .blockEnd => some ([], ts.next)
    | _ => none

/-- Reads the items of a list in brackets up to its closing one. A key makes a table of one entry. -/
def readListItems : (fuel : Nat) → (first : Bool) → Tokens → Option (List Yaml × Tokens)
  | 0, _, _ => none
  | fuel + 1, first, ts =>
    if ts.startsWith [.listClose] then some ([], ts.next) else do
      let ts ← if first then some ts else ts.skip? .comma
      match ts.head? with
      | some .listClose => return ([], ts.next)
      | some .key =>
        let ts := ts.next
        let (k, ts) ← if ts.startsWith [.value, .comma, .listClose] then some (empty, ts.next)
          else readNode false false fuel ts
        let (v, ts) ← match ts.skip? .value with
          | some ts => readNodeOrEmpty false false [.comma, .listClose] fuel ts
          | none => some (empty, ts)
        (readListItems fuel false ts).map fun (vs, ts) => (.table [(k, v)] :: vs, ts)
      | _ =>
        let (v, ts) ← readNode false false fuel ts
        (readListItems fuel false ts).map fun (vs, ts) => (v :: vs, ts)

/-- Reads the entries of a table in braces up to its closing one. -/
def readTableEntries : (fuel : Nat) → (first : Bool) → Tokens →
    Option (List (Yaml × Yaml) × Tokens)
  | 0, _, _ => none
  | fuel + 1, first, ts =>
    if ts.startsWith [.tableClose] then some ([], ts.next) else do
      let ts ← if first then some ts else ts.skip? .comma
      match ts.head? with
      | some .tableClose => return ([], ts.next)
      | some .key =>
        let (k, ts) ← readNodeOrEmpty false false [.value, .comma, .tableClose] fuel ts.next
        let (v, ts) ← match ts.skip? .value with
          | some ts => readNodeOrEmpty false false [.comma, .tableClose] fuel ts
          | none => some (empty, ts)
        (readTableEntries fuel false ts).map fun (es, ts) => ((k, v) :: es, ts)
      | _ =>
        let (k, ts) ← readNode false false fuel ts
        (readTableEntries fuel false ts).map fun (es, ts) => ((k, empty) :: es, ts)

end

/-! ## Documents -/

/-- Reads the directives in front of a document. The version is given once at most, and so is what a
short form stands for. -/
def readDirectives : (versions : Nat) → (shortTags : List (String × String)) → List Token →
    Option Tokens
  | versions, shortTags, .version :: ts =>
    if versions = 0 then readDirectives 1 shortTags ts else none
  | versions, shortTags, .shortTag short long :: ts =>
    if (shortTags.lookup short).isSome then none
    else readDirectives versions ((short, long) :: shortTags) ts
  | _, shortTags, ts => some { rest := ts, shortTags }

/-- Whether a token is a directive or begins a document. -/
def isPrologue : Token → Bool
  | .version | .shortTag _ _ | .documentStart => true
  | _ => false

/-- The value of the one document that tokens make. -/
def ofTokens? (tokens : List Token) : Option Yaml :=
  let fuel := 2 * tokens.length + 2
  match tokens with
  | [] => some empty
  | t :: _ => do
    let (v, ts) ← if !isPrologue t then readNode true false fuel { rest := tokens } else do
      let ts ← (← readDirectives 0 [] tokens).skip? .documentStart
      if ts.head?.all fun t => isPrologue t || t == .documentStop then some (empty, ts)
      else readNode true false fuel ts
    if ts.rest.all (· == .documentStop) then some v else none

/-- The text with one character for each kind of line break. -/
def unifyBreaks : List Char → List Char
  | '\r' :: '\n' :: cs => '\n' :: unifyBreaks cs
  | '\r' :: cs => '\n' :: unifyBreaks cs
  | '\u0085' :: cs => '\n' :: unifyBreaks cs
  | c :: cs => c :: unifyBreaks cs
  | [] => []

/-- The text without a byte order mark in front. -/
def dropByteOrderMark : List Char → List Char
  | '\ufeff' :: cs => cs
  | cs => cs

/-- The value that a text writes, which holds one document. -/
def ofText? (text : String) : Option Yaml :=
  let cs := unifyBreaks (dropByteOrderMark text.toList)
  if cs.all isAdmitted then (Token.ofText? cs).bind ofTokens? else none

end NoteRoll.Yaml
