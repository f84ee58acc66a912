import NoteRoll.Json.Reader

/-!
# Decoders

A decoder reads one kind of thing both from a text and from a value. From a text it reads in a single
pass, so the first problem in the text decides about the fault; from a value there is only one
fault. The two ways share their building blocks, which is why they accept the same things.

A record is read into a draft whose slots are filled in any order. It may also be written as a list
of its slots in order, where only slots with a default may be missing at the end.
-/

namespace NoteRoll.Json

/-- How a thing is read from the front of a text, and from a value. -/
structure Decoder (β : Type) where
  fromText : List Char → Reading β
  fromValue : Json → Option β

/-- The fault of a value of the wrong kind, which is read as far as its kind is told apart. -/
def wrongKind (α : Type) [NumberText α] (cs : List Char) : Fault :=
  let after {γ : Type} (r : Reading γ) : Fault :=
    match r with
    | .error fault => fault
    | .ok _ => .mismatch
  match cs with
  | 'n' :: cs => after (readWord ['u', 'l', 'l'] cs)
  | 't' :: cs => after (readWord ['r', 'u', 'e'] cs)
  | 'f' :: cs => after (readWord ['a', 'l', 's', 'e'] cs)
  | '"' :: cs => after (readString .wanted cs)
  | '[' :: _ | '{' :: _ => .mismatch
  | c :: cs => if c == '-' || isDigit c then after (readNumberIn α (c :: cs)) else .grammar
  | [] => .ended

/-- Reads a colon between a key and its value. -/
def readColon (cs : List Char) : Reading Unit :=
  match skipBlanks cs with
  | ':' :: rest => .ok ((), rest)
  | [] => .error .ended
  | _ => .error .grammar

/-- Whether a list goes on: none at its closing bracket, which is left, or the text of the next
item. -/
def nextItem (first : Bool) (cs : List Char) : Except Fault (Option (List Char)) :=
  match skipBlanks cs with
  | [] => .error .ended
  | ']' :: _ => .ok none
  | ',' :: cs =>
    if first then .ok (some (',' :: cs)) else
      match skipBlanks cs with
      | [] => .error .ended
      | ']' :: _ => .error .grammar
      | cs => .ok (some cs)
  | cs => if first then .ok (some cs) else .error .grammar

/-- Reads the closing bracket of a list. -/
def closeList (cs : List Char) : Reading Unit :=
  match skipBlanks cs with
  | ']' :: rest => .ok ((), rest)
  | [] => .error .ended
  | _ => .error .grammar

/-- Whether a table goes on: none at its closing brace, which is left, or the text behind the quote
of the next key. -/
def nextKey (first : Bool) (cs : List Char) : Except Fault (Option (List Char)) :=
  let key (cs : List Char) : Except Fault (Option (List Char)) :=
    match cs with
    | '"' :: cs => .ok (some cs)
    | [] => .error .ended
    | _ => .error .grammar
  match skipBlanks cs with
  | [] => .error .ended
  | '}' :: _ => .ok none
  | ',' :: cs => if first then .error .grammar else key (skipBlanks cs)
  | cs => if first then key cs else .error .grammar

/-- Reads the closing brace of a table. -/
def closeTable (cs : List Char) : Reading Unit :=
  match skipBlanks cs with
  | '}' :: rest => .ok ((), rest)
  | [] => .error .ended
  | _ => .error .grammar

namespace Decoder

variable {α : Type} [NumberText α] {β γ σ : Type}

/-- Turns what is read into something else. -/
def map (f : β → γ) (d : Decoder β) : Decoder γ where
  fromText cs := (d.fromText cs).map fun (b, rest) => (f b, rest)
  fromValue v := (d.fromValue v).map f

/-- A number. -/
def number : Decoder α where
  fromText cs :=
    match skipBlanks cs with
    | [] => .error .ended
    | c :: cs =>
      if c == '-' || isDigit c then
        match readNumber .wanted (c :: cs) with
        | .error fault => .error fault
        | .ok (l, rest) =>
          match (l.value? : Option α) with
          | some x => .ok (x, rest)
          | none => .error .grammar
      else .error (wrongKind α (c :: cs))
  fromValue
    | .number l => l.value?
    | _ => none

/-- A whole number between two bounds. -/
def integer (α : Type) [NumberText α] (lo hi : Int) : Decoder Int where
  fromText cs :=
    match skipBlanks cs with
    | [] => .error .ended
    | c :: cs =>
      if c == '-' || isDigit c then
        match readNumberIn α (c :: cs) with
        | .error fault => .error fault
        | .ok (.integer n, rest) => if lo ≤ n ∧ n ≤ hi then .ok (n, rest) else .error .mismatch
        | .ok (.decimal _, _) => .error .mismatch
      else .error (wrongKind α (c :: cs))
  fromValue
    | .number (.integer n) => if lo ≤ n ∧ n ≤ hi then some n else none
    | _ => none

/-- A string. -/
def text (α : Type) [NumberText α] : Decoder String where
  fromText cs :=
    match skipBlanks cs with
    | [] => .error .ended
    | '"' :: cs => readString .wanted cs
    | cs => .error (wrongKind α cs)
  fromValue := Json.text?

/-- A truth value. -/
def flag (α : Type) [NumberText α] : Decoder Bool where
  fromText cs :=
    match skipBlanks cs with
    | [] => .error .ended
    | 't' :: cs => (readWord ['r', 'u', 'e'] cs).map fun (_, rest) => (true, rest)
    | 'f' :: cs => (readWord ['a', 'l', 's', 'e'] cs).map fun (_, rest) => (false, rest)
    | cs => .error (wrongKind α cs)
  fromValue
    | .flag b => some b
    | _ => none

/-- Nothing but null. -/
def null (α : Type) [NumberText α] : Decoder Unit where
  fromText cs :=
    match skipBlanks cs with
    | [] => .error .ended
    | 'n' :: cs => readWord ['u', 'l', 'l'] cs
    | cs => .error (wrongKind α cs)
  fromValue
    | .null => some ()
    | _ => none

/-- A thing or null. -/
def optional (d : Decoder β) : Decoder (Option β) where
  fromText cs :=
    match skipBlanks cs with
    | 'n' :: cs => (readWord ['u', 'l', 'l'] cs).map fun (_, rest) => (none, rest)
    | cs => (d.fromText cs).map fun (b, rest) => (some b, rest)
  fromValue
    | .null => some none
    | v => (d.fromValue v).map some

/-- One of some names: its string, or a table of the name with null. -/
def choice (α : Type) [NumberText α] (names : List (String × β)) : Decoder β where
  fromText cs :=
    match skipBlanks cs with
    | [] => .error .ended
    | '"' :: cs =>
      match readString .wanted cs with
      | .error fault => .error fault
      | .ok (name, rest) =>
        match names.lookup name with
        | some b => .ok (b, rest)
        | none => .error .mismatch
    | '{' :: cs =>
      match (text α).fromText cs with
      | .error fault => .error fault
      | .ok (name, cs) =>
        match names.lookup name with
        | none => .error .mismatch
        | some b =>
          match readColon cs with
          | .error fault => .error fault
          | .ok (_, cs) =>
            match (null α).fromText cs with
            | .error fault => .error fault
            | .ok (_, cs) => (closeTable cs).map fun (_, rest) => (b, rest)
    | _ => .error .grammar
  fromValue
    | .text name => names.lookup name
    | .table [(name, .null)] => names.lookup name
    | _ => none

/-- Reads the items of a list, of which there are at most `fuel`, and its closing bracket. -/
def listItems (item : List Char → Reading β) : (fuel : Nat) → (first : Bool) → List Char →
    Reading (List β)
  | 0, _, _ => .error .ended
  | fuel + 1, first, cs =>
    match nextItem first cs with
    | .error fault => .error fault
    | .ok none => (closeList cs).map fun (_, rest) => ([], rest)
    | .ok (some cs) =>
      match item cs with
      | .error fault => .error fault
      | .ok (b, cs) => (listItems item fuel false cs).map fun (bs, rest) => (b :: bs, rest)

/-- A list of things. -/
def list (α : Type) [NumberText α] (d : Decoder β) : Decoder (List β) where
  fromText cs :=
    match skipBlanks cs with
    | [] => .error .ended
    | '[' :: cs => listItems d.fromText (cs.length + 1) true cs
    | cs => .error (wrongKind α cs)
  fromValue
    | .list vs => vs.mapM d.fromValue
    | _ => none

/-- Sets an entry of a list sorted by keys; a key that is there already gets the new value. -/
def putEntry (key : String) (b : β) : List (String × β) → List (String × β)
  | [] => [(key, b)]
  | (k, v) :: es =>
    if key < k then (key, b) :: (k, v) :: es
    else if k = key then (key, b) :: es
    else (k, v) :: putEntry key b es

/-- Reads the entries of a table, of which there are at most `fuel`, and its closing brace. -/
def tableEntries (item : List Char → Reading β) : (fuel : Nat) → (first : Bool) →
    (done : List (String × β)) → List Char → Reading (List (String × β))
  | 0, _, _, _ => .error .ended
  | fuel + 1, first, done, cs =>
    match nextKey first cs with
    | .error fault => .error fault
    | .ok none => (closeTable cs).map fun (_, rest) => (done, rest)
    | .ok (some cs) =>
      match readString .wanted cs with
      | .error fault => .error fault
      | .ok (key, cs) =>
        match readColon cs with
        | .error fault => .error fault
        | .ok (_, cs) =>
          match item cs with
          | .error fault => .error fault
          | .ok (b, cs) => tableEntries item fuel false (putEntry key b done) cs

/-- A table of things under any keys, sorted by them; of a repeated key the last entry counts. -/
def table (α : Type) [NumberText α] (d : Decoder β) : Decoder (List (String × β)) where
  fromText cs :=
    match skipBlanks cs with
    | [] => .error .ended
    | '{' :: cs => tableEntries d.fromText (cs.length + 1) true [] cs
    | cs => .error (wrongKind α cs)
  fromValue
    | .table es => es.foldlM (fun done e => (d.fromValue e.2).map (putEntry e.1 · done)) []
    | _ => none

/-- A slot of a record that is read into a draft. -/
structure Slot (σ : Type) where
  name : String
  /-- Whether the draft has this slot filled. -/
  isFilled : σ → Bool
  /-- Whether the slot may be missing at the end of a record written as a list. -/
  hasDefault : Bool
  fill : Decoder (σ → σ)

/-- The slot that a getter and a setter describe. -/
def Slot.of (name : String) (hasDefault : Bool) (get : σ → Option γ) (set : γ → σ → σ)
    (d : Decoder γ) : Slot σ where
  name
  isFilled s := (get s).isSome
  hasDefault
  fill := d.map set

/-- Reads the members of a record, of which there are at most `fuel`, up to its closing brace. -/
def members (α : Type) [NumberText α] (slots : List (Slot σ)) : (fuel : Nat) → (first : Bool) →
    (draft : σ) → List Char → Reading σ
  | 0, _, _, _ => .error .ended
  | fuel + 1, first, draft, cs =>
    match nextKey first cs with
    | .error fault => .error fault
    | .ok none => .ok (draft, cs)
    | .ok (some cs) =>
      match readString .wanted cs with
      | .error fault => .error fault
      | .ok (key, cs) =>
        match slots.find? fun s => s.name == key with
        | some slot =>
          if slot.isFilled draft then .error .mismatch else
            match readColon cs with
            | .error fault => .error fault
            | .ok (_, cs) =>
              match slot.fill.fromText cs with
              | .error fault => .error fault
              | .ok (fill, cs) => members α slots fuel false (fill draft) cs
        | none =>
          match readColon cs with
          | .error fault => .error fault
          | .ok (_, cs) =>
            match skipValue α cs with
            | .error fault => .error fault
            | .ok (_, cs) => members α slots fuel false draft cs

/-- Reads the slots of a record written as a list, up to its closing bracket. -/
def inOrder : List (Slot σ) → (first : Bool) → (draft : σ) → List Char → Reading σ
  | [], _, draft, cs => .ok (draft, cs)
  | slot :: slots, first, draft, cs =>
    match nextItem first cs with
    | .error fault => .error fault
    | .ok none =>
      if (slot :: slots).all (·.hasDefault) then .ok (draft, cs) else .error .mismatch
    | .ok (some cs) =>
      match slot.fill.fromText cs with
      | .error fault => .error fault
      | .ok (fill, cs) => inOrder slots false (fill draft) cs

/-- Fills the slots of a record from the entries of a table. -/
def fromEntries (slots : List (Slot σ)) (draft : σ) : List (String × Json) → Option σ
  | [] => some draft
  | (key, v) :: es =>
    match slots.find? fun s => s.name == key with
    | some slot =>
      if slot.isFilled draft then none else
        match slot.fill.fromValue v with
        | some fill => fromEntries slots (fill draft) es
        | none => none
    | none => fromEntries slots draft es

/-- Fills the slots of a record from the items of a list. -/
def fromItems : List (Slot σ) → (draft : σ) → List Json → Option σ
  | [], draft, [] => some draft
  | [], _, _ :: _ => none
  | slots, draft, [] => if slots.all (·.hasDefault) then some draft else none
  | slot :: slots, draft, v :: vs =>
    match slot.fill.fromValue v with
    | some fill => fromItems slots (fill draft) vs
    | none => none

/-- A record: its slots are read into a draft, which `finish` turns into the record unless a slot
that is needed was missing. -/
def record (α : Type) [NumberText α] (slots : List (Slot σ)) (draft : σ) (finish : σ → Option β) :
    Decoder β where
  fromText cs :=
    let close (r : Reading σ) (closing : List Char → Reading Unit) : Reading β :=
      match r with
      | .error fault => .error fault
      | .ok (draft, cs) =>
        match finish draft with
        | none => .error .mismatch
        | some b => (closing cs).map fun (_, rest) => (b, rest)
    match skipBlanks cs with
    | [] => .error .ended
    | '{' :: cs => close (members α slots (cs.length + 1) true draft cs) closeTable
    | '[' :: cs => close (inOrder slots true draft cs) closeList
    | cs => .error (wrongKind α cs)
  fromValue
    | .table es => (fromEntries slots draft es).bind finish
    | .list vs => (fromItems slots draft vs).bind finish
    | _ => none

/-- What a whole text writes. -/
def ofText (d : Decoder β) (text : String) : Except Fault β :=
  match d.fromText text.toList with
  | .error fault => .error fault
  | .ok (b, rest) => if (skipBlanks rest).isEmpty then .ok b else .error .grammar

/-- What a value stands for. -/
def ofValue (d : Decoder β) (v : Json) : Except Fault β :=
  match d.fromValue v with
  | some b => .ok b
  | none => .error .mismatch

end Decoder

end NoteRoll.Json
