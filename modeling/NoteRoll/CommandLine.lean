import NoteRoll.Decimal.Reader

/-!
# The command line

What the arguments of the program ask for. Arguments are read from left to right, and the first one
that is refused or asks for help decides. The option for the configuration may stand before and
behind the command, where the latter counts; otherwise no option is given twice.
-/

namespace NoteRoll

/-- A command of the program, on a file. -/
inductive Command (α : Type) where
  /-- Open the editor, on a file if there is one. -/
  | edit (file : Option String)
  /-- Play a file from a beat on. -/
  | play (file : String) (start : α)
  /-- Summarize a file. -/
  | check (file : String)

/-- The name of a command. -/
inductive CommandName where
  | edit
  | play
  | check
  deriving DecidableEq, Repr

/-- The command of a name. -/
def CommandName.ofText? (text : String) : Option CommandName :=
  if text = "edit" then some .edit
  else if text = "play" then some .play
  else if text = "check" then some .check
  else none

/-- What help can be asked about. -/
inductive HelpTopic where
  | program
  | command (name : CommandName)
  /-- The command that tells about the others. -/
  | help
  deriving DecidableEq, Repr

/-- What an argument list asks for. -/
inductive Request (α : Type) where
  /-- To run a command under a configuration file. -/
  | run (config : Option String) (command : Command α)
  /-- To tell what something does. -/
  | help (topic : HelpTopic)
  | version
  /-- Nothing that the program understands. -/
  | refused

/-- The form of one argument. -/
inductive Argument where
  /-- A name behind two dashes, with a value behind an equals sign if there is one. -/
  | option (name : String) (value : Option String)
  /-- Letters behind one dash. -/
  | letters (first : Char)
  /-- Two dashes alone: all that follows are words. -/
  | onlyWords
  | word (text : String)

/-- The form of an argument. -/
def Argument.ofText (text : String) : Argument :=
  match text.toList with
  | ['-', '-'] => .onlyWords
  | '-' :: '-' :: cs =>
    let name := cs.takeWhile fun c => c != '='
    let value := match cs.dropWhile fun c => c != '=' with
      | _ :: v => some (String.ofList v)
      | [] => none
    .option (String.ofList name) value
  | '-' :: c :: _ => .letters c
  | _ => .word text

namespace Request

variable {α : Type} [NumberText α]

/-- The value of an option, which stands in it or is the next argument, and what is left. -/
def optionValue? (value : Option String) (rest : List String) : Option (String × List String) :=
  match value, rest with
  | some v, rest => some (v, rest)
  | none, text :: rest =>
    match Argument.ofText text with
    | .word w => some (w, rest)
    | _ => none
  | none, [] => none

/-- A number as an argument: a decimal, where one out of range is infinite, or the name of what is
not finite. -/
def number? (text : String) : Option α :=
  let (negative, cs) := Decimal.readSign text.toList
  let infinite : Option α := NumberText.nonFinite (if negative then .negativeInfinity else .infinity)
  let name := String.ofList (cs.map Char.toLower)
  if name = "inf" ∨ name = "infinity" then infinite
  else if name = "nan" then NumberText.nonFinite .missing
  else match Decimal.ofText? text.toList with
    | none => none
    | some d => match NumberText.nearest d with
      | some x => some x
      | none => infinite

/-- The arguments of a command, as far as they are read. -/
structure Draft (α : Type) where
  config : Option String
  file : Option String
  start : Option α

/-- The command that the arguments make, with the beat zero to start from unless given. -/
def Draft.command? [Scalar α] (d : Draft α) (name : CommandName) : Option (Command α) :=
  match name, d.file with
  | .edit, file => some (.edit file)
  | .play, some file => some (.play file (d.start.getD 0))
  | .check, some file => some (.check file)
  | _, none => none

/-- Takes the file of a command; a second one is refused, and so is an empty name. -/
def Draft.withFile? (d : Draft α) (file : String) : Option (Draft α) :=
  if d.file.isSome ∨ file = "" then none else some { d with file := some file }

/-- Takes an option of a command. -/
def Draft.withOption? (d : Draft α) (name : CommandName) (option value : String) :
    Option (Draft α) :=
  if option = "config" then
    if d.config.isSome ∨ value = "" then none else some { d with config := some value }
  else if option = "from" ∧ name = .play then
    if d.start.isSome then none else (number? value).map fun x => { d with start := some x }
  else none

/-- Reads the words of a command behind two dashes. -/
def withFiles? (d : Draft α) (words : List String) : Option (Draft α) :=
  words.foldlM Draft.withFile? d

/-- Reads the arguments of a command. Each step takes an argument or two, which is what `fuel`
counts. -/
def ofArguments [Scalar α] (config : Option String) (name : CommandName) :
    (fuel : Nat) → Draft α → List String → Request α
  | 0, _, _ => .refused
  | fuel + 1, d, args =>
    let finish (d : Option (Draft α)) : Request α :=
      match d.bind fun d => (d.command? name).map fun c => (d, c) with
      | some (d, c) => .run (d.config.or config) c
      | none => .refused
    match args with
    | [] => finish (some d)
    | text :: rest =>
      match Argument.ofText text with
      | .onlyWords => finish (withFiles? d rest)
      | .letters c => if c = 'h' then .help (.command name) else .refused
      | .option "help" none => .help (.command name)
      | .option option value =>
        match optionValue? value rest with
        | none => .refused
        | some (value, rest) =>
          match d.withOption? name option value with
          | some d => ofArguments config name fuel d rest
          | none => .refused
      | .word w =>
        match d.withFile? w with
        | some d => ofArguments config name fuel d rest
        | none => .refused

/-- What `help` is asked about. -/
def ofHelp : List String → Request α
  | [] => .help .program
  | ["help"] => .help .help
  | [text] => match CommandName.ofText? text with
    | some name => .help (.command name)
    | none => .refused
  | _ => .refused

/-- Reads the arguments up to the command. -/
def ofList (α : Type) [Scalar α] [NumberText α] (config : Option String) :
    (fuel : Nat) → List String → Request α
  | 0, _ => .refused
  | fuel + 1, args =>
    match args with
    | [] => .refused
    | text :: rest =>
      match Argument.ofText text with
      | .onlyWords => .refused
      | .letters c => if c = 'h' then .help .program else if c = 'V' then .version else .refused
      | .option "help" none => .help .program
      | .option "version" none => .version
      | .option "config" value =>
        match config, optionValue? value rest with
        | none, some (path, rest) =>
          if path = "" then .refused else ofList α (some path) fuel rest
        | _, _ => .refused
      | .option _ _ => .refused
      | .word w =>
        if w = "help" then ofHelp rest else
          match CommandName.ofText? w with
          | some name => ofArguments config name (rest.length + 1) ⟨none, none, none⟩ rest
          | none => .refused

/-- What an argument list asks for. -/
def parse (α : Type) [Scalar α] [NumberText α] (args : List String) : Request α :=
  ofList α none (args.length + 1) args

end Request

end NoteRoll
