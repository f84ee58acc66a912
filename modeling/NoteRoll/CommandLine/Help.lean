import NoteRoll.CommandLine

/-!
# Help texts

What the program tells about itself.
-/

namespace NoteRoll

/-- The name of the program, as it is called. -/
def programName : String := "pianoroll"

/-- The version of the program. -/
def programVersion : String := "0.1.0"

/-- What the program is. -/
def programPurpose : String := "A terminal piano roll for sketching and auditioning short pieces"

namespace CommandName

/-- What is told about a command in one line. -/
def purpose : CommandName → String
  | .edit => "Open the piano roll, optionally on an interchange file"
  | .play => "Play an interchange file through the audio output"
  | .check => "Validate an interchange file and print a summary"

/-- How a command is called. -/
def usage : CommandName → String
  | .edit => "edit [OPTIONS] [FILE]"
  | .play => "play [OPTIONS] <FILE>"
  | .check => "check [OPTIONS] <FILE>"

/-- The file of a command, as it stands in its help. -/
def fileText : CommandName → String
  | .edit => "[FILE]"
  | _ => "<FILE>"

/-- The options of a command alone. -/
def ownOptions : CommandName → String
  | .play => "      --from <FROM>      Beat to start from [default: 0]\n"
  | _ => ""

end CommandName

/-- What is told about the command that tells about the others. -/
def helpPurpose : String := "Print this message or the help of the given subcommand(s)"

/-- The options of everything that can be asked about, with those of its own in between. -/
def optionsText (own : String) : String :=
  "\nOptions:\n" ++
  "      --config <CONFIG>  Configuration file (default: ~/.pianoroll/config.yaml)\n" ++ own ++
  "  -h, --help             Print help\n"

/-- How the program is called. -/
def usageLine (usage : String) : String := "Usage: " ++ programName ++ " " ++ usage ++ "\n"

/-- The help text about something. -/
def helpText : HelpTopic → String
  | .program =>
    programPurpose ++ "\n\n" ++ usageLine "[OPTIONS] <COMMAND>" ++
      "\nCommands:\n" ++
      "  edit   " ++ CommandName.edit.purpose ++ "\n" ++
      "  play   " ++ CommandName.play.purpose ++ "\n" ++
      "  check  " ++ CommandName.check.purpose ++ "\n" ++
      "  help   " ++ helpPurpose ++ "\n" ++
      optionsText "" ++ "  -V, --version          Print version\n"
  | .command name =>
    name.purpose ++ "\n\n" ++ usageLine name.usage ++
      "\nArguments:\n  " ++ name.fileText ++ "  \n" ++ optionsText name.ownOptions
  | .help =>
    helpPurpose ++ "\n\n" ++ usageLine "help [COMMAND]..." ++
      "\nArguments:\n  [COMMAND]...  Print help for the subcommand(s)\n"

/-- What is told about the version. -/
def versionText : String := programName ++ " " ++ programVersion ++ "\n"

end NoteRoll
