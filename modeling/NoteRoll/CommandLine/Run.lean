import NoteRoll.Audio.Engine
import NoteRoll.CommandLine.Help
import NoteRoll.Config.Format
import NoteRoll.Config.LogFilter
import NoteRoll.Disk
import NoteRoll.Padding
import NoteRoll.Session

/-!
# Running a command

A command loads the configuration, opens the log and then does its work; the first of these that
fails ends it. The configuration is the file of the `--config` option, or else the one in the home
directory, and the standard one where that file is missing.
-/

namespace NoteRoll

/-- What the surroundings of the program provide. -/
structure Surroundings where
  home : Option String
  /-- A log filter that replaces the configured one unless it is blank. -/
  logFilter : Option String

/-- Why a command fails. -/
inductive CommandError (α : Type) where
  | configYaml
  | configFile (fault : FileFault)
  | logFilter (filter : String)
  | logFile (path : String) (fault : FileFault)
  | unreadable (path : String) (fault : FileFault)
  | rejected (error : ImportError α)
  | noSound (error : EngineError)
  | noTerminal

/-- What the user is told. -/
def CommandError.message {α : Type} [Scalar α] [NumberText α] : CommandError α → String
  | .configYaml => "config YAML"
  | .configFile fault => "config I/O: " ++ fault.message
  | .logFilter _ => "invalid log filter"
  | .logFile path fault => "cannot open log file " ++ path ++ ": " ++ fault.message
  | .unreadable path fault => "cannot read " ++ path ++ ": " ++ fault.message
  | .rejected error => error.message
  | .noSound error => error.message
  | .noTerminal => "no terminal to draw on"

/-- How a run of the program ends. -/
structure Outcome where
  code : Nat
  output : String
  errors : String
  deriving DecidableEq, Repr

namespace Outcome

/-- The outcome of a run that prints something. -/
def success (output : String) : Outcome := ⟨0, output, ""⟩

/-- The outcome of a command that fails. -/
def failure (message : String) : Outcome := ⟨1, "", "error: " ++ message ++ "\n"⟩

/-- The outcome of arguments that are not understood. -/
def refusal : Outcome :=
  ⟨2, "", "error: arguments not understood\n\n" ++ usageLine "[OPTIONS] <COMMAND>"⟩

end Outcome

variable {α : Type} [Scalar α] [NumberText α]

/-- The summary of a document that was read from a file. -/
def Document.summary (d : Document α) (file : String) : String :=
  let track (t : Track) : String :=
    "  " ++ t.id ++ " " ++ padRight 14 t.name ++ " " ++ padLeft 4 (toString (d.noteCount t.id)) ++
      " notes" ++ (if t.muted then " (muted)" else "") ++ "\n"
  file ++ ": ok\n" ++
    "  bpm:    " ++ NumberText.plain d.bpm ++ "\n" ++
    "  notes:  " ++ toString d.notes.length ++ "\n" ++
    "  length: " ++ NumberText.fixed 2 d.endBeat ++ " beats\n" ++
    String.join (d.tracks.map track)

/-- A fresh session with the configured tempo and snap quantum. -/
def Config.session (c : Config α) : Session α :=
  ((Session.start Document.standard).setBpm c.bpm).setSnap c.snap

namespace Command

variable {m : Type → Type} [Monad m]

/-- Whether a command takes the screen for itself. -/
def isInteractive : Command α → Bool
  | .edit _ => true
  | _ => false

/-- The file of the standard configuration. -/
def standardConfig (home : String) : String := home ++ "/.pianoroll/config.yaml"

/-- Loads the configuration. -/
def loadConfig (files : Files m) (path : Option String) : m (Except (CommandError α) (Config α)) :=
  match path with
  | none => pure (.ok .standard)
  | some path => do
    match ← files.read path with
    | .ok text => pure (match Config.ofText? text with
        | some c => .ok c
        | none => .error .configYaml)
    | .error fault =>
      pure (if fault.leadsNowhere then .ok .standard else .error (.configFile fault))

/-- Opens the log. -/
def openLog (files : Files m) (filter : Option String) (log : LogConfig) (interactive : Bool) :
    m (Except (CommandError α) Unit) :=
  let filter := match filter with
    | some f => if Config.isBlankText f then log.level else f
    | none => log.level
  if !LogFilter.isValid filter then pure (.error (.logFilter filter)) else
    match log.target interactive with
    | .file path => do
      match ← files.openLog path with
      | .ok () => pure (.ok ())
      | .error fault => pure (.error (.logFile path fault))
    | .stderr => pure (.ok ())
    | .discard => pure (.ok ())

/-- Loads the piece of a file into a session. -/
def loadPiece (files : Files m) (session : Session α) (path : String) :
    m (Except (CommandError α) (Session α)) := do
  match ← files.read path with
  | .error fault => pure (.error (.unreadable path fault))
  | .ok text => pure (match session.importText text with
      | (.ok _, session) => .ok session
      | (.error error, _) => .error (.rejected error))

/-- Does the work of a command and answers with its output. There is no sound device here and no
terminal, so playing and editing end once their file is loaded. -/
def work (files : Files m) (config : Config α) : Command α → m (Except (CommandError α) String)
  | .check file => do
    match ← loadPiece files (Config.standard : Config α).session file with
    | .ok session => pure (.ok (session.document.summary file))
    | .error error => pure (.error error)
  | .play file _ => do
    match ← loadPiece files config.session file with
    | .ok _ => pure (.error (.noSound .noOutputDevice))
    | .error error => pure (.error error)
  | .edit none => pure (.error .noTerminal)
  | .edit (some file) => do
    match ← loadPiece files config.session file with
    | .error (.unreadable path fault) =>
      pure (.error (if fault.leadsNowhere then .noTerminal else .unreadable path fault))
    | .error error => pure (.error error)
    | .ok _ => pure (.error .noTerminal)

/-- Runs a command. -/
def run (files : Files m) (around : Surroundings) (path : Option String) (command : Command α) :
    m Outcome := do
  match ← loadConfig files (path.or (around.home.map standardConfig)) with
  | .error (error : CommandError α) => pure (.failure error.message)
  | .ok config =>
    match ← openLog files around.logFilter config.log command.isInteractive with
    | .error (error : CommandError α) => pure (.failure error.message)
    | .ok () =>
      match ← work files config command with
      | .error error => pure (.failure error.message)
      | .ok output => pure (.success output)

end Command

/-- Runs the program on its arguments. -/
def runProgram {m : Type → Type} [Monad m] (α : Type) [Scalar α] [NumberText α] (files : Files m)
    (around : Surroundings) (args : List String) : m Outcome :=
  match Request.parse α args with
  | .run path command => command.run files around path
  | .help topic => pure (.success (helpText topic))
  | .version => pure (.success versionText)
  | .refused => pure .refusal

end NoteRoll
