import NoteRoll.Config
import NoteRoll.Text.CharSet
import NoteRoll.Yaml.Printer
import NoteRoll.Yaml.Reader

/-!
# The stored form of the configuration

The settings are a table of tables. What a table does not name keeps its default, and so does all of
it where nothing is written; names that are unknown are passed over. A setting that is named twice
or has a value of another kind is a fault of the whole file.
-/

namespace NoteRoll

/-- The value behind the name of its type, if that is given. -/
def Yaml.untagged : Yaml → Yaml
  | .tagged _ v => v
  | v => v

/-- The text of a scalar. -/
def Yaml.text? (y : Yaml) : Option String :=
  match y.untagged with
  | .scalar _ text => some text
  | _ => none

/-- The text of a scalar that may write a value of a type: a plain one, or a literal block that is
named to be of that type. -/
def Yaml.writing? (type : String) : Yaml → Option String
  | .scalar .plain text | .tagged _ (.scalar .plain text) => some text
  | .tagged tag (.scalar .literal text) => if tag = type then some text else none
  | _ => none

/-- The settings of a group that a value writes, by name. They may be written as a list, in their
order, where some can be missing at the end. -/
def Yaml.settings? (known : List String) (y : Yaml) : Option (List (String × Yaml)) :=
  match y.untagged with
  | .scalar .plain "" => some []
  | .table entries => do
    let named ← entries.mapM fun e => e.1.text?.map fun name => (name, e.2)
    let named := named.filter fun e => known.contains e.1
    if (named.map (·.1)).Nodup then some named else none
  | .list items => if items.length ≤ known.length then some (known.zip items) else none
  | _ => none

/-- One of the settings of a group, read from its value, or its default. -/
def Yaml.setting {β : Type} (settings : List (String × Yaml)) (name : String)
    (read : Yaml → Option β) (standard : β) : Option β :=
  match settings.lookup name with
  | some value => read value
  | none => some standard

namespace Config

/-- The name of the type of numbers. -/
def numberTag : String := "tag:yaml.org,2002:float"

/-- The name of the type of whole numbers. -/
def wholeTag : String := "tag:yaml.org,2002:int"

/-- The name of the type of nothing. -/
def nullTag : String := "tag:yaml.org,2002:null"

/-- A number. -/
def number? {α : Type} [NumberText α] (y : Yaml) : Option α :=
  (y.writing? numberTag).bind Yaml.number?

/-- A natural number has at most 64 bits. -/
def natural? (y : Yaml) : Option Nat :=
  ((y.writing? wholeTag).bind Yaml.natural?).filter fun n => n < Nat.pow 2 64

/-- An optional text is any scalar, and none where a plain one stands for nothing. What is named to
be nothing has to be so. -/
def optionalText? : Yaml → Option (Option String)
  | .scalar .plain text => some (if Yaml.isNull text then none else some text)
  | .tagged tag (.scalar .plain text) =>
    if tag ≠ nullTag then some (some text)
    else if Yaml.isNull text && text != "" then some none
    else none
  | y => y.text?.map some

variable {α : Type} [Scalar α] [NumberText α]

/-- The scale of the grid. -/
def grid? (y : Yaml) : Option (GridConfig α) := do
  let standard : GridConfig α := Config.standard.grid
  let s ← y.settings? ["beat_width", "row_height", "edge_margin"]
  return {
    beatWidth := ← Yaml.setting s "beat_width" number? standard.beatWidth
    rowHeight := ← Yaml.setting s "row_height" number? standard.rowHeight
    edgeMargin := ← Yaml.setting s "edge_margin" number? standard.edgeMargin }

/-- The timing of playback. -/
def playback? (y : Yaml) : Option (PlaybackConfig α) := do
  let standard : PlaybackConfig α := Config.standard.playback
  let s ← y.settings? ["tick_ms", "lookahead_ms", "end_margin_beats"]
  return {
    tickMillis := ← Yaml.setting s "tick_ms" natural? standard.tickMillis
    lookaheadMillis := ← Yaml.setting s "lookahead_ms" natural? standard.lookaheadMillis
    endMargin := ← Yaml.setting s "end_margin_beats" number? standard.endMargin }

/-- Where the compose service is. -/
def remote? (standard : RemoteConfig) (y : Yaml) : Option RemoteConfig := do
  let s ← y.settings? ["base_url", "timeout_secs"]
  return {
    baseUrl := ← Yaml.setting s "base_url" Yaml.text? standard.baseUrl
    timeoutSeconds := ← Yaml.setting s "timeout_secs" natural? standard.timeoutSeconds }

/-- What is logged, and where to. -/
def log? (standard : LogConfig) (y : Yaml) : Option LogConfig := do
  let s ← y.settings? ["level", "file"]
  return {
    level := ← Yaml.setting s "level" Yaml.text? standard.level
    file := ← Yaml.setting s "file" optionalText? standard.file }

/-- The configuration that a value writes. -/
def ofYaml? (y : Yaml) : Option (Config α) := do
  let standard : Config α := Config.standard
  let s ← y.settings? ["bpm", "snap", "grid", "playback", "remote", "log"]
  return {
    bpm := ← Yaml.setting s "bpm" number? standard.bpm
    snap := ← Yaml.setting s "snap" number? standard.snap
    grid := ← Yaml.setting s "grid" grid? standard.grid
    playback := ← Yaml.setting s "playback" playback? standard.playback
    remote := ← Yaml.setting s "remote" (remote? standard.remote) standard.remote
    log := ← Yaml.setting s "log" (log? standard.log) standard.log }

/-- The value that writes a configuration. -/
def toYaml (c : Config α) : Yaml :=
  let record := Yaml.record α
  let text := Yaml.ofString α
  record [("bpm", .ofNumber c.bpm),
    ("snap", .ofNumber c.snap),
    ("grid", record [
      ("beat_width", .ofNumber c.grid.beatWidth),
      ("row_height", .ofNumber c.grid.rowHeight),
      ("edge_margin", .ofNumber c.grid.edgeMargin)]),
    ("playback", record [
      ("tick_ms", .ofNat c.playback.tickMillis),
      ("lookahead_ms", .ofNat c.playback.lookaheadMillis),
      ("end_margin_beats", .ofNumber c.playback.endMargin)]),
    ("remote", record [
      ("base_url", text c.remote.baseUrl),
      ("timeout_secs", .ofNat c.remote.timeoutSeconds)]),
    ("log", record [
      ("level", text c.log.level),
      ("file", (c.log.file.map text).getD .null)])]

/-- The text of a configuration file. -/
def toText (c : Config α) : String := Yaml.documentText c.toYaml

/-- Whether a text holds nothing but white space. -/
def isBlankText (text : String) : Bool := text.toList.all isWhiteSpace

/-- The configuration that a file's text writes; a blank file writes the standard one. -/
def ofText? (text : String) : Option (Config α) :=
  if isBlankText text then some .standard else (Yaml.ofText? text).bind ofYaml?

end Config

end NoteRoll
