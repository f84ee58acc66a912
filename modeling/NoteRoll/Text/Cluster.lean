import NoteRoll.Text.Joining

/-!
# Clusters of characters

Cutting a text into what a reader takes for its characters. Whether the next character joins the
cluster follows from a few facts about the text before it, so one pass over the text does it.
-/

namespace NoteRoll

/-- What matters of a text for whether the next character joins its last cluster. -/
structure ClusterEnd where
  last : JoiningClass
  /-- It ends in a picture, with or without extenders. -/
  picture : Bool := false
  /-- It ends in a picture and a joiner. -/
  pictureJoined : Bool := false
  /-- It ends in the first letter of a flag. -/
  halfFlag : Bool := false
  /-- It ends in a consonant, with or without extenders. -/
  consonant : Bool := false
  /-- It ends in a consonant and extenders, a linker among them. -/
  linked : Bool := false
  deriving DecidableEq, Repr

namespace ClusterEnd

/-- The end of a text that a character is put behind. -/
def push (e : ClusterEnd) (c : Char) : ClusterEnd :=
  let cls := JoiningClass.ofChar c
  let isMark := cls == .extender || cls == .joiner
  let isConsonant := CharSet.consonants.contains c
  let stays := e.consonant && isMark && c != '\u200c'
  { last := cls
    picture := CharSet.pictographs.contains c || (e.picture && cls == .extender)
    pictureJoined := e.picture && cls == .joiner
    halfFlag := cls == .flagLetter && !e.halfFlag
    consonant := isConsonant || stays
    linked := stays && (e.linked || CharSet.linkers.contains c) }

/-- The end of a text of one character. -/
def ofChar (c : Char) : ClusterEnd := push { last := .control } c

/-- Whether a character joins the cluster before it. -/
def joins (e : ClusterEnd) (c : Char) : Bool :=
  e.last.joins (.ofChar c) || (e.pictureJoined && CharSet.pictographs.contains c) ||
    (e.halfFlag && JoiningClass.ofChar c == .flagLetter) ||
    (e.linked && CharSet.consonants.contains c)

end ClusterEnd

/-- The clusters of a text, of which the first has begun with characters that are given last first. -/
def clustersFrom (e : ClusterEnd) (begun : List Char) : List Char → List (List Char)
  | [] => [begun.reverse]
  | c :: rest =>
    if e.joins c then clustersFrom (e.push c) (c :: begun) rest
    else begun.reverse :: clustersFrom (e.push c) [c] rest

/-- The clusters of a text. -/
def clusters : List Char → List (List Char)
  | [] => []
  | c :: rest => clustersFrom (.ofChar c) [c] rest

end NoteRoll
