/-!
# The message log

The most recent messages to the user, oldest first. A full log forgets its oldest message.
-/

namespace NoteRoll

/-- How serious a message is. -/
inductive Severity where
  | info
  | error
  deriving DecidableEq, Repr

/-- A message to the user. -/
structure Message where
  severity : Severity
  text : String
  deriving DecidableEq, Repr

/-- The most recent messages, of which there are at most `capacity`. -/
structure MessageLog where
  capacity : Nat
  messages : List Message

namespace MessageLog

/-- An empty log; it has room for at least one message. -/
def ofCapacity (capacity : Nat) : MessageLog := ⟨max 1 capacity, []⟩

/-- The log of a fresh application. -/
def standard : MessageLog := ofCapacity 50

/-- Adds a message. -/
def push (log : MessageLog) (severity : Severity) (text : String) : MessageLog :=
  let kept := if log.capacity ≤ log.messages.length then log.messages.drop 1 else log.messages
  { log with messages := kept ++ [⟨severity, text⟩] }

/-- Adds a message about what happened. -/
def info (log : MessageLog) (text : String) : MessageLog := log.push .info text

/-- Adds a message about what went wrong. -/
def error (log : MessageLog) (text : String) : MessageLog := log.push .error text

/-- Number of messages. -/
def size (log : MessageLog) : Nat := log.messages.length

/-- Whether there are no messages. -/
def isEmpty (log : MessageLog) : Bool := log.messages.isEmpty

/-- The newest message. -/
def latest? (log : MessageLog) : Option Message := log.messages.getLast?

/-- The newest messages, up to a number of them, newest last. -/
def recent (log : MessageLog) (n : Nat) : List Message :=
  log.messages.drop (log.messages.length - n)

end MessageLog

end NoteRoll
