import NoteRoll.App.Draw
import NoteRoll.Main
import NoteRoll.Proofs.Events
import NoteRoll.Proofs.Pointer
import NoteRoll.Proofs.HistoryMirror
import NoteRoll.Proofs.UndoSteps
import NoteRoll.Proofs.Inputs
import NoteRoll.Proofs.PointerCapture
import NoteRoll.Proofs.LoggedCalls
import NoteRoll.Proofs.Dispatch
import NoteRoll.Proofs.HistoryWindow
import NoteRoll.Proofs.Identities
import NoteRoll.Proofs.NoteProperties
import NoteRoll.Proofs.Playable
import NoteRoll.Proofs.Playback
import NoteRoll.Proofs.JsonLexemes
import NoteRoll.Proofs.JsonDecoders
import NoteRoll.Proofs.PieceText
import NoteRoll.Proofs.Binary64
import NoteRoll.Proofs.Reopening
import NoteRoll.Proofs.Punctuality
import NoteRoll.Proofs.Abandoning
import NoteRoll.Proofs.UndoneImports
import NoteRoll.Proofs.VoiceRelease
import NoteRoll.Proofs.NoteRanges
import NoteRoll.Proofs.References
import NoteRoll.Proofs.WholeNumbers
import NoteRoll.Proofs.StoredPieces
import NoteRoll.Proofs.BufferSizes
import NoteRoll.Proofs.TransportStates
import NoteRoll.Proofs.PaintedCells
import NoteRoll.Proofs.GrabbedNotes
import NoteRoll.Proofs.JsonSkipping
import NoteRoll.Proofs.FaithfulDecoders
import NoteRoll.Proofs.LegibleNumbers
import NoteRoll.Proofs.PieceVerdicts
import NoteRoll.Proofs.LiveVoices
import NoteRoll.Proofs.Previews
import NoteRoll.Proofs.Taps
import NoteRoll.Proofs.Regrouping
import NoteRoll.Proofs.DragPaths
import NoteRoll.Proofs.FittedWindow
import NoteRoll.Proofs.PaintOrder
import NoteRoll.Proofs.SumsInRange
import NoteRoll.Proofs.FiniteReadings
import NoteRoll.Proofs.DecodedPieces
import NoteRoll.Proofs.TakenPieces
import NoteRoll.Proofs.Marquee
import NoteRoll.Proofs.Pasting
import NoteRoll.Proofs.Releases
import NoteRoll.Proofs.SnappedDrags
import NoteRoll.Proofs.ExactValues
import NoteRoll.Proofs.NearestStem
import NoteRoll.Proofs.PartialSettings
import NoteRoll.Proofs.PlainNumbers
import NoteRoll.Proofs.Quotients
import NoteRoll.Proofs.StoredSettings
import NoteRoll.Proofs.CheckedRuns
import NoteRoll.Proofs.VerticalDrags
import NoteRoll.Proofs.CellSums
import NoteRoll.Proofs.Snapping
import NoteRoll.Proofs.EnvelopeShape
import NoteRoll.Proofs.BarLines
import NoteRoll.Proofs.CanvasRows
import NoteRoll.Proofs.TrackClicks
import NoteRoll.Proofs.PitchRows
