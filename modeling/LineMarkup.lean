import LineMarkup.Cursor
import LineMarkup.Node.Json
import LineMarkup.Node.Outline
import LineMarkup.Node.Validity
import LineMarkup.Session
import LineMarkup.Proofs.Acceptance
import LineMarkup.Proofs.Cutting
import LineMarkup.Proofs.CutPoints
import LineMarkup.Proofs.Outcome
import LineMarkup.Proofs.DataModel
import LineMarkup.Proofs.Violations
import LineMarkup.Proofs.NormalForm
import LineMarkup.Proofs.Merged
import LineMarkup.Proofs.Writing
import LineMarkup.Proofs.ParseValid
import LineMarkup.Proofs.RoundTrip
import LineMarkup.Proofs.StyleOrder
import LineMarkup.Proofs.Spelling
import LineMarkup.Proofs.PlainSurroundings
import LineMarkup.Proofs.Events
import LineMarkup.Proofs.EmptyTexts
import LineMarkup.Proofs.Indexing
import LineMarkup.Proofs.IndexRoom
import LineMarkup.Proofs.Sight
import LineMarkup.Proofs.Pieces
import LineMarkup.Proofs.Renaming
import LineMarkup.Proofs.Switches
import LineMarkup.Proofs.PlainLines
import LineMarkup.Proofs.KeptMarkers
import LineMarkup.Proofs.SpanGrammar
import LineMarkup.Proofs.EnclosedGrammar
import LineMarkup.Proofs.MarkedWord
import LineMarkup.Proofs.TakenTokens
import LineMarkup.Proofs.Joining
import LineMarkup.Proofs.Quoting
import LineMarkup.Proofs.Outlines
import LineMarkup.Proofs.JsonExtension
import LineMarkup.Proofs.NodeDecoding
import LineMarkup.Proofs.FileChanges
import LineMarkup.Proofs.SavedOptions
import LineMarkup.Proofs.ReaderProgress
import LineMarkup.Proofs.Statements
import LineMarkup.Proofs.TopLevelKeys
import LineMarkup.Proofs.Loading
import LineMarkup.Proofs.Displays
import LineMarkup.Proofs.MachineIndex
