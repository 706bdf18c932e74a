import ExposureKit.Bytes.Base64
import ExposureKit.Bytes.HexDump
import ExposureKit.Bytes.Literal
import ExposureKit.Bzip2.Archive
import ExposureKit.Calendar.Date
import ExposureKit.Exposure.Draft
import ExposureKit.Main
import ExposureKit.Message.Recovery
import ExposureKit.Night.Generation
import ExposureKit.Program.DummyMaker
import ExposureKit.Program.Extractor
import ExposureKit.Storage.Path
import ExposureKit.Text.Wrap
import ExposureKit.Proofs.Bzip2.Concatenation
import ExposureKit.Proofs.Bytes.Base64Cleaning
import ExposureKit.Proofs.Bytes.Base64Decoding
import ExposureKit.Proofs.Text.WrapConservation
import ExposureKit.Proofs.Bytes.Base64RoundTrip
import ExposureKit.Proofs.Message.Embedding
import ExposureKit.Proofs.Text.ChunkShape
import ExposureKit.Proofs.Text.LineBounds
import ExposureKit.Proofs.Text.TrailingSpaces
import ExposureKit.Proofs.Bytes.LiteralRoundTrip
import ExposureKit.Proofs.Calendar.DateText
import ExposureKit.Proofs.Night.SummaryRuns
import ExposureKit.Proofs.Exposure.NameText
import ExposureKit.Proofs.Storage.FileCreation
import ExposureKit.Proofs.Night.PlannedNames
import ExposureKit.Proofs.Night.GenerationRuns
import ExposureKit.Proofs.Night.SummaryOfFiles
import ExposureKit.Proofs.Message.SignificantBytes
import ExposureKit.Proofs.Message.ReportLines
import ExposureKit.Proofs.Night.GenerationParts
import ExposureKit.Proofs.Program.ExtractorRuns
import ExposureKit.Proofs.Text.ChunkJoints
import ExposureKit.Proofs.Text.BreakPlaces
import ExposureKit.Proofs.Text.FittingText
import ExposureKit.Proofs.Text.FewestLines
import ExposureKit.Proofs.Text.AppendedText
import ExposureKit.Proofs.Text.PlainWords
import ExposureKit.Proofs.Bytes.Base64Canonical
import ExposureKit.Proofs.Message.MarkerSearch
import ExposureKit.Proofs.Bytes.DumpColumns
import ExposureKit.Proofs.Calendar.DayNumbers
import ExposureKit.Proofs.Calendar.LastDays
import ExposureKit.Proofs.Exposure.NumberDraws
import ExposureKit.Proofs.Exposure.LastSettings
import ExposureKit.Proofs.Text.FieldPattern
import ExposureKit.Proofs.Exposure.NamingConvention
import ExposureKit.Proofs.Bytes.CleanedTexts
import ExposureKit.Proofs.Calendar.DateOrder
import ExposureKit.Proofs.Night.NewestFirst
import ExposureKit.Proofs.Night.SummaryText
import ExposureKit.Proofs.Text.WrapProgress
