import ChronoId.Main
import ChronoId.Session
import ChronoId.Settings.Folder
import ChronoId.Proofs.CheckDigit.Detection
import ChronoId.Proofs.CheckDigit.Function
import ChronoId.Proofs.CheckDigit.Isin
import ChronoId.Proofs.Codec.DecodedOrder
import ChronoId.Proofs.Codec.DriftLimit
import ChronoId.Proofs.Codec.Json
import ChronoId.Proofs.Codec.Settling
import ChronoId.Proofs.Codec.Slips
import ChronoId.Proofs.CommandLine.Verdicts
import ChronoId.Proofs.Numeral.Language
import ChronoId.Proofs.Session
import ChronoId.Proofs.Numeral.SortOrder
import ChronoId.Proofs.Codec.ExactTimes
import ChronoId.Proofs.Codec.Lossless
import ChronoId.Proofs.Codec.SameInstant
import ChronoId.Proofs.Codec.Length
import ChronoId.Proofs.CheckDigit.Output
