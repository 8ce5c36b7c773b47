import AppAudit.Main
import AppAudit.Report.Record
import AppAudit.Proofs.Collection
import AppAudit.Proofs.Verdict
import AppAudit.Proofs.Discipline
import AppAudit.Proofs.LineBreaks
import AppAudit.Proofs.LineEndings
import AppAudit.Proofs.Sharding
import AppAudit.Proofs.Pathless
import AppAudit.Proofs.Spelling
import AppAudit.Proofs.Isolation
import AppAudit.Proofs.Forms
import AppAudit.Proofs.Settings
import AppAudit.Proofs.ExitStatus
import AppAudit.Proofs.Separators
import AppAudit.Proofs.Concatenation
import AppAudit.Proofs.Lines
import AppAudit.Proofs.Surroundings
import AppAudit.Proofs.Numerals
import AppAudit.Proofs.Thresholds
import AppAudit.Proofs.Occurrences
import AppAudit.Proofs.ConsoleCalls
import AppAudit.Proofs.Saturation
import AppAudit.Proofs.ModularScale
import AppAudit.Proofs.FontSizes
import AppAudit.Proofs.Decoding
import AppAudit.Proofs.JsonReport
import AppAudit.Proofs.TextReading
import AppAudit.Proofs.Sinks
import AppAudit.Proofs.HexCase
import AppAudit.Proofs.DarkMode
import AppAudit.Proofs.RepositorySearch
import AppAudit.Proofs.OutputPlacement
import AppAudit.Proofs.Provenance
import AppAudit.Proofs.Replacements
import AppAudit.Proofs.Crew
