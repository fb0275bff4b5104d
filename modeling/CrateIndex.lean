import CrateIndex.CommandLine.Run
import CrateIndex.Files.Building
import CrateIndex.Main
import CrateIndex.Proofs.CommandLine.Arguments
import CrateIndex.Proofs.CommandLine.Endings
import CrateIndex.Proofs.CommandLine.Logging
import CrateIndex.Proofs.CommandLine.Session
import CrateIndex.Proofs.Document.Format
import CrateIndex.Proofs.Document.JsonText
import CrateIndex.Proofs.Document.Surrogates
import CrateIndex.Proofs.Files.Root
import CrateIndex.Proofs.Index.BuildTags
import CrateIndex.Proofs.Index.Discovery
import CrateIndex.Proofs.Index.Files
import CrateIndex.Proofs.Index.FirstFault
import CrateIndex.Proofs.Index.LineEnds
import CrateIndex.Proofs.Index.Lines
import CrateIndex.Proofs.Index.Names
import CrateIndex.Proofs.Index.Splitting
import CrateIndex.Proofs.Index.Unused
import CrateIndex.Proofs.Index.WellFormed
import CrateIndex.Proofs.Registry.Losses
import CrateIndex.Proofs.Registry.Reordering
import CrateIndex.Proofs.Requirement.Grammar
import CrateIndex.Proofs.Requirement.Idempotence
import CrateIndex.Proofs.Requirement.Lists
import CrateIndex.Proofs.Requirement.Meaning
import CrateIndex.Proofs.Requirement.Repeated
