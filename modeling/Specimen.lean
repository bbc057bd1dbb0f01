import Specimen.Main
import Specimen.Session
import Specimen.Template.Stacks
import Specimen.Proofs.Template.Replay
import Specimen.Proofs.Cache.Spelling
import Specimen.Proofs.CallSite.Agreement
import Specimen.Proofs.CallSite.Body
import Specimen.Proofs.CallSite.Concatenation
import Specimen.Proofs.CallSite.Expression
import Specimen.Proofs.CallSite.Parts
import Specimen.Proofs.CommandLine.Index
import Specimen.Proofs.CommandLine.Parse
import Specimen.Proofs.Config.Partial
import Specimen.Proofs.Index.Build
import Specimen.Proofs.Index.Json
import Specimen.Proofs.Index.Order
import Specimen.Proofs.Index.Templates
import Specimen.Proofs.Session.Independence
import Specimen.Proofs.Session.Lookups
import Specimen.Proofs.Session.Reads
import Specimen.Proofs.Session.Sections
import Specimen.Proofs.Span.Cut
import Specimen.Proofs.Template.Classification
import Specimen.Proofs.Template.Edits
import Specimen.Proofs.Template.RoundTrip
import Specimen.Proofs.Template.SourceMap
import Specimen.Proofs.Template.Stacks
import Specimen.Proofs.Template.Writing
