import InterfaceGen.Schema.Printer
import InterfaceGen.Schema.OfText
import InterfaceGen.Command.Run
import InterfaceGen.Main
import InterfaceGen.Proofs.Interface.Inert
import InterfaceGen.Proofs.Interface.Lossless
import InterfaceGen.Proofs.Interface.Repeated
import InterfaceGen.Proofs.Json.Spelling
import InterfaceGen.Proofs.Json.Merged
import InterfaceGen.Proofs.Json.Skipping
import InterfaceGen.Proofs.Json.Extension
import InterfaceGen.Proofs.Schema.Fields
import InterfaceGen.Proofs.Schema.Unrepeated
import InterfaceGen.Proofs.Schema.Streaming
import InterfaceGen.Proofs.Schema.Agreement
import InterfaceGen.Proofs.Schema.Blame
import InterfaceGen.Proofs.Json.Printed
import InterfaceGen.Proofs.Schema.RoundTrip
import InterfaceGen.Proofs.Command.Stages
import InterfaceGen.Proofs.Files.Tree
import InterfaceGen.Proofs.Command.AllOrNothing
import InterfaceGen.Proofs.Interface.Concatenation
import InterfaceGen.Proofs.Relation.Runs
import InterfaceGen.Proofs.Interface.Places
import InterfaceGen.Proofs.Interface.Events
import InterfaceGen.Proofs.Interface.QuestionMarks
import InterfaceGen.Proofs.Relation.History
import InterfaceGen.Proofs.Interface.Pairs
import InterfaceGen.Proofs.Interface.MemberNames
import InterfaceGen.Proofs.Json.Document
import InterfaceGen.Proofs.Json.Pretty
import InterfaceGen.Proofs.Query.Printed
import InterfaceGen.Proofs.Query.KeyPath
import InterfaceGen.Proofs.Command.Selection
import InterfaceGen.Proofs.Text.UpperCase
import InterfaceGen.Proofs.Relation.TypeName
import InterfaceGen.Proofs.Relation.ReadBack
import InterfaceGen.Proofs.Schema.Front
import InterfaceGen.Proofs.Schema.Additions
import InterfaceGen.Proofs.Command.DeclarationName
import InterfaceGen.Proofs.Interface.Union
import InterfaceGen.Proofs.Interface.PathText
