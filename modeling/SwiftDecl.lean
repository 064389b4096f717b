import SwiftDecl.DatabaseError
import SwiftDecl.Emit.Request
import SwiftDecl.Json.Reader
import SwiftDecl.Main
import SwiftDecl.Storage.FileTree
import SwiftDecl.Proofs.TypeRef.Grammar
import SwiftDecl.Proofs.TypeRef.Readers
import SwiftDecl.Proofs.TypeRef.Recognition
import SwiftDecl.Proofs.TypeRef.RoundTrip
import SwiftDecl.Proofs.TypeRef.Void
import SwiftDecl.Proofs.TypeRef.DeclaredNames
import SwiftDecl.Proofs.TypeRef.DottedNames
import SwiftDecl.Proofs.TypeRef.Cursor
import SwiftDecl.Proofs.TypeRef.Progress
import SwiftDecl.Proofs.Version
import SwiftDecl.Proofs.Literal
import SwiftDecl.Proofs.Text.Search
import SwiftDecl.Proofs.Text.Lines
import SwiftDecl.Proofs.Text.Pieces
import SwiftDecl.Proofs.Text.SourceLines
import SwiftDecl.Proofs.Model.Records
import SwiftDecl.Proofs.Model.Parts
import SwiftDecl.Proofs.Model.Loaded
import SwiftDecl.Proofs.Model.RoundTrip
import SwiftDecl.Proofs.Model.Survival
import SwiftDecl.Proofs.Emit.Lines
import SwiftDecl.Proofs.Emit.Outline
import SwiftDecl.Proofs.Emit.Visibility
import SwiftDecl.Proofs.Emit.Batch
import SwiftDecl.Proofs.Emit.Constraints
import SwiftDecl.Proofs.Emit.Naming
import SwiftDecl.Proofs.Emit.Members
import SwiftDecl.Proofs.Emit.Bodies
import SwiftDecl.Proofs.Emit.Fillings
import SwiftDecl.Proofs.Emit.Layout
import SwiftDecl.Proofs.Emit.Nesting
import SwiftDecl.Proofs.Emit.Gates
import SwiftDecl.Proofs.Emit.Headings
import SwiftDecl.Proofs.Emit.Spacing
import SwiftDecl.Proofs.Emit.EmptyLines
import SwiftDecl.Proofs.Emit.Recovery
import SwiftDecl.Proofs.Emit.Comments
import SwiftDecl.Proofs.Emit.GenericParameters
import SwiftDecl.Proofs.Storage.FileTree
import SwiftDecl.Proofs.Storage.Places
import SwiftDecl.Proofs.Storage.Runs
import SwiftDecl.Proofs.Manifest.FirstDefect
import SwiftDecl.Proofs.Manifest.Identifier
import SwiftDecl.Proofs.Manifest.Escaping
import SwiftDecl.Proofs.Manifest.Formatting
import SwiftDecl.Proofs.Manifest.Emission
import SwiftDecl.Proofs.Manifest.Assembly
import SwiftDecl.Proofs.Manifest.Summary
import SwiftDecl.Proofs.Manifest.ValuePlace
import SwiftDecl.Proofs.Manifest.KeyPlace
import SwiftDecl.Proofs.Manifest.EmptyNames
import SwiftDecl.Proofs.CommandLine.Indents
import SwiftDecl.Proofs.Script.Depth
