import EditorScaffold.CommandLine.Run
import EditorScaffold.Main
import EditorScaffold.Proofs.Catalogue.Labels
import EditorScaffold.Proofs.Catalogue.Order
import EditorScaffold.Proofs.Catalogue.Qualified
import EditorScaffold.Proofs.Catalogue.Spelling
import EditorScaffold.Proofs.CommandLine.Choice
import EditorScaffold.Proofs.CommandLine.Effect
import EditorScaffold.Proofs.CommandLine.Generation
import EditorScaffold.Proofs.CommandLine.Parsing
import EditorScaffold.Proofs.CommandLine.Selection
import EditorScaffold.Proofs.CommandLine.Unnamed
import EditorScaffold.Proofs.Decimal.Rounding
import EditorScaffold.Proofs.Decimal.Scaling
import EditorScaffold.Proofs.Decimal.Shortest
import EditorScaffold.Proofs.Editor.Indentation
import EditorScaffold.Proofs.Editor.Members
import EditorScaffold.Proofs.Editor.Recovery
import EditorScaffold.Proofs.Field.Decoding
import EditorScaffold.Proofs.Field.Serialization
import EditorScaffold.Proofs.Field.Spelling
import EditorScaffold.Proofs.FieldType.Decoding
import EditorScaffold.Proofs.FieldType.Readability
import EditorScaffold.Proofs.FieldType.Reading
import EditorScaffold.Proofs.FieldType.Spelling
import EditorScaffold.Proofs.Json.Decoding
import EditorScaffold.Proofs.Json.Digits
import EditorScaffold.Proofs.Json.Doubles
import EditorScaffold.Proofs.Json.Magnitudes
import EditorScaffold.Proofs.Json.Numerals
import EditorScaffold.Proofs.Json.Reading
import EditorScaffold.Proofs.Json.Records
import EditorScaffold.Proofs.Json.Rewriting
import EditorScaffold.Proofs.Json.Skipping
import EditorScaffold.Proofs.Json.Sorting
import EditorScaffold.Proofs.Json.Strings
import EditorScaffold.Proofs.Json.Trees
import EditorScaffold.Proofs.Layout.Outline
import EditorScaffold.Proofs.Merge.ImportLine
import EditorScaffold.Proofs.Merge.Successive
import EditorScaffold.Proofs.Merge.Undo
import EditorScaffold.Proofs.Session.Creating
import EditorScaffold.Proofs.Session.Forgetting
import EditorScaffold.Proofs.Store.Isolation
import EditorScaffold.Proofs.Tree.Overwrite
import EditorScaffold.Proofs.TypeName.Decoding
import EditorScaffold.TypeName.Json
