import Crowsfoot.Main
import Crowsfoot.Host.Session
import Crowsfoot.Template.BuiltIn
import Crowsfoot.Proofs.Diagram.Redrawing
import Crowsfoot.Proofs.Migration.NormalForm
import Crowsfoot.Proofs.Inference.Sound
import Crowsfoot.Proofs.Conversion.Columns
import Crowsfoot.Proofs.Conversion.Relationships
import Crowsfoot.Proofs.Conversion.Acceptance
import Crowsfoot.Proofs.Conversion.FileOrder
import Crowsfoot.Proofs.Conversion.Representation
import Crowsfoot.Proofs.Inference.PivotKeys
import Crowsfoot.Proofs.Naming.TableNames
import Crowsfoot.Proofs.Conversion.Constraints
import Crowsfoot.Proofs.Inference.Idempotence
import Crowsfoot.Proofs.Inference.References
import Crowsfoot.Proofs.Inference.Growth
import Crowsfoot.Proofs.Host.SchemaFiles
import Crowsfoot.Proofs.Command.WriteMigrations
import Crowsfoot.Proofs.Builder.Failures
import Crowsfoot.Proofs.Builder.Concatenation
import Crowsfoot.Proofs.Migration.Extension
import Crowsfoot.Proofs.Conversion.Malformed
import Crowsfoot.Proofs.Migration.Consistency
import Crowsfoot.Proofs.Builder.Continuations
import Crowsfoot.Proofs.Migration.Redeclaration
import Crowsfoot.Proofs.Migration.Insertion
import Crowsfoot.Proofs.Inference.StatementOrder
import Crowsfoot.Proofs.Migration.KeySpellings
import Crowsfoot.Proofs.Diagram.Placement
import Crowsfoot.Proofs.Migration.Chronology
import Crowsfoot.Proofs.Diagram.Comments
import Crowsfoot.Proofs.Migration.Openings
import Crowsfoot.Proofs.Schema.Validity
import Crowsfoot.Proofs.Inference.Addressees
import Crowsfoot.Proofs.Migration.ModifierOrder
import Crowsfoot.Proofs.Builder.Comments
import Crowsfoot.Proofs.Builder.Groups
import Crowsfoot.Proofs.Builder.SourceChains
import Crowsfoot.Proofs.Naming.SharedPlurals
import Crowsfoot.Proofs.Builder.Separators
import Crowsfoot.Proofs.Builder.ArgumentLists
import Crowsfoot.Proofs.Naming.SingularModels
