import SchemaPackage.Main
import SchemaPackage.Proofs.Dictionary.Reading
import SchemaPackage.Proofs.Dictionary.Registration
import SchemaPackage.Proofs.Package.DataFiles
import SchemaPackage.Proofs.Text.Upper
import SchemaPackage.Proofs.Table.Operations
import SchemaPackage.Proofs.Table.Columns
import SchemaPackage.Proofs.Table.IndexNames
import SchemaPackage.Proofs.Table.Indexes
import SchemaPackage.Proofs.Table.IndexOrigins
import SchemaPackage.Proofs.Table.Described
import SchemaPackage.Proofs.Text.Entries
import SchemaPackage.Proofs.Table.IndexColumns
import SchemaPackage.Proofs.Table.Plain
import SchemaPackage.Proofs.Table.Tracking
import SchemaPackage.Proofs.Table.ColumnTexts
import SchemaPackage.Proofs.Dictionary.Framing
import SchemaPackage.Proofs.Table.DataFields
import SchemaPackage.Proofs.Table.FieldLists
import SchemaPackage.Proofs.Disk.Folders
import SchemaPackage.Proofs.Package.Clearing
import SchemaPackage.Proofs.Package.ControlFiles
import SchemaPackage.Proofs.Package.Loading
import SchemaPackage.Proofs.Package.Writing
import SchemaPackage.Proofs.Package.Sources
import SchemaPackage.Proofs.Package.Contents
import SchemaPackage.Proofs.Package.TableFiles
import SchemaPackage.Proofs.Package.ScriptLines
import SchemaPackage.Proofs.Package.ScriptParts
import SchemaPackage.Proofs.Package.Installation
import SchemaPackage.Proofs.Package.Leftovers
import SchemaPackage.Proofs.Package.Failures
import SchemaPackage.Proofs.NameLengths
import SchemaPackage.Proofs.Table.Reordering
import SchemaPackage.Proofs.Load.Sizes
import SchemaPackage.Proofs.Table.Unloadable
import SchemaPackage.Proofs.Table.LoadMode
import SchemaPackage.Proofs.Table.FieldNames
import SchemaPackage.Proofs.Table.IndexTexts
import SchemaPackage.Proofs.Package.Staging
import SchemaPackage.Proofs.Dictionary.Defaults
import SchemaPackage.Proofs.NormalForm
import SchemaPackage.Proofs.Package.ReleaseNotes
