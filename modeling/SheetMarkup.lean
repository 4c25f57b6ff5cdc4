import SheetMarkup.Cli.Execute
import SheetMarkup.Cli.Options
import SheetMarkup.Cli.Report
import SheetMarkup.Cli.Request
import SheetMarkup.Cli.Run
import SheetMarkup.Cli.Shorthand
import SheetMarkup.Cli.Test
import SheetMarkup.Document.Basic
import SheetMarkup.Document.Config
import SheetMarkup.Document.Registry
import SheetMarkup.Document.Render
import SheetMarkup.Document.Warning
import SheetMarkup.Docx.Image
import SheetMarkup.Docx.Media
import SheetMarkup.Docx.Package
import SheetMarkup.Docx.Parts
import SheetMarkup.Docx.Picture
import SheetMarkup.Files.Error
import SheetMarkup.Files.Path
import SheetMarkup.Files.System
import SheetMarkup.Files.Tree
import SheetMarkup.Fixture.Category
import SheetMarkup.Fixture.Check
import SheetMarkup.Fixture.Expectation
import SheetMarkup.Main
import SheetMarkup.Proofs.Cli.Extraction
import SheetMarkup.Proofs.Cli.Output
import SheetMarkup.Proofs.Cli.Shorthand
import SheetMarkup.Proofs.Cli.Tests
import SheetMarkup.Proofs.Csv.FieldPlaces
import SheetMarkup.Proofs.Csv.Mark
import SheetMarkup.Proofs.Csv.Passages
import SheetMarkup.Proofs.Csv.Plain
import SheetMarkup.Proofs.Csv.Positions
import SheetMarkup.Proofs.Csv.Quoted
import SheetMarkup.Proofs.Csv.Records
import SheetMarkup.Proofs.Csv.Reports
import SheetMarkup.Proofs.Csv.Search
import SheetMarkup.Proofs.Document.Closure
import SheetMarkup.Proofs.Document.Content
import SheetMarkup.Proofs.Document.Diagnostics
import SheetMarkup.Proofs.Document.Identifiers
import SheetMarkup.Proofs.Document.Passes
import SheetMarkup.Proofs.Document.Redeclarations
import SheetMarkup.Proofs.Document.References
import SheetMarkup.Proofs.Document.Registry
import SheetMarkup.Proofs.Document.Rendering
import SheetMarkup.Proofs.Document.StyleArguments
import SheetMarkup.Proofs.Document.StyleBodies
import SheetMarkup.Proofs.Document.UnknownParents
import SheetMarkup.Proofs.Document.Unplaced
import SheetMarkup.Proofs.Document.WellFormed
import SheetMarkup.Proofs.Docx.Characters
import SheetMarkup.Proofs.Docx.Extents
import SheetMarkup.Proofs.Docx.Frames
import SheetMarkup.Proofs.Docx.Inheritance
import SheetMarkup.Proofs.Docx.Markup
import SheetMarkup.Proofs.Docx.Paragraphs
import SheetMarkup.Proofs.Docx.PicturePackage
import SheetMarkup.Proofs.Docx.Pictures
import SheetMarkup.Proofs.Docx.Relations
import SheetMarkup.Proofs.Docx.StyleClosure
import SheetMarkup.Proofs.Docx.StyleEntries
import SheetMarkup.Proofs.Files.Places
import SheetMarkup.Proofs.Fixture.Selection
import SheetMarkup.Proofs.Outcome
import SheetMarkup.Proofs.Script.Acceptance
import SheetMarkup.Proofs.Script.Arguments
import SheetMarkup.Proofs.Script.Bodies
import SheetMarkup.Proofs.Script.Cells
import SheetMarkup.Proofs.Script.Composition
import SheetMarkup.Proofs.Script.Contentless
import SheetMarkup.Proofs.Script.Groups
import SheetMarkup.Proofs.Script.Run
import SheetMarkup.Proofs.Script.Stream
import SheetMarkup.Proofs.Sheet.Address
import SheetMarkup.Proofs.Sheet.Columns
import SheetMarkup.Proofs.Sheet.Entries
import SheetMarkup.Proofs.Sheet.Notation
import SheetMarkup.Proofs.Sheet.Sparse
import SheetMarkup.Proofs.Source.Agreement
import SheetMarkup.Proofs.Source.Forms
import SheetMarkup.Proofs.Source.Keyed
import SheetMarkup.Proofs.Style.Descriptor
import SheetMarkup.Proofs.Style.Words
import SheetMarkup.Proofs.Text.Ascii
import SheetMarkup.Proofs.Text.Decimal
import SheetMarkup.Proofs.Text.Lowercase
import SheetMarkup.Proofs.Text.Number
import SheetMarkup.Proofs.Text.Slice
import SheetMarkup.Proofs.Text.Trim
import SheetMarkup.Proofs.Text.Utf8
import SheetMarkup.Proofs.Workbook.Decoding
import SheetMarkup.Proofs.Workbook.Images
import SheetMarkup.Proofs.Workbook.MetadataReading
import SheetMarkup.Proofs.Workbook.Namespaces
import SheetMarkup.Proofs.Workbook.PictureChain
import SheetMarkup.Proofs.Workbook.RichValues
import SheetMarkup.Proofs.Workbook.StringTable
import SheetMarkup.Proofs.Workbook.Structures
import SheetMarkup.Proofs.Workbook.TableReading
import SheetMarkup.Proofs.Workbook.Targets
import SheetMarkup.Proofs.Workbook.WrittenSheet
import SheetMarkup.Proofs.Workbook.WrittenTables
import SheetMarkup.Proofs.Xml.Attributes
import SheetMarkup.Proofs.Xml.Escape
import SheetMarkup.Proofs.Xml.Exchange
import SheetMarkup.Proofs.Xml.Items
import SheetMarkup.Proofs.Xml.Legible
import SheetMarkup.Proofs.Xml.Locality
import SheetMarkup.Proofs.Xml.Reading
import SheetMarkup.Proofs.Xml.Spelling
import SheetMarkup.Proofs.Xml.Tags
import SheetMarkup.Proofs.Xml.Words
import SheetMarkup.Script.Block
import SheetMarkup.Script.Command
import SheetMarkup.Script.Error
import SheetMarkup.Script.Parse
import SheetMarkup.Script.Token
import SheetMarkup.Sheet.Address
import SheetMarkup.Sheet.Cell
import SheetMarkup.Sheet.Row
import SheetMarkup.Source.Csv
import SheetMarkup.Source.Sheet
import SheetMarkup.Source.Toml
import SheetMarkup.Style.Descriptor
import SheetMarkup.Style.Identifier
import SheetMarkup.Text.Binary64
import SheetMarkup.Text.Blank
import SheetMarkup.Text.Bytes
import SheetMarkup.Text.Lines
import SheetMarkup.Text.Lowercase
import SheetMarkup.Text.Lowercase.Table
import SheetMarkup.Text.Number
import SheetMarkup.Text.Order
import SheetMarkup.Text.Quoted
import SheetMarkup.Text.Quoted.Table
import SheetMarkup.Toml.Lexeme
import SheetMarkup.Toml.Parse
import SheetMarkup.Toml.Print
import SheetMarkup.Toml.Tree
import SheetMarkup.Toml.Value
import SheetMarkup.Workbook.Package
import SheetMarkup.Workbook.Pictures
import SheetMarkup.Workbook.Read
import SheetMarkup.Workbook.SharedStrings
import SheetMarkup.Workbook.Worksheet
import SheetMarkup.Xml.Escape
import SheetMarkup.Xml.Event
import SheetMarkup.Xml.Lexeme
import SheetMarkup.Xml.Tree
import SheetMarkup.Zip.Archive
import SheetMarkup.Zip.Crc32
import SheetMarkup.Zip.Inflate
