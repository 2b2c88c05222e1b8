import TextDiagram.Main
import TextDiagram.Session.Update
import TextDiagram.Session.Layout
import TextDiagram.Proofs.Identifier
import TextDiagram.Proofs.Document.SourceMap
import TextDiagram.Proofs.Document.Draft
import TextDiagram.Proofs.Catalog
import TextDiagram.Proofs.Document.Reader
import TextDiagram.Proofs.Diagram.Edit
import TextDiagram.Proofs.Diagram.Document
import TextDiagram.Proofs.Session.Run
import TextDiagram.Proofs.Session.Drawing
import TextDiagram.Proofs.Session.Coherence
import TextDiagram.Proofs.Session.Echo
import TextDiagram.Proofs.Diagram.Identity
import TextDiagram.Proofs.Diagram.Placement
import TextDiagram.Proofs.Session.Ticket
import TextDiagram.Proofs.Session.Compilation
import TextDiagram.Proofs.Text.Blank
import TextDiagram.Proofs.Text.Cut
import TextDiagram.Proofs.Statement.Name
import TextDiagram.Proofs.Statement.Arrow
import TextDiagram.Proofs.Statement.Declaration
import TextDiagram.Proofs.Document.Statements
import TextDiagram.Proofs.Session.Line
import TextDiagram.Proofs.Document.Nodes
import TextDiagram.Proofs.Document.Description
import TextDiagram.Proofs.Document.Continuation
import TextDiagram.Proofs.Document.Renumbering
import TextDiagram.Proofs.Diagram.Label
import TextDiagram.Proofs.Session.Addition
import TextDiagram.Proofs.Session.Connection
import TextDiagram.Proofs.Session.Event
import TextDiagram.Proofs.Session.Reading
import TextDiagram.Proofs.Session.Focus
import TextDiagram.Proofs.Session.Edges
import TextDiagram.Proofs.Session.Allocation
import TextDiagram.Proofs.Session.Wiring
import TextDiagram.Proofs.Session.Frame
import TextDiagram.Proofs.Session.Place
import TextDiagram.Proofs.Session.Replacement
import TextDiagram.Proofs.Picture.Figures
import TextDiagram.Proofs.Picture.Completeness
import TextDiagram.Proofs.Diagram.Locality
import TextDiagram.Proofs.Placement.Parent
import TextDiagram.Proofs.Placement.Coverage
import TextDiagram.Proofs.Picture.Xml
import TextDiagram.Proofs.Picture.Reading
import TextDiagram.Proofs.Text.Characters
import TextDiagram.Proofs.Picture.Plain
import TextDiagram.Proofs.Statement.Characters
import TextDiagram.Proofs.Picture.Soundness
import TextDiagram.Proofs.Picture.Export
import TextDiagram.Proofs.Number.Rounding
import TextDiagram.Proofs.Diagram.Arch
import TextDiagram.Proofs.Diagram.Coincidence
import TextDiagram.Proofs.Placement.Merging
import TextDiagram.Proofs.Placement.Separation
import TextDiagram.Proofs.Number.Sum
import TextDiagram.Proofs.Placement.Extent
import TextDiagram.Proofs.Placement.Nudging
import TextDiagram.Proofs.Placement.Cells
import TextDiagram.Proofs.CommandLine.Run
import TextDiagram.Proofs.Statement.Connector
import TextDiagram.Proofs.Statement.Property
import TextDiagram.Proofs.Statement.Edge
import TextDiagram.Proofs.Statement.Directive
import TextDiagram.Proofs.Text.Span
import TextDiagram.Proofs.CommandLine.SourceMap
import TextDiagram.Proofs.Document.Conflict
import TextDiagram.Proofs.Placement.Flow
import TextDiagram.Proofs.Placement.Precedence
import TextDiagram.Proofs.Placement.Tiers
import TextDiagram.Proofs.Diagram.Currency
import TextDiagram.Proofs.Diagram.Moves
import TextDiagram.Proofs.Number.Text
import TextDiagram.Proofs.Color.Reading
import TextDiagram.Proofs.Color.Text
import TextDiagram.Proofs.Color.Identifier
import TextDiagram.Proofs.Color.Sameness
import TextDiagram.Proofs.Picture.Heads
import TextDiagram.Proofs.Diagram.Fingerprint
import TextDiagram.Proofs.Diagram.Bounds
import TextDiagram.Proofs.Priming
import TextDiagram.Proofs.Document.Tables
import TextDiagram.Proofs.Diagram.Parallel
import TextDiagram.Proofs.Geometry.Hull
import TextDiagram.Proofs.Diagram.Measure
import TextDiagram.Proofs.Diagram.Reach
import TextDiagram.Proofs.Picture.Scale
import TextDiagram.Proofs.Picture.Window
import TextDiagram.Proofs.Picture.Containment
