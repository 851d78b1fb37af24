import FrameTable.Argument.Basic
import FrameTable.Argument.Reader
import FrameTable.Catalog.Basic
import FrameTable.Catalog.CodePointer
import FrameTable.Catalog.Record
import FrameTable.Catalog.Sprite
import FrameTable.Catalog.Store
import FrameTable.Flag.Reading
import FrameTable.Flag.Thing
import FrameTable.Flag.Word
import FrameTable.Frame.Basic
import FrameTable.Index.Basic
import FrameTable.Index.Directory
import FrameTable.Index.Hash
import FrameTable.Index.IdPool
import FrameTable.IndexSizes
import FrameTable.Json.Batch
import FrameTable.Json.Value
import FrameTable.Library
import FrameTable.Load.Basic
import FrameTable.Load.Batch
import FrameTable.Load.Frame
import FrameTable.Load.MiscValue
import FrameTable.Load.Outcome
import FrameTable.Load.Reference
import FrameTable.Number.Angle
import FrameTable.Number.Decimal
import FrameTable.Number.Digits
import FrameTable.Number.FixedPoint
import FrameTable.Number.Integer
import FrameTable.Number.Shortest
import FrameTable.Packed.Call
import FrameTable.Packed.Frame
import FrameTable.Packed.Printer
import FrameTable.Packed.Token
import FrameTable.Section.Basic
import FrameTable.Section.Field
import FrameTable.Section.Number
import FrameTable.Tables
import FrameTable.Text.Case
import FrameTable.Text.Label
import FrameTable.Proofs.Argument.Accessor
import FrameTable.Proofs.Argument.Edit
import FrameTable.Proofs.Argument.Ledger
import FrameTable.Proofs.Argument.Meaning
import FrameTable.Proofs.Argument.Numbered
import FrameTable.Proofs.Argument.Reference
import FrameTable.Proofs.Argument.Sharing
import FrameTable.Proofs.Catalog.Alike
import FrameTable.Proofs.Catalog.Demand
import FrameTable.Proofs.Catalog.Evolution
import FrameTable.Proofs.Catalog.Integrity
import FrameTable.Proofs.Catalog.Modify
import FrameTable.Proofs.Catalog.Names
import FrameTable.Proofs.Catalog.Numbering
import FrameTable.Proofs.Catalog.Owners
import FrameTable.Proofs.Catalog.Pending
import FrameTable.Proofs.Catalog.Room
import FrameTable.Proofs.Catalog.Sprite
import FrameTable.Proofs.Frame.Contents
import FrameTable.Proofs.Index.Alike
import FrameTable.Proofs.Index.Association
import FrameTable.Proofs.Index.Chain
import FrameTable.Proofs.Index.Lookup
import FrameTable.Proofs.Index.Numbering
import FrameTable.Proofs.Index.Owners
import FrameTable.Proofs.Index.Pool
import FrameTable.Proofs.Library.Caches
import FrameTable.Proofs.Library.FailedLoads
import FrameTable.Proofs.Library.Footprint
import FrameTable.Proofs.Library.HandleLife
import FrameTable.Proofs.Library.Handles
import FrameTable.Proofs.Library.Integrity
import FrameTable.Proofs.Library.Load
import FrameTable.Proofs.Library.NumericReference
import FrameTable.Proofs.Library.Owner
import FrameTable.Proofs.Library.Passes
import FrameTable.Proofs.Library.Room
import FrameTable.Proofs.Library.Sizes
import FrameTable.Proofs.Library.Successor
import FrameTable.Proofs.Load.Acts
import FrameTable.Proofs.Load.Alike
import FrameTable.Proofs.Load.Collecting
import FrameTable.Proofs.Load.Defining
import FrameTable.Proofs.Load.Demand
import FrameTable.Proofs.Load.Enlisting
import FrameTable.Proofs.Load.Fill
import FrameTable.Proofs.Load.Filling
import FrameTable.Proofs.Load.Follows
import FrameTable.Proofs.Load.Footprint
import FrameTable.Proofs.Load.Gather
import FrameTable.Proofs.Load.Gathering
import FrameTable.Proofs.Load.Given
import FrameTable.Proofs.Load.IdRange
import FrameTable.Proofs.Load.Image
import FrameTable.Proofs.Load.Placeholders
import FrameTable.Proofs.Load.Placement
import FrameTable.Proofs.Load.Places
import FrameTable.Proofs.Load.Redefinition
import FrameTable.Proofs.Load.Reference
import FrameTable.Proofs.Load.Resolving
import FrameTable.Proofs.Load.Runs
import FrameTable.Proofs.Load.Simulation
import FrameTable.Proofs.Load.Stable
import FrameTable.Proofs.Load.Targets
import FrameTable.Proofs.Load.Turn
import FrameTable.Proofs.Load.Turns
import FrameTable.Proofs.Load.Values
import FrameTable.Proofs.Load.Writing
import FrameTable.Proofs.Number.Magnitude
import FrameTable.Proofs.Number.Numeral
import FrameTable.Proofs.Packed.Layout
import FrameTable.Proofs.Packed.Spelling
import FrameTable.Proofs.Tables.Evolution
import FrameTable.Proofs.Tables.Soundness
import FrameTable.Proofs.Library.Placeholders
import FrameTable.Proofs.Catalog.Moves
import FrameTable.Proofs.Tables.Moves
import FrameTable.Proofs.Load.Linking
import FrameTable.Proofs.Library.Linking
import FrameTable.Proofs.Load.Coupling
import FrameTable.Proofs.Load.Packing
import FrameTable.Proofs.Library.Settings
import FrameTable.Proofs.Load.Calling
import FrameTable.Proofs.Packed.Pieces
import FrameTable.Proofs.Packed.Rendering
import FrameTable.Proofs.Number.Written
import FrameTable.Proofs.Number.Front
import FrameTable.Proofs.Number.Decimal
import FrameTable.Proofs.Argument.Integer
import FrameTable.Proofs.Catalog.Growth
import FrameTable.Proofs.Flag.Words
import FrameTable.Proofs.Json.Members
import FrameTable.Proofs.Json.Fields
import FrameTable.Proofs.Json.Batch
import FrameTable.Proofs.Load.Refusal
import FrameTable.Proofs.Section.Writes
