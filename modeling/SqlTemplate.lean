import SqlTemplate.Cache
import SqlTemplate.Main
import SqlTemplate.Report
import SqlTemplate.Source.Cursor
import SqlTemplate.Proofs.Line.Preorder
import SqlTemplate.Proofs.Line.Drafting
import SqlTemplate.Proofs.Line.Ending
import SqlTemplate.Proofs.Directive.Printing
import SqlTemplate.Proofs.Template.Reading
import SqlTemplate.Proofs.Rendering.Alignment
import SqlTemplate.Proofs.Rendering.Indifference
import SqlTemplate.Proofs.Rendering.Survivors
import SqlTemplate.Proofs.Template.Agreement
import SqlTemplate.Proofs.Rendering.Completion
import SqlTemplate.Proofs.Rendering.Lists
import SqlTemplate.Proofs.Rendering.Filled
import SqlTemplate.Proofs.Line.Slicing
import SqlTemplate.Proofs.Source.Balance
import SqlTemplate.Proofs.Source.Scanning
import SqlTemplate.Proofs.Template.Balanced
import SqlTemplate.Proofs.Cache.Recency
import SqlTemplate.Proofs.Cache.Transparency
import SqlTemplate.Proofs.Source.Continuing
import SqlTemplate.Proofs.Template.Spellings
import SqlTemplate.Proofs.Rendering.Tally
import SqlTemplate.Proofs.Rendering.Growth
import SqlTemplate.Proofs.Rendering.Affirmative
import SqlTemplate.Proofs.Rendering.Supply
import SqlTemplate.Proofs.Template.LineEnds
import SqlTemplate.Proofs.Rendering.Emptied
import SqlTemplate.Proofs.Rendering.Presence
import SqlTemplate.Proofs.Rendering.Splitting
import SqlTemplate.Proofs.Rendering.ListSizes
import SqlTemplate.Proofs.Rendering.Compaction
import SqlTemplate.Proofs.Rendering.Patterns
import SqlTemplate.Proofs.Rendering.Skipping
import SqlTemplate.Proofs.Rendering.Wildcards
import SqlTemplate.Proofs.Rendering.Captured
import SqlTemplate.Proofs.Line.Identifiers
import SqlTemplate.Proofs.Rendering.Grouping
import SqlTemplate.Proofs.Rendering.Registering
import SqlTemplate.Proofs.Rendering.PlainReferences
import SqlTemplate.Proofs.Template.Enclosure
import SqlTemplate.Proofs.Template.Literals
import SqlTemplate.Proofs.Template.Numbering
import SqlTemplate.Proofs.Template.Walking
