import SqlSession.Condition.Binding
import SqlSession.Config.Reader
import SqlSession.Connector.World
import SqlSession.Sample.Models
import SqlSession.Session.Pool
import SqlSession.Value.Convert
import SqlSession.Proofs.Condition.Tree
import SqlSession.Proofs.Condition.Rendering
import SqlSession.Proofs.Condition.Binding
import SqlSession.Proofs.Condition.Grammar
import SqlSession.Proofs.Condition.Conjunction
import SqlSession.Proofs.Condition.InPlace
import SqlSession.Proofs.Condition.Templates
import SqlSession.Proofs.Statement.Choices
import SqlSession.Proofs.Statement.Filters
import SqlSession.Proofs.Statement.Failures
import SqlSession.Proofs.Statement.Filtered
import SqlSession.Proofs.Identifier
import SqlSession.Proofs.Statement.Placeholders
import SqlSession.Proofs.Statement.Woven
import SqlSession.Proofs.Condition.Placeholders
import SqlSession.Proofs.Statement.Alignment
import SqlSession.Proofs.Session.Handles
import SqlSession.Proofs.Session.Nesting
import SqlSession.Proofs.Session.Owners
import SqlSession.Proofs.IdentityCache
import SqlSession.Proofs.Model.Effects
import SqlSession.Proofs.Model.Serving
import SqlSession.Proofs.Model.Workload
import SqlSession.Proofs.Model.Coherence
import SqlSession.Proofs.Model.Identity
import SqlSession.Proofs.IdentityCache.Recency
import SqlSession.Proofs.Text.Words
import SqlSession.Proofs.Text.Hex
import SqlSession.Proofs.Text.Utf8
import SqlSession.Proofs.RowKey
import SqlSession.Proofs.Model.Assembly
import SqlSession.Proofs.Model.Inserting
import SqlSession.Proofs.Session.Alike
import SqlSession.Proofs.Session.Recycling
import SqlSession.Proofs.Model.Soundness
import SqlSession.Proofs.Model.Batch
import SqlSession.Proofs.Model.Writing
import SqlSession.Proofs.Model.Updating
import SqlSession.Proofs.Model.Unkeyed
import SqlSession.Proofs.Statement.Rows
import SqlSession.Proofs.Statement.Lists
import SqlSession.Proofs.Identifier.Segments
import SqlSession.Proofs.Statement.Qualified
import SqlSession.Proofs.Model.Inserted
import SqlSession.Proofs.Identifier.Lexemes
import SqlSession.Proofs.Condition.Fields
import SqlSession.Proofs.Condition.Insertions
import SqlSession.Proofs.Session.Deadlines
import SqlSession.Proofs.Session.Schedules
import SqlSession.Proofs.Condition.Elements
import SqlSession.Proofs.Identifier.Requoting
