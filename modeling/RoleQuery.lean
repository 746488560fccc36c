import RoleQuery.Access.Authorization
import RoleQuery.Access.Caller
import RoleQuery.Access.Fields
import RoleQuery.Access.Policy
import RoleQuery.Binary64.Basic
import RoleQuery.Binary64.Decimal
import RoleQuery.Bytes.Base64
import RoleQuery.Bytes.Sha256
import RoleQuery.Bytes.Utf8
import RoleQuery.Bytes.Wire
import RoleQuery.Cache.Basic
import RoleQuery.Cache.Key
import RoleQuery.Catalog.Basic
import RoleQuery.Catalog.Build
import RoleQuery.Catalog.Config
import RoleQuery.Catalog.Entity
import RoleQuery.Catalog.Operation
import RoleQuery.Catalog.Permission
import RoleQuery.CommandLine.Answer
import RoleQuery.CommandLine.Options
import RoleQuery.DocumentQuery.Basic
import RoleQuery.Error
import RoleQuery.Filter.Basic
import RoleQuery.Filter.Operator
import RoleQuery.Filter.Parser
import RoleQuery.Filter.Validation
import RoleQuery.Json.Basic
import RoleQuery.Json.Depth
import RoleQuery.Json.Parser
import RoleQuery.Json.Printer
import RoleQuery.Json.Record
import RoleQuery.Json.Token
import RoleQuery.Main
import RoleQuery.Paging.Basic
import RoleQuery.Paging.Cursor
import RoleQuery.Predicate.Basic
import RoleQuery.Predicate.Evaluation
import RoleQuery.Predicate.OfFilter
import RoleQuery.Proofs.Filter.Meaning
import RoleQuery.Selection
import RoleQuery.Service.Basic
import RoleQuery.Service.Read
import RoleQuery.Service.Write
import RoleQuery.Sql.Condition
import RoleQuery.Sql.Names
import RoleQuery.Sql.Select
import RoleQuery.Sql.Write
import RoleQuery.Statement.Basic
import RoleQuery.Statement.Condition
import RoleQuery.Statement.OfPlan
import RoleQuery.Statement.Plan
import RoleQuery.Tables.Basic
import RoleQuery.Tables.Order
import RoleQuery.Tables.Run
import RoleQuery.Text.Case
import RoleQuery.Text.Printable
import RoleQuery.Text.Quoted
import RoleQuery.Value
import RoleQuery.Proofs.Filter.Compilation
import RoleQuery.Proofs.Filter.Truth
import RoleQuery.Proofs.Filter.Parallel
import RoleQuery.Proofs.Filter.Correctness
import RoleQuery.Proofs.Access.Restriction
import RoleQuery.Proofs.Bytes.Utf8
import RoleQuery.Proofs.Bytes.Base64
import RoleQuery.Proofs.Bytes.Wire
import RoleQuery.Proofs.Paging.Cursor
import RoleQuery.Proofs.Tables.Order
import RoleQuery.Proofs.Paging.Continuation
import RoleQuery.Proofs.Access.Masks
import RoleQuery.Proofs.Service.Planning
import RoleQuery.Proofs.Paging.FollowUp
import RoleQuery.Proofs.Paging.Page
import RoleQuery.Proofs.Paging.Reading
import RoleQuery.Proofs.Paging.Ordering
import RoleQuery.Proofs.Cache.Sharing
import RoleQuery.Proofs.Sql.Names
import RoleQuery.Proofs.Sql.Condition
import RoleQuery.Proofs.Predicate.Scoping
import RoleQuery.Proofs.Predicate.Written
import RoleQuery.Proofs.Sql.Pattern
import RoleQuery.Proofs.Sql.Predicate
import RoleQuery.Proofs.Sql.Documents
import RoleQuery.Proofs.Sql.Fetch
import RoleQuery.Proofs.Statement.Plan
import RoleQuery.Proofs.DocumentQuery.Paths
import RoleQuery.Proofs.DocumentQuery.Condition
import RoleQuery.Proofs.Cache.Determination
import RoleQuery.Proofs.Sql.Meaning
import RoleQuery.Proofs.Sql.Keyset
import RoleQuery.Proofs.Access.Claims
import RoleQuery.Proofs.Filter.Following
import RoleQuery.Proofs.Catalog.Columns
import RoleQuery.Proofs.Access.Grants
import RoleQuery.Proofs.Tables.Images
import RoleQuery.Proofs.Access.Disclosure
import RoleQuery.Proofs.Predicate.Aliases
import RoleQuery.Proofs.Predicate.Hoisting
import RoleQuery.Proofs.Access.Coverage
import RoleQuery.Proofs.Tables.Writing
import RoleQuery.Proofs.Service.Writing
import RoleQuery.Proofs.Tables.Selected
import RoleQuery.Proofs.Service.Items
import RoleQuery.Proofs.Cache.Refinement
import RoleQuery.Proofs.Access.Levels
import RoleQuery.Proofs.Statement.Outline
import RoleQuery.Proofs.Sql.Outline
import RoleQuery.Proofs.Filter.Erasure
import RoleQuery.Proofs.Statement.Noninterference
import RoleQuery.Proofs.Statement.Lexing
import RoleQuery.Proofs.Statement.Parsing
import RoleQuery.Proofs.Statement.Meaning
import RoleQuery.Proofs.Sql.Phrasing
import RoleQuery.Proofs.DocumentQuery.Phrasing
import RoleQuery.Proofs.Statement.Conditions
import RoleQuery.Proofs.Catalog.Entities
import RoleQuery.Proofs.Paging.Binding
import RoleQuery.Proofs.Filter.Placement
import RoleQuery.Proofs.Filter.Nulls
import RoleQuery.Proofs.Predicate.Terms
import RoleQuery.Proofs.Predicate.Owners
import RoleQuery.Proofs.Predicate.Parts
import RoleQuery.Proofs.Sql.Aliases
import RoleQuery.Proofs.Predicate.Core
import RoleQuery.Proofs.Statement.Faults
import RoleQuery.Proofs.Access.Unrestricted
import RoleQuery.Proofs.Access.Exposure
import RoleQuery.Proofs.Sql.Filled
import RoleQuery.Proofs.Service.Statements
import RoleQuery.Proofs.Binary64.Rounding
import RoleQuery.Proofs.Tables.Preorder
import RoleQuery.Proofs.Paging.Flags
import RoleQuery.Proofs.Bytes.Separation
import RoleQuery.Proofs.Cache.Keys
import RoleQuery.Proofs.Filter.Operands
import RoleQuery.Proofs.Access.Policies
import RoleQuery.Proofs.Catalog.Inheritance
import RoleQuery.Proofs.Service.WritePolicies
import RoleQuery.Proofs.Sql.DerivedRow
import RoleQuery.Proofs.Service.Storing
import RoleQuery.Proofs.Text.Marking
import RoleQuery.Proofs.Sql.Matching
import RoleQuery.Proofs.Statement.Names
