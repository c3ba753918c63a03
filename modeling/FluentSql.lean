import FluentSql.Connection
import FluentSql.Log.Console
import FluentSql.Session
import FluentSql.Settings.Shared
import FluentSql.Proofs.BindValues
import FluentSql.Proofs.FreshName
import FluentSql.Proofs.Layout
import FluentSql.Proofs.Writing
import FluentSql.Proofs.Marks
import FluentSql.Proofs.Positional
import FluentSql.Proofs.ConditionTree
import FluentSql.Proofs.Named
import FluentSql.Proofs.ValidNodes
import FluentSql.Proofs.ChainedCalls
import FluentSql.Proofs.RefusedCalls
import FluentSql.Proofs.CheckedFields
import FluentSql.Proofs.AskedNodes
import FluentSql.Proofs.SessionSteps
import FluentSql.Proofs.TerminalCalls
import FluentSql.Proofs.BuilderHistory
import FluentSql.Proofs.GuardedWrites
import FluentSql.Proofs.SingleUse
import FluentSql.Proofs.ErrorOrigins
import FluentSql.Proofs.Checkouts
import FluentSql.Proofs.ConfinedValues
import FluentSql.Proofs.HarmlessText
import FluentSql.Proofs.CheckedNames
import FluentSql.Proofs.PieceOrigins
import FluentSql.Proofs.CompiledNames
import FluentSql.Proofs.StructuredCalls
import FluentSql.Proofs.StyleAgreement
import FluentSql.Proofs.CountedSelect
import FluentSql.Proofs.PreviewedRuns
import FluentSql.Proofs.CallOrder
import FluentSql.Proofs.EngineLedger
import FluentSql.Proofs.RawText
import FluentSql.Proofs.CanonicalReferences
import FluentSql.Proofs.FittingParams
import FluentSql.Proofs.Compilable
import FluentSql.Proofs.KeptValues
import FluentSql.Proofs.BoundParameters
import FluentSql.Proofs.RegroupedConditions
import FluentSql.Proofs.RegroupedStatements
import FluentSql.Proofs.ConditionShapes
import FluentSql.Proofs.Projections
import FluentSql.Proofs.Nesting
import FluentSql.Proofs.NameGrammar
import FluentSql.Proofs.ReferenceSpellings
import FluentSql.Proofs.PatternMatches
import FluentSql.Proofs.ScreenedProjections
import FluentSql.Proofs.QuotedNames
import FluentSql.Proofs.QuotingChoice
import FluentSql.Proofs.ShapedRows
import FluentSql.Proofs.Slices
import FluentSql.Proofs.ConditionReports
import FluentSql.Proofs.RefusedStyles
import FluentSql.Proofs.RetoldNodes
import FluentSql.Proofs.RetoldClauses
import FluentSql.Proofs.RetoldStatements
import FluentSql.Proofs.UnusableAddresses
import FluentSql.Proofs.NumberedNames
import FluentSql.Proofs.LogLines
