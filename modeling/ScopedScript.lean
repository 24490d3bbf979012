import ScopedScript.Main
import ScopedScript.Scope.ByName
import ScopedScript.Proofs.Grammar.ExpressionRules
import ScopedScript.Proofs.Grammar.Ladder
import ScopedScript.Proofs.Grammar.Passage
import ScopedScript.Proofs.Grammar.ProgramRules
import ScopedScript.Proofs.Grammar.ExpressionSoundness
import ScopedScript.Proofs.Grammar.ProgramSoundness
import ScopedScript.Proofs.Grammar.ExpressionCompleteness
import ScopedScript.Proofs.Grammar.ProgramCompleteness
import ScopedScript.Proofs.Scoping.CellEvaluator
import ScopedScript.Proofs.Scoping.CellSession
import ScopedScript.Proofs.Scoping.Bound
import ScopedScript.Proofs.Scoping.Resolved
import ScopedScript.Proofs.Machine.Runs
import ScopedScript.Proofs.Scoping.Access
import ScopedScript.Proofs.Scoping.Correspondence
import ScopedScript.Proofs.Scoping.Recording
import ScopedScript.Proofs.Scoping.Worlds
import ScopedScript.Proofs.Scoping.AlikeValues
import ScopedScript.Proofs.Scoping.Simulation
import ScopedScript.Proofs.Scoping.Variables
import ScopedScript.Proofs.Scoping.Arrivals
import ScopedScript.Proofs.Scoping.ExpressionSimulation
import ScopedScript.Proofs.Scoping.CallSimulation
import ScopedScript.Proofs.Scoping.StatementSimulation
import ScopedScript.Proofs.Machine.SessionRuns
import ScopedScript.Proofs.Scoping.Sessions
import ScopedScript.Proofs.Scoping.StaticScoping
import ScopedScript.Proofs.Scoping.AccessSafety
import ScopedScript.Proofs.Scoping.NearestBindings
import ScopedScript.Proofs.Lexing.Coverage
import ScopedScript.Proofs.Sessions.Lives
import ScopedScript.Proofs.Sessions.Rejections
import ScopedScript.Proofs.Sessions.Joined
import ScopedScript.Proofs.Lexing.LongestMatch
import ScopedScript.Proofs.Lexing.Continuations
import ScopedScript.Proofs.Lexing.Layout
import ScopedScript.Proofs.Lexing.StrayCharacters
import ScopedScript.Proofs.Sessions.Restored
import ScopedScript.Proofs.Scoping.ScopeTrees
import ScopedScript.Proofs.Machine.Orderly
import ScopedScript.Proofs.Sessions.RootedScopes
import ScopedScript.Proofs.Machine.InOrder
import ScopedScript.Proofs.Machine.ReturnPaths
import ScopedScript.Proofs.Sessions.Returning
import ScopedScript.Proofs.Machine.ActiveCalls
import ScopedScript.Proofs.Machine.Surroundings
import ScopedScript.Proofs.Machine.Unwinding
import ScopedScript.Proofs.Machine.CallLimit
import ScopedScript.Proofs.Sessions.Elsewhere
import ScopedScript.Proofs.Sessions.CallDepth
import ScopedScript.Proofs.Machine.PrintStatements
import ScopedScript.Proofs.Machine.SinkRoom
import ScopedScript.Proofs.Sessions.FullSinks
import ScopedScript.Proofs.Termination.LoopFree
import ScopedScript.Proofs.Termination.Evaluation
import ScopedScript.Proofs.Sessions.LoopFreeUnits
import ScopedScript.Proofs.Machine.GlobalNames
import ScopedScript.Proofs.Sessions.ProgramNames
import ScopedScript.Proofs.Sessions.GlobalScope
import ScopedScript.Proofs.Desugaring.ForLoops
import ScopedScript.Proofs.Desugaring.Acceptance
import ScopedScript.Proofs.Scoping.CellOutput
import ScopedScript.Proofs.Desugaring.LoopRuns
import ScopedScript.Proofs.Desugaring.Variants
import ScopedScript.Proofs.Desugaring.Following
import ScopedScript.Proofs.Desugaring.Simulation
import ScopedScript.Proofs.Sessions.LoopForms
import ScopedScript.Proofs.Sites.Positions
import ScopedScript.Proofs.Sites.Visiting
import ScopedScript.Proofs.Sites.Faults
import ScopedScript.Proofs.Sites.Distances
import ScopedScript.Proofs.Recognition.Sentences
import ScopedScript.Proofs.Recognition.Lookahead
import ScopedScript.Proofs.Recognition.ExpressionPrefixes
import ScopedScript.Proofs.Recognition.ProgramPrefixes
import ScopedScript.Proofs.Recognition.Beginnings
import ScopedScript.Proofs.Recognition.ExpressionAcceptance
import ScopedScript.Proofs.Recognition.ProgramAcceptance
import ScopedScript.Proofs.Recognition.EarliestErrors
import ScopedScript.Proofs.Renaming.Pairings
import ScopedScript.Proofs.Renaming.Acceptance
import ScopedScript.Proofs.Renaming.Counterparts
import ScopedScript.Proofs.Renaming.ParallelRuns
import ScopedScript.Proofs.Renaming.Simulation
import ScopedScript.Proofs.Renaming.Trees
import ScopedScript.Proofs.Renaming.Uses
import ScopedScript.Proofs.Sessions.LocalNames
import ScopedScript.Proofs.Number.Order
import ScopedScript.Proofs.Number.Signs
import ScopedScript.Proofs.Number.Intervals
import ScopedScript.Proofs.Number.Digits
import ScopedScript.Proofs.Number.WrittenForms
import ScopedScript.Proofs.Lexing.WrittenNumbers
import ScopedScript.Proofs.Sessions.PrintedNumbers
import ScopedScript.Proofs.Listing.JsonTexts
import ScopedScript.Proofs.Listing.JsonReader
import ScopedScript.Proofs.Listing.JsonForms
import ScopedScript.Proofs.Listing.JsonRows
import ScopedScript.Proofs.Listing.JsonListings
import ScopedScript.Proofs.Descent.Cursor
import ScopedScript.Proofs.Descent.Procedures
import ScopedScript.Proofs.Descent.Meets
import ScopedScript.Proofs.Descent.Levels
import ScopedScript.Proofs.Descent.Lists
import ScopedScript.Proofs.Descent.Expectations
import ScopedScript.Proofs.Descent.Expressions
import ScopedScript.Proofs.Descent.Statements
import ScopedScript.Proofs.Descent.Progress
import ScopedScript.Proofs.Sessions.DrivenRuns
