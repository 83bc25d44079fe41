import CascadeLens.Main
import CascadeLens.Proofs.CascadeCollapse
import CascadeLens.Proofs.CacheEntries
import CascadeLens.Proofs.CacheHistory
import CascadeLens.Proofs.SessionTransparency
import CascadeLens.Proofs.SheetWriting
import CascadeLens.Proofs.SheetSteps
import CascadeLens.Proofs.SheetFindings
import CascadeLens.Proofs.SelectorLexing
import CascadeLens.Proofs.SelectorReading
import CascadeLens.Proofs.NestReading
import CascadeLens.Proofs.ResolverMemo
import CascadeLens.Proofs.NestingProduct
import CascadeLens.Proofs.CascadeArrival
import CascadeLens.Proofs.SheetForest
import CascadeLens.Proofs.SheetStack
import CascadeLens.Proofs.SheetRun
import CascadeLens.Proofs.SheetSpans
import CascadeLens.Proofs.SheetFaults
import CascadeLens.Proofs.SelectorEscapes
import CascadeLens.Proofs.SelectorLexemes
import CascadeLens.Proofs.SelectorSpelling
import CascadeLens.Proofs.SelectorCuts
import CascadeLens.Proofs.SelectorBranches
import CascadeLens.Proofs.FeatureSearch
import CascadeLens.Proofs.FileMatches
import CascadeLens.Proofs.GhostSoundness
import CascadeLens.Proofs.EscapedNames
import CascadeLens.Proofs.EscapedClass
import CascadeLens.Proofs.DeclarationQuotes
import CascadeLens.Proofs.DeclarationBodies
import CascadeLens.Proofs.NamedSelectors
import CascadeLens.Proofs.NameSearch
import CascadeLens.Proofs.NamesFound
import CascadeLens.Proofs.CachedReadings
import CascadeLens.Proofs.WorkerInterleaving
import CascadeLens.Proofs.CachedReports
import CascadeLens.Proofs.WorkerReports
import CascadeLens.Proofs.SheetSimulation
import CascadeLens.Proofs.SheetRelocation
import CascadeLens.Proofs.SheetSeam
import CascadeLens.Proofs.SheetConcatenation
import CascadeLens.Proofs.SelectorSeams
import CascadeLens.Proofs.SelectorRereading
import CascadeLens.Proofs.SelectorComposition
import CascadeLens.Proofs.CascadeDecisions
import CascadeLens.Proofs.FeatureSpans
import CascadeLens.Proofs.BranchMatching
import CascadeLens.Proofs.SheetPlaces
import CascadeLens.Proofs.CommentSpaces
import CascadeLens.Proofs.PassedBlocks
import CascadeLens.Proofs.PassedSteps
import CascadeLens.Proofs.BlockEnds
import CascadeLens.Proofs.ShadowBranches
import CascadeLens.Proofs.DescendantNesting
import CascadeLens.Proofs.SheetItems
import CascadeLens.Proofs.SpacedText
import CascadeLens.Proofs.SpacedTokens
import CascadeLens.Proofs.SelectorSweeps
import CascadeLens.Proofs.SelectorPreludes
import CascadeLens.Proofs.BraceBalance
import CascadeLens.Proofs.EscapedPrefixes
import CascadeLens.Proofs.EscapedCompounds
import CascadeLens.Proofs.ResolvedSelectors
import CascadeLens.Proofs.DeclarationSpelling
import CascadeLens.Proofs.SqueezedText
import CascadeLens.Proofs.SheetAiring
import CascadeLens.Proofs.SqueezedSheets
import CascadeLens.Proofs.AiredSheets
import CascadeLens.Proofs.LaidOutSheets
import CascadeLens.Proofs.PathSpelling
import CascadeLens.Proofs.LinkedStylesheets
import CascadeLens.Proofs.TopLevelPieces
import CascadeLens.Proofs.LoadOrder
import CascadeLens.Proofs.VariableOrder
import CascadeLens.Proofs.MarkupStretches
import CascadeLens.Proofs.TagStretches
import CascadeLens.Proofs.MarkupReading
import CascadeLens.Proofs.ReaderPlaces
import CascadeLens.Proofs.LoweredText
import CascadeLens.Proofs.PageTags
import CascadeLens.Proofs.LineTargets
import CascadeLens.Proofs.BracketClosing
import CascadeLens.Proofs.SpelledNames
