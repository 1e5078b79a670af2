import Placeholder.Main
import Placeholder.Proofs.ArgumentPaths
import Placeholder.Proofs.ArithmeticGrammar
import Placeholder.Proofs.BracketedPaths
import Placeholder.Proofs.CacheHistories
import Placeholder.Proofs.CacheRuns
import Placeholder.Proofs.CallArguments
import Placeholder.Proofs.ClosedFormatters
import Placeholder.Proofs.Coalescing
import Placeholder.Proofs.CreatedExpressions
import Placeholder.Proofs.CronRuns
import Placeholder.Proofs.DailyRanges
import Placeholder.Proofs.DatePatterns
import Placeholder.Proofs.DateTimeTexts
import Placeholder.Proofs.DaysOfMonth
import Placeholder.Proofs.DeclaredPlaceholders
import Placeholder.Proofs.DottedNames
import Placeholder.Proofs.DueExpressions
import Placeholder.Proofs.EncodedVariables
import Placeholder.Proofs.FieldPaths
import Placeholder.Proofs.FilteredRuns
import Placeholder.Proofs.GroupedAmounts
import Placeholder.Proofs.IndicatorPaths
import Placeholder.Proofs.InlineConditions
import Placeholder.Proofs.LocalReferences
import Placeholder.Proofs.LooseEquality
import Placeholder.Proofs.MissingEvaluators
import Placeholder.Proofs.MonthlyWeekdays
import Placeholder.Proofs.NumeralGrammar
import Placeholder.Proofs.RangeConditions
import Placeholder.Proofs.RefusedClasses
import Placeholder.Proofs.ResolverOrder
import Placeholder.Proofs.SlugWords
import Placeholder.Proofs.StarredWalks
import Placeholder.Proofs.StrayBraces
import Placeholder.Proofs.StrictTranslation
import Placeholder.Proofs.TextCuts
import Placeholder.Proofs.Uncovered
import Placeholder.Proofs.WeekdayLists
import Placeholder.Proofs.WeekdayOccurrences
import Placeholder.Proofs.WrittenArithmetic
import Placeholder.Proofs.WrittenClause
import Placeholder.Proofs.WrittenDates
import Placeholder.Proofs.WrittenTree
import Placeholder.Security
import Placeholder.Token.Collection
