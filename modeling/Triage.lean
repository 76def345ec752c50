import Triage.Field.Suggestion
import Triage.Main
import Triage.Proofs.Alternatives
import Triage.Proofs.Composition
import Triage.Proofs.DefaultSort
import Triage.Proofs.ErrorPlaces
import Triage.Proofs.Excerpts
import Triage.Proofs.ImpliedAnd
import Triage.Proofs.Insertion
import Triage.Proofs.JsonRows
import Triage.Proofs.KeyByKey
import Triage.Proofs.LetterCase.Queries
import Triage.Proofs.Lexing.Coverage
import Triage.Proofs.Lexing.Steps
import Triage.Proofs.LocalDates
import Triage.Proofs.Positions
import Triage.Proofs.Ranking
import Triage.Proofs.RecordLines
import Triage.Proofs.Refilter
import Triage.Proofs.Sameness
import Triage.Proofs.Seconds
import Triage.Proofs.SortedRanges
import Triage.Proofs.Spacing
import Triage.Proofs.StatusNames
import Triage.Proofs.Stored
import Triage.Proofs.TableLines
import Triage.Proofs.Vantage
import Triage.Proofs.Walking.Calls
