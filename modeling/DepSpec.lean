import DepSpec.Cache
import DepSpec.Fingerprint
import DepSpec.GuardOrder
import DepSpec.JsonInput
import DepSpec.Meaning
import DepSpec.Occurrences
import DepSpec.Revision
import DepSpec.Session
import DepSpec.WellFormed
import DepSpec.Proofs.Grammar
import DepSpec.Proofs.Reading
import DepSpec.Proofs.FlatForm
import DepSpec.Proofs.RoundTrip
import DepSpec.Proofs.EvaluatedMeaning
import DepSpec.Proofs.EvaluatedTerms
import DepSpec.Proofs.GuardedTerms
import DepSpec.Proofs.EvaluatedText
import DepSpec.Proofs.Completion
import DepSpec.Proofs.WellFormedness
import DepSpec.Proofs.FlagDependence
import DepSpec.Proofs.FlatViews
import DepSpec.Proofs.FlatEvaluation
import DepSpec.CacheRun
import DepSpec.Proofs.CacheHistory
import DepSpec.Proofs.CanonicalText
import DepSpec.Proofs.ForbiddenOperators
import DepSpec.Proofs.PermittedText
import DepSpec.Proofs.Revisions
import DepSpec.Proofs.RestrictedEvaluation
import DepSpec.Proofs.UniqueNormalForm
import DepSpec.Proofs.FaultAttribution
import DepSpec.Parentheses
import DepSpec.Proofs.WrittenWords
import DepSpec.Proofs.Concatenation
import DepSpec.Proofs.TermReaders
import DepSpec.Places
import DepSpec.Proofs.IndexedPlaces
import DepSpec.Proofs.Irredundance
import DepSpec.Proofs.JoinedEvaluation
import DepSpec.Context
import DepSpec.Proofs.ConditionalLaws
import DepSpec.Proofs.MonotoneEvaluation
import DepSpec.Proofs.KnownFlags
import DepSpec.Lockstep
import DepSpec.Proofs.GuardMeaning
import DepSpec.Proofs.GuardTokens
import DepSpec.Proofs.GuardSorting
import DepSpec.Copying
import DepSpec.Storage
import DepSpec.Walk
import DepSpec.Proofs.StructuralEquality
import DepSpec.Proofs.WalkedItems
import DepSpec.Proofs.Fingerprints
import DepSpec.Proofs.JsonSettings
