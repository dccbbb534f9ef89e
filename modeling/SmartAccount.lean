import SmartAccount.Foundation.IterableMap
import SmartAccount.Foundation.Pool
import SmartAccount.Foundation.Text
import SmartAccount.Foundation.Splicing
import SmartAccount.Foundation.History
import SmartAccount.Foundation.Turns
import SmartAccount.Foundation.Ranks
import SmartAccount.Foundation.Borsh
import SmartAccount.Types
import SmartAccount.State
import SmartAccount.Events
import SmartAccount.Machine
import SmartAccount.Validation
import SmartAccount.Sequencer
import SmartAccount.Callbacks
import SmartAccount.Automation
import SmartAccount.Keys
import SmartAccount.Runtime
import SmartAccount.Namespaces
import SmartAccount.Writes
import SmartAccount.Transactions
import SmartAccount.WellFormed
import SmartAccount.Ledger
import SmartAccount.StaleYields
import SmartAccount.Lane
import SmartAccount.Phases
import SmartAccount.Tidy
import SmartAccount.Releases
import SmartAccount.Underway
import SmartAccount.Projection
import SmartAccount.Refinement
import SmartAccount.Simulation
import SmartAccount.ReleaseRuns
import SmartAccount.OrderedRelease
import SmartAccount.Completion
import SmartAccount.KeySeparation
import SmartAccount.Authorizer
import SmartAccount.Gas
import SmartAccount.Methods
import SmartAccount.RunNamespaces
import SmartAccount.Budgets
import SmartAccount.TerminalRuns
import SmartAccount.KeyRing
import SmartAccount.KeyWorld
import SmartAccount.KeyReceipts
import SmartAccount.GrantCalls
import SmartAccount.GrantedKeys
import SmartAccount.Delegation
import SmartAccount.SequencerAgreement
import SmartAccount.Failures
import SmartAccount.SavedResults
import SmartAccount.ValueThreading
import SmartAccount.Wedges
import SmartAccount.Gates
import SmartAccount.Templating
import SmartAccount.Hygiene
import SmartAccount.StoredAutomation
import SmartAccount.Firing
import SmartAccount.OpenRegistration
import SmartAccount.Fidelity
import SmartAccount.CompatAdapter
import SmartAccount.CallerWrites
import SmartAccount.CallerViews
import SmartAccount.CallerMirrors
import SmartAccount.CallerIsolation
import SmartAccount.Migration
import SmartAccount.DelegatedFires
import SmartAccount.RunStory
import SmartAccount.RunStanding
import SmartAccount.RunSoundness
import SmartAccount.Foundation.Decimal
import SmartAccount.Numbers
import SmartAccount.Nep413
import SmartAccount.StartEvents
import SmartAccount.StagedRegistration
import SmartAccount.TraceTrees
import SmartAccount.Foundation.SwapOrder
import SmartAccount.Fates
import SmartAccount.ListingOrder
import SmartAccount.Foundation.Json
import SmartAccount.Telemetry
import SmartAccount.OutcomeBanner
import SmartAccount.RunSummaries
import SmartAccount.LogBudget
import SmartAccount.Foundation.Checked
import SmartAccount.StepGas
import SmartAccount.Foundation.Separators
import SmartAccount.Thousands
import SmartAccount.TraceFlattening
import SmartAccount.Foundation.Matching
import SmartAccount.Correlation
import SmartAccount.Foundation.Replay
import SmartAccount.Replica
import SmartAccount.Foundation.Register
import SmartAccount.WildRouter
import SmartAccount.DemoAdapter
import SmartAccount.Polling
import SmartAccount.PollingOutcome
import SmartAccount.Spending
import SmartAccount.Foundation.JsonGrammar
import SmartAccount.Foundation.JsonReader
import SmartAccount.EventLines
import SmartAccount.SpendingLimits
import SmartAccount.Foundation.Release
import SmartAccount.Recorder
import SmartAccount.RecorderEffects
import SmartAccount.RecorderReceipts
import SmartAccount.RecorderRuns
import SmartAccount.Foundation.Potential
import SmartAccount.Settling
import SmartAccount.WrapFlows
import SmartAccount.Foundation.Pager
import SmartAccount.Paging
