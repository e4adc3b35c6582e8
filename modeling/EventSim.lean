import EventSim.Main
import EventSim.Proofs.KeyOrder
import EventSim.Proofs.Scheduler.HeapOrder
import EventSim.Proofs.Scheduler.Collection
import EventSim.Proofs.Kernel.Deeds
import EventSim.Proofs.Kernel.Consistent
import EventSim.Proofs.World.Happenings
import EventSim.Proofs.World.Sound
import EventSim.Proofs.Machine.Programs
import EventSim.Proofs.Machine.Carries
import EventSim.Proofs.Machine.Bookkeeping
import EventSim.Proofs.Facade.Moves
import EventSim.Proofs.Facade.Printers
import EventSim.Proofs.Facade.Teardown
import EventSim.Proofs.Backends.Independence
import EventSim.Proofs.Scheduler.Priority
import EventSim.Proofs.Sessions.Cancellation
import EventSim.Proofs.Sessions.Construction
import EventSim.Proofs.Sessions.Interruption
import EventSim.Proofs.History.Causality
import EventSim.Proofs.History.Handles
import EventSim.Proofs.History.Accounts
import EventSim.Proofs.History.Context
import EventSim.Proofs.Machine.Calls
import EventSim.Proofs.World.Settings
import EventSim.Proofs.Machine.Settings
import EventSim.Proofs.Machine.Traces
import EventSim.Proofs.History.Traces
import EventSim.Proofs.Scenario.Calls
import EventSim.Proofs.World.Growth
import EventSim.Proofs.Machine.Seclusion
import EventSim.Proofs.Scenario.Isolation
import EventSim.Proofs.Facade.Serving
import EventSim.Proofs.Scenario.Bookings
import EventSim.Proofs.Scenario.Passing
import EventSim.Proofs.Restart.Forgetting
import EventSim.Proofs.Facade.Configuration
import EventSim.Proofs.Json.Tokens
import EventSim.Proofs.Json.Decoding
import EventSim.Proofs.Json.Reports
import EventSim.Proofs.Scenario.Staging
import EventSim.Proofs.Scenario.Batches
import EventSim.Proofs.CommandLine.Summaries
import EventSim.Proofs.Refusals.Invisibility
import EventSim.Proofs.Facade.Assignments
import EventSim.Proofs.Facade.SavedConfigs
import EventSim.Proofs.History.Delays
import EventSim.Proofs.History.Destruction
import EventSim.Proofs.Facade.Stamps
import EventSim.Proofs.Facade.Lifecycle
import EventSim.Proofs.Machine.Ends
