import SdkCore.Machines.Replay
import SdkCore.Stream.Slots
import SdkCore.Stream.Answering
import SdkCore.LocalActivities.Shutdown
import SdkCore.LocalActivities.Resolutions
import SdkCore.Machines.Cancelling
import SdkCore.Machines.Fsm
import SdkCore.Machines.Lookahead
import SdkCore.Machines.PatchReplay
import SdkCore.Machines.Preresolutions
import SdkCore.Machines.UpdateProtocol
import SdkCore.Activities.TaskStream
import SdkCore.Converters.FailureConverter
import SdkCore.Storage.ExternalStorage
import SdkCore.Workflow.Answers
import SdkCore.Workflow.Driving
import SdkCore.Workflow.Waking
import SdkCore.Run.Forcing
import SdkCore.Client.Registry
import SdkCore.Client.Replacing
import SdkCore.Nexus.CommandLoop
import SdkCore.LocalActivities.Waiting
import SdkCore.Run.Buffering
import SdkCore.Slots.PermitDealer
import SdkCore.Activities.Throttling
import SdkCore.Stream.Reconciling
import SdkCore.Activities.NotFound
import SdkCore.Client.Retry
import SdkCore.Converters.ClearText
import SdkCore.Lib.Largest
import SdkCore.Machines.WftEvents
import SdkCore.Run.Preprocessing
import SdkCore.Client.Pages
import SdkCore.Workflow.Cancellation
import SdkCore.Pollers.Sticky
