import Plughost.Lib.Runs
import Plughost.Lib.Pipeline
import Plughost.Lib.BoundedQueue
import Plughost.Ipc.ShmRing
import Plughost.Ipc.ShmMapping
import Plughost.Ipc.ShmCreation
import Plughost.Ipc.ShmOwnership
import Plughost.Ipc.RingProtocol
import Plughost.Ipc.ControlPipe
import Plughost.Ipc.SendStream
import Plughost.Ipc.ControlReader
import Plughost.Ipc.FrameRoundTrip
import Plughost.Ipc.Chunking
import Plughost.Ipc.FrameBoundaries
import Plughost.Vst3.PluginChain
import Plughost.Vst3.ChannelBuffers
import Plughost.Vst3.SlotTable
import Plughost.Audio.Passthrough
import Plughost.Audio.Relay
import Plughost.Audio.Decisions
import Plughost.Audio.HeaderSafety
import Plughost.Audio.Draining
import Plughost.Main.ParamChanged
import Plughost.Main.ResultDecoding
import Plughost.Main.RequestParsing
import Plughost.Main.Answers
import Plughost.Vst3.SlotLifetime
import Plughost.Vst3.PendingChanges
import Plughost.Vst3.EditCoalescing
import Plughost.Vst3.CallbackRouting
import Plughost.Vst3.RequestQueue
import Plughost.Vst3.EditorProtocol
import Plughost.Vst3.EditorLiveness
import Plughost.Vst3.EditorReplies
import Plughost.Vst3.EditorAgreement
import Plughost.Vst3.ReplyCells
import Plughost.Main.Shutdown
import Plughost.Lib.Monitors
import Plughost.Vst3.BringUp
import Plughost.Clap.Loading
import Plughost.Clap.Host
import Plughost.Clap.InstanceEvents
import Plughost.Clap.TimerFiring
import Plughost.Clap.GuiLifecycle
import Plughost.Clap.FlushOverlap
import Plughost.Lib.Ieee
import Plughost.Vst3.ParamAccess
import Plughost.Vst3.ParamContract
import Plughost.Main.NormalisedValues
import Plughost.Lib.Assoc
import Plughost.Lib.Simulation
import Plughost.Lib.Semaphore
import Plughost.Vst3.RunLoopFds
import Plughost.Lib.TimerService
import Plughost.Vst3.RunLoopTimers
import Plughost.Vst3.SelectSets
import Plughost.Vst2.EditorCalls
import Plughost.Vst3.GuiThreadLife
import Plughost.Ipc.Wakeup
import Plughost.Audio.InputWait
import Plughost.Vst3.EditorGeometry
import Plughost.Vst3.Rack
import Plughost.Main.Messages
import Plughost.Lib.Scripts
import Plughost.Main.Handlers
import Plughost.Main.RackService
import Plughost.Main.RemoteCalls
import Plughost.Main.EditsToHost
import Plughost.Vst3.StereoPath
