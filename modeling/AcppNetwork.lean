import AcppNetwork.SslWrite
import AcppNetwork.StreamOnLinux
import AcppNetwork.SslCiphertext
import AcppNetwork.SslFeed
import AcppNetwork.SslHandshake
import AcppNetwork.SslShutdown
import AcppNetwork.LinuxLoop
import AcppNetwork.LinuxDispatch
import AcppNetwork.LinuxConnect
import AcppNetwork.LinuxEndOfStream
import AcppNetwork.LinuxExec
import AcppNetwork.LinuxExecOrder
import AcppNetwork.LinuxStop
import AcppNetwork.Custody
import AcppNetwork.LinuxOwnership
import AcppNetwork.LinuxShortWrite
import AcppNetwork.LinuxTimer
import AcppNetwork.LinuxTimerClose
import AcppNetwork.LinuxTimerCancel
import AcppNetwork.WindowsLoop
import AcppNetwork.WindowsSteps
import AcppNetwork.WindowsWriteSlot
import AcppNetwork.WindowsLifetime
import AcppNetwork.LinuxSoWrite
import AcppNetwork.MacosSoWrite
import AcppNetwork.SyncSocket
import AcppNetwork.Addresses
import AcppNetwork.SslStatus
import AcppNetwork.SslClosed
import AcppNetwork.WindowsAccept
import AcppNetwork.MacosLoop
import AcppNetwork.MacosSteps
import AcppNetwork.CloseInCallback
import AcppNetwork.OpenDescriptors
import AcppNetwork.MacosAccept
import AcppNetwork.ResolveHost
import AcppNetwork.Layers
import AcppNetwork.SslFeeding
import AcppNetwork.LinuxExecCounter
import AcppNetwork.LinuxExecThrow
import AcppNetwork.WindowsSends
import AcppNetwork.UnassignedCallbacks
import AcppNetwork.BackPointers
import AcppNetwork.LinuxParents
import AcppNetwork.StreamConnections
import AcppNetwork.EndlessRuns
import AcppNetwork.LinuxTimerExpiry
import AcppNetwork.LinuxTimerFires
import AcppNetwork.MacosExec
import AcppNetwork.MacosExecOrder
import AcppNetwork.MacosTimers
import AcppNetwork.ObjectNetwork
import AcppNetwork.SecureHandshake
import AcppNetwork.WindowsExec
import AcppNetwork.WindowsExecOrder
import AcppNetwork.MacosParents
import AcppNetwork.WindowsReceives
import AcppNetwork.SecureConnection
import AcppNetwork.MacosWakeUps
