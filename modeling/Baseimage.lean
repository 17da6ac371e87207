import Baseimage.LogMonitor.StatusFile
import Baseimage.LogMonitor.Rotation
import Baseimage.LogMonitor.LongLines
import Baseimage.LogMonitor.FailedDelivery
import Baseimage.LogMonitor.InvokeExec
import Baseimage.LogMonitor.Routing
import Baseimage.LogMonitor.Loaded
import Baseimage.LogMonitor.Followed
import Baseimage.Cinit.ReadLoop
import Baseimage.Cinit.Unsigned
import Baseimage.Cinit.Splitting
import Baseimage.Cinit.Logger
import Baseimage.Cinit.StartOrder
import Baseimage.Cinit.Dependencies
import Baseimage.Cinit.ExitStatus
import Baseimage.Cinit.Shutdown
import Baseimage.Cinit.Gracetime
import Baseimage.Cinit.ExecutableValues
import Baseimage.Cinit.Signals
import Baseimage.Cinit.CommandChannel
import Baseimage.Cinit.Malformed
import Baseimage.Cinit.Reaping
import Baseimage.Cinit.Ready
import Baseimage.Cinit.AllOrNothing
import Baseimage.Cinit.LoadedTable
import Baseimage.Cinit.SupplementaryGroups
import Baseimage.Cinit.ServiceTable
import Baseimage.Cinit.CommandOutput
import Baseimage.Cinit.ServiceEnvironment
import Baseimage.Cinit.EnvironmentGrammar
import Baseimage.Cinit.Ledger
import Baseimage.Cinit.Runnable
import Baseimage.Cinit.RestartRequests
import Baseimage.Cinit.IntervalSpacing
import Baseimage.Cinit.RestartSpacing
import Baseimage.Cinit.IdleShutdown
import Baseimage.Cinit.Processes
import Baseimage.Cinit.StartInOrder
import Baseimage.Cinit.Exceptions
import Baseimage.Cinit.Child
import Baseimage.Startup.InternalFile
import Baseimage.Gpasswd.Concurrent
import Baseimage.Gpasswd.Sequences
import Baseimage.Accounts.Supplementary
import Baseimage.Accounts.BooleanFiles
import Baseimage.Accounts.NameGrammar
import Baseimage.Accounts.AtomicWrite
import Baseimage.Helpers.SedPatch
import Baseimage.Helpers.Packages
import Baseimage.Cinit.Arguments
import Baseimage.Startup.HandOver
