import Edps.EdpsUtils.EdpsTimer
import Edps.Edpsrun.Activate
import Edps.Fdis.Queues
import Edps.Fdis.Reader
import Edps.Leis.Forwarding
import Edps.Leis.ReConnects
import Edps.Leis.SisInfo
import Edps.Leis.Statements
import Edps.Lib.Decimal
import Edps.Lib.Runs
import Edps.Link.Acquisition
import Edps.Link.GroupRows
import Edps.Link.HistoryQueue
import Edps.Link.ReadResults
import Edps.Link.WriteRequests
import Edps.OpcS7.Bounds
import Edps.OpcS7.ClientRuns
import Edps.OpcS7.FailedReads
import Edps.OpcS7.Freshness
import Edps.OpcS7.GroupNames
import Edps.OpcS7.ItemResults
import Edps.OpcS7.Library
import Edps.OpcS7.ObjectList
import Edps.OpcS7.References
import Edps.OpcS7.Registered
import Edps.OpcS7.Rendered
import Edps.OpcS7.SingleWrites
import Edps.OpcS7.Untyped
import Edps.OpcS7.WriteRouting
import Edps.SapiS7.Codec
import Edps.SapiS7.Connection
import Edps.SapiS7.OrderNumbers
import Edps.SapiS7.Sessions
import Edps.Sis.Counter
import Edps.Sis.Dispatch
import Edps.Sis.Failures
import Edps.Sis.Forward
import Edps.Sis.History
import Edps.Sis.Operands
import Edps.Sis.Processing
import Edps.Sis.Programs
import Edps.Sis.Published
import Edps.Sis.Readings
import Edps.Sis.Replies
import Edps.Sis.RunIDs
import Edps.Sis.Scheduler
import Edps.Sis.Tables
