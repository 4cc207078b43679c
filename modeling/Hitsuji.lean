import Hitsuji.Client.DirectoryStream
import Hitsuji.Client.Ownership
import Hitsuji.Client.ItemStreams
import Hitsuji.Client.Login
import Hitsuji.Client.ServiceName
import Hitsuji.Provider.Audience
import Hitsuji.Provider.Custody
import Hitsuji.Provider.Lifetime
import Hitsuji.Provider.Orphans
import Hitsuji.Provider.Pending
import Hitsuji.Provider.Polled
import Hitsuji.Provider.Keepalive
import Hitsuji.Provider.Service
import Hitsuji.Provider.Solicited
import Hitsuji.Pipeline.Answers
import Hitsuji.Pipeline.Assertions
import Hitsuji.Pipeline.Exchange
import Hitsuji.Pipeline.Format
import Hitsuji.Pipeline.Joining
import Hitsuji.Pipeline.MessageSlots
import Hitsuji.Pipeline.Queues
import Hitsuji.Pipeline.Workers
import Hitsuji.Pipeline.Notification
import Hitsuji.Pipeline.Shutdown
import Hitsuji.Pipeline.Startup
import Hitsuji.Sbe.ArgOrder
import Hitsuji.Vta.Published
import Hitsuji.Worker.Affinity
import Hitsuji.Worker.ItemName
import Hitsuji.Worker.LockDigits
import Hitsuji.Worker.QuerySegments
import Hitsuji.Worker.RollupPeriod
import Hitsuji.Worker.Version
