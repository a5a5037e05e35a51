import Spgw.Ledger.Rejected
import Spgw.Progress.Live
import Spgw.Rar.Effect
import Spgw.Codec.Aligned
import Spgw.Trans.Listed
import Spgw.Trans.Keys
import Spgw.Trans.Handlers
import Spgw.Bearer.Replaced
import Spgw.Proc.Detach
import Spgw.Proc.Started
import Spgw.Sx.ModifyBearer
import Spgw.Sx.CreateBearer
import Spgw.Gx.RarMessage
import Spgw.Gx.Stream
import Spgw.Sx.LocalFteid
import Spgw.Sx.Octets
import Spgw.S1u.Distinct
import Spgw.Bearer.RuleRuns
import Spgw.Gauge.Active
import Spgw.Upf.Addresses
import Spgw.Upf.Heartbeat
import Spgw.Upf.Pending
import Spgw.Role
import Spgw.Codec.GtpRoundTrip
import Spgw.Config.Selection
import Spgw.Gx.CalledStation
import Spgw.Gx.RequestNumber
import Spgw.Proc.Messages
import Spgw.Trans.Retransmit
import Spgw.Upf.Resolver
import Spgw.PoolHosts
import Spgw.Peer
import Spgw.Gx.SessionId
import Spgw.Codec.VolumeMeasurement
import Spgw.Codec.PcoResponse
import Spgw.Bearer.CreateInfo
import Spgw.Session.Rejection
import Spgw.Sx.Identifiers
import Spgw.Codec.CopyBits
import Spgw.Trans.DelayedFree
