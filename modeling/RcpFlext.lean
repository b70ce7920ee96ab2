import RcpFlext.Library.Cells
import RcpFlext.Library.Decimal
import RcpFlext.Library.BigEndian
import RcpFlext.Library.Framing
import RcpFlext.Library.Significand
import RcpFlext.Library.Slip
import RcpFlext.Atoms
import RcpFlext.BytePorts
import RcpFlext.PatchCords
import RcpFlext.Format
import RcpFlext.FormatPackets
import RcpFlext.SizePrefix
import RcpFlext.SlipRoundTrip
import RcpFlext.FormatOutput
import RcpFlext.FormatFaithful
import RcpFlext.Library.Runs
import RcpFlext.RabbitHole
import RcpFlext.TunnelKept
import RcpFlext.TunnelOff
import RcpFlext.TunnelReported
import RcpFlext.Library.Forest
import RcpFlext.ParameterTree
import RcpFlext.ListManager
import RcpFlext.PathLookup
import RcpFlext.Input
import RcpFlext.InputDriven
import RcpFlext.InputNamed
import RcpFlext.Expose
import RcpFlext.SiblingLabels
import RcpFlext.ExposeWhole
import RcpFlext.ExposeAddress
import RcpFlext.ClientRuns
import RcpFlext.OrphanedConnections
import RcpFlext.ClientStatus
import RcpFlext.ReconnectLoop
import RcpFlext.ServerSend
import RcpFlext.ServerStop
import RcpFlext.ServerDestruction
import RcpFlext.Library.Rosters
import RcpFlext.ServerRoster
import RcpFlext.ClientCount
import RcpFlext.Indexing
import RcpFlext.ArgumentBounds
import RcpFlext.NumericIds
import RcpFlext.Reports
import RcpFlext.OneId
import RcpFlext.ReportedPaths
import RcpFlext.InfoListing
import RcpFlext.CertificateNames
import RcpFlext.Limits
import RcpFlext.ExposeOptions
import RcpFlext.LimitsAtExpose
import RcpFlext.LabelWrites
import RcpFlext.Chunking
import RcpFlext.EventReplay
import RcpFlext.PacketStream
import RcpFlext.WsServer
import RcpFlext.BindAttempts
import RcpFlext.WorkerProgress
import RcpFlext.ClientTraffic
import RcpFlext.Replies
import RcpFlext.TunnelTraffic
import RcpFlext.Contents
import RcpFlext.FailureReports
import RcpFlext.ServerDirectory
import RcpFlext.DirectoryMessages
import RcpFlext.DirectoryExpose
import RcpFlext.DirectoryRuns
import RcpFlext.BookServer
import RcpFlext.DirectoryReplies
import RcpFlext.FormatStream
import RcpFlext.PacketDelivery
import RcpFlext.Library.Cursors
import RcpFlext.ReportBuffers
import RcpFlext.Registrations
import RcpFlext.RawLink
import RcpFlext.ServerOutlets
import RcpFlext.ClientManager
import RcpFlext.SpppStream
import RcpFlext.ClientDestruction
