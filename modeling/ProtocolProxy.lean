import ProtocolProxy.EntryPoints
import ProtocolProxy.HttpReplies
import ProtocolProxy.Machine
import ProtocolProxy.PhpDial
import ProtocolProxy.Proofs.BlockList
import ProtocolProxy.Proofs.Connections
import ProtocolProxy.Proofs.Dns
import ProtocolProxy.Proofs.Endpoint
import ProtocolProxy.Proofs.EntryPoints
import ProtocolProxy.Proofs.Handler
import ProtocolProxy.Proofs.Handover
import ProtocolProxy.Proofs.Head
import ProtocolProxy.Proofs.Helo
import ProtocolProxy.Proofs.Hostname
import ProtocolProxy.Proofs.HttpReplies
import ProtocolProxy.Proofs.HttpWorker
import ProtocolProxy.Proofs.IpText
import ProtocolProxy.Proofs.Loaders
import ProtocolProxy.Proofs.Lookup
import ProtocolProxy.Proofs.MutualTls
import ProtocolProxy.Proofs.Outbound
import ProtocolProxy.Proofs.Pairs
import ProtocolProxy.Proofs.PhpCoroutine
import ProtocolProxy.Proofs.PhpDial
import ProtocolProxy.Proofs.PhpDuplexCoroutine
import ProtocolProxy.Proofs.PhpDuplexEnds
import ProtocolProxy.Proofs.PhpEndpoint
import ProtocolProxy.Proofs.PhpHandler
import ProtocolProxy.Proofs.PhpHttp
import ProtocolProxy.Proofs.PhpRaw
import ProtocolProxy.Proofs.PhpReplies
import ProtocolProxy.Proofs.PhpRouter
import ProtocolProxy.Proofs.PhpSessions
import ProtocolProxy.Proofs.PhpSmtp
import ProtocolProxy.Proofs.PhpTcp
import ProtocolProxy.Proofs.PhpTcpClose
import ProtocolProxy.Proofs.PlainRoute
import ProtocolProxy.Proofs.Pools
import ProtocolProxy.Proofs.RawReply
import ProtocolProxy.Proofs.Relay
import ProtocolProxy.Proofs.Route
import ProtocolProxy.Proofs.Session
import ProtocolProxy.Proofs.SessionEnds
import ProtocolProxy.Proofs.SmtpData
import ProtocolProxy.Proofs.SmtpExchange
import ProtocolProxy.Proofs.SmtpFidelity
import ProtocolProxy.Proofs.SmtpPort
import ProtocolProxy.Proofs.SmtpReplies
import ProtocolProxy.Proofs.SmtpServer
import ProtocolProxy.Proofs.Sockmap
import ProtocolProxy.Proofs.StartTls
import ProtocolProxy.SmtpPort
import ProtocolProxy.Stream
