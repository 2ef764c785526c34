import ProxySwiss.Socks5Agreement
import ProxySwiss.ClientSocks5Soundness
import ProxySwiss.SessionTunnel
import ProxySwiss.TunnelLoops
import ProxySwiss.SessionGating
import ProxySwiss.ParserTermination
import ProxySwiss.ServerHttpsRun
import ProxySwiss.ExactConsumption
import ProxySwiss.Relay
import ProxySwiss.Rfc1929
import ProxySwiss.TextSearch
import ProxySwiss.UrlParts
import ProxySwiss.AuthorityBoundary
import ProxySwiss.Numerals
import ProxySwiss.PortGrammar
import ProxySwiss.Ipv4Literal
import ProxySwiss.Ipv6Text
import ProxySwiss.InetNtop
import ProxySwiss.HostText
import ProxySwiss.UrlRoundTrip
import ProxySwiss.RequestTarget
import ProxySwiss.HttpsReading
import ProxySwiss.StreamFeed
import ProxySwiss.RequestLines
import ProxySwiss.HeaderVerification
import ProxySwiss.HttpsCompleteness
import ProxySwiss.OneCall
import ProxySwiss.ExactlyOnce
import ProxySwiss.ConfigFromCmdline
import ProxySwiss.CmdlineParts
import ProxySwiss.CmdlineCompleteness
import ProxySwiss.CmdlineFaithfulness
import ProxySwiss.HostConversions
import ProxySwiss.Ipv6Literal
import ProxySwiss.TaggedHost
import ProxySwiss.PrintedDestination
import ProxySwiss.StrSplit
import ProxySwiss.BoundedWriter
import ProxySwiss.ReadUntil
import ProxySwiss.CallRemains
import ProxySwiss.Socks5Idle
import ProxySwiss.Socks5ServerIdle
import ProxySwiss.ReturnToIdle
import ProxySwiss.Ownership
import ProxySwiss.AfterCall
import ProxySwiss.SessionLife
import ProxySwiss.SessionNesting
import ProxySwiss.SessionOwners
import ProxySwiss.HopOwners
import ProxySwiss.HopReturns
import ProxySwiss.RequestOwners
import ProxySwiss.SessionPhases
import ProxySwiss.OwnerlessReturn
import ProxySwiss.FirstOccurrences
import ProxySwiss.Server
import ProxySwiss.ConnectionLog
import ProxySwiss.LeastFree
import ProxySwiss.DebugUid
import ProxySwiss.Locality
import ProxySwiss.Checked
import ProxySwiss.UrlIndexSafety
import ProxySwiss.InetPtonBounds
import ProxySwiss.UintText
import ProxySwiss.StreamLedger
import ProxySwiss.SessionTraffic
import ProxySwiss.RequestTraffic
import ProxySwiss.ReplyTraffic
import ProxySwiss.HopTraffic
import ProxySwiss.SessionTransparency
import ProxySwiss.SessionSettles
import ProxySwiss.OutstandingWrites
import ProxySwiss.PathTransparency
import ProxySwiss.ServerTraffic
import ProxySwiss.SessionCollapse
import ProxySwiss.ArgumentGrammar
import ProxySwiss.CmdlineErrors
import ProxySwiss.PrintConfig
import ProxySwiss.UrlInstances
import ProxySwiss.Program
import ProxySwiss.SessionsApart
