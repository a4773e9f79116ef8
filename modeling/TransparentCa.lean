import TransparentCa.Lib.AssocList
import TransparentCa.Lib.Prog
import TransparentCa.Lib.Interleave
import TransparentCa.Tca.Issuance
import TransparentCa.Tca.PolicyProvider
import TransparentCa.Mbs.Config
import TransparentCa.Mbs.Paths
import TransparentCa.Mbs.Generator
import TransparentCa.Mbs.Buckets
import TransparentCa.Mbs.WriterSafety
import TransparentCa.Mbs.LockSafety
import TransparentCa.Mbs.Generation
import TransparentCa.Mbs.SentinelSafety
import TransparentCa.Mbs.TrustPackage
import TransparentCa.Mbs.TrustHistory
import TransparentCa.Mbs.BundleOrder
import TransparentCa.Mbs.Monitor
import TransparentCa.Mbs.ConfigFallback
import TransparentCa.Mbs.HandleReuse
import TransparentCa.Lib.Base64
import TransparentCa.Lib.BigEndian
import TransparentCa.Mbs.Sealer
import TransparentCa.Lib.Interp
import TransparentCa.Tca.Signer
import TransparentCa.Tca.CsrInfluence
import TransparentCa.Tca.SerialNumbers
import TransparentCa.Tca.ValidityWindow
import TransparentCa.Lib.PrefixCode
import TransparentCa.Lib.Regex
import TransparentCa.Tca.ClientId
import TransparentCa.Tca.SpiffeIds
import TransparentCa.Tca.AudienceBinding
import TransparentCa.Mbs.KeyLayout
import TransparentCa.Lib.LinkedList
import TransparentCa.Proxy.Buffer
import TransparentCa.Proxy.BufferLayout
import TransparentCa.Proxy.BufferOps
import TransparentCa.Proxy.BufferQueue
import TransparentCa.Proxy.Protocol
import TransparentCa.Proxy.Socks5State
import TransparentCa.Proxy.Handshake
import TransparentCa.Proxy.HandshakeGrammar
import TransparentCa.Proxy.HandshakeRefusal
import TransparentCa.Proxy.ByteQueue
import TransparentCa.Proxy.Socks5Reply
import TransparentCa.Proxy.ProxyBridge
import TransparentCa.Proxy.BridgeFlow
import TransparentCa.Proxy.BridgeHandshake
import TransparentCa.Proxy.BridgeSafety
import TransparentCa.Proxy.BridgeTraffic
import TransparentCa.Proxy.BridgeRefusal
import TransparentCa.Proxy.Exchange
import TransparentCa.Proxy.ClientConnect
import TransparentCa.Proxy.ClientReply
import TransparentCa.Proxy.SessionPool
import TransparentCa.Proxy.BindExchange
import TransparentCa.Proxy.StatusFlags
import TransparentCa.Proxy.Preload
import TransparentCa.Proxy.Accept
import TransparentCa.Proxy.AcceptorPool
import TransparentCa.Lib.Numeral
import TransparentCa.Proxy.EnvGetVal
import TransparentCa.Proxy.Freelist
import TransparentCa.Proxy.FreelistSafety
import TransparentCa.Lib.JavaCollections
import TransparentCa.Mbs.ConfigMapper
import TransparentCa.Mbs.ConfigMapping
import TransparentCa.Tca.JwksKeyFetcher
import TransparentCa.Tca.JwksRefresh
import TransparentCa.Tca.JwksFailure
import TransparentCa.Tca.JwksResponses
import TransparentCa.Lib.Failures
import TransparentCa.Tca.GrpcHandler
import TransparentCa.Tca.ServiceFailures
import TransparentCa.Tca.CallEnding
import TransparentCa.Tca.IssuanceCounters
import TransparentCa.Tca.ClientMetrics
import TransparentCa.Lib.PyText
import TransparentCa.Lib.Topological
import TransparentCa.Devkit.Json
import TransparentCa.Devkit.Config
import TransparentCa.Devkit.Tags
import TransparentCa.Devkit.Build
import TransparentCa.Devkit.TagIdentity
import TransparentCa.Devkit.Cleanup
import TransparentCa.Devkit.CleanupSafety
import TransparentCa.Lib.PyRead
import TransparentCa.Devkit.Coverage
import TransparentCa.Devkit.CoverageText
import TransparentCa.Devkit.CoverageReading
import TransparentCa.Devkit.CoverageReport
import TransparentCa.Lib.Worklist
import TransparentCa.Lib.PosixPath
import TransparentCa.Lib.FileSystem
import TransparentCa.Lib.Pathlib
import TransparentCa.Devkit.ExternalMounts
import TransparentCa.Devkit.MountScan
import TransparentCa.Devkit.MountClosure
import TransparentCa.Tca.CertificateContents
import TransparentCa.Tca.Endorsement
import TransparentCa.Tca.OakVerifier
import TransparentCa.Tca.Wiring
import TransparentCa.Tca.AttestedIssuance
import TransparentCa.Tca.AnsweredCalls
import TransparentCa.Lib.LoadingCache
import TransparentCa.Tca.FileCache
import TransparentCa.Lib.RelyGuarantee
import TransparentCa.Mbs.AwsKms
import TransparentCa.Mbs.BundleGenerator
import TransparentCa.Mbs.Fleet
import TransparentCa.Mbs.Progress
import TransparentCa.Mbs.Convergence
