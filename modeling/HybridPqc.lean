import HybridPqc.Adapter.Reencode
import HybridPqc.Composite.SigFormat
import HybridPqc.Tlcp.Chain
import HybridPqc.Store.Binding
import HybridPqc.Store.Crash
import HybridPqc.Tools.GenerateDemoChainCorrect
import HybridPqc.X509.Issuance
import HybridPqc.Composite.SignVerify
import HybridPqc.Composite.KeyFormat
import HybridPqc.X509.PublicKey
import HybridPqc.Tlcp.Pqkex
import HybridPqc.Conc.Trace
import HybridPqc.Tls13.PqPsk
import HybridPqc.Tls13.Server
import HybridPqc.Tls13.ServerCorrect
import HybridPqc.Tls13.Client
import HybridPqc.Tls13.ClientCorrect
import HybridPqc.Aead.Ideal
import HybridPqc.Store.Authenticated
import HybridPqc.Adapter.Recognition
import HybridPqc.Adapter.Release
import HybridPqc.X509.LeafKey
import HybridPqc.Tlcp.KeyExchange
import HybridPqc.Composite.Message
import HybridPqc.Composite.HybridSign
import HybridPqc.Tlcp.PqkexState
import HybridPqc.Tools.PqkexCaptureDemo
import HybridPqc.Tls.Codec
import HybridPqc.Tls13.PskUpdate
import HybridPqc.Tlcp.PemLoader
import HybridPqc.Stats.NearestRank
import HybridPqc.Tools.BenchmarkCompositeVerify
import HybridPqc.Fs.Stdio
import HybridPqc.Tools.WriteFiles
import HybridPqc.Mlkem.Wrapper
import HybridPqc.Mlkem.Contract
import HybridPqc.Refs.Arena
import HybridPqc.Refs.Pool
import HybridPqc.Ownership.Calls
import HybridPqc.Ownership.Balance
import HybridPqc.Ownership.Values
import HybridPqc.Tlcp.ClientRun
import HybridPqc.Tlcp.ServerContext
import HybridPqc.Tlcp.IssuedChain
import HybridPqc.Memory.Composite
import HybridPqc.Memory.Issue
import HybridPqc.Memory.IssueCorrect
import HybridPqc.Memory.Verify
import HybridPqc.Memory.VerifyCorrect
import HybridPqc.Memory.Adapter
import HybridPqc.Memory.Session
import HybridPqc.Tools.Maintenance
import HybridPqc.Tools.MaintenanceCorrect
import HybridPqc.Tls13.Negotiation
import HybridPqc.Tlcp.PqkexHello
import HybridPqc.Tools.MlkemDemo
