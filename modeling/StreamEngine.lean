import StreamEngine.Library.ByteString
import StreamEngine.Library.Binary64
import StreamEngine.Library.Decimal
import StreamEngine.Library.DecimalProofs
import StreamEngine.Library.OrderedMap
import StreamEngine.Library.Loop
import StreamEngine.Json.Value
import StreamEngine.Json.Dump
import StreamEngine.Json.Parse
import StreamEngine.Json.Grammar
import StreamEngine.Json.RoundTrip
import StreamEngine.Net.Xml
import StreamEngine.Net.Http
import StreamEngine.Net.DechunkProofs
import StreamEngine.Library.Hoare
import StreamEngine.Net.PairingCrypto
import StreamEngine.Net.Pairing
import StreamEngine.Library.KeyedList
import StreamEngine.Net.PairingProofs
import StreamEngine.Net.IdentityStore
import StreamEngine.Net.IdentityStoreProofs
import StreamEngine.Library.FileSystem
import StreamEngine.Library.PosixPath
import StreamEngine.Net.StoreFiles
import StreamEngine.Net.StoreFilesProofs
import StreamEngine.Net.Identity
import StreamEngine.Net.IdentityRuns
import StreamEngine.Net.IdentityGenerations
import StreamEngine.Net.IdentityStability
import StreamEngine.Net.AppList
import StreamEngine.Net.Launch
import StreamEngine.Client.StreamConfig
import StreamEngine.Ipc.Frame
import StreamEngine.Ipc.Server
import StreamEngine.Ipc.ServerProofs
import StreamEngine.Client.Engine
import StreamEngine.Client.Handlers
import StreamEngine.Client.AppRefProofs
import StreamEngine.Library.History
import StreamEngine.Client.EngineProofs
import StreamEngine.Client.Security
import StreamEngine.Client.PairProofs
import StreamEngine.Client.HandlersProofs
import StreamEngine.Client.StartProofs
import StreamEngine.Client.RunProofs
import StreamEngine.Library.Transition
import StreamEngine.Client.Session
import StreamEngine.Client.SessionProofs
import StreamEngine.Client.SessionSimulation
import StreamEngine.Client.SessionInvariant
import StreamEngine.Client.SessionCalls
import StreamEngine.Client.SessionPhases
import StreamEngine.Client.SessionDrop
import StreamEngine.Client.Shutdown
import StreamEngine.Library.Utf8
import StreamEngine.Library.NumberText
import StreamEngine.Library.JsonText
import StreamEngine.Library.JsonTokens
import StreamEngine.Library.JsonSpelling
import StreamEngine.Json.Language
import StreamEngine.Json.Rfc
import StreamEngine.Json.Rewrite
import StreamEngine.Json.Encoding
import StreamEngine.Ipc.EncodingProofs
import StreamEngine.Library.Digits
import StreamEngine.Ipc.Socket
import StreamEngine.Library.Refinement
import StreamEngine.Ipc.SocketProofs
import StreamEngine.Ipc.CloseProofs
import StreamEngine.Ipc.Writers
import StreamEngine.Ipc.WritersProofs
import StreamEngine.Client.ResumeProofs
import StreamEngine.Library.Occurrence
import StreamEngine.Net.XmlProofs
import StreamEngine.Net.SimServer
import StreamEngine.Net.SimServerProofs
import StreamEngine.Net.PairingCompleteness
import StreamEngine.Net.HonestHost
import StreamEngine.Ipc.IdProofs
import StreamEngine.Json.Build
import StreamEngine.Host.Apps
import StreamEngine.Host.ClientTrust
import StreamEngine.Host.ClientTrustProofs
import StreamEngine.Host.AppsProofs
import StreamEngine.Host.Handlers
import StreamEngine.Host.FileFaults
import StreamEngine.Host.SyncProofs
import StreamEngine.Library.Interaction
import StreamEngine.Host.SunshineBackend
import StreamEngine.Host.SunshineBackendProofs
import StreamEngine.Host.RestartRequired
import StreamEngine.Library.CommandLine
import StreamEngine.Library.WindowsPath
import StreamEngine.Host.WindowsLaunch
import StreamEngine.Library.Definedness
import StreamEngine.Json.Conversions
import StreamEngine.Ipc.Conversions
import StreamEngine.Library.Segments
import StreamEngine.Net.XmlElements
import StreamEngine.Net.AppListProofs
import StreamEngine.Net.AppListEntries
import StreamEngine.Net.HttpMessages
import StreamEngine.Client.TruncatedReplies
import StreamEngine.Ipc.WriteFailures
import StreamEngine.Library.KeyedDifference
import StreamEngine.Host.CatalogDiff
import StreamEngine.Library.Query
import StreamEngine.Client.RemoteInput
import StreamEngine.Net.AppResolution
import StreamEngine.Client.SettingsProofs
import StreamEngine.Ipc.Oversize
import StreamEngine.Net.FailedDraws
import StreamEngine.Net.HeaderFields
import StreamEngine.Net.BlankLines
import StreamEngine.Net.XmlAttributes
import StreamEngine.Net.FlatDocument
import StreamEngine.Library.DenseIndex
import StreamEngine.Client.StreamWindow
import StreamEngine.Client.SdlDevices
import StreamEngine.Client.ControllerSlots
import StreamEngine.Client.GamepadMask
import StreamEngine.Library.Threads
import StreamEngine.Client.VideoRenderer
import StreamEngine.Client.VideoThreads
import StreamEngine.Client.VideoSubmit
import StreamEngine.Client.VideoWorker
import StreamEngine.Client.VideoLifecycle
import StreamEngine.Client.VideoRuns
import StreamEngine.Client.VideoRaces
import StreamEngine.Client.SessionVideo
import StreamEngine.Client.AudioRenderer
import StreamEngine.Client.AudioProofs
import StreamEngine.Ipc.NamedPipe
import StreamEngine.Ipc.NamedPipeProofs
import StreamEngine.Ipc.EndProofs
import StreamEngine.Ipc.Connect
import StreamEngine.Ipc.ConnectProofs
import StreamEngine.Main
import StreamEngine.MainProofs
import StreamEngine.Library.ObjectRefinement
import StreamEngine.Host.Registry
import StreamEngine.Host.RegistryProofs
import StreamEngine.Client.HttpRequest
import StreamEngine.Client.HttpRequestProofs
import StreamEngine.Client.HttpRequestRuns
