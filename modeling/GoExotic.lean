import GoExotic.Theory.SlotStore
import GoExotic.Proofs.SharedRegistry
import GoExotic.Proofs.MemoryQuota
import GoExotic.Proofs.MemoryOrder
import GoExotic.Proofs.ShareOverflow
import GoExotic.Proofs.PreviewEndpoints
import GoExotic.Proofs.DefaultDeviceID
import GoExotic.Proofs.ShardedGeneration
import GoExotic.Proofs.RoutedWorkers
import GoExotic.Proofs.Decoding
import GoExotic.Proofs.WireFormat
import GoExotic.Proofs.BodySize
import GoExotic.Proofs.ShardEndpoint
import GoExotic.Proofs.RemoteExecution
import GoExotic.Proofs.ShardURL
import GoExotic.Proofs.Advertise
import GoExotic.Proofs.StaticFiles
import GoExotic.Proofs.ModelHelpers
import GoExotic.Proofs.Distribution
import GoExotic.Proofs.RegistryCalls
import GoExotic.Proofs.Dashboard
import GoExotic.Proofs.LocalModels
import GoExotic.Proofs.ConcurrentServer
import GoExotic.Proofs.ServedRuns
import GoExotic.Proofs.DashboardRequests
import GoExotic.Proofs.Commands
import GoExotic.Proofs.Controls
import GoExotic.Proofs.StoppedLayers
import GoExotic.Proofs.SharedWorker
import GoExotic.Proofs.LocalCluster
import GoExotic.Proofs.LivePreviews
import GoExotic.Proofs.DirectDecoding
import GoExotic.Proofs.KeepAlive
