import VaultSync.Sync.SharedCursor
import VaultSync.Client.Recovery
import VaultSync.Client.ConcurrentWrites
import VaultSync.Replication.Snapshots
import VaultSync.Coordinator.Subscription
import VaultSync.Ipc.RingContents
import VaultSync.Ipc.LeaderElection
import VaultSync.E2ee.Secrecy
import VaultSync.Storage.Encrypted
import VaultSync.Opfs.PageIds
import VaultSync.Coordinator.Migration
import VaultSync.Coordinator.KeyVersions
import VaultSync.Coordinator.Isolation
import VaultSync.Opfs.DocumentFaults
import VaultSync.Opfs.V1Migration
import VaultSync.Opfs.ManifestWrites
import VaultSync.Coordinator.CloudflarePush
import VaultSync.Coordinator.PostgresSubscription
import VaultSync.Storage.Backends
import VaultSync.Replication.Tombstones
import VaultSync.Coordinator.FailoverPolicy
import VaultSync.Sync.Backoff
import VaultSync.Client.SchemaVersion
import VaultSync.Sync.CursorOrder
import VaultSync.Sync.ReplayNotifications
import VaultSync.Server.Sessions
import VaultSync.Coordinator.Http
import VaultSync.Coordinator.EventStream
import VaultSync.Coordinator.WsProto
import VaultSync.Client.Clock
import VaultSync.E2ee.ActiveKey
import VaultSync.Coordinator.RedisPaging
import VaultSync.Coordinator.RedisSnapshots
import VaultSync.Opfs.MetadataCrash
import VaultSync.Opfs.MetadataRuntime
import VaultSync.Ipc.RuntimeScheduler
import VaultSync.Opfs.IndexRebuild
import VaultSync.Storage.CompactionScheduler
import VaultSync.Opfs.Transactions
import VaultSync.Ipc.SessionProtocol
import VaultSync.Opfs.SegmentedLru
import VaultSync.Sync.Dedup
import VaultSync.Sync.PendingIndex
import VaultSync.Storage.DocumentStore
import VaultSync.Crdt.Values
import VaultSync.Sync.ConnectionManager
import VaultSync.Opfs.ContentIndex
import VaultSync.Storage.ResourceManager
