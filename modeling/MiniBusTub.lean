import MiniBusTub.Common.Config
import MiniBusTub.Common.UnorderedMap
import MiniBusTub.Storage.Page.HeaderPage
import MiniBusTub.Storage.Page.DirectoryPage
import MiniBusTub.Storage.Page.DirectoryLayout
import MiniBusTub.Storage.Page.BucketPage
import MiniBusTub.Storage.Page.BucketPageInvariant
import MiniBusTub.Container.DiskExtendibleHashTable
import MiniBusTub.Container.MigrateEntries
import MiniBusTub.Container.DirectoryIntegrity
import MiniBusTub.Container.HashTableInvariant
import MiniBusTub.Container.HashTableDefects
import MiniBusTub.Container.HashTableMap
import MiniBusTub.Buffer.LRUKReplacer
import MiniBusTub.Buffer.LRUKReplacerInvariant
import MiniBusTub.Buffer.LRUKPolicy
import MiniBusTub.Storage.Disk.DiskManager
import MiniBusTub.Storage.Disk.DiskScheduler
import MiniBusTub.Buffer.BufferPoolManager
import MiniBusTub.Storage.Page.PageGuard
import MiniBusTub.Buffer.BufferPoolInvariant
import MiniBusTub.Buffer.PageAllocation
import MiniBusTub.Buffer.BufferPoolDefects
import MiniBusTub.Buffer.Durability
import MiniBusTub.Buffer.Coherence
import MiniBusTub.Buffer.Replacement
import MiniBusTub.Storage.Page.PageGuardInvariant
import MiniBusTub.Storage.Page.PageGuardLatches
import MiniBusTub.Execution.Executors
import MiniBusTub.Execution.IndexInvariant
import MiniBusTub.Execution.Optimizer
import MiniBusTub.Execution.LiveTuples
