import ClusterLedger.Main
import ClusterLedger.Proofs.Backend.LostUpdates
import ClusterLedger.Proofs.Coordinator.Discipline
import ClusterLedger.Proofs.Document.History
import ClusterLedger.Proofs.Document.Reopen
import ClusterLedger.Proofs.Store.Address
import ClusterLedger.Proofs.Backend.Restrained
import ClusterLedger.Proofs.Lock.Instant
import ClusterLedger.Proofs.Backend.Ledger
import ClusterLedger.Proofs.Backend.ObjectsLedger
import ClusterLedger.Proofs.Disk.Filled
import ClusterLedger.Proofs.Backend.FolderRuns
import ClusterLedger.Proofs.Backend.FolderLedger
import ClusterLedger.Proofs.Backend.Agree
import ClusterLedger.Proofs.Backend.Place
import ClusterLedger.Proofs.Coordinator.LedgerRuns
import ClusterLedger.Proofs.Coordinator.Atomic
import ClusterLedger.Proofs.Document.Canonical
import ClusterLedger.Proofs.Backend.Listing
import ClusterLedger.Proofs.Backend.Refusals
import ClusterLedger.Proofs.Backend.Isolation
import ClusterLedger.Proofs.Hostname
import ClusterLedger.Proofs.Document.Nodes
import ClusterLedger.Proofs.Store.Remote
import ClusterLedger.Proofs.Backend.FolderTree
import ClusterLedger.Proofs.Document.Failure
import ClusterLedger.Proofs.Coordinator.Destruction
import ClusterLedger.Proofs.Store.Removal
import ClusterLedger.Proofs.Module.Encoding
import ClusterLedger.Proofs.Document.Linkage
import ClusterLedger.Proofs.Document.Addressing
import ClusterLedger.Proofs.Document.Paths
import ClusterLedger.Proofs.Backend.Snapshot
import ClusterLedger.Proofs.Configuration.Sources
import ClusterLedger.Proofs.Configuration.Unknown
import ClusterLedger.Proofs.Cli.Settings
import ClusterLedger.Proofs.Terraform.Provision
import ClusterLedger.Proofs.Backend.Holder
import ClusterLedger.Proofs.Terraform.LastLines
