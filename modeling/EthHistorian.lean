import EthHistorian.PreMerge
import EthHistorian.PostMerge
import EthHistorian.ForkSchedule
import EthHistorian.PointerWidths
import EthHistorian.Wire
import EthHistorian.NoPanic
import EthHistorian.SourceFallback
import EthHistorian.Authentication
import EthHistorian.Receipts
import EthHistorian.EraBatch
import EthHistorian.RawBlocks
import EthHistorian.Snapshots
import EthHistorian.StateProofs
import EthHistorian.SparseTree
import EthHistorian.IndexKeys
import EthHistorian.Sessions
import EthHistorian.Encodings
import EthHistorian.RootBinding
import EthHistorian.Fingerprints
import EthHistorian.Archive
import EthHistorian.Portal
import EthHistorian.Landings
import EthHistorian.Canonical
