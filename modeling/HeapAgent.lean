import HeapAgent.Tag
import HeapAgent.Collector
import HeapAgent.Heap
import HeapAgent.Pass
import HeapAgent.Jni
import HeapAgent.Wire
import HeapAgent.Snapshot
import HeapAgent.Walk
import HeapAgent.Effect
import HeapAgent.System
import HeapAgent.Invariant
import HeapAgent.History
import HeapAgent.Leftovers
import HeapAgent.SnapshotSpec
import HeapAgent.Coverage
import HeapAgent.Buffers
import HeapAgent.Filtered
import HeapAgent.Interleaving
import HeapAgent.Ledger
import HeapAgent.SnapshotCleanup
import HeapAgent.WalkCleanup
import HeapAgent.Lifecycle
import HeapAgent.Exceptions
import HeapAgent.Lifetime
