import SavanXP.Library.Action
import SavanXP.Library.Bytes
import SavanXP.Library.Disk
import SavanXP.SxFS.Format
import SavanXP.SxFS.Volume
import SavanXP.SxFS.Journal
import SavanXP.SxFS.JournalSpec
import SavanXP.SxFS.Validity
import SavanXP.SxFS.Working
import SavanXP.SxFS.CrashPhases
import SavanXP.SxFS.CommitSafety
import SavanXP.SxFS.RecoverySafety
import SavanXP.SxFS.Mkfs
import SavanXP.SxFS.CommitRuns
import SavanXP.SxFS.FailedCommits
import SavanXP.Library.Fallible
import SavanXP.Library.Intervals
import SavanXP.Memory.PageConservation
import SavanXP.Library.LinkedList
import SavanXP.Memory.HeapRuns
import SavanXP.Block.Guarantees
import SavanXP.Block.Accounting
import SavanXP.Block.FailedDisk
import SavanXP.Partition.Slicing
import SavanXP.Partition.RoundTrip
import SavanXP.SxFS.Inodes
import SavanXP.SxFS.Directories
import SavanXP.SxFS.Records
import SavanXP.SxFS.Operations
import SavanXP.SxFS.Check
import SavanXP.SxFS.CommitEffects
import SavanXP.SxFS.MountEffects
import SavanXP.SxFS.OperationFrames
import SavanXP.SxFS.SparseCommit
import SavanXP.Library.RingBuffer
import SavanXP.Library.Runs
import SavanXP.Process.PipeRecords
import SavanXP.Process.WaitConservation
import SavanXP.Process.ChildReports
import SavanXP.Process.ChannelRuns
import SavanXP.Elevation.ConsentPrompt
import SavanXP.Elevation.BrokerConsent
import SavanXP.Terminal.Lines
import SavanXP.Memory.FileSections
import SavanXP.Memory.Shootdown
import SavanXP.Posix.Streams
import SavanXP.Posix.Adler32
import SavanXP.Gfx.Lines
import SavanXP.Posix.Loader
import SavanXP.SxFS.Space
import SavanXP.SxFS.Paths
import SavanXP.Sxe.Icons
import SavanXP.Sxe.Metadata
import SavanXP.Posix.Pipelines
import SavanXP.Threads.Interleavings
