import Pintos.WaitExitSafety
import Pintos.WaitExitStrangers
import Pintos.CacheRecency
import Pintos.InodeReferences
import Pintos.DirectoryRefinement
import Pintos.FilesysFailures
import Pintos.FilesysContents
import Pintos.FilesysRecycling
import Pintos.FilesysShutdown
import Pintos.ArgumentFetch
import Pintos.PointerArguments
import Pintos.WriteDenial
import Pintos.DescriptorRuns
import Pintos.IoLock
import Pintos.AssertionsTripped
import Pintos.ExecResources
import Pintos.ConditionSignals
import Pintos.Ide
import Pintos.PageMapped
import Pintos.ProcessMemory
import Pintos.MallocContents
import Pintos.ListSort
import Pintos.HashIteration
import Pintos.FsutilArchive
import Pintos.Partition
import Pintos.InodeChunks
import Pintos.StackWrites
import Pintos.ExactImage
import Pintos.InterruptLevels
import Pintos.BitmapWords
import Pintos.Arithmetic
import Pintos.Rtc
import Pintos.Stdlib
import Pintos.Atoi
import Pintos.Timer
import Pintos.Memmove
import Pintos.Random
import Pintos.UstarReads
import Pintos.Console
