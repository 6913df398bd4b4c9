import LCCFileService.Library.JobQueue
import LCCFileService.Library.Simulation
import LCCFileService.Library.StreamHash
import LCCFileService.Library.Table
import LCCFileService.Library.Catalogue
import LCCFileService.Library.Run
import LCCFileService.Library.Disk
import LCCFileService.Library.Workload
import LCCFileService.FileSave.LCFileSaveService
import LCCFileService.FileSave.Lookup
import LCCFileService.FileSave.References
import LCCFileService.FileSave.Sweep
import LCCFileService.FileSave.Representation
import LCCFileService.FileSave.Saving
import LCCFileService.FileSave.Holdings
import LCCFileService.Library.Heap
import LCCFileService.Library.Loop
import LCCFileService.FileNet.LCFileNetTask
import LCCFileService.FileNet.State
import LCCFileService.FileNet.Notify
import LCCFileService.FileNet.LCFileNetOperation
import LCCFileService.FileNet.LCFileNetService
import LCCFileService.FileNet.Quiet
import LCCFileService.FileNet.Tables
import LCCFileService.FileNet.Operations
import LCCFileService.FileNet.Stopping
import LCCFileService.FileNet.LiveOperation
import LCCFileService.FileNet.Outcome
import LCCFileService.FileNet.Cancellation
import LCCFileService.FileNet.Callers
import LCCFileService.FileNet.Deliveries
import LCCFileService.FileNet.Rejection
import LCCFileService.FileNet.Resuming
import LCCFileService.FileNet.Reaching
import LCCFileService.FileNet.BackInProgress
import LCCFileService.FileNet.Statuses
import LCCFileService.FileNet.Successes
import LCCFileService.AWSS3.TransferUtility
import LCCFileService.AWSS3.LCS3Hander
import LCCFileService.AWSS3.Answers
import LCCFileService.AWSS3.Restoring
import LCCFileService.AWSS3.Genuine
import LCCFileService.AWSS3.Serving
import LCCFileService.AWSS3.Downloads
import LCCFileService.AWSS3.Uploads
import LCCFileService.Library.Roster
import LCCFileService.ProtocolFinder
import LCCFileService.FileMD5
import LCCFileService.AWSS3.Copies
import LCCFileService.AWSS3.Parts
import LCCFileService.AWSS3.Working
import LCCFileService.AWSS3.Entries
import LCCFileService.AWSS3.LiveEntries
import LCCFileService.FileNet.Changes
import LCCFileService.FileNet.Records
import LCCFileService.FileNet.Paths
import LCCFileService.FileNet.Stalls
import LCCFileService.FileNet.Factories
import LCCFileService.FileNet.Equality
import LCCFileService.FileNet.ProgressNotes
import LCCFileService.AWSS3.Handling
import LCCFileService.AWSS3.Progress
import LCCFileService.FileNet.Queues
import LCCFileService.FileNet.InFlight
import LCCFileService.FileNet.Blocking
import LCCFileService.FileNet.Persistence
import LCCFileService.FileNet.Isolation
import LCCFileService.FileNet.PausingAll
import LCCFileService.FileNet.Workload
import LCCFileService.Library.PercentEncoding
import LCCFileService.AWSS3.CopySource
import LCCFileService.AWSS3.Refinement
import LCCFileService.AWSS3.Attended
import LCCFileService.AWSS3.Conserved
import LCCFileService.AWSS3.Rest
