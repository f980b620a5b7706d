import TaskHost.Json.Reader
import TaskHost.Main
import TaskHost.Records
import TaskHost.Session
import TaskHost.TraceLog
import TaskHost.Proofs.Queues
import TaskHost.Proofs.Accounts
import TaskHost.Proofs.Sessions
import TaskHost.Proofs.Histories
import TaskHost.Proofs.ExactlyOnce
import TaskHost.Proofs.Fifo
import TaskHost.Proofs.OwnContext
import TaskHost.Proofs.Blocks
import TaskHost.Proofs.Endings
import TaskHost.Proofs.Callers
import TaskHost.Proofs.Repeats
import TaskHost.Proofs.Manifests
import TaskHost.Proofs.Chronicles
import TaskHost.Proofs.Floors
import TaskHost.Proofs.Retries
import TaskHost.Proofs.Isolation
import TaskHost.Proofs.SpoiledShifts
import TaskHost.Proofs.SpoiledFloors
import TaskHost.Proofs.SpoiledSessions
import TaskHost.Proofs.Transcripts
import TaskHost.Proofs.FaultUse
import TaskHost.Proofs.PoolRuns
import TaskHost.Proofs.NextTimers
import TaskHost.Proofs.Handouts
import TaskHost.Proofs.Logs
import TaskHost.Proofs.Settlements
import TaskHost.Proofs.Drained
import TaskHost.Proofs.Tallies
import TaskHost.Proofs.DiskFiles
import TaskHost.Proofs.LogLines
import TaskHost.Proofs.Leftovers
import TaskHost.Proofs.RootedPaths
import TaskHost.Proofs.OneShot
import TaskHost.Proofs.TraceLogs
import TaskHost.Proofs.ArgumentGroups
import TaskHost.Proofs.TimerCalls
