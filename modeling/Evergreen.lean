import Evergreen.Script.Run
import Evergreen.Store.Session
import Evergreen.WorkerPool.Session
import Evergreen.Proofs.Kept
import Evergreen.Proofs.Moves
import Evergreen.Proofs.Frames
import Evergreen.Proofs.Parts
import Evergreen.Proofs.TaskSteps
import Evergreen.Proofs.Singleflight
import Evergreen.Proofs.KeptSteps
import Evergreen.Proofs.Times
import Evergreen.Proofs.WriteGuard
import Evergreen.Proofs.FailedLoads
import Evergreen.Proofs.StoreCalls
import Evergreen.Proofs.Unnoticed
import Evergreen.Proofs.BackingSteps
import Evergreen.Proofs.Alike
import Evergreen.Proofs.Absorption
import Evergreen.Proofs.Ledger
import Evergreen.Proofs.StoreReports
import Evergreen.Proofs.ModeTable
import Evergreen.Proofs.MarkSteps
import Evergreen.Proofs.PollerSteps
import Evergreen.Proofs.Deadlines
import Evergreen.Proofs.Upkeep
import Evergreen.Proofs.RefreshAhead
import Evergreen.Proofs.Scans
import Evergreen.Proofs.NativeExpiry
import Evergreen.Proofs.CarryOvers
import Evergreen.Proofs.HardExpiry
import Evergreen.Proofs.Registrations
import Evergreen.Proofs.Counts
import Evergreen.Proofs.Balance
import Evergreen.Proofs.Endurance
import Evergreen.Proofs.WithPoller
import Evergreen.Proofs.LifeCycle
import Evergreen.Proofs.Provenance
import Evergreen.Proofs.Lifetimes
import Evergreen.Proofs.Separation
import Evergreen.Proofs.PoolSteps
import Evergreen.Proofs.PoolAccounts
import Evergreen.Proofs.RefreshMarks
import Evergreen.Proofs.Supersession
import Evergreen.Proofs.WriteBacks
import Evergreen.Proofs.OtherPolicies
import Evergreen.Proofs.FailureMatrix
import Evergreen.Proofs.OneMap
import Evergreen.Proofs.Purges
import Evergreen.Proofs.Asides
import Evergreen.Proofs.Crews
import Evergreen.Proofs.Panics
import Evergreen.Proofs.LocalSteps
import Evergreen.Proofs.ScanOrder
import Evergreen.Proofs.LoadRecords
import Evergreen.Proofs.TurnedDown
import Evergreen.Proofs.RemoveAll
import Evergreen.Proofs.WrittenSettings
import Evergreen.Proofs.ExpiryInWords
import Evergreen.Proofs.ScanTimes
