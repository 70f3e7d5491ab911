import MylibMuduo.Proofs.ConnectionLifecycle
import MylibMuduo.Proofs.CloseNotification
import MylibMuduo.Proofs.QueuedBeforeQuit
import MylibMuduo.Proofs.SendShutdown
import MylibMuduo.Proofs.TimerCancel
import MylibMuduo.Proofs.TimerFd
import MylibMuduo.Proofs.TaskOrder
import MylibMuduo.Proofs.PollerBookkeeping
import MylibMuduo.Proofs.ByteQueue
import MylibMuduo.Proofs.HalfClose
import MylibMuduo.Proofs.Quiescence
import MylibMuduo.Proofs.TimerFirings
import MylibMuduo.Proofs.TimerWedge
import MylibMuduo.Proofs.CrossThreadCancel
import MylibMuduo.Proofs.NotificationLifetime
import MylibMuduo.Proofs.ForeignTaskLifetime
import MylibMuduo.Proofs.OutputOrder
import MylibMuduo.Proofs.WriteInterest
import MylibMuduo.Proofs.FileTransfer
import MylibMuduo.Proofs.FileShutdown
import MylibMuduo.Proofs.StateOrder
import MylibMuduo.Proofs.OwnerTasks
import MylibMuduo.Proofs.TransientReads
import MylibMuduo.Proofs.TimerBatch
import MylibMuduo.Proofs.ConnectionNames
import MylibMuduo.Proofs.BufferStorage
import MylibMuduo.Proofs.BufferIndices
import MylibMuduo.EventLoopThread
import MylibMuduo.Proofs.FlowControl
import MylibMuduo.Proofs.LoopHandoff
import MylibMuduo.Proofs.Descriptors
import MylibMuduo.Lib.Progress
import MylibMuduo.Proofs.LoopProgress
import MylibMuduo.Proofs.ThreadJoin
import MylibMuduo.Proofs.LoopConfinement
import MylibMuduo.Proofs.InputStream
import MylibMuduo.Proofs.ServerProgress
import MylibMuduo.Proofs.DrainProgress
import MylibMuduo.Proofs.AddressText
import MylibMuduo.Proofs.TimerNumbers
import MylibMuduo.Proofs.ThreadPool
import MylibMuduo.Proofs.StaleCancel
import MylibMuduo.Proofs.StartOrder
import MylibMuduo.Proofs.Destruction
import MylibMuduo.Proofs.PoolShutdown
import MylibMuduo.Proofs.LoopAlone
