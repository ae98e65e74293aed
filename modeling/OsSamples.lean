import OsSamples.Lib.Threads
import OsSamples.Lib.BinaryLock
import OsSamples.Lib.KernelOwner
import OsSamples.Lib.Loop
import OsSamples.Lib.Rows
import OsSamples.Lib.UndoSemaphore
import OsSamples.Lib.PetersonLock
import OsSamples.Lib.Tso
import OsSamples.Lib.SerialMemory
import OsSamples.Native.BankDeposit
import OsSamples.Native.CheckedHeaders
import OsSamples.Native.Everything
import OsSamples.Native.EverythingProcesses
import OsSamples.Native.PetersonXchg
import OsSamples.Native.SemSysvProcesses
import OsSamples.Native.SuccessiveTraceroute
import OsSamples.Spec.BankDeposit
import OsSamples.Spec.BankDepositEnds
import OsSamples.Spec.BankTransactions
import OsSamples.Spec.CheckedHeaders
import OsSamples.Spec.CsTokens
import OsSamples.Spec.Peterson
import OsSamples.Spec.PetersonXchg
import OsSamples.Spec.SemSysvProcesses
import OsSamples.Spec.SuccessiveTraceroute
import OsSamples.Spec.EverythingIsolation
import OsSamples.Spec.EverythingLock
import OsSamples.Spec.EverythingFaults
import OsSamples.Native.ProducerConsumerSimple
import OsSamples.Spec.CellValues
import OsSamples.Lib.Sockets
import OsSamples.Native.MultiClientEchoServer
import OsSamples.Spec.MultiClientEchoServer
import OsSamples.Spec.EchoStreams
import OsSamples.Native.BasicTraceroute
import OsSamples.Spec.TracerouteAgree
import OsSamples.Lib.RingBuffer
import OsSamples.Native.ProducerConsumer
import OsSamples.Spec.ProducerConsumer
import OsSamples.Lib.KernelResources
import OsSamples.Native.EverythingLife
import OsSamples.Spec.EverythingResources
import OsSamples.Spec.BankCheck
import OsSamples.Native.TracerouteOptions
import OsSamples.Native.TracerouteKept
import OsSamples.Spec.TracerouteOptions
import OsSamples.Spec.TracerouteIndices
import OsSamples.Spec.TraceroutePorts
import OsSamples.Native.BasicTracerouteMain
import OsSamples.Spec.BasicTracerouteIndices
import OsSamples.Spec.TracerouteFirstHop
import OsSamples.Spec.TracerouteResources
import OsSamples.Spec.TracerouteMemory
import OsSamples.Spec.TracerouteNames
import OsSamples.Spec.TracerouteCleanup
import OsSamples.Native.ThreadedTraceroute
import OsSamples.Spec.ThreadedTraceroute
import OsSamples.Lib.Trace
import OsSamples.Native.SyncWorkingThreads
import OsSamples.Spec.SyncWorkingThreads
import OsSamples.Lib.HeapTrace
import OsSamples.Native.PthreadCleanup
import OsSamples.Spec.PthreadCleanup
import OsSamples.Lib.Signals
import OsSamples.Native.Signals1uloha
import OsSamples.Spec.Signals1uloha
import OsSamples.Native.AddressTranslation
import OsSamples.Spec.AddressTranslation
import OsSamples.Lib.CString
import OsSamples.Native.DaytimeClient
import OsSamples.Spec.DaytimeClient
import OsSamples.Native.GetPasswd
import OsSamples.Spec.GetPasswd
import OsSamples.Native.MessagesSV
import OsSamples.Spec.MessagesSV
import OsSamples.Native.MultiClientEchoServerOldIPv4
import OsSamples.Spec.MultiClientEchoServerOldIPv4
import OsSamples.Native.TransactionsMonitor
import OsSamples.Spec.TransactionsMonitor
import OsSamples.Native.SigUSRwait
import OsSamples.Spec.SigUSRwait
import OsSamples.Lib.CondVar
import OsSamples.Native.SyncAssignmentCond
import OsSamples.Spec.SyncAssignmentCond
import OsSamples.Native.SyncCondVar
import OsSamples.Spec.SyncCondVar
import OsSamples.Lib.LostUpdates
import OsSamples.Lib.Barrier
import OsSamples.Lib.SpawnJoin
import OsSamples.Native.ThreadAdd
import OsSamples.Spec.ThreadAdd
import OsSamples.Spec.ThreadAddProtected
import OsSamples.Native.SyncBarrier
import OsSamples.Spec.SyncBarrier
import OsSamples.Native.PthreadJoin
import OsSamples.Spec.PthreadJoin
import OsSamples.Lib.NumberText
import OsSamples.Native.MessagesSVFork
import OsSamples.Spec.MessagesSVFork
import OsSamples.Native.SyncMonitor
import OsSamples.Spec.SyncMonitor
import OsSamples.Lib.Pipe
import OsSamples.Native.PipeFork
import OsSamples.Spec.PipeFork
import OsSamples.Lib.Interleaving
import OsSamples.Native.RaceFork
import OsSamples.Spec.RaceFork
import OsSamples.Spec.ProducerConsumerEnds
import OsSamples.Spec.SyncCondVarEnds
import OsSamples.Spec.SyncWorkingThreadsWork
import OsSamples.Spec.BankTransactionsEnds
import OsSamples.Native.BankWithdrawal
import OsSamples.Spec.BankWithdrawal
import OsSamples.Native.BoundedBuffer
import OsSamples.Spec.BoundedBuffer
import OsSamples.Spec.TransactionsMonitorEnds
import OsSamples.Spec.ProducerConsumerSimpleEnds
