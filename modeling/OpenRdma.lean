import OpenRdma.RdmaUtils.PsnRotation
import OpenRdma.RdmaUtils.Fragments
import OpenRdma.Workers.SendCompletion
import OpenRdma.Workers.Reports
import OpenRdma.Workers.ReceiveCompletion
import OpenRdma.Workers.ReceiveWakeup
import OpenRdma.Workers.SendQueue
import OpenRdma.Verbs.Announcements
import OpenRdma.Net.RecvChan
import OpenRdma.Verbs.SequentialMatching
import OpenRdma.Verbs.FailedPosts
import OpenRdma.Verbs.Handles
import OpenRdma.Workers.RequestFate
import OpenRdma.Ring.ConsumerRuns
import OpenRdma.Mem.PaVaMap
import OpenRdma.RdmaUtils.MttBuilds
import OpenRdma.Verbs.MockRuns
import OpenRdma.Verbs.RegMr
import OpenRdma.Workers.SendOrder
import OpenRdma.Net.FrameRuns
import OpenRdma.Workers.AckTimer
import OpenRdma.RdmaUtils.ChunkRuns
import OpenRdma.Workers.RoundRobin
import OpenRdma.Workers.ReceiveBase
import OpenRdma.RdmaUtils.MttAlloc
import OpenRdma.Rx.Reassembly
import OpenRdma.Rx.OrderedCredit
import OpenRdma.Rx.SlotAccount
import OpenRdma.Rx.OrderedFlags
import OpenRdma.RdmaUtils.AckTrackers
import OpenRdma.RdmaUtils.SendWindow
import OpenRdma.Tx.PsnReservation
import OpenRdma.Tx.Checksum
import OpenRdma.Rx.RqPhase
import OpenRdma.Workers.MessageOrder
import OpenRdma.Tx.PathHealth
import OpenRdma.Tx.TxScheduler
