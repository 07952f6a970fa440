import Idpf.Tx.CompletionRing
import Idpf.Tx.BufferIds
import Idpf.Tx.ReGap
import Idpf.Tx.Pending
import Idpf.Tx.NextToClean
import Idpf.Tx.Drain
import Idpf.Tx.QueueClean
import Idpf.Tx.QueueGroup
import Idpf.Tx.ZeroCopy
import Idpf.Tx.SingleqZc
import Idpf.Tx.XdpXmit
import Idpf.Tx.XdpFrames
import Idpf.Tx.SingleqConservation
import Idpf.Rx.Reassembly
import Idpf.Rx.Page
import Idpf.Rx.PageFaults
import Idpf.Rx.PostingZc
import Idpf.Rx.ZeroCopy
import Idpf.Rx.RscFields
import Idpf.Rx.SingleqPage
import Idpf.Vc.Exclusive
import Idpf.Vc.Version
import Idpf.Vc.Ptypes
import Idpf.Vc.Replies
import Idpf.Vc.Shutdown
import Idpf.Ctlq.SendFifo
import Idpf.Ctlq.SendAtomic
import Idpf.Ctlq.RecvBuffers
import Idpf.Reset.HardReset
import Idpf.Vport.QueueIds
import Idpf.Vport.Layout
import Idpf.Vport.MaxQueues
import Idpf.Vport.ChunkReplies
import Idpf.Vport.QueueRequests
import Idpf.Vport.Vectors
import Idpf.Mmio.Lookups
import Idpf.Vport.Rss
import Idpf.Vport.RssLut
import Idpf.Ptp.Awaited
import Idpf.Ptp.Clock
import Idpf.Vport.Unwind
import Idpf.Vport.FlowSteer
import Idpf.Vport.RingSizes
import Idpf.Vport.EthtoolStats
import Idpf.Vport.ConfigChunks
import Idpf.Tx.FragmentSplit
import Idpf.Tx.TsoSegments
import Idpf.Tx.ReBooks
import Idpf.Tx.MapChain
import Idpf.Tx.Rollback
import Idpf.Tx.Conservation
import Idpf.Tx.Wake
import Idpf.Tx.PassStats
import Idpf.Tx.Timestamps
import Idpf.Vc.RdmaSend
import Idpf.Vport.MacSync
import Idpf.Vport.VectorMap
import Idpf.Vport.VectorSplit
import Idpf.Devlink.Owners
import Idpf.Adi.Ownership
import Idpf.Vport.FastPath
import Idpf.Adi.VectorChunks
import Idpf.Adi.SparseMmap
import Idpf.Adi.ConfigLaw
import Idpf.Vport.Coalesce
import Idpf.Vport.XdpSetup
import Idpf.Vport.XdpRings
import Idpf.Intr.DimWork
import Idpf.Ctlq.Setup
import Idpf.Adi.Irqs
import Idpf.Adi.Vmas
import Idpf.Vport.SoftPointers
import Idpf.Vport.Creation
import Idpf.Ctlq.MessageMemory
import Idpf.Vport.RxMode
import Idpf.Intr.Napi
