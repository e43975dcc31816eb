import NordicEsb.Lib.FixedArray
import NordicEsb.Lib.RingQueue
import NordicEsb.Lib.Machine
import NordicEsb.Lib.Flash
import NordicEsb.Lib.Bitmap
import NordicEsb.Lib.RingSegment
import NordicEsb.Lib.QueueLedger
import NordicEsb.Lib.RunningMax
import NordicEsb.Lib.StopAndWait
import NordicEsb.Esb.State
import NordicEsb.Esb.Radio
import NordicEsb.Esb.Address
import NordicEsb.Esb.Handlers
import NordicEsb.Esb.Api
import NordicEsb.Esb.Reception
import NordicEsb.Esb.TxQueue
import NordicEsb.Esb.Transaction
import NordicEsb.Esb.Agreement
import NordicEsb.Esb.NullSafety
import NordicEsb.Esb.AckWindow
import NordicEsb.Esb.RxQueue
import NordicEsb.Esb.Pipes
import NordicEsb.Esb.AckPayload
import NordicEsb.Esb.Pid
import NordicEsb.Esb.Access
import NordicEsb.Esb.Bounds
import NordicEsb.Esb.Disable
import NordicEsb.Esb.Manual
import NordicEsb.Esb.Wakeup
import NordicEsb.Esb.Attempts
import NordicEsb.Esb.OnAir
import NordicEsb.Esb.Report
import NordicEsb.Link.Packet
import NordicEsb.Link.Model
import NordicEsb.Link.Delivery
import NordicEsb.Link.Duplicate
import NordicEsb.Link.Header
import NordicEsb.Log.Reserve
import NordicEsb.Log.Hexdump
import NordicEsb.Log.Nested
import NordicEsb.Log.EntryRuns
import NordicEsb.Lib.BlockStream
import NordicEsb.Lib.ShiftRegister
import NordicEsb.Crypto.Sha256
import NordicEsb.Crc.Registers
import NordicEsb.Crc.Bursts
import NordicEsb.Sched.Queue
import NordicEsb.Hci.Validation
import NordicEsb.Hci.Extraction
import NordicEsb.Link.Content
import NordicEsb.App.Config
import NordicEsb.App.Box
import NordicEsb.App.ChannelPick
import NordicEsb.App.PairedMask
import NordicEsb.App.PairQueue
import NordicEsb.App.OwnRecord
import NordicEsb.App.HopLoop
import NordicEsb.Esb.Channel
import NordicEsb.App.Lockstep
import NordicEsb.App.Device
import NordicEsb.App.Transfer
import NordicEsb.App.Alive
import NordicEsb.App.Flash
import NordicEsb.App.Records
import NordicEsb.App.Isolation
import NordicEsb.App.PipeAddress
import NordicEsb.App.Freshness
import NordicEsb.App.Pairing
import NordicEsb.Fds.PowerLoss
import NordicEsb.Fds.FileDelete
import NordicEsb.Fds.Accounting
import NordicEsb.Fds.ChunkQueue
import NordicEsb.Fds.RecordCrc
import NordicEsb.Fds.CrcAgreement
import NordicEsb.Fds.CrcRuns
import NordicEsb.Fds.UnderWay
import NordicEsb.Fds.Standing
import NordicEsb.Fds.Iteration
import NordicEsb.Fds.Statistics
import NordicEsb.Hci.MemPool
import NordicEsb.Fifo.AppFifo
import NordicEsb.Fifo.ByteQueue
import NordicEsb.Uart.AppUart
import NordicEsb.Uart.Sending
import NordicEsb.Uart.Receiving
import NordicEsb.Spi.Master
import NordicEsb.Hci.Slip
import NordicEsb.Hci.Reliable
import NordicEsb.Fstorage.Completion
import NordicEsb.Fstorage.Regions
import NordicEsb.Slip.Codec
import NordicEsb.Slip.OutputBound
import NordicEsb.Mem.Blocks
import NordicEsb.Mem.Alloc
import NordicEsb.Dfu.Continue
import NordicEsb.Dfu.Activate
import NordicEsb.Dfu.SdContinue
import NordicEsb.Dfu.FindCache
import NordicEsb.Lib.DeltaList
import NordicEsb.Lib.LinkedList
import NordicEsb.Timer.Node
import NordicEsb.Timer.Handler
import NordicEsb.Timer.Api
import NordicEsb.Timer.Lists
import NordicEsb.Timer.Passes
import NordicEsb.Timer.Run
import NordicEsb.Timer.Integrity
import NordicEsb.Timer.Order
import NordicEsb.Timer.Expiry
import NordicEsb.Twi.Queue
import NordicEsb.Twi.Manager
import NordicEsb.Twi.Invariant
import NordicEsb.Twi.Completion
import NordicEsb.Lib.ByteMemory
import NordicEsb.Mailbox.AppMailbox
