import Sctp.Util
import Sctp.Error
import Sctp.Lib.SortBy
import Sctp.Lib.AssocMap
import Sctp.Lib.KeyedMax
import Sctp.Lib.SerialWindow
import Sctp.Wire.PacketTheorems
import Sctp.Queue.WritersTheorems
import Sctp.Queue.PayloadQueueTheorems
import Sctp.Queue.SerialOrderTheorems
import Sctp.StreamTheorems
import Sctp.Association.SenderTheorems
import Sctp.Association.ShutdownTheorems
import Sctp.Association.ForwardTsnTheorems
import Sctp.Association.OneByteTraffic
import Sctp.Lib.ReceiveWindow
import Sctp.Association.Receiver
import Sctp.Association.ReceiverTheorems
import Sctp.Association.DelayedAck
import Sctp.Association.DelayedAckTheorems
import Sctp.Association.Handshake
import Sctp.Association.HandshakeTheorems
import Sctp.Association.StreamReset
import Sctp.Association.StreamTableTheorems
import Sctp.Association.ResetInTimeTheorems
import Sctp.Association.ResetOnceTheorems
import Sctp.Association.ReadResetTheorems
import Sctp.Association.SkipRelease
import Sctp.Association.SkipReleaseTheorems
import Sctp.Wire.FramingTheorems
import Sctp.Association.ResetExchange
import Sctp.Association.ResetExchangeTheorems
import Sctp.Association.GapReportsTheorems
import Sctp.Lib.Stretch
import Sctp.Queue.MarkerTheorems
import Sctp.Queue.PendingOrderTheorems
import Sctp.Association.GatherTheorems
import Sctp.Association.NewDataTheorems
import Sctp.PollStream
import Sctp.PollStreamTheorems
import Sctp.ReadRace
import Sctp.ReadRaceTheorems
import Sctp.Association.Endpoint
import Sctp.Association.EndpointTheorems
import Sctp.Association.BundleTheorems
import Sctp.Association.TimerTheorems
import Sctp.Association.ShutdownRace
import Sctp.Association.ShutdownRaceTheorems
import Sctp.Lib.ByteWriter
import Sctp.Wire.Marshal
import Sctp.Wire.ParamRoundTripTheorems
import Sctp.Wire.ChunkRoundTripTheorems
import Sctp.Wire.RoundTripTheorems
import Sctp.Association.Retention
import Sctp.Association.RetentionTheorems
import Sctp.Queue.PayloadQueueRuns
import Sctp.Queue.ReassemblyRuns
import Sctp.Queue.ReassemblyTheorems
import Sctp.Queue.UnorderedRunTheorems
import Sctp.Queue.OrderedDeliveryTheorems
import Sctp.Queue.SkippedDeliveryTheorems
import Sctp.Queue.PayloadQueueRunTheorems
import Sctp.Association.GapBlocks
import Sctp.Association.WindowCredit
import Sctp.Association.GapBlocksTheorems
import Sctp.Queue.BytesTheorems
import Sctp.Association.Transmission
import Sctp.Association.TransmissionTheorems
import Sctp.Association.BufferedAmount
import Sctp.Association.WindowCreditTheorems
import Sctp.Association.ReleaseTheorems
import Sctp.Association.BufferedAmountTheorems
import Sctp.Association.GatherBytesTheorems
import Sctp.Association.BufferedRunTheorems
import Sctp.Association.DuplicateReports
import Sctp.Association.DuplicateReportsTheorems
import Sctp.WriteTheorems
import Sctp.Association.SendingLoop
import Sctp.Association.SendingLoopTheorems
import Sctp.Association.FastRecoveryTheorems
import Sctp.Association.SenderNotesTheorems
import Sctp.Association.FreeTsnTheorems
import Sctp.Association.SkipPointTheorems
import Sctp.Association.SenderCallTheorems
import Sctp.Association.RepeatedSackTheorems
import Sctp.Association.ReleaseOnceTheorems
import Sctp.Association.PacketSizeTheorems
import Sctp.Association.ForwardStreamsTheorems
import Sctp.Association.LiveRetransmissionTheorems
import Sctp.Association.EndOfStream
import Sctp.Association.EndOfStreamTheorems
import Sctp.Association.InitTheorems
import Sctp.PollRead
import Sctp.PollReadTheorems
import Sctp.WriteNumbers
import Sctp.WriteNumbersTheorems
import Sctp.Association.RtxTimerRaceTheorems
import Sctp.RtxTimerRace
import Sctp.Queue.Overflow
import Sctp.Queue.OverflowTheorems
import Sctp.Association.Overflow
import Sctp.Association.OverflowTheorems
import Sctp.Association.PartialBytes
import Sctp.Association.PartialBytesTheorems
import Sctp.Lib.Blocks
import Sctp.Lib.CompleteWindow
import Sctp.Lib.ConsecutiveRun
import Sctp.Queue.InTurnTheorems
import Sctp.Queue.PoppedMessagesTheorems
import Sctp.Association.Delivery
import Sctp.Association.StreamNumberTheorems
import Sctp.Association.DeliverySenderTheorems
import Sctp.Association.SentBlocksTheorems
import Sctp.Association.ReceiptTheorems
import Sctp.Association.DeliveryTheorems
import Sctp.Association.AcknowledgedTheorems
import Sctp.Association.HonestSackTheorems
import Sctp.Association.WindowGrowthTheorems
import Sctp.Association.ProgressTheorems
