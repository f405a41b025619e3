/-!
# Errors

The variants of `Error` that the modelled functions return.
-/

namespace Sctp

/-- The errors of the crate that the modelled functions return. -/
inductive Error where
  | errChunkHeaderTooSmall
  | errChunkHeaderNotEnoughSpace
  | errChunkHeaderPaddingNonZero
  | errChunkHeaderInvalidLength
  | errChunkTypeNotAbort
  | errChunkTypeNotCookieAck
  | errChunkTypeNotCookieEcho
  | errChunkTypeNotCtError
  | errChunkTooShort
  | errChunkTypeNotForwardTsn
  | errChunkTypeNotHeartbeat
  | errHeartbeatNotLongEnoughInfo
  | errHeartbeatParam
  | errHeartbeatAckParams
  | errHeartbeatAckNotHeartbeatInfo
  | errErrorCauseTooSmall
  | errParamTypeUnhandled (typ : BitVec 16)
  | errParamTypeUnexpected
  | errParamHeaderTooShort
  | errSsnResetRequestParamTooShort
  | errReconfigRespParamTooShort
  | errInvalidAlgorithmType
  | errChunkTypeNotTypeInit
  | errChunkValueNotLongEnough
  | errChunkTypeInitFlagZero
  | errChunkTypeInitInitateTagZero
  | errInitInboundStreamRequestZero
  | errInitOutboundStreamRequestZero
  | errInitAdvertisedReceiver1500
  | errChunkPayloadSmall
  | errChunkTypeNotPayloadData
  | errChunkTypeNotReconfig
  | errChunkReconfigInvalidParamA
  | errChunkTypeNotSack
  | errSackSizeNotLargeEnoughInfo
  | errInvalidChunkSize
  | errChunkTypeNotShutdown
  | errChunkTypeNotShutdownAck
  | errChunkTypeNotShutdownComplete
  | errPacketRawTooSmall
  | errParseSctpChunkNotEnoughData
  | errChecksumMismatch
  | errTryAgain
  | errChunk
  | errShutdownNonEstablished
  | errInitNotStoredToSend
  | errCookieEchoNotStoredToSend
  | errSctpPacketSourcePortZero
  | errSctpPacketDestinationPortZero
  | errInitChunkBundled
  | errInitChunkVerifyTagNotZero
  | errHandleInitState
  | errInitAckNoCookie
  | errStreamAlreadyExist
  | errStreamCreateFailed
  | errInflightQueueTsnPop
  | errTsnRequestNotExist
  | errResetPacketInStateNotExist
  | errParamterType
  | errPayloadDataStateNotExist
  | errChunkTypeUnhandled
  | errOutboundPacketTooLarge
  | errStreamClosed
  | errShortBuffer
  | errEof
  | errInvalidSystemTime
deriving DecidableEq, Repr

end Sctp
