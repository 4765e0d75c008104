/-!
# RfidReader.Op

The operations the reader chip can run and the codes they finish with.

Both are numbered by a byte on the wire.  `code` gives the number and
`ofCode?` finds the member with a number; `ofCode?_code` says that nothing is
lost in between.
-/

namespace RfidReader

/-! ## Operations -/

inductive Op where
  | idle | logTest | measureAdc | txRampUp | txRampDown | setTxCoarseGain | setTxFineGain
  | radioPowerControl | setRfMode | setRxGain | lockSynthesizer | eventFifoTest | rxRunSjc
  | setGpio | setClearGpioPins | startInventoryRound | runPrbsData | sendSelect | setDac
  | setATestMux | powerControlLoop | measureRssi | usTimerStart | usTimerWait | aggregate
  | listenBeforeTalk | berTest | etsiBurst | hpfOverrideTest | setDcOffset
  deriving DecidableEq, Repr

namespace Op

def all : List Op :=
  [idle, logTest, measureAdc, txRampUp, txRampDown, setTxCoarseGain, setTxFineGain,
    radioPowerControl, setRfMode, setRxGain, lockSynthesizer, eventFifoTest, rxRunSjc,
    setGpio, setClearGpioPins, startInventoryRound, runPrbsData, sendSelect, setDac,
    setATestMux, powerControlLoop, measureRssi, usTimerStart, usTimerWait, aggregate,
    listenBeforeTalk, berTest, etsiBurst, hpfOverrideTest, setDcOffset]

/-- The number that starts the operation. -/
def code : Op → UInt8
  | idle => 0xa0 | logTest => 0xa1 | measureAdc => 0xa2 | txRampUp => 0xa3 | txRampDown => 0xa4
  | setTxCoarseGain => 0xa5 | setTxFineGain => 0xa6 | radioPowerControl => 0xa7
  | setRfMode => 0xa8 | setRxGain => 0xa9 | lockSynthesizer => 0xaa | eventFifoTest => 0xab
  | rxRunSjc => 0xac | setGpio => 0xad | setClearGpioPins => 0xae | startInventoryRound => 0xb0
  | runPrbsData => 0xb1 | sendSelect => 0xb2 | setDac => 0xb3 | setATestMux => 0xb4
  | powerControlLoop => 0xb5 | measureRssi => 0xb6 | usTimerStart => 0xb7 | usTimerWait => 0xb8
  | aggregate => 0xb9 | listenBeforeTalk => 0xba | berTest => 0xc0 | etsiBurst => 0xc1
  | hpfOverrideTest => 0xc2 | setDcOffset => 0xc4

def ofCode? (c : UInt8) : Option Op := all.find? (·.code == c)

def name : Op → String
  | idle => "Idle" | logTest => "LogTest" | measureAdc => "MeasureAdc" | txRampUp => "TxRampUp"
  | txRampDown => "TxRampDown" | setTxCoarseGain => "SetTxCoarseGain"
  | setTxFineGain => "SetTxFineGain" | radioPowerControl => "RadioPowerControl"
  | setRfMode => "SetRfMode" | setRxGain => "SetRxGain" | lockSynthesizer => "LockSynthesizer"
  | eventFifoTest => "EventFifoTest" | rxRunSjc => "RxRunSjc" | setGpio => "SetGpio"
  | setClearGpioPins => "SetClearGpioPins" | startInventoryRound => "StartInventoryRound"
  | runPrbsData => "RunPrbsData" | sendSelect => "SendSelect" | setDac => "SetDac"
  | setATestMux => "SetATestMux" | powerControlLoop => "PowerControlLoop"
  | measureRssi => "MeasureRssi" | usTimerStart => "UsTimerStart" | usTimerWait => "UsTimerWait"
  | aggregate => "Aggregate" | listenBeforeTalk => "ListenBeforeTalk" | berTest => "BerTest"
  | etsiBurst => "EtsiBurst" | hpfOverrideTest => "HpfOverrideTest" | setDcOffset => "SetDcOffset"

theorem ofCode?_code (op : Op) : ofCode? op.code = some op := by
  cases op <;> decide

end Op

/-! ## Results -/

/-- The codes an operation can finish with. -/
inductive OpResult where
  | success | unknownOp | unknownError | invalidParameter | pllNotLocked | powerControlTargetFailed
  | invalidTxState | radioPowerNotEnabled | aggregateBufferOverflow | aggregateInnerOpError
  | sjcCdacRangeError | sjcResidueThresholdExceeded | droopCompensationTooManyAdcChannels
  | eventFailedToSend | aggregateCommandError | unsupportedCommand | berRxHung | timeout
  deriving DecidableEq, Repr

namespace OpResult

def all : List OpResult :=
  [success, unknownOp, unknownError, invalidParameter, pllNotLocked, powerControlTargetFailed,
    invalidTxState, radioPowerNotEnabled, aggregateBufferOverflow, aggregateInnerOpError,
    sjcCdacRangeError, sjcResidueThresholdExceeded, droopCompensationTooManyAdcChannels,
    eventFailedToSend, aggregateCommandError, unsupportedCommand, berRxHung, timeout]

/-- The number reported in the status register; zero is success. -/
def code : OpResult → UInt8
  | success => 0x00 | unknownOp => 0x01 | unknownError => 0x02 | invalidParameter => 0x03
  | pllNotLocked => 0x04 | powerControlTargetFailed => 0x05 | invalidTxState => 0x06
  | radioPowerNotEnabled => 0x07 | aggregateBufferOverflow => 0x08
  | aggregateInnerOpError => 0x09 | sjcCdacRangeError => 0x0b
  | sjcResidueThresholdExceeded => 0x0c | droopCompensationTooManyAdcChannels => 0x0d
  | eventFailedToSend => 0x0e | aggregateCommandError => 0x0f | unsupportedCommand => 0x10
  | berRxHung => 0x11 | timeout => 0x12

def ofCode? (c : UInt8) : Option OpResult := all.find? (·.code == c)

def name : OpResult → String
  | success => "None" | unknownOp => "UnknownOp" | unknownError => "UnknownError"
  | invalidParameter => "InvalidParameter" | pllNotLocked => "PllNotLocked"
  | powerControlTargetFailed => "PowerControlTargetFailed" | invalidTxState => "InvalidTxState"
  | radioPowerNotEnabled => "RadioPowerNotEnabled"
  | aggregateBufferOverflow => "AggregateBufferOverflow"
  | aggregateInnerOpError => "AggregateInnerOpError" | sjcCdacRangeError => "SjcCdacRangeError"
  | sjcResidueThresholdExceeded => "SjcResidueThresholdExceeded"
  | droopCompensationTooManyAdcChannels => "DroopCompensationTooManyAdcChannels"
  | eventFailedToSend => "EventFailedToSend" | aggregateCommandError => "AggregateEx10CommandError"
  | unsupportedCommand => "UnsupportedCommand" | berRxHung => "BerRxHung" | timeout => "Timeout"

theorem ofCode?_code (r : OpResult) : ofCode? r.code = some r := by
  cases r <;> decide

end OpResult
end RfidReader
