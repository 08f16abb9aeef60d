import Nd100x.Ethernet.MfpParts

namespace Nd100x.Ethernet

inductive MfpRegister where
  | gpdr
  | aer
  | ddr
  | iera
  | ierb
  | ipra
  | iprb
  | isra
  | isrb
  | imra
  | imrb
  | vr
  | tacr
  | tbcr
  | tcdcr
  | tadr
  | tbdr
  | tcdr
  | tddr
  | scr
  | ucr
  | rsr
  | tsr
  | udr
  deriving DecidableEq, Repr

/-- The registers in the order of their addresses. -/
def mfpRegisters : List MfpRegister :=
  [.gpdr, .aer, .ddr, .iera, .ierb, .ipra, .iprb, .isra, .isrb, .imra, .imrb, .vr, .tacr, .tbcr,
    .tcdcr, .tadr, .tbdr, .tcdr, .tddr, .scr, .ucr, .rsr, .tsr, .udr]

def intMaskGpio : Fin 8 → Word
  | 0 => Ir.gpip0
  | 1 => Ir.gpip1
  | 2 => Ir.gpip2
  | 3 => Ir.gpip3
  | 4 => Ir.gpip4
  | 5 => Ir.gpip5
  | 6 => Ir.gpip6
  | 7 => Ir.gpip7

def intMaskTimer : MfpTimerName → Word
  | .a => Ir.timerA
  | .b => Ir.timerB
  | .c => Ir.timerC
  | .d => Ir.timerD

/-- The last field is what the interrupt line was last told. -/
structure Mfp where
  startAddress : BitVec 32
  gpip : Byte
  aer : Byte
  ddr : Byte
  ier : Word
  ipr : Word
  isr : Word
  imr : Word
  vr : Byte
  gpioInput : Byte
  gpioOutput : Byte
  timerA : MfpTimer
  timerB : MfpTimer
  timerC : MfpTimer
  timerD : MfpTimer
  usart : Usart
  useSystemVectorMapping : Bool
  cycleExactCpu : Bool
  timerBEventCyclePos : Int
  currentLineCycle : Int
  iei : Bool
  lastIrqState : Bool
  separateTimerClock : Bool
  line : Bool

def mfpSpuriousVector : Byte := 0x18

/-- The channels, the highest first. -/
def mfpChannels : List Nat := [15, 14, 13, 12, 11, 10, 9, 8, 7, 6, 5, 4, 3, 2, 1, 0]

def channelBit (channel : Nat) : Word := (1 : Word) <<< channel

def higherPriorityMask (channel : Nat) : Word := ~~~(((1 : Word) <<< channel <<< 1) - 1)

/-- The high byte of a register pair is register A, the low one is register B. -/
def putHigh (word : Word) (value : Byte) : Word := (value.setWidth 16 <<< 8) ||| (word &&& 0x00FF)
def putLow (word : Word) (value : Byte) : Word := (word &&& 0xFF00) ||| value.setWidth 16
def highByte (word : Word) : Byte := (word >>> 8).setWidth 8
def lowByte (word : Word) : Byte := word.setWidth 8

/-- A channel is pending and unmasked and no higher one is in service. -/
def serviceable (ipr imr isr : Word) (channel : Nat) : Bool :=
  ipr &&& imr &&& channelBit channel ≠ 0 && isr &&& higherPriorityMask channel = 0

def anyServiceable (ipr imr isr : Word) : Bool := mfpChannels.any (serviceable ipr imr isr)

namespace Mfp

def onIrq (m : Mfp) (state : Bool) : Mfp := { m with lastIrqState := state, line := state }

def checkInterrupts (m : Mfp) : Mfp :=
  if m.iei = false then if m.lastIrqState then m.onIrq false else m
  else
    let any := anyServiceable m.ipr m.imr m.isr
    if any ≠ m.lastIrqState then m.onIrq any else m

def takeInterrupt (m : Mfp) (ivn : Word) : Mfp :=
  { m with ipr := m.ipr ||| ivn }.checkInterrupts

def tryTakeInterrupt (m : Mfp) (ivn : Word) : Mfp :=
  if has m.ier ivn then m.takeInterrupt ivn else m

/-- The serial interface has changed and asks for interrupts. -/
def onUsart (m : Mfp) (asks : Usart.Asks) : Mfp :=
  asks.2.foldl tryTakeInterrupt { m with usart := asks.1 }

/-- The registers after power-on or a reset. -/
def cleared (startAddress : BitVec 32) (usart : Usart) : Mfp where
  startAddress := startAddress
  gpip := 0
  aer := 0
  ddr := 0
  ier := 0
  ipr := 0
  isr := 0
  imr := 0
  vr := 0
  gpioInput := 0
  gpioOutput := 0xFF
  timerA := .create .a
  timerB := .create .b
  timerC := .create .c
  timerD := .create .d
  usart := usart.clear
  useSystemVectorMapping := false
  cycleExactCpu := false
  timerBEventCyclePos := -1
  currentLineCycle := 0
  iei := true
  lastIrqState := false
  separateTimerClock := false
  line := false

/-- The line is not told of a reset. -/
def reset (m : Mfp) : Mfp :=
  { cleared m.startAddress m.usart with
    useSystemVectorMapping := m.useSystemVectorMapping
    cycleExactCpu := m.cycleExactCpu
    timerBEventCyclePos := m.timerBEventCyclePos
    currentLineCycle := m.currentLineCycle
    iei := m.iei
    separateTimerClock := m.separateTimerClock
    line := m.line }

/-- Address line 0 is ignored. -/
def map2register (m : Mfp) (address : BitVec 32) : Option MfpRegister :=
  mfpRegisters[((address ||| 1) - m.startAddress).toNat / 2]?

/-- Between two cycles a counted event may be seen early. -/
def readTbdr (m : Mfp) : Byte :=
  let early := !m.cycleExactCpu && m.timerB.tcr = tcrTimerEvent && 0 ≤ m.timerBEventCyclePos &&
    m.currentLineCycle < m.timerBEventCyclePos && m.timerBEventCyclePos ≤ m.currentLineCycle + 4
  if early then if m.timerB.tmc - 1 = 0 then m.timerB.tdr else m.timerB.tmc - 1
  else m.timerB.tmc

def readRegister (m : Mfp) : MfpRegister → Mfp × Byte
  | .gpdr => (m, (m.gpip &&& m.ddr) ||| (m.gpioInput &&& ~~~m.ddr))
  | .aer => (m, m.aer)
  | .ddr => (m, m.ddr)
  | .iera => (m, highByte m.ier)
  | .ierb => (m, lowByte m.ier)
  | .ipra => (m, highByte m.ipr)
  | .iprb => (m, lowByte m.ipr)
  | .isra => (m, highByte m.isr)
  | .isrb => (m, lowByte m.isr)
  | .imra => (m, highByte m.imr)
  | .imrb => (m, lowByte m.imr)
  | .vr => (m, m.vr)
  | .tacr => (m, m.timerA.tcr)
  | .tbcr => (m, m.timerB.tcr)
  | .tcdcr => (m, (m.timerD.tcr &&& 0x07) ||| ((m.timerC.tcr &&& 0x07) <<< 4))
  | .tadr => (m, m.timerA.tmc)
  | .tbdr => (m, m.readTbdr)
  | .tcdr => (m, m.timerC.tmc)
  | .tddr => (m, m.timerD.tmc)
  | .scr => (m, m.usart.scr)
  | .ucr => (m, m.usart.ucr)
  | .rsr => ({ m with usart := m.usart.clearRsr Rsr.overrunError }, m.usart.rsr)
  | .tsr =>
    ({ m with usart := if m.usart.underrun then m.usart else m.usart.clearTsr Tsr.underrunError },
      m.usart.tsr)
  | .udr => (m.onUsart m.usart.readUdr, m.usart.receiveBuffer)

def read (m : Mfp) (address : BitVec 32) : Mfp × Byte :=
  match m.map2register address with
  | none => (m, 0)
  | some register => m.readRegister register

def updateGpioOutput (m : Mfp) : Mfp := { m with gpioOutput := m.gpip &&& m.ddr }

/-- An input pin interrupts at its active edge. -/
def updateGpipInterrupt (gpipOld gpipNew aerOld aerNew : Byte) (m : Mfp) (bit : Fin 8) : Mfp :=
  if m.ddr.getLsbD bit then m
  else if (gpipOld ^^^ aerOld).getLsbD bit = (gpipNew ^^^ aerNew).getLsbD bit then m
  else if gpipNew.getLsbD bit = aerNew.getLsbD bit ∧ m.ier &&& intMaskGpio bit ≠ 0 then
    m.takeInterrupt (intMaskGpio bit)
  else m

def updateGpipInterrupts (m : Mfp) (gpipOld gpipNew aerOld aerNew : Byte) : Mfp :=
  (List.finRange 8).foldl (updateGpipInterrupt gpipOld gpipNew aerOld aerNew) m

def writeRsr (u : Usart) (value : Byte) : Usart :=
  let u := if has value Rsr.rcvEnable then u.setRsr Rsr.rcvEnable else { u with rsr := 0 }
  let u :=
    if has value Rsr.syncStripEnable then u.setRsr Rsr.syncStripEnable
    else u.clearRsr Rsr.syncStripEnable
  if u.syncMode then
    if has value Rsr.foundSearch then u.setRsr Rsr.foundSearch else u.clearRsr Rsr.foundSearch
  else u

def writeTsr (u : Usart) (value : Byte) : Usart :=
  let keep := Tsr.bufferEmpty ||| Tsr.underrunError ||| Tsr.endOfXmit
  let u := { u with tsr := (u.tsr &&& keep) ||| (value &&& ~~~keep) }
  if has value Tsr.xmitEnable then u.clearTsr Tsr.endOfXmit
  else { u.clearTsr Tsr.underrunError with underrun := false }

def isBitCountOdd (b : Byte) : Bool := ((List.range 8).countP b.getLsbD) % 2 = 1

def putIer (m : Mfp) (ier : Word) : Mfp :=
  { m with ier := ier, ipr := m.ipr &&& ier }.checkInterrupts

def putIpr (m : Mfp) (ipr : Word) : Mfp := { m with ipr := m.ipr &&& ipr }.checkInterrupts

def putImr (m : Mfp) (imr : Word) : Mfp := { m with imr := imr }.checkInterrupts

/-- The line is not checked again. -/
def putIsr (m : Mfp) (isr : Word) : Mfp := { m with isr := m.isr &&& isr }

/-- Leaving the software end-of-interrupt mode clears the in-service bits. -/
def putVr (m : Mfp) (value : Byte) : Mfp :=
  if m.vr.getLsbD 3 ≠ value.getLsbD 3 ∧ value.getLsbD 3 = false then
    { m with vr := value, isr := 0 }
  else { m with vr := value }

def writeRegister (m : Mfp) (value : Byte) : MfpRegister → Mfp
  | .gpdr =>
    ({ m with gpip := value }.updateGpioOutput).updateGpipInterrupts m.gpip value m.aer m.aer
  | .aer =>
    ({ m with aer := value }).updateGpipInterrupts m.gpioInput m.gpioInput m.aer value
  | .ddr => { m with ddr := value }.updateGpioOutput
  | .iera => m.putIer (putHigh m.ier value)
  | .ierb => m.putIer (putLow m.ier value)
  | .ipra => m.putIpr (putHigh m.ipr value)
  | .iprb => m.putIpr (putLow m.ipr value)
  | .isra => m.putIsr (putHigh m.isr value)
  | .isrb => m.putIsr (putLow m.isr value)
  | .imra => m.putImr (putHigh m.imr value)
  | .imrb => m.putImr (putLow m.imr value)
  | .vr => m.putVr value
  | .tacr => { m with timerA := m.timerA.setControlRegister (value &&& 0x1F) }
  | .tbcr => { m with timerB := m.timerB.setControlRegister (value &&& 0x1F) }
  | .tcdcr =>
    { m with
      timerD := m.timerD.setControlRegister (value &&& 0x07)
      timerC := m.timerC.setControlRegister ((value >>> 4) &&& 0x07) }
  | .tadr => { m with timerA := m.timerA.setDataRegister value }
  | .tbdr => { m with timerB := m.timerB.setDataRegister value }
  | .tcdr => { m with timerC := m.timerC.setDataRegister value }
  | .tddr => { m with timerD := m.timerD.setDataRegister value }
  | .scr => { m with usart := { m.usart with scr := value, scrParity := isBitCountOdd value } }
  | .ucr => { m with usart := { m.usart with ucr := value } }
  | .rsr => { m with usart := writeRsr m.usart value }
  | .tsr => { m with usart := writeTsr m.usart value }
  | .udr =>
    { m with usart := { m.usart with transmitBuffer := value }.clearTsr Tsr.bufferEmpty }

/-- The owner's hook for register writes runs first, as steps of its own. -/
def write (m : Mfp) (address : BitVec 32) (value : Byte) : Mfp :=
  match m.map2register address with
  | none => m
  | some register => m.writeRegister value register

/-- Another device of the chain may answer instead. -/
def getDaisyChainVector (daisyChain : Option Byte) : Byte := daisyChain.getD mfpSpuriousVector

def mapMfpVectorToSystem (m : Mfp) (channel : Nat) : Byte :=
  let vectorType := channelBit channel
  if vectorType = Ir.gpip7 then 117
  else if vectorType = Ir.gpip6 then 116
  else if vectorType = Ir.rcvBufferFull then 114
  else if vectorType = Ir.rcvError then 113
  else if vectorType = Ir.xmitBufferEmpty then 112
  else if vectorType = Ir.xmitError then 111
  else if vectorType = Ir.gpip5 then 107
  else (m.vr &&& 0xF0) ||| BitVec.ofNat 8 channel

def vectorOf (m : Mfp) (channel : Nat) : Byte :=
  if m.useSystemVectorMapping then m.mapMfpVectorToSystem channel
  else (m.vr &&& 0xF0) ||| BitVec.ofNat 8 channel

/-- A channel is acknowledged. It is in service in the software end-of-interrupt mode. -/
def acknowledge (m : Mfp) (channel : Nat) : Mfp :=
  let ivn := channelBit channel
  let m := if m.vr.getLsbD 3 then { m with isr := m.isr ||| ivn } else m
  ({ m with ipr := m.ipr &&& ~~~ivn }.onIrq false).checkInterrupts

def getVector (m : Mfp) (daisyChain : Option Byte) : Mfp × Byte :=
  if m.iei = false then (m, getDaisyChainVector daisyChain)
  else
    match mfpChannels.find? (serviceable m.ipr m.imr m.isr) with
    | none => (m, getDaisyChainVector daisyChain)
    | some channel =>
      let m := m.acknowledge channel
      (m, m.vectorOf channel)

def triggerSoftwareInterrupt (m : Mfp) (channel : Int) (vectorBase : Byte) : Mfp :=
  if channel < 0 ∨ 15 < channel then m
  else
    let ivn := channelBit channel.toNat
    { m with
      vr := (vectorBase &&& 0xF0) ||| 0x08
      ier := m.ier ||| ivn
      imr := m.imr ||| ivn }.takeInterrupt ivn

def triggerInterrupt (m : Mfp) (gpioPin : Int) : Mfp :=
  if inside : 0 ≤ gpioPin ∧ gpioPin < 8 then
    m.tryTakeInterrupt (intMaskGpio ⟨gpioPin.toNat, by omega⟩)
  else m

def triggerTimerCInterrupt (m : Mfp) : Mfp := m.tryTakeInterrupt Ir.timerC
def triggerUsartReceiveInterrupt (m : Mfp) : Mfp := m.tryTakeInterrupt Ir.rcvBufferFull
def triggerUsartReceiveError (m : Mfp) : Mfp := m.tryTakeInterrupt Ir.rcvError
def triggerUsartTransmitInterrupt (m : Mfp) : Mfp := m.tryTakeInterrupt Ir.xmitBufferEmpty
def triggerUsartTransmitError (m : Mfp) : Mfp := m.tryTakeInterrupt Ir.xmitError

def putTimer (m : Mfp) (t : MfpTimer) : Mfp :=
  match t.timerName with
  | .a => { m with timerA := t }
  | .b => { m with timerB := t }
  | .c => { m with timerC := t }
  | .d => { m with timerD := t }

/-- A timer has counted, and it interrupts when it elapsed. -/
def onTimer (m : Mfp) (counted : MfpTimer × Bool) : Mfp :=
  let m := m.putTimer counted.1
  if counted.2 then m.tryTakeInterrupt (intMaskTimer counted.1.timerName) else m

/-- Timer A listens to pin 4 and timer B to pin 3. -/
def timerInput (m : Mfp) (t : MfpTimer) (bit : Fin 8) (newState : Bool) : Mfp :=
  let activeEdge := m.aer.getLsbD bit
  let pulse := (t.tcr &&& 0x0F).toNat
  if pulse = 8 then
    if t.inLatch ≠ activeEdge ∧ newState = activeEdge then
      m.onTimer ({ t.timerCount.1 with inLatch := newState }, t.timerCount.2)
    else m.putTimer { t with inLatch := newState }
  else if 8 < pulse then
    let moved := m.putTimer { t.setEnable (newState = activeEdge) with inLatch := newState }
    if t.inLatch = activeEdge ∧ newState ≠ activeEdge then
      moved.tryTakeInterrupt (intMaskGpio bit)
    else moved
  else m.putTimer { t with inLatch := newState }

def timerInputA (m : Mfp) (newState : Bool) : Mfp := m.timerInput m.timerA 4 newState
def timerInputB (m : Mfp) (newState : Bool) : Mfp := m.timerInput m.timerB 3 newState

def clockTimers (m : Mfp) : Mfp :=
  let m := m.onTimer m.timerA.tick
  let m := m.onTimer m.timerB.tick
  let m := m.onTimer m.timerC.tick
  m.onTimer m.timerD.tick

def clock (m : Mfp) : Mfp := if m.separateTimerClock then m else m.clockTimers

def setSerialInput (m : Mfp) (state : Bool) : Mfp :=
  { m with usart := m.usart.setSerialInput state }

def setReceiverClock (m : Mfp) (state : Bool) : Mfp := m.onUsart (m.usart.setReceiverClock state)

def setTransmitterClock (m : Mfp) (state : Bool) : Mfp :=
  m.onUsart (m.usart.setTransmitterClock state)

def receiveSerialByte (m : Mfp) (data : Byte) : Mfp :=
  m.onUsart ({ m.usart with receiveBuffer := data }.setRsr Rsr.bufferFull, [Ir.rcvBufferFull])

def gpioInputPin (m : Mfp) (bit : Fin 8) (state : Bool) : Mfp :=
  if state = m.gpioInput.getLsbD bit then m
  else
    let m :=
      if state = m.aer.getLsbD bit ∧ m.ier &&& intMaskGpio bit ≠ 0 then
        m.takeInterrupt (intMaskGpio bit)
      else m
    let mask := (1 : Byte) <<< bit.val
    { m with gpioInput := if state then m.gpioInput ||| mask else m.gpioInput &&& ~~~mask }

end Mfp

end Nd100x.Ethernet
