import Mathlib.Data.BitVec
import Mathlib.Tactic.SplitIfs

namespace Nd100x.Ethernet

abbrev Byte := BitVec 8
abbrev Word := BitVec 16

/-- Every bit of the flags is set. -/
def has {width : Nat} (value flags : BitVec width) : Bool := value &&& flags = flags

/-- The bits of the flags are set or cleared. -/
def setFlags (value flags : Byte) : Byte := value ||| flags
def clearFlags (value flags : Byte) : Byte := value &&& ~~~flags

/- The interrupt channels. -/

namespace Ir

def gpip0 : Word := 0x0001
def gpip1 : Word := 0x0002
def gpip2 : Word := 0x0004
def gpip3 : Word := 0x0008
def timerD : Word := 0x0010
def timerC : Word := 0x0020
def gpip4 : Word := 0x0040
def gpip5 : Word := 0x0080
def timerB : Word := 0x0100
def xmitError : Word := 0x0200
def xmitBufferEmpty : Word := 0x0400
def rcvError : Word := 0x0800
def rcvBufferFull : Word := 0x1000
def timerA : Word := 0x2000
def gpip6 : Word := 0x4000
def gpip7 : Word := 0x8000

end Ir

/- Timers. -/

inductive MfpTimerName where
  | a
  | b
  | c
  | d
  deriving DecidableEq, Repr

structure MfpTimer where
  tcr : Byte
  tdr : Byte
  tmc : Byte
  inLatch : Bool
  outLatch : Bool
  isEnabled : Bool
  prescalerCount : Nat
  currentDivisor : Nat
  timerName : MfpTimerName
  deriving DecidableEq, Repr

def mfpTimerPrescaler : Nat → Nat
  | 0 => 0
  | 1 => 4
  | 2 => 10
  | 3 => 16
  | 4 => 50
  | 5 => 64
  | 6 => 100
  | _ => 200

def tcrTimerEvent : Byte := 0x08

namespace MfpTimer

def create (timerName : MfpTimerName) : MfpTimer :=
  ⟨0, 0, 0, false, false, false, 0, 0, timerName⟩

def setEnable (t : MfpTimer) (enable : Bool) : MfpTimer := { t with isEnabled := enable }

/-- The counter elapses at one and starts again from its data register. -/
def timerCount (t : MfpTimer) : MfpTimer × Bool :=
  if t.tmc = 0x01 then ({ t with outLatch := !t.outLatch, tmc := t.tdr }, true)
  else ({ t with tmc := t.tmc - 1 }, false)

def tick (t : MfpTimer) : MfpTimer × Bool :=
  if t.isEnabled ∧ 0 < t.currentDivisor then
    let t := { t with prescalerCount := t.prescalerCount + 1 }
    if t.currentDivisor ≤ t.prescalerCount then timerCount { t with prescalerCount := 0 }
    else (t, false)
  else (t, false)

/-- Only the timers A and B have a reset bit. -/
def setControlRegister (t : MfpTimer) (value : Byte) : MfpTimer :=
  let isAb := t.timerName = .a ∨ t.timerName = .b
  let t := if isAb ∧ value &&& 0x10 ≠ 0 then { t with tmc := t.tdr, outLatch := false } else t
  let t := { t with tcr := value &&& if isAb then 0x0F else 0x07 }
  let mode := (value &&& 0x0F).toNat
  if mode = 0 then { t with isEnabled := false, currentDivisor := 0 }
  else if mode < 8 then
    { t with
      currentDivisor := mfpTimerPrescaler mode
      prescalerCount := 0
      isEnabled := true }
  else if mode = 8 then { t with isEnabled := false, currentDivisor := 0, tmc := t.tdr }
  else
    { t with
      currentDivisor := mfpTimerPrescaler (mode % 8)
      prescalerCount := 0
      isEnabled := false }

def setDataRegister (t : MfpTimer) (data : Byte) : MfpTimer :=
  let t := { t with tdr := data }
  if t.tcr = 0 ∨ t.tcr = tcrTimerEvent then { t with tmc := t.tdr } else t

def clear (t : MfpTimer) : MfpTimer := create t.timerName

end MfpTimer

/- The serial interface. -/

namespace Ucr

def parityEnabled : Byte := 0x04
def parityEven : Byte := 0x02
def wordLengthMask : Byte := 0x60
def startStop00 : Byte := 0x00
def startStop115 : Byte := 0x10
def startStop12 : Byte := 0x18
def clockDivide16 : Byte := 0x80
def clockDivide1 : Byte := 0x00

end Ucr

namespace Rsr

def rcvEnable : Byte := 0x01
def syncStripEnable : Byte := 0x02
def charInProgress : Byte := 0x04
def foundSearch : Byte := 0x08
def break_ : Byte := 0x08
def frameError : Byte := 0x10
def parityError : Byte := 0x20
def overrunError : Byte := 0x40
def bufferFull : Byte := 0x80

end Rsr

namespace Tsr

def xmitEnable : Byte := 0x01
def outputLow : Byte := 0x02
def outputLoop : Byte := 0x06
def break_ : Byte := 0x08
def endOfXmit : Byte := 0x10
def autoTurnaround : Byte := 0x20
def underrunError : Byte := 0x40
def bufferEmpty : Byte := 0x80
def outputMask : Byte := 0x06

end Tsr

structure Usart where
  ucr : Byte
  tsr : Byte
  rsr : Byte
  transmitBuffer : Byte
  receiveBuffer : Byte
  scr : Byte
  scrParity : Bool
  rframe : Word
  rclk : Byte
  rbits : Byte
  siScan : Byte
  nextRsr : Byte
  rc : Bool
  si : Bool
  lastSi : Bool
  rparity : Bool
  osr : Word
  tclk : Byte
  tbits : Byte
  tc : Bool
  so : Bool
  tparity : Bool
  underrun : Bool
  deriving DecidableEq, Repr, Inhabited

namespace Usart

/-- Only the parity of the synchronous character is kept. -/
def clear (u : Usart) : Usart where
  rsr := 0
  tsr := Tsr.bufferEmpty
  underrun := false
  rclk := 0
  tclk := 0
  scr := 0
  scrParity := u.scrParity
  ucr := 0
  rframe := 0x100
  nextRsr := 0
  siScan := 0xFF
  si := true
  lastSi := true
  rc := true
  tc := true
  so := true
  rbits := 0
  tbits := 0
  osr := 0
  rparity := false
  tparity := false
  transmitBuffer := 0
  receiveBuffer := 0

def setRsr (u : Usart) (flags : Byte) : Usart := { u with rsr := setFlags u.rsr flags }
def clearRsr (u : Usart) (flags : Byte) : Usart := { u with rsr := clearFlags u.rsr flags }
def setTsr (u : Usart) (flags : Byte) : Usart := { u with tsr := setFlags u.tsr flags }
def clearTsr (u : Usart) (flags : Byte) : Usart := { u with tsr := clearFlags u.tsr flags }

/-- The interface changes and asks for the interrupts of some channels, in this order. -/
abbrev Asks := Usart × List Word

def readUdr (u : Usart) : Asks :=
  let u := u.clearRsr Rsr.bufferFull
  let deferred := u.nextRsr ≠ 0
  let u := if deferred then { u.setRsr u.nextRsr with nextRsr := 0 } else u
  let ended := has u.rsr Rsr.break_ ∧ u.rframe.getLsbD 9
  let u := if ended then u.clearRsr Rsr.break_ else u
  (u, (if deferred then [Ir.rcvError] else []) ++ if ended then [Ir.rcvError] else [])

def setSerialInput (u : Usart) (state : Bool) : Usart := { u with si := state }

def rxFrameStart (u : Usart) : Usart :=
  { u with
    rframe := 0
    rbits := (u.ucr &&& Ucr.wordLengthMask) >>> 5
    rparity := !has u.ucr Ucr.parityEven }

def rxAsyncFrameComplete (u : Usart) : Asks :=
  if has u.rsr Rsr.bufferFull then
    ({ u with
      nextRsr := setFlags u.nextRsr
        (if u.rframe = 0 ∧ u.lastSi = false then Rsr.break_ else Rsr.overrunError) }, [])
  else if has u.rsr Rsr.overrunError then
    (if u.rframe = 0 ∧ u.lastSi = false then u.setRsr Rsr.break_ else u, [])
  else
    let u := { u with receiveBuffer := u.rframe.setWidth 8 }.setRsr Rsr.bufferFull
    let u := u.clearRsr (Rsr.parityError ||| Rsr.frameError ||| Rsr.break_)
    let u := if u.rparity then u.setRsr Rsr.parityError else u
    let u :=
      if u.lastSi = false then u.setRsr (if u.rframe = 0 then Rsr.break_ else Rsr.frameError)
      else u
    (u, [if u.rparity || !u.lastSi then Ir.rcvError else Ir.rcvBufferFull])

def divides1 (u : Usart) : Bool := u.ucr &&& Ucr.clockDivide16 = Ucr.clockDivide1
def syncMode (u : Usart) : Bool := u.ucr &&& Ucr.startStop12 = Ucr.startStop00

/-- A break ends when the line goes high between two characters. -/
def rxSync (u : Usart) (si : Bool) : Asks :=
  let u := { u with lastSi := si }
  if si && !u.syncMode && !has u.rsr Rsr.charInProgress then
    let u := { u with rframe := 0x100 }
    let ended := !has u.rsr Rsr.bufferFull && has u.rsr Rsr.break_
    let u := if ended then u.clearRsr Rsr.break_ else u
    ({ u with rclk := 0 }, if ended then [Ir.rcvError] else [])
  else ({ u with rclk := 0 }, [])

def lastSiBit (u : Usart) : Word := if u.lastSi then 0x100 else 0

/-- The line is sampled inside a character, or a character starts. -/
def rxSample (u : Usart) : Asks :=
  if has u.rsr Rsr.charInProgress then
    if 8 < u.rbits then
      let completed := u.rxAsyncFrameComplete
      ({ completed.1 with rframe := completed.1.lastSiBit }.clearRsr Rsr.charInProgress,
        completed.2)
    else
      let u := { u with rframe := (u.rframe >>> 1) ||| u.lastSiBit }
      let u := if u.lastSi then { u with rparity := !u.rparity } else u
      let u := { u with rbits := u.rbits + 1 }
      if u.rbits = 8 then
        let u := { u with rframe := u.rframe >>> ((u.ucr &&& Ucr.wordLengthMask).toNat / 32) }
        if has u.ucr Ucr.parityEnabled then (u, [])
        else ({ u with rframe := u.rframe >>> 1, rparity := false, rbits := u.rbits + 1 }, [])
      else (u, [])
  else if u.lastSi = false ∧ u.rframe &&& 0x100 ≠ 0 then
    ((u.setRsr Rsr.charInProgress).rxFrameStart, [])
  else (u, [])

def rxClock (u : Usart) (si : Bool) : Asks :=
  let u := { u with rclk := u.rclk + 1 }
  let u := if 244 ≤ u.rclk then { u with rclk := u.rclk &&& 15 } else u
  let u := { u with siScan := (u.siScan >>> 1) ||| if si then 0x80 else 0 }
  let rclkSync := u.divides1 ||
    (4 ≤ u.rclk && u.siScan &&& 0xE0 = if u.lastSi then 0 else 0xE0)
  let synced := if rclkSync then u.rxSync si else (u, [])
  let u := synced.1
  if (u.divides1 || u.rclk &&& 15 = 8) && !u.syncMode then
    let sampled := u.rxSample
    (sampled.1, synced.2 ++ sampled.2)
  else synced

/-- A negative word length gives a shift count that the host takes modulo 32. -/
def txFrameLoad (u : Usart) (data : Byte) : Usart :=
  let u :=
    { u with
      osr := data.setWidth 16
      tbits := BitVec.ofInt 8 ((9 - ((u.ucr &&& Ucr.wordLengthMask).toNat : Int)) / 32)
      tparity := !has u.ucr Ucr.parityEven }
  if u.syncMode then u
  else
    { u with
      osr := (u.osr <<< 1) ||| ((1 : BitVec 32) <<< (u.tbits.toNat % 32)).setWidth 16
      tbits := u.tbits + 2 }

/-- The parity bit is loaded or left out. -/
def txParity (u : Usart) : Usart :=
  if u.tbits = if u.syncMode then 2 else 3 then
    if has u.ucr Ucr.parityEnabled then
      { u with osr := (u.osr <<< 1) ||| if u.tparity then 1 else 0 }
    else { u with tbits := u.tbits - 1 }
  else u

/-- The bit count goes on, and the end of a character may be the end of the transmission. The
second part is whether the transmitter is busy. -/
def txCount (u : Usart) (sendBreak : Bool) : (Usart × Bool) × List Word :=
  if u.tbits ≠ 0 then
    let u := { u with tbits := u.tbits - 1 }
    if u.tbits ≠ 0 then ((u, true), [])
    else if !has u.tsr Tsr.xmitEnable then
      let u := u.setTsr Tsr.endOfXmit
      let u :=
        if has u.tsr Tsr.autoTurnaround then
          (u.setRsr Rsr.rcvEnable).clearTsr Tsr.autoTurnaround
        else u
      ((u, false), [Ir.xmitError])
    else if has u.tsr Tsr.bufferEmpty && !has u.tsr Tsr.underrunError && !sendBreak then
      (({ u.setTsr Tsr.underrunError with underrun := true }, false), [Ir.xmitError])
    else ((u, false), [])
  else ((u, false), [])

def stopTclk (u : Usart) : Usart :=
  let two := u.ucr &&& Ucr.startStop12 = Ucr.startStop12
  if u.tbits = 1 ∧ Ucr.startStop115 ≤ u.ucr &&& Ucr.startStop12 then
    if has u.ucr Ucr.clockDivide16 then { u with tclk := if two then 31 else 23 }
    else { u with tclk := if two then 1 else 0 }
  else if has u.ucr Ucr.clockDivide16 then { u with tclk := 15 }
  else u

/-- A bit of the character goes out, or the line shows the idle state. -/
def txOutput (u : Usart) (busy sendBreak : Bool) : Usart :=
  if busy then
    let u := { u with so := u.osr.getLsbD 0 }
    let u := if u.osr.getLsbD 0 then { u with tparity := !u.tparity } else u
    { u with osr := u.osr >>> 1 }.stopTclk
  else if !has u.tsr Tsr.xmitEnable then
    { u with so := u.tsr &&& Tsr.outputMask ≠ Tsr.outputLow }
  else if sendBreak then { u with so := false, tbits := 1 }
  else { u with so := true }

def txClock (u : Usart) : Asks :=
  if u.tclk ≠ 0 then ({ u with tclk := u.tclk - 1 }, [])
  else
    let u := { u with underrun := false }.txParity
    let sendBreak := !u.syncMode && has u.tsr Tsr.break_
    let counted := u.txCount sendBreak
    let u := counted.1.1
    let busy := counted.1.2
    if !busy && has u.tsr Tsr.xmitEnable && !has u.tsr Tsr.bufferEmpty && !sendBreak then
      let u := (u.setTsr Tsr.bufferEmpty).txFrameLoad u.transmitBuffer
      (u.txOutput true sendBreak, counted.2 ++ [Ir.xmitBufferEmpty])
    else (u.txOutput busy sendBreak, counted.2)

def setReceiverClock (u : Usart) (state : Bool) : Asks :=
  if state = u.rc then (u, [])
  else
    let u := { u with rc := state }
    if state && has u.rsr Rsr.rcvEnable && u.tsr &&& Tsr.outputMask ≠ Tsr.outputLoop then
      u.rxClock u.si
    else (u, [])

def setTransmitterClock (u : Usart) (state : Bool) : Asks :=
  if state = u.tc then (u, [])
  else
    let u := { u with tc := state }
    if !state && (has u.tsr Tsr.xmitEnable || !has u.tsr Tsr.endOfXmit) then u.txClock
    else if state && has u.rsr Rsr.rcvEnable &&
        u.tsr &&& Tsr.outputLoop = Tsr.outputLoop then u.rxClock u.so
    else (u, [])

end Usart

end Nd100x.Ethernet
