import Nd100x.Machine.State
import Nd100x.Library.ByteRange

namespace Nd100x.Scsi

open Nd100x.Library

inductive Sbuf where
  | main
  | sense
  | data
  deriving DecidableEq, Repr

/-- These phases are queued by a target. -/
inductive BufControl where
  | msgOrCommand
  | status (value : Byte)
  | message1 (value : Byte)
  | dataIn (id : Sbuf) (size : Nat)
  | dataOut (id : Sbuf) (size : Nat)
  | busFree
  deriving DecidableEq, Repr

def ssGood : Byte := 0x00
def ssCheckCondition : Byte := 0x02

def smCommandComplete : Byte := 0x00

def skNoSense : Byte := 0x00
def skNotReady : Byte := 0x02
def skMediumError : Byte := 0x03
def skIllegalRequest : Byte := 0x05
def skUnitAttention : Byte := 0x06
def skDataProtect : Byte := 0x07
def skBlankCheck : Byte := 0x08

def skcLogicalUnitNotSupported : BitVec 16 := 0x2500
def skcInvalidCommandOperationCode : BitVec 16 := 0x2000

def scsiCmdbufSize : Nat := 4096
def scsiSenseBufferSize : Nat := 18

/-- The high byte comes first. -/
def putU16be (value : BitVec 16) : List Byte := [(value >>> 8).setWidth 8, value.setWidth 8]

def putU24be (value : BitVec 32) : List Byte :=
  [(value >>> 16).setWidth 8, (value >>> 8).setWidth 8, value.setWidth 8]

def putU32be (value : BitVec 32) : List Byte :=
  [(value >>> 24).setWidth 8, (value >>> 16).setWidth 8, (value >>> 8).setWidth 8,
    value.setWidth 8]

def getU16be (buf : Nat → Byte) (start : Nat) : Nat :=
  (buf start).toNat * 2 ^ 8 + (buf (start + 1)).toNat

def getU24be (buf : Nat → Byte) (start : Nat) : Nat :=
  (buf start).toNat * 2 ^ 16 + (buf (start + 1)).toNat * 2 ^ 8 + (buf (start + 2)).toNat

def getU32be (buf : Nat → Byte) (start : Nat) : Nat :=
  (buf start).toNat * 2 ^ 24 + (buf (start + 1)).toNat * 2 ^ 16 +
    (buf (start + 2)).toNat * 2 ^ 8 + (buf (start + 3)).toNat

/-- A hook reaches the phase machine of its target through these calls only. -/
inductive PhaseCall where
  | push (control : BufControl)
  | endDataPhase
  deriving DecidableEq, Repr

/-- The hooks of a target see these fields of it. The calls of a hook are made in their order. -/
structure TargetPort where
  cmdbuf : Nat → Byte
  cmdsize : Nat
  identify : Byte
  senseBuffer : Nat → Byte
  calls : List PhaseCall

namespace TargetPort

def call (port : TargetPort) (request : PhaseCall) : TargetPort :=
  { port with calls := port.calls ++ [request] }

def defaultGetData (port : TargetPort) (id : Sbuf) (pos : Nat) : Byte :=
  match id with
  | .main => if scsiCmdbufSize ≤ pos then 0 else port.cmdbuf pos
  | .sense => if scsiSenseBufferSize ≤ pos then 0 else port.senseBuffer pos
  | .data => 0

def defaultPutData (port : TargetPort) (id : Sbuf) (pos : Nat) (data : Byte) : TargetPort :=
  match id with
  | .main =>
    if pos < scsiCmdbufSize then { port with cmdbuf := Function.update port.cmdbuf pos data }
    else port
  | .sense =>
    if pos < scsiSenseBufferSize then
      { port with senseBuffer := Function.update port.senseBuffer pos data }
    else port
  | .data => port

def dataIn (port : TargetPort) (buf : Sbuf) (size : Nat) : TargetPort :=
  port.call (.push (.dataIn buf size))

def dataOut (port : TargetPort) (buf : Sbuf) (size : Nat) : TargetPort :=
  port.call (.push (.dataOut buf size))

def endDataPhase (port : TargetPort) : TargetPort := port.call .endDataPhase

/-- The end of a command is the status with a message, and the bus is free after them. -/
def statusComplete (port : TargetPort) (status : Byte) : TargetPort :=
  ((port.call (.push (.status status))).call (.push (.message1 smCommandComplete))).call
    (.push .busFree)

end TargetPort

/-- A concrete target has a state of its own behind its port. -/
structure Device (I : Type) where
  port : TargetPort
  impl : I

namespace Device

variable {I : Type}

def onImpl (device : Device I) (f : I → I) : Device I := { device with impl := f device.impl }

def onPort (device : Device I) (f : TargetPort → TargetPort) : Device I :=
  { device with port := f device.port }

@[simp] theorem onImpl_port (device : Device I) (f : I → I) :
    (device.onImpl f).port = device.port := rfl

@[simp] theorem onImpl_impl (device : Device I) (f : I → I) :
    (device.onImpl f).impl = f device.impl := rfl

@[simp] theorem onPort_port (device : Device I) (f : TargetPort → TargetPort) :
    (device.onPort f).port = f device.port := rfl

@[simp] theorem onPort_impl (device : Device I) (f : TargetPort → TargetPort) :
    (device.onPort f).impl = device.impl := rfl

end Device

/-- These are the hooks of a concrete target. -/
structure TargetHooks (I : Type) where
  command : Device I → Device I
  getData : Device I → Sbuf → Nat → Device I × Byte
  putData : Device I → Sbuf → Nat → Byte → Device I
  busReset : Device I → Device I

/-- A data phase moves this many bytes. -/
structure DataPhase where
  input : Bool
  size : Nat
  pos : Nat
  deriving DecidableEq, Repr

/-- A status that was queued ends the command. -/
def statusOf : List PhaseCall → Option Byte
  | [] => none
  | .push (.status value) :: _ => some value
  | _ :: rest => statusOf rest

/-- The first queued data phase starts when the command has been decoded. -/
def phaseOf : List PhaseCall → Option DataPhase
  | .push (.dataIn _ size) :: _ => if 0 < size then some ⟨true, size, 0⟩ else none
  | .push (.dataOut _ size) :: _ => if 0 < size then some ⟨false, size, 0⟩ else none
  | _ => none

end Nd100x.Scsi
