import Nd100x.Library.Runs
import Mathlib.Data.BitVec
import Mathlib.Data.List.Basic
import Mathlib.Logic.Function.Basic
import Mathlib.Tactic.Linarith

namespace Nd100x.Gateway

open Nd100x.Library

abbrev Byte := BitVec 8

abbrev Message := List Byte

inductive DriveName where
  | smd
  | floppy
  | scsi
  | winchester
  deriving DecidableEq, Repr

/-- An unknown code falls back to the first drive. -/
def driveTypeName (driveType : Byte) : DriveName :=
  if driveType = 1 then .floppy
  else if driveType = 2 then .scsi
  else if driveType = 3 then .winchester
  else .smd

/-- The bytes of an image from an offset on, as far as it has them. -/
def readAt (image : List Byte) (offset count : Nat) : List Byte := (image.drop offset).take count

/-- A write behind the end fills the gap with zeros. -/
def writeAt (image : List Byte) (offset : Nat) (data : List Byte) : List Byte :=
  if data = [] then image
  else
    (image ++ List.replicate (offset - image.length) 0).take offset ++
      (data ++ image.drop (offset + data.length))

/-- The open images. Two units may have the same file. The messages sent to the disk connection are
recorded. -/
structure DiskServer where
  files : Nat → List Byte
  diskFds : DriveName → Byte → Option Nat
  sent : List Message

/-- A message with what the call of readSync or writeSync for it does: it throws, or it moves at
most so many bytes. -/
structure DiskRequest where
  message : Message
  moves : Option Nat

def typeOf (buf : Message) : Byte := buf.getD 0 0
def driveTypeOf (buf : Message) : Byte := buf.getD 1 0
def unitOf (buf : Message) : Byte := buf.getD 2 0

def readUInt16BE (buf : Message) (at_ : Nat) : Nat :=
  (buf.getD at_ 0).toNat * 256 + (buf.getD (at_ + 1) 0).toNat

def readUInt32BE (buf : Message) (at_ : Nat) : Nat :=
  readUInt16BE buf at_ * 65536 + readUInt16BE buf (at_ + 2)

def offsetOf (buf : Message) : Nat := readUInt32BE buf 3
def sizeOf_ (buf : Message) : Nat := readUInt16BE buf 7

/-- The data behind the header, at most as much as the header says. -/
def writeDataOf (buf : Message) : List Byte := (buf.drop 9).take (sizeOf_ buf)

def readRequest : Byte := 0x20
def readResponse : Byte := 0x21
def writeRequest : Byte := 0x22
def writeResponse : Byte := 0x23
def goodStatus : Byte := 0x00
def errorStatus : Byte := 0xFF

namespace DiskServer

def send (s : DiskServer) (answer : Message) : DiskServer := { s with sent := s.sent ++ [answer] }

def putFile (s : DiskServer) (file : Nat) (image : List Byte) : DiskServer :=
  { s with files := Function.update s.files file image }

def diskOf (s : DiskServer) (buf : Message) : Option Nat :=
  s.diskFds (driveTypeName (driveTypeOf buf)) (unitOf buf)

/-- An answer of so many bytes is filled with zeros. -/
def readBlock (s : DiskServer) (file : Nat) (buf : Message) (moves : Option Nat) : DiskServer :=
  match moves with
  | none => s.send [readResponse, driveTypeOf buf, unitOf buf, errorStatus]
  | some count =>
    let got := readAt (s.files file) (offsetOf buf) (min count (sizeOf_ buf))
    s.send ([readResponse, driveTypeOf buf, unitOf buf] ++
      (got ++ List.replicate (sizeOf_ buf - got.length) 0))

def writeBlock (s : DiskServer) (file : Nat) (buf : Message) (moves : Option Nat) : DiskServer :=
  match moves with
  | none => s.send [writeResponse, driveTypeOf buf, unitOf buf, errorStatus]
  | some count =>
    let image := writeAt (s.files file) (offsetOf buf) ((writeDataOf buf).take count)
    (s.putFile file image).send [writeResponse, driveTypeOf buf, unitOf buf, goodStatus]

def noImage (s : DiskServer) (buf : Message) : DiskServer :=
  if typeOf buf = readRequest then
    s.send [readResponse, driveTypeOf buf, unitOf buf, errorStatus]
  else s.send [writeResponse, driveTypeOf buf, unitOf buf, errorStatus]

def onMessage (s : DiskServer) (request : DiskRequest) : DiskServer :=
  let buf := request.message
  if buf.length < 3 then s
  else
    match s.diskOf buf with
    | none =>
      if typeOf buf = readRequest ∨ typeOf buf = writeRequest then s.noImage buf else s
    | some file =>
      if typeOf buf = readRequest ∧ 9 ≤ buf.length then s.readBlock file buf request.moves
      else if typeOf buf = writeRequest ∧ 9 ≤ buf.length then
        s.writeBlock file buf request.moves
      else s

end DiskServer

end Nd100x.Gateway
