import Mathlib.Logic.Function.Basic
import Mathlib.Data.List.Basic

namespace Nd100x.Drives

abbrev Byte := BitVec 8

inductive DriveType where
  | smd
  | floppy
  | scsi
  | winchester
  deriving DecidableEq, Repr

def maxUnits : DriveType → Nat
  | .smd => 4
  | .floppy => 3
  | .scsi => 7
  | .winchester => 2

inductive DeviceType where
  | discSmd
  | discScsi
  | discWinchester
  | floppyPio
  | floppyDma
  | other
  deriving DecidableEq, Repr

structure BlockDevice where
  type : DeviceType
  blockSizeBytes : Nat

def driveTypeForDevice (device : BlockDevice) : Option DriveType :=
  match device.type with
  | .discSmd => some .smd
  | .discScsi => some .scsi
  | .discWinchester => some .winchester
  | .floppyPio => some .floppy
  | .floppyDma => some .floppy
  | .other => none

/-- The union of the handles. -/
inductive DriveData (File : Type) where
  | null
  | localFile (file : File)
  | remoteData (bytes : List Byte)

structure MountedDriveInfo (File : Type) where
  md5 : List Char
  name : List Char
  description : List Char
  imagePath : List Char
  isMounted : Bool
  isRemote : Bool
  isWriteprotected : Bool
  isOpfs : Bool
  isGateway : Bool
  data : DriveData File
  dataSize : Nat
  blockSize : Nat

/-- The units of every drive type. -/
abbrev DriveTables (File : Type) := DriveType → Nat → MountedDriveInfo File

inductive Errno where
  | eacces
  | erofs
  | eperm
  | other
  deriving DecidableEq, Repr

/-- What the file system answers to the two ways of opening an image, each file with its size. -/
structure LocalOpens (File : Type) where
  readWrite : Except Errno (File × Nat)
  readOnly : Option (File × Nat)

/-- What the outside answers while an image is mounted. -/
structure ImageSource (File : Type) where
  dlDownloadFile : Option (List Byte)
  ndGunzip : List Byte → Option (List Byte)
  opens : LocalOpens File

section Entries

variable {File : Type}

/-- A unit that was never used. -/
def freshUnit : MountedDriveInfo File where
  md5 := []
  name := []
  description := []
  imagePath := []
  isMounted := false
  isRemote := false
  isWriteprotected := false
  isOpfs := false
  isGateway := false
  data := .null
  dataSize := 0
  blockSize := 0

/-- The text that fits into a field with its closing zero. -/
def snprintf (size : Nat) (text : List Char) : List Char := text.take (size - 1)

namespace MountedDriveInfo

def attach (drive : MountedDriveInfo File) (file : File × Nat) : MountedDriveInfo File :=
  { drive with isRemote := false, data := .localFile file.1, dataSize := file.2 }

/-- The write protection is dropped before the file is opened. -/
def openLocalImage (drive : MountedDriveInfo File) (opens : LocalOpens File) :
    MountedDriveInfo File × Bool :=
  let drive := { drive with isWriteprotected := false }
  match opens.readWrite with
  | .ok file => (drive.attach file, true)
  | .error errno =>
    if errno = .eacces ∨ errno = .erofs ∨ errno = .eperm then
      match opens.readOnly with
      | some file => ({ drive with isWriteprotected := true }.attach file, true)
      | none => (drive, false)
    else (drive, false)

def isHttp (imagePath : List Char) : Bool :=
  (imagePath.take 4).map Char.toLower = ['h', 't', 't', 'p']

def isZipped (imagePath : List Char) : Bool :=
  imagePath.drop (imagePath.length - 3) = ['.', 'g', 'z']

/-- The downloaded image, unpacked when its name says so. -/
def downloaded (imagePath : List Char) (source : ImageSource File) : Option (List Byte) :=
  source.dlDownloadFile.bind fun image =>
    if 3 < image.length ∧ isZipped imagePath = true then source.ndGunzip image else some image

def openImage (drive : MountedDriveInfo File) (imagePath : List Char) (source : ImageSource File) :
    MountedDriveInfo File × Bool :=
  if isHttp imagePath then
    match downloaded imagePath source with
    | some image =>
      ({ drive with isRemote := true, data := .remoteData image, dataSize := image.length }, true)
    | none => (drive, false)
  else drive.openLocalImage source.opens

def imageBlockSize : DriveType → Nat
  | .smd => 1024
  | .scsi => 1024
  | _ => 512

/-- The record is changed in place before the image is there. -/
def mount (drive : MountedDriveInfo File) (driveType : DriveType)
    (md5 name description : List Char) (imagePath : Option (List Char))
    (source : ImageSource File) : MountedDriveInfo File × Bool :=
  let opened :=
    match imagePath with
    | some path =>
      { drive with
        blockSize := imageBlockSize driveType
        imagePath := snprintf 1024 path }.openImage path source
    | none => (drive, true)
  if opened.2 then
    ({ opened.1 with
      isMounted := true
      md5 := snprintf 33 md5
      name := snprintf 256 name
      description := snprintf 1024 description }, true)
  else (opened.1, false)

def unmount (drive : MountedDriveInfo File) : MountedDriveInfo File :=
  if drive.name = [] then drive
  else
    { drive with
      isMounted := false
      isOpfs := false
      isGateway := false
      md5 := []
      name := []
      description := []
      imagePath := []
      isRemote := false
      data := .null
      dataSize := 0
      blockSize := 0 }

def storeBlockSize (driveType : DriveType) : Nat := if driveType = .floppy then 512 else 1024

def mountOpfs (drive : MountedDriveInfo File) (driveType : DriveType) (name description : List Char)
    (imageSize : Nat) : MountedDriveInfo File :=
  { drive with
    isMounted := true
    isRemote := false
    isOpfs := true
    isWriteprotected := false
    data := .null
    dataSize := imageSize
    blockSize := storeBlockSize driveType
    md5 := ['o', 'p', 'f', 's']
    name := snprintf 256 name
    description := snprintf 1024 description
    imagePath := [] }

def mountGateway (drive : MountedDriveInfo File) (driveType : DriveType)
    (name description : List Char) (imageSize : Nat) : MountedDriveInfo File :=
  { drive with
    isMounted := true
    isRemote := false
    isOpfs := false
    isGateway := true
    isWriteprotected := false
    data := .null
    dataSize := imageSize
    blockSize := storeBlockSize driveType
    md5 := ['g', 'a', 't', 'e', 'w', 'a', 'y']
    name := snprintf 256 name
    description := snprintf 1024 description
    imagePath := [] }

end MountedDriveInfo

/- The drive tables. -/

def inRange (driveType : DriveType) (unit : Int) : Bool :=
  decide (0 ≤ unit) && decide (unit < maxUnits driveType)

namespace DriveTables

/-- A unit out of range is left alone. -/
def onUnit (drives : DriveTables File) (driveType : DriveType) (unit : Int)
    (change : MountedDriveInfo File → MountedDriveInfo File) : DriveTables File :=
  if inRange driveType unit then
    Function.update drives driveType
      (Function.update (drives driveType) unit.toNat (change (drives driveType unit.toNat)))
  else drives

def machineMountDrive (drives : DriveTables File) (driveType : DriveType) (unit : Int)
    (md5 name description : List Char) (imagePath : Option (List Char))
    (source : ImageSource File) : DriveTables File :=
  drives.onUnit driveType unit fun drive =>
    (drive.mount driveType md5 name description imagePath source).1

def machineUnmountDrive (drives : DriveTables File) (driveType : DriveType) (unit : Int) :
    DriveTables File :=
  drives.onUnit driveType unit MountedDriveInfo.unmount

def machineMountDriveOpfs (drives : DriveTables File) (driveType : DriveType) (unit : Int)
    (name description : List Char) (imageSize : Nat) : DriveTables File :=
  drives.onUnit driveType unit fun drive => drive.mountOpfs driveType name description imageSize

def machineMountDriveGateway (drives : DriveTables File) (driveType : DriveType) (unit : Int)
    (name description : List Char) (imageSize : Nat) : DriveTables File :=
  drives.onUnit driveType unit fun drive => drive.mountGateway driveType name description imageSize

end DriveTables

end Entries

/- The blocks of a unit. -/

/-- Blocks that the page of the browser serves. A negative count is a failure. -/
structure JsBlocks (World : Type) where
  isAvailable : World → DriveType → Int → Bool
  blockRead : World → DriveType → Int → (bytes offset : Int) → World × Int × List Byte
  blockWrite : World → DriveType → Int → List Byte → (offset : Int) → World × Int

/-- The world behind the drives. Only the build for the browser asks its page. -/
structure Host (File World : Type) where
  browser : Bool
  opfs : JsBlocks World
  gateway : JsBlocks World
  seekRead : World → File → (offset bytes : Nat) → World × Option (List Byte)
  seekWrite : World → File → (offset : Nat) → List Byte → World × Bool

section Blocks

variable {File World : Type}

def toInt32 (value : Nat) : Int := (BitVec.ofNat 32 value).toInt

/-- What is behind the end is read as zeros. -/
def zeroFilled (bytes : Nat) (read : List Byte) : List Byte :=
  read.take bytes ++ List.replicate (bytes - read.length) 0

/-- Bytes of a downloaded or a local image. -/
def readEntryBytes (host : Host File World) (world : World) (entry : MountedDriveInfo File)
    (bytes offset : Nat) : World × Int × List Byte :=
  if entry.isRemote then
    match entry.data with
    | .remoteData image =>
      if entry.dataSize ≤ offset then (world, 0, [])
      else (world, 1, zeroFilled bytes ((image.drop offset).take (entry.dataSize - offset)))
    | _ => (world, -1, [])
  else
    match entry.data with
    | .localFile file =>
      let read := host.seekRead world file offset bytes
      match read.2 with
      | some found => (read.1, 1, zeroFilled bytes found)
      | none => (read.1, -1, [])
    | _ => (world, -1, [])

def readJs (blocks : JsBlocks World) (world : World) (driveType : DriveType) (unit : Int)
    (size bytes offset : Nat) : World × Int × List Byte :=
  let read := blocks.blockRead world driveType unit (toInt32 bytes) (toInt32 offset)
  if read.2.1 < 0 then (read.1, -1, [])
  else (read.1, toInt32 size, zeroFilled bytes (read.2.2.take read.2.1.toNat))

def writeJs (blocks : JsBlocks World) (world : World) (driveType : DriveType) (unit : Int)
    (size : Nat) (buffer : List Byte) (offset : Nat) : World × Int :=
  let written := blocks.blockWrite world driveType unit buffer (toInt32 offset)
  (written.1, if 0 ≤ written.2 then toInt32 size else -1)

namespace MountedDriveInfo

def asksOpfs (entry : MountedDriveInfo File) (host : Host File World) (world : World)
    (driveType : DriveType) (unit : Int) : Bool :=
  host.browser && (entry.isOpfs && host.opfs.isAvailable world driveType unit)

def asksGateway (entry : MountedDriveInfo File) (host : Host File World) (world : World)
    (driveType : DriveType) (unit : Int) : Bool :=
  host.browser && (entry.isGateway && host.gateway.isAvailable world driveType unit)

def blockRead (entry : MountedDriveInfo File) (host : Host File World) (world : World)
    (driveType : DriveType) (unit : Int) (size bytes offset : Nat) : World × Int × List Byte :=
  if !entry.isMounted then (world, -1, [])
  else if entry.asksOpfs host world driveType unit then
    readJs host.opfs world driveType unit size bytes offset
  else if entry.asksGateway host world driveType unit then
    readJs host.gateway world driveType unit size bytes offset
  else
    let read := readEntryBytes host world entry bytes offset
    if read.2.1 ≤ 0 then read else (read.1, toInt32 size, read.2.2)

def putData (entry : MountedDriveInfo File) (data : DriveData File) : MountedDriveInfo File :=
  { entry with data := data }

/-- The bytes of a downloaded image are changed in memory. -/
def writeEntryBytes (entry : MountedDriveInfo File) (host : Host File World) (world : World)
    (size : Nat) (buffer : List Byte) (offset : Nat) : MountedDriveInfo File × World × Int :=
  if entry.isRemote then
    match entry.data with
    | .remoteData image =>
      if entry.dataSize < offset + buffer.length then (entry, world, -1)
      else
        (entry.putData
          (.remoteData (image.take offset ++ buffer ++ image.drop (offset + buffer.length))),
          world, toInt32 size)
    | _ => (entry, world, -1)
  else
    match entry.data with
    | .localFile file =>
      let written := host.seekWrite world file offset buffer
      (entry, written.1, if written.2 then toInt32 size else -1)
    | _ => (entry, world, -1)

def blockWrite (entry : MountedDriveInfo File) (host : Host File World) (world : World)
    (driveType : DriveType) (unit : Int) (size : Nat) (buffer : List Byte) (offset : Nat) :
    MountedDriveInfo File × World × Int :=
  if !entry.isMounted then (entry, world, -1)
  else if entry.asksOpfs host world driveType unit then
    (entry, writeJs host.opfs world driveType unit size buffer offset)
  else if entry.asksGateway host world driveType unit then
    (entry, writeJs host.gateway world driveType unit size buffer offset)
  else entry.writeEntryBytes host world size buffer offset

/-- Only a local image is write-protected. -/
def reportsProtection (entry : MountedDriveInfo File) : Bool :=
  if entry.isOpfs || entry.isGateway || entry.isRemote then false else entry.isWriteprotected

def blockDiskInfo (entry : MountedDriveInfo File) : Int × Nat × Bool :=
  if entry.isMounted then (0, entry.dataSize, entry.reportsProtection) else (-1, 0, true)

end MountedDriveInfo

namespace DriveTables

def machineBlockRead (drives : DriveTables File) (host : Host File World) (world : World)
    (device : BlockDevice) (size blockAddress : Nat) (unit : Int) : World × Int × List Byte :=
  if size = 0 then (world, -1, [])
  else
    match driveTypeForDevice device with
    | none => (world, -1, [])
    | some driveType =>
      if inRange driveType unit then
        (drives driveType unit.toNat).blockRead host world driveType unit size
          (size * device.blockSizeBytes) (blockAddress * device.blockSizeBytes)
      else (world, -1, [])

/-- As many bytes of the buffer are written as the blocks hold. -/
def machineBlockWrite (drives : DriveTables File) (host : Host File World) (world : World)
    (device : BlockDevice) (buffer : Nat → Byte) (size blockAddress : Nat) (unit : Int) :
    DriveTables File × World × Int :=
  if size = 0 then (drives, world, -1)
  else
    match driveTypeForDevice device with
    | none => (drives, world, -1)
    | some driveType =>
      if inRange driveType unit then
        let written := (drives driveType unit.toNat).blockWrite host world driveType unit size
          ((List.range (size * device.blockSizeBytes)).map buffer)
          (blockAddress * device.blockSizeBytes)
        (drives.onUnit driveType unit fun _ => written.1, written.2)
      else (drives, world, -1)

def machineBlockDiskInfo (drives : DriveTables File) (device : BlockDevice) (unit : Int) :
    Int × Nat × Bool :=
  match driveTypeForDevice device with
  | none => (-1, 0, true)
  | some driveType =>
    if inRange driveType unit then (drives driveType unit.toNat).blockDiskInfo else (-1, 0, true)

end DriveTables

end Blocks

end Nd100x.Drives
