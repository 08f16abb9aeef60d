import Nd100x.Drives.Mount
import Nd100x.Library.Runs

namespace Nd100x.Drives

open Nd100x.Library

/-- A mount as it is asked for, with the answers of the outside. -/
inductive MountCall (File : Type) where
  | image (md5 name description imagePath : List Char) (source : ImageSource File)
  | opfs (name description : List Char) (imageSize : Nat)
  | gateway (name description : List Char) (imageSize : Nat)

inductive DriveEvent (File : Type) where
  | mount (driveType : DriveType) (unit : Int) (call : MountCall File)
  | unmount (driveType : DriveType) (unit : Int)

/-- The drives with the last successful mount of every unit since its last unmount. -/
structure MountSession (File : Type) where
  drives : DriveTables File
  last : DriveType → Nat → Option (MountCall File)

inductive BlockQuery where
  | read (size blockAddress : Nat)
  | write (buffer : Nat → Byte) (size blockAddress : Nat)
  | diskInfo

inductive BlockAnswer where
  | read (blocks : Int) (buffer : List Byte)
  | write (blocks : Int)
  | diskInfo (result : Int) (imageSize : Nat) (isWriteProtected : Bool)
  deriving DecidableEq, Repr

/-- What the mount list shows of a unit. -/
structure MountRow where
  isMounted : Bool
  name : List Char
  description : List Char
  isRemote : Bool
  isOpfs : Bool
  isGateway : Bool
  dataSize : Nat
  deriving DecidableEq, Repr

section History

variable {File World : Type}

namespace MountCall

/-- What a call makes of the record of its unit, and whether it succeeds. -/
def apply (call : MountCall File) (driveType : DriveType) (drive : MountedDriveInfo File) :
    MountedDriveInfo File × Bool :=
  match call with
  | .image md5 name description imagePath source =>
    drive.mount driveType md5 name description (some imagePath) source
  | .opfs name description imageSize => (drive.mountOpfs driveType name description imageSize, true)
  | .gateway name description imageSize =>
    (drive.mountGateway driveType name description imageSize, true)

def onDrives (call : MountCall File) (drives : DriveTables File) (driveType : DriveType)
    (unit : Int) : DriveTables File :=
  match call with
  | .image md5 name description imagePath source =>
    drives.machineMountDrive driveType unit md5 name description (some imagePath) source
  | .opfs name description imageSize =>
    drives.machineMountDriveOpfs driveType unit name description imageSize
  | .gateway name description imageSize =>
    drives.machineMountDriveGateway driveType unit name description imageSize

end MountCall

namespace MountSession

def start : MountSession File := ⟨fun _ _ => freshUnit, fun _ _ => none⟩

def remember (s : MountSession File) (driveType : DriveType) (unit : Int)
    (call : Option (MountCall File)) : DriveType → Nat → Option (MountCall File) :=
  Function.update s.last driveType (Function.update (s.last driveType) unit.toNat call)

def succeeds (s : MountSession File) (driveType : DriveType) (unit : Int) (call : MountCall File) :
    Bool :=
  inRange driveType unit && (call.apply driveType (s.drives driveType unit.toNat)).2

def step (s : MountSession File) : DriveEvent File → MountSession File
  | .mount driveType unit call =>
    ⟨call.onDrives s.drives driveType unit,
      if s.succeeds driveType unit call then s.remember driveType unit (some call) else s.last⟩
  | .unmount driveType unit =>
    ⟨s.drives.machineUnmountDrive driveType unit,
      if inRange driveType unit then s.remember driveType unit none else s.last⟩

end MountSession

/-- A fresh unit after at most one mount. -/
def freshAfter (driveType : DriveType) : Option (MountCall File) → MountedDriveInfo File
  | none => freshUnit
  | some call => (call.apply driveType freshUnit).1

/-- The answers of a unit, one after the other. -/
def answers (host : Host File World) (device : BlockDevice) (unit : Int) :
    DriveTables File → World → List BlockQuery → List BlockAnswer
  | _, _, [] => []
  | drives, world, .read size blockAddress :: rest =>
    let read := drives.machineBlockRead host world device size blockAddress unit
    .read read.2.1 read.2.2 :: answers host device unit drives read.1 rest
  | drives, world, .write buffer size blockAddress :: rest =>
    let written := drives.machineBlockWrite host world device buffer size blockAddress unit
    .write written.2.2 :: answers host device unit written.1 written.2.1 rest
  | drives, world, .diskInfo :: rest =>
    let info := drives.machineBlockDiskInfo device unit
    .diskInfo info.1 info.2.1 info.2.2 :: answers host device unit drives world rest

/-- Two tables answer alike on a unit, whatever the world behind them does. -/
def AnswersAlike (driveType : DriveType) (unit : Int) (drives other : DriveTables File) : Prop :=
  ∀ (World : Type) (host : Host File World) (world : World) (device : BlockDevice)
    (queries : List BlockQuery), driveTypeForDevice device = some driveType →
      answers host device unit drives world queries = answers host device unit other world queries

def MountedDriveInfo.listed (entry : MountedDriveInfo File) : MountRow where
  isMounted := entry.isMounted
  name := if entry.isMounted then entry.name else []
  description := if entry.isMounted then entry.description else []
  isRemote := entry.isMounted && entry.isRemote
  isOpfs := entry.isOpfs
  isGateway := entry.isGateway
  dataSize := if entry.isMounted then entry.dataSize else 0

namespace MountSession

/-- Every unit answers like a fresh one after its last mount alone. -/
def ForgetsPast (s : MountSession File) : Prop :=
  ∀ (driveType : DriveType) (unit : Int), inRange driveType unit = true →
    AnswersAlike driveType unit s.drives fun type place => freshAfter type (s.last type place)

/-- A mount that fails is not seen. -/
def FailsUnseen (s : MountSession File) : DriveEvent File → Prop
  | .mount driveType unit call => s.succeeds driveType unit call = false →
      AnswersAlike driveType unit (s.step (.mount driveType unit call)).drives s.drives ∧
        ∀ type place, ((s.step (.mount driveType unit call)).drives type place).listed =
          (s.drives type place).listed
  | .unmount _ _ => True

/-- An image is not mounted over a store of the browser or a gateway, a store is not mounted over a
gateway, a mount that fails does not meet a protected local image, and what is unmounted has a
name. -/
def Separates (s : MountSession File) : DriveEvent File → Prop
  | .mount driveType unit call => inRange driveType unit = true →
      let drive := s.drives driveType unit.toNat
      match call with
      | .image _ _ _ _ _ =>
        if (call.apply driveType drive).2 then drive.isOpfs = false ∧ drive.isGateway = false
        else drive.isMounted = true → drive.reportsProtection = false
      | .opfs _ _ _ => drive.isGateway = false
      | .gateway _ _ _ => True
  | .unmount driveType unit => inRange driveType unit = true →
      (s.drives driveType unit.toNat).isMounted = true → (s.drives driveType unit.toNat).name ≠ []

end MountSession

/- What the answers of a unit depend on. -/

structure UnitView (File : Type) where
  isRemote : Bool
  isOpfs : Bool
  isGateway : Bool
  data : DriveData File
  dataSize : Nat
  protection : Bool

namespace MountedDriveInfo

def view (entry : MountedDriveInfo File) : Option (UnitView File) :=
  if entry.isMounted then
    some ⟨entry.isRemote, entry.isOpfs, entry.isGateway, entry.data, entry.dataSize,
      entry.reportsProtection⟩
  else none

variable {entry other : MountedDriveInfo File}

theorem view_of_mounted (mounted : entry.isMounted = true) :
    entry.view = some ⟨entry.isRemote, entry.isOpfs, entry.isGateway, entry.data, entry.dataSize,
      entry.reportsProtection⟩ := if_pos mounted

theorem view_of_unmounted (unmounted : entry.isMounted = false) : entry.view = none :=
  if_neg (Bool.not_eq_true _ ▸ unmounted)

/-- Both units are without an image, or they have the same one. -/
theorem view_eq_cases (alike : entry.view = other.view) :
    entry.isMounted = false ∧ other.isMounted = false ∨
      entry.isMounted = true ∧ other.isMounted = true ∧ entry.isRemote = other.isRemote ∧
        entry.isOpfs = other.isOpfs ∧ entry.isGateway = other.isGateway ∧
        entry.data = other.data ∧ entry.dataSize = other.dataSize ∧
        entry.reportsProtection = other.reportsProtection := by
  cases mounted : entry.isMounted with
  | false =>
    cases second : other.isMounted with
    | false => exact .inl ⟨rfl, rfl⟩
    | true =>
      rw [view_of_unmounted mounted, view_of_mounted second] at alike
      exact absurd alike.symm (Option.some_ne_none _)
  | true =>
    cases second : other.isMounted with
    | false =>
      rw [view_of_mounted mounted, view_of_unmounted second] at alike
      exact absurd alike (Option.some_ne_none _)
    | true =>
      rw [view_of_mounted mounted, view_of_mounted second] at alike
      injection Option.some.inj alike with isRemote isOpfs isGateway data dataSize protection
      exact .inr ⟨rfl, rfl, isRemote, isOpfs, isGateway, data, dataSize, protection⟩

/-- Dropping a protection that is not reported is not seen. -/
theorem view_unprotected (unprotected : entry.isMounted = true → entry.reportsProtection = false)
    (imagePath : List Char) (blockSize : Nat) :
    ({ entry with imagePath := imagePath, blockSize := blockSize, isWriteprotected := false } :
      MountedDriveInfo File).view = entry.view := by
  rw [view, view]
  split_ifs with mounted
  · rw [unprotected mounted]
    simp [reportsProtection]
  · rfl

theorem blockRead_of_view (alike : entry.view = other.view) (host : Host File World)
    (world : World) (driveType : DriveType) (unit : Int) (size bytes offset : Nat) :
    entry.blockRead host world driveType unit size bytes offset =
      other.blockRead host world driveType unit size bytes offset := by
  rcases view_eq_cases alike with ⟨first, second⟩ | ⟨first, second, remote, opfs, gateway, data,
    dataSize, -⟩
  · rw [blockRead, blockRead, first, second]
    rfl
  · simp only [blockRead, asksOpfs, asksGateway, readEntryBytes, first, second, remote, opfs,
      gateway, data, dataSize]

theorem blockDiskInfo_of_view (alike : entry.view = other.view) :
    entry.blockDiskInfo = other.blockDiskInfo := by
  rcases view_eq_cases alike with ⟨first, second⟩ | ⟨first, second, -, -, -, -, dataSize,
    protection⟩
  · rw [blockDiskInfo, blockDiskInfo, first, second]
    rfl
  · rw [blockDiskInfo, blockDiskInfo, first, second, dataSize, protection]

/-- Only the image of a written unit changes. -/
theorem view_putData (alike : entry.view = other.view) (data : DriveData File) :
    (entry.putData data).view = (other.putData data).view := by
  rcases view_eq_cases alike with ⟨first, second⟩ | ⟨first, second, remote, opfs, gateway, -,
    dataSize, protection⟩
  · exact (@view_of_unmounted _ (entry.putData data) first).trans
      (@view_of_unmounted _ (other.putData data) second).symm
  · rw [@view_of_mounted _ (entry.putData data) first,
      @view_of_mounted _ (other.putData data) second]
    have protected_ : (entry.putData data).reportsProtection =
      (other.putData data).reportsProtection := protection
    rw [protected_]
    simp only [putData, remote, opfs, gateway, dataSize]

theorem writeEntryBytes_of_view (alike : entry.view = other.view) (host : Host File World)
    (world : World) (size : Nat) (buffer : List Byte) (offset : Nat)
    (remote : entry.isRemote = other.isRemote) (data : entry.data = other.data)
    (dataSize : entry.dataSize = other.dataSize) :
    (entry.writeEntryBytes host world size buffer offset).1.view =
        (other.writeEntryBytes host world size buffer offset).1.view ∧
      (entry.writeEntryBytes host world size buffer offset).2 =
        (other.writeEntryBytes host world size buffer offset).2 := by
  rw [writeEntryBytes, writeEntryBytes, remote, data, dataSize]
  cases other.isRemote with
  | true =>
    cases other.data with
    | null => exact ⟨alike, rfl⟩
    | localFile file => exact ⟨alike, rfl⟩
    | remoteData image =>
      simp only [if_true]
      split_ifs
      · exact ⟨alike, rfl⟩
      · exact ⟨view_putData alike _, rfl⟩
  | false =>
    cases other.data with
    | null => exact ⟨alike, rfl⟩
    | localFile file => exact ⟨alike, rfl⟩
    | remoteData image => exact ⟨alike, rfl⟩

theorem blockWrite_of_view (alike : entry.view = other.view) (host : Host File World)
    (world : World) (driveType : DriveType) (unit : Int) (size : Nat) (buffer : List Byte)
    (offset : Nat) :
    (entry.blockWrite host world driveType unit size buffer offset).1.view =
        (other.blockWrite host world driveType unit size buffer offset).1.view ∧
      (entry.blockWrite host world driveType unit size buffer offset).2 =
        (other.blockWrite host world driveType unit size buffer offset).2 := by
  rcases view_eq_cases alike with ⟨first, second⟩ | ⟨first, second, remote, opfs, gateway, data,
    dataSize, -⟩
  · rw [blockWrite, blockWrite, first, second]
    exact ⟨alike, rfl⟩
  · rw [blockWrite, blockWrite, first, second, asksOpfs, asksOpfs, asksGateway, asksGateway, opfs,
      gateway]
    simp only [Bool.not_true, Bool.false_eq_true, if_false]
    split_ifs
    · exact ⟨alike, rfl⟩
    · exact ⟨alike, rfl⟩
    · exact writeEntryBytes_of_view alike host world size buffer offset remote data dataSize

end MountedDriveInfo

namespace DriveTables

variable {drives other : DriveTables File} {driveType : DriveType} {unit : Int}

theorem onUnit_here (inside : inRange driveType unit = true)
    (change : MountedDriveInfo File → MountedDriveInfo File) :
    drives.onUnit driveType unit change driveType unit.toNat =
      change (drives driveType unit.toNat) := by
  rw [onUnit, if_pos inside, Function.update_self, Function.update_self]

/-- The other units are left alone. -/
theorem onUnit_other {type : DriveType} {place : Nat}
    (apart : ¬ (inRange driveType unit = true ∧ type = driveType ∧ place = unit.toNat))
    (change : MountedDriveInfo File → MountedDriveInfo File) :
    drives.onUnit driveType unit change type place = drives type place := by
  rw [onUnit]
  split_ifs with inside
  · by_cases same : type = driveType
    · subst same
      rw [Function.update_self, Function.update_of_ne fun here => apart ⟨inside, rfl, here⟩]
    · rw [Function.update_of_ne same]
  · rfl

variable {device : BlockDevice}

theorem machineBlockRead_of_view (known : driveTypeForDevice device = some driveType)
    (alike : (drives driveType unit.toNat).view = (other driveType unit.toNat).view)
    (host : Host File World) (world : World) (size blockAddress : Nat) :
    drives.machineBlockRead host world device size blockAddress unit =
      other.machineBlockRead host world device size blockAddress unit := by
  simp only [machineBlockRead, known]
  split_ifs
  · rfl
  · exact MountedDriveInfo.blockRead_of_view alike host world driveType unit _ _ _
  · rfl

theorem machineBlockWrite_of_view (known : driveTypeForDevice device = some driveType)
    (alike : (drives driveType unit.toNat).view = (other driveType unit.toNat).view)
    (host : Host File World) (world : World) (buffer : Nat → Byte) (size blockAddress : Nat) :
    ((drives.machineBlockWrite host world device buffer size blockAddress unit).1 driveType
        unit.toNat).view =
      ((other.machineBlockWrite host world device buffer size blockAddress unit).1 driveType
        unit.toNat).view ∧
      (drives.machineBlockWrite host world device buffer size blockAddress unit).2 =
        (other.machineBlockWrite host world device buffer size blockAddress unit).2 := by
  simp only [machineBlockWrite, known]
  split_ifs with none_ inside
  · exact ⟨alike, rfl⟩
  · dsimp only
    rw [onUnit_here inside, onUnit_here inside]
    exact MountedDriveInfo.blockWrite_of_view alike host world driveType unit _ _ _
  · exact ⟨alike, rfl⟩

theorem machineBlockDiskInfo_of_view (known : driveTypeForDevice device = some driveType)
    (alike : (drives driveType unit.toNat).view = (other driveType unit.toNat).view) :
    drives.machineBlockDiskInfo device unit = other.machineBlockDiskInfo device unit := by
  simp only [machineBlockDiskInfo, known]
  split_ifs
  · exact MountedDriveInfo.blockDiskInfo_of_view alike
  · rfl

theorem answersAlike_of_view
    (alike : (drives driveType unit.toNat).view = (other driveType unit.toNat).view) :
    AnswersAlike driveType unit drives other := by
  intro World host world device queries known
  induction queries generalizing drives other world with
  | nil => rfl
  | cons query rest ih =>
    cases query with
    | read size blockAddress =>
      rw [answers, answers, machineBlockRead_of_view known alike]
      exact congrArg _ (ih alike _)
    | write buffer size blockAddress =>
      obtain ⟨after, same⟩ :=
        machineBlockWrite_of_view known alike host world buffer size blockAddress
      rw [answers, answers, same]
      exact congrArg _ (ih after _)
    | diskInfo =>
      rw [answers, answers, machineBlockDiskInfo_of_view known alike]
      exact congrArg _ (ih alike _)

end DriveTables

/- One mount. -/

/-- What opening an image comes to, whatever the record held before. -/
inductive ImageOutcome (File : Type) where
  | downloaded (image : List Byte)
  | opened (file : File × Nat) (isWriteprotected : Bool)
  | notDownloaded
  | notOpened

namespace ImageOutcome

def ofPath (imagePath : List Char) (source : ImageSource File) : ImageOutcome File :=
  if MountedDriveInfo.isHttp imagePath then
    match MountedDriveInfo.downloaded imagePath source with
    | some image => .downloaded image
    | none => .notDownloaded
  else
    match source.opens.readWrite, source.opens.readOnly with
    | .ok file, _ => .opened file false
    | .error .other, _ => .notOpened
    | .error _, some file => .opened file true
    | .error _, none => .notOpened

def on (drive : MountedDriveInfo File) : ImageOutcome File → MountedDriveInfo File × Bool
  | .downloaded image =>
    ({ drive with isRemote := true, data := .remoteData image, dataSize := image.length }, true)
  | .opened file isWriteprotected =>
    ({ drive with isWriteprotected := isWriteprotected }.attach file, true)
  | .notDownloaded => (drive, false)
  | .notOpened => ({ drive with isWriteprotected := false }, false)

end ImageOutcome

theorem openImage_eq (drive : MountedDriveInfo File) (imagePath : List Char)
    (source : ImageSource File) :
    drive.openImage imagePath source = (ImageOutcome.ofPath imagePath source).on drive := by
  rw [MountedDriveInfo.openImage, ImageOutcome.ofPath]
  split_ifs
  · cases MountedDriveInfo.downloaded imagePath source with
    | some image => rfl
    | none => rfl
  · rw [MountedDriveInfo.openLocalImage]
    cases source.opens.readWrite with
    | ok file => rfl
    | error errno => cases errno <;> cases source.opens.readOnly <;> rfl

namespace MountCall

variable {drive other : MountedDriveInfo File}

/-- A record without stale flags is mounted like a fresh one. -/
theorem apply_view {call : MountCall File} {driveType : DriveType}
    (succeeds : (call.apply driveType drive).2 = true)
    (separates : match call with
      | .image _ _ _ _ _ => drive.isOpfs = false ∧ drive.isGateway = false
      | .opfs _ _ _ => drive.isGateway = false
      | .gateway _ _ _ => True) :
    (call.apply driveType drive).1.view = (call.apply driveType freshUnit).1.view := by
  cases call with
  | image md5 name description imagePath source =>
    obtain ⟨opfs, gateway⟩ := separates
    simp only [apply, MountedDriveInfo.mount, openImage_eq] at succeeds ⊢
    cases outcome : ImageOutcome.ofPath imagePath source with
    | downloaded image =>
      simp [ImageOutcome.on, MountedDriveInfo.view, MountedDriveInfo.reportsProtection, opfs,
        gateway, freshUnit]
    | opened file isWriteprotected =>
      simp [ImageOutcome.on, MountedDriveInfo.attach, MountedDriveInfo.view,
        MountedDriveInfo.reportsProtection, opfs, gateway, freshUnit]
    | notDownloaded =>
      rw [outcome] at succeeds
      exact absurd succeeds Bool.false_ne_true
    | notOpened =>
      rw [outcome] at succeeds
      exact absurd succeeds Bool.false_ne_true
  | opfs name description imageSize =>
    have gateway : drive.isGateway = false := separates
    simp [apply, MountedDriveInfo.mountOpfs, MountedDriveInfo.view,
      MountedDriveInfo.reportsProtection, gateway, freshUnit]
  | gateway name description imageSize => rfl

/-- A call that fails changes the protection at most. -/
theorem apply_fails {call : MountCall File} {driveType : DriveType}
    (fails : (call.apply driveType drive).2 = false) :
    (call.apply driveType drive).1.listed = drive.listed ∧
      ((drive.isMounted = true → drive.reportsProtection = false) →
        (call.apply driveType drive).1.view = drive.view) := by
  cases call with
  | image md5 name description imagePath source =>
    simp only [apply, MountedDriveInfo.mount, openImage_eq] at fails ⊢
    cases outcome : ImageOutcome.ofPath imagePath source with
    | downloaded image =>
      rw [outcome] at fails
      exact absurd fails.symm Bool.false_ne_true
    | opened file isWriteprotected =>
      rw [outcome] at fails
      exact absurd fails.symm Bool.false_ne_true
    | notDownloaded => exact ⟨rfl, fun _ => rfl⟩
    | notOpened =>
      exact ⟨rfl, fun unprotected => MountedDriveInfo.view_unprotected unprotected _ _⟩
  | opfs name description imageSize => exact absurd fails.symm Bool.false_ne_true
  | gateway name description imageSize => exact absurd fails.symm Bool.false_ne_true

end MountCall

theorem MountedDriveInfo.unmount_view {drive : MountedDriveInfo File}
    (named : drive.isMounted = true → drive.name ≠ []) : drive.unmount.view = none := by
  rw [MountedDriveInfo.unmount]
  split_ifs with nameless
  · exact MountedDriveInfo.view_of_unmounted
      (Bool.eq_false_iff.mpr fun mounted => named mounted nameless)
  · rfl

/- Runs. -/

namespace MountSession

variable {s : MountSession File}

/-- Every unit is seen like a fresh one after its last mount. -/
def Remembers (s : MountSession File) : Prop :=
  ∀ type place, (s.drives type place).view = (freshAfter type (s.last type place)).view

theorem onDrives_eq (call : MountCall File) (drives : DriveTables File) (driveType : DriveType)
    (unit : Int) :
    call.onDrives drives driveType unit =
      drives.onUnit driveType unit fun drive => (call.apply driveType drive).1 := by
  cases call <;> rfl

theorem remember_here (driveType : DriveType) (unit : Int) (call : Option (MountCall File)) :
    s.remember driveType unit call driveType unit.toNat = call := by
  rw [remember, Function.update_self, Function.update_self]

theorem remember_other {driveType type : DriveType} {unit : Int} {place : Nat}
    (apart : ¬ (type = driveType ∧ place = unit.toNat)) (call : Option (MountCall File)) :
    s.remember driveType unit call type place = s.last type place := by
  rw [remember]
  by_cases same : type = driveType
  · subst same
    rw [Function.update_self, Function.update_of_ne fun here => apart ⟨rfl, here⟩]
  · rw [Function.update_of_ne same]

theorem mount_remembers (remembers : s.Remembers) (driveType : DriveType) (unit : Int)
    (call : MountCall File) (separates : s.Separates (.mount driveType unit call)) :
    (s.step (.mount driveType unit call)).Remembers := by
  intro type place
  simp only [step]
  rw [onDrives_eq]
  by_cases here : inRange driveType unit = true ∧ type = driveType ∧ place = unit.toNat
  · obtain ⟨inside, rfl, rfl⟩ := here
    have apart := separates inside
    rw [DriveTables.onUnit_here inside, succeeds, inside, Bool.true_and]
    cases success : (call.apply type (s.drives type unit.toNat)).2 with
    | true =>
      rw [if_pos rfl, remember_here]
      refine MountCall.apply_view success ?_
      cases call with
      | image md5 name description imagePath source =>
        simp only [success, if_true] at apart
        exact apart
      | opfs name description imageSize => exact apart
      | gateway name description imageSize => exact trivial
    | false =>
      rw [if_neg Bool.false_ne_true, ← remembers type unit.toNat]
      refine (MountCall.apply_fails success).2 ?_
      cases call with
      | image md5 name description imagePath source =>
        simp only [success, Bool.false_eq_true, if_false] at apart
        exact apart
      | opfs name description imageSize => exact absurd success.symm Bool.false_ne_true
      | gateway name description imageSize => exact absurd success.symm Bool.false_ne_true
  · rw [DriveTables.onUnit_other here, remembers type place]
    split_ifs with success
    · have inside := (Bool.and_eq_true _ _ ▸ success : _ ∧ _).1
      rw [remember_other fun both => here ⟨inside, both⟩]
    · rfl

theorem unmount_remembers (remembers : s.Remembers) (driveType : DriveType) (unit : Int)
    (separates : s.Separates (.unmount driveType unit)) :
    (s.step (.unmount driveType unit)).Remembers := by
  intro type place
  simp only [step, DriveTables.machineUnmountDrive]
  by_cases here : inRange driveType unit = true ∧ type = driveType ∧ place = unit.toNat
  · obtain ⟨inside, rfl, rfl⟩ := here
    rw [DriveTables.onUnit_here inside, if_pos inside, remember_here]
    exact MountedDriveInfo.unmount_view (separates inside)
  · rw [DriveTables.onUnit_other here, remembers type place]
    split_ifs with inside
    · rw [remember_other fun both => here ⟨inside, both⟩]
    · rfl

theorem step_remembers (remembers : s.Remembers) (event : DriveEvent File)
    (separates : s.Separates event) : (s.step event).Remembers := by
  cases event with
  | mount driveType unit call => exact mount_remembers remembers driveType unit call separates
  | unmount driveType unit => exact unmount_remembers remembers driveType unit separates

theorem forgetsPast_of_remembers (remembers : s.Remembers) : s.ForgetsPast :=
  fun driveType unit _ => DriveTables.answersAlike_of_view (remembers driveType unit.toNat)

theorem step_failsUnseen (event : DriveEvent File) (separates : s.Separates event) :
    s.FailsUnseen event := by
  cases event with
  | unmount driveType unit => exact trivial
  | mount driveType unit call =>
    intro fails
    simp only [step]
    rw [onDrives_eq]
    by_cases inside : inRange driveType unit = true
    · rw [succeeds, inside, Bool.true_and] at fails
      have unseen := MountCall.apply_fails fails
      constructor
      · refine DriveTables.answersAlike_of_view ?_
        rw [DriveTables.onUnit_here inside]
        refine unseen.2 ?_
        have apart := separates inside
        cases call with
        | image md5 name description imagePath source =>
          simp only [fails, Bool.false_eq_true, if_false] at apart
          exact apart
        | opfs name description imageSize => exact absurd fails.symm Bool.false_ne_true
        | gateway name description imageSize => exact absurd fails.symm Bool.false_ne_true
      · intro type place
        by_cases here : type = driveType ∧ place = unit.toNat
        · obtain ⟨rfl, rfl⟩ := here
          rw [DriveTables.onUnit_here inside]
          exact unseen.1
        · rw [DriveTables.onUnit_other fun all => here all.2]
    · rw [DriveTables.onUnit, if_neg inside]
      exact ⟨DriveTables.answersAlike_of_view rfl, fun _ _ => rfl⟩

theorem run_remembers (events : List (DriveEvent File)) (remembers : s.Remembers)
    (separates : EachStep step Separates s events) : EachState step Remembers s events := by
  induction events generalizing s with
  | nil => exact remembers
  | cons event rest ih =>
    exact ⟨remembers, ih (step_remembers remembers event separates.1)
      separates.2⟩

end MountSession

end History

/- A local image that may only be read, and a store of the browser. -/

def readOnlySource : ImageSource Unit where
  dlDownloadFile := none
  ndGunzip := fun _ => none
  opens := ⟨.error .eacces, some ((), 4096)⟩

def readOnlyImage : MountCall Unit :=
  .image [] ['S', 'M', 'D'] [] ['d', '.', 'i', 'm', 'g'] readOnlySource

def smdStore : MountCall Unit := .opfs ['S', 'M', 'D'] [] 8192

/-- Nothing is stored in the page. -/
def emptyPage : JsBlocks Unit where
  isAvailable := fun _ _ _ => false
  blockRead := fun world _ _ _ _ => (world, -1, [])
  blockWrite := fun world _ _ _ _ => (world, -1)

def plainHost : Host Unit Unit where
  browser := false
  opfs := emptyPage
  gateway := emptyPage
  seekRead := fun world _ _ _ => (world, some [])
  seekWrite := fun world _ _ _ => (world, false)

end Nd100x.Drives
