import Nd100x.Library.Program
import Nd100x.Library.Frame
import Nd100x.Library.WordBits
import Nd100x.Library.LinkedChain
import Nd100x.Library.Crc
import Nd100x.Library.Transducer
import Nd100x.Library.ByteMemory
import Nd100x.Machine.State
import Nd100x.Machine.Registers
import Nd100x.Machine.Mms
import Nd100x.Machine.Reset
import Nd100x.Machine.Physical
import Nd100x.Machine.Instr
import Nd100x.Machine.Decimal
import Nd100x.Machine.PageLists
import Nd100x.Proof.MachineFrame
import Nd100x.Proof.PageEntry
import Nd100x.Proof.Translation
import Nd100x.Proof.TranslationContract
import Nd100x.Flat.Space
import Nd100x.Flat.SpaceFrame
import Nd100x.Flat.Simulation
import Nd100x.Flat.Resident
import Nd100x.Flat.PageLists
import Nd100x.Flat.Decimal
import Nd100x.Proof.DecimalFields
import Nd100x.Proof.DecimalDigits
import Nd100x.Proof.DecimalConversion
import Nd100x.Proof.DecimalRoundTrip
import Nd100x.Proof.DecimalIndices
import Nd100x.Hdlc.Frame
import Nd100x.Hdlc.Framing
import Nd100x.Hdlc.ControlBlocks
import Nd100x.Hdlc.Receiver
import Nd100x.Hdlc.ReceiveList
import Nd100x.Hdlc.Placement
import Nd100x.Hdlc.Reception
import Nd100x.Hdlc.MessagePlacement
import Nd100x.Hdlc.MessageMarks
import Nd100x.Hdlc.StoppedReceiver
import Nd100x.Hdlc.Transmitter
import Nd100x.Hdlc.TransmitList
import Nd100x.Hdlc.Transmission
import Nd100x.Hdlc.OutgoingFrames
import Nd100x.Library.ByteRange
import Nd100x.Scsi.TapeImage
import Nd100x.Scsi.TapeMotion
import Nd100x.Scsi.TapeContent
import Nd100x.Library.ItemCursor
import Nd100x.Scsi.TapeItems
import Nd100x.Scsi.TapeRuns
import Nd100x.Scsi.TapePlaces
import Nd100x.Scsi.TapeWrites
import Nd100x.Scsi.TapeRefinement
import Nd100x.Scsi.TapeTravels
import Nd100x.Scsi.Target
import Nd100x.Scsi.TapeDrive
import Nd100x.Scsi.TapeCommands
import Nd100x.Scsi.TapeHooks
import Nd100x.Scsi.TapeAcceptance
import Nd100x.Scsi.TapeHonesty
import Nd100x.Scsi.Disk
import Nd100x.Scsi.DiskHonesty
import Nd100x.Devices.Device
import Nd100x.Devices.Manager
import Nd100x.Devices.TickAll
import Nd100x.Devices.Delays
import Nd100x.Library.Ring
import Nd100x.Library.BitStream
import Nd100x.Library.CanonicalCode
import Nd100x.Gunzip.Format
import Nd100x.Gunzip.Decoder
import Nd100x.Gunzip.BitReader
import Nd100x.Gunzip.CodeTable
import Nd100x.Gunzip.Blocks
import Nd100x.Gunzip.PlainBlocks
import Nd100x.Gunzip.DynamicBlock
import Nd100x.Gunzip.Header
import Nd100x.Gunzip.Exact
import Nd100x.Octobus.Card
import Nd100x.Octobus.ReceiveOrder
import Nd100x.Octobus.Bench
import Nd100x.Octobus.Requests
import Nd100x.Octobus.Interrupts
import Nd100x.Library.Runs
import Nd100x.Library.FrameStream
import Nd100x.Ethernet.MfpParts
import Nd100x.Ethernet.Mfp
import Nd100x.Ethernet.MfpLine
import Nd100x.Ethernet.LanceParts
import Nd100x.Ethernet.Lance
import Nd100x.Ethernet.Card
import Nd100x.Ethernet.Level12
import Nd100x.Telnet.OutputRing
import Nd100x.Telnet.Output
import Nd100x.Ethernet.LanceLine
import Nd100x.Ethernet.TcpLink
import Nd100x.Ethernet.TcpFrames
import Nd100x.Drives.Mount
import Nd100x.Drives.MountHistory
import Nd100x.Gateway.Disk
import Nd100x.Gateway.DiskAnswers
import Nd100x.Gateway.EthSegment
import Nd100x.Gateway.EthRepeater
import Nd100x.Gateway.Lines
import Nd100x.Gateway.LineBindings
import Nd100x.Machine.TestAndSet
import Nd100x.Proof.TestAndSet
import Nd100x.Proof.DebuggerView
import Nd100x.Machine.Arithmetic
import Nd100x.Library.SignMagnitude
import Nd100x.Proof.Arithmetic
import Nd100x.Library.IntervalTable
import Nd100x.Machine.MemoryBanks
import Nd100x.Proof.MemoryBanks
import Nd100x.Proof.MemoryBankWindows
import Nd100x.Machine.Moves
import Nd100x.Flat.ByteMoves
import Nd100x.Proof.ByteMoves
import Nd100x.Flat.PageChains
import Nd100x.Library.WriteLog
import Nd100x.Proof.PageTableView
import Nd100x.Proof.SegmentTables
import Nd100x.Proof.Addition
import Nd100x.Library.PlaceShift
import Nd100x.Proof.Shifts
import Nd100x.Machine.Floats
import Nd100x.Library.BinaryScale
import Nd100x.Proof.FloatCores
import Nd100x.Proof.Floats
import Nd100x.Proof.FloatIntegers
import Nd100x.Proof.ShortFloats
import Nd100x.Proof.DecimalArithmetic
import Nd100x.Flat.PackedFields
import Nd100x.Flat.PackedArithmetic
import Nd100x.Flat.WordMoves
import Nd100x.Hdlc.ErrorDetection
import Nd100x.Hdlc.Resynchronisation
import Nd100x.Hdlc.ListEmpty
import Nd100x.Hdlc.BadFrames
import Nd100x.Breakpoints.Manager
import Nd100x.Breakpoints.Hits
import Nd100x.Scsi.ModePages
import Nd100x.Scsi.BlockArray
import Nd100x.Library.BitStuffing
import Nd100x.Hdlc.BitStuffing
import Nd100x.Scsi.TapeSafety
import Nd100x.Devices.DelayOrder
import Nd100x.Library.PulseTrain
import Nd100x.Devices.Rtc
import Nd100x.Devices.Terminal
import Nd100x.Scsi.Card
import Nd100x.Scsi.DmaPacking
import Nd100x.Library.KeyedArray
import Nd100x.Devices.BlockHost
import Nd100x.Library.ByteImage
import Nd100x.Devices.Surface
import Nd100x.Devices.Discs
import Nd100x.Devices.DiscRuns
import Nd100x.Devices.FloppyPio
import Nd100x.Devices.MountedDrive
import Nd100x.Smd.Controller
import Nd100x.Smd.Transfers
import Nd100x.Machine.Bpun
import Nd100x.Proof.BpunLoading
import Nd100x.Ethernet.MfpPins
import Nd100x.Telnet.Input
import Nd100x.Library.OnesComplement
import Nd100x.Ethernet.IpChecksum
import Nd100x.Ethernet.ReceiveRings
import Nd100x.Ethernet.TransmitDemand
import Nd100x.Print.Escp
import Nd100x.Gateway.EthNetwork
