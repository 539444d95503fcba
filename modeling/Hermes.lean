import Hermes.Base.Machine
import Hermes.Base.Window
import Hermes.Base.Memory
import Hermes.Base.Ring
import Hermes.Base.Bytes
import Hermes.Base.Packets
import Hermes.Types
import Hermes.Frame
import Hermes.FramePieces
import Hermes.Checksum
import Hermes.SendQueue
import Hermes.SendSpec
import Hermes.Link
import Hermes.LinkStep
import Hermes.LinkFlow
import Hermes.LinkThreads
import Hermes.LinkRun
import Hermes.LinkSafety
import Hermes.LinkStream
import Hermes.QueuePair
import Hermes.Layout
import Hermes.SendChecks
import Hermes.FrameEffect
import Hermes.SendLoop
import Hermes.SendDrained
import Hermes.FrameVerify
import Hermes.FrameSampling
import Hermes.SendPlace
import Hermes.SendRun
import Hermes.SendStatus
import Hermes.HostInvariant
import Hermes.HostSlots
import Hermes.HostTransport
import Hermes.HostUpdate
import Hermes.HostOverlap
import Hermes.HostRegion
import Hermes.HostDemand
import Hermes.HostSpec
import Hermes.HostRegister
import Hermes.HostTerminal
import Hermes.HostStart
import Hermes.HostAttempt
import Hermes.HostOperations
import Hermes.HostListen
import Hermes.HostClose
import Hermes.HostComplete
import Hermes.HostRun
import Hermes.HostTables
import Hermes.WorkerPool
import Hermes.HostHandles
import Hermes.FixMem
import Hermes.FixMemPool
import Hermes.FixMemSafety
import Hermes.HostListeners
import Hermes.HostClosing
import Hermes.HostDestructor
import Hermes.ArenaLedger
import Hermes.HostArena
import Hermes.Base.Advance
import Hermes.HostScope
import Hermes.HostMoves
import Hermes.HostLife
import Hermes.HostGrants
import Hermes.HostKept
import Hermes.HostLinear
import Hermes.PeerWrites
import Hermes.HostOutcomes
import Hermes.HostDisclosure
import Hermes.HostRegistrations
import Hermes.HostShortage
import Hermes.HostUndisturbed
import Hermes.Base.Component
import Hermes.Library
import Hermes.LibraryStep
import Hermes.LibraryRun
import Hermes.Base.ShiftRegister
import Hermes.FrameErrors
import Hermes.LinkClose
import Hermes.Base.Merge
import Hermes.LibraryDelivery
