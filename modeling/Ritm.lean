import Ritm.Lib.Prog
import Ritm.Lib.Reach
import Ritm.Lib.Search
import Ritm.Lib.ArrayVec
import Ritm.Lib.Refine
import Ritm.Lib.Text
import Ritm.MemoryAccess
import Ritm.Syndrome
import Ritm.Stage2
import Ritm.Stage2Policy
import Ritm.Stage2Order
import Ritm.Stage2Calls
import Ritm.SimpleMap
import Ritm.FiniteMap
import Ritm.Exceptions
import Ritm.Psci
import Ritm.Hypervisor
import Ritm.DataAbort
import Ritm.Hypercall
import Ritm.GuestEntry
import Ritm.Stage2Regime
import Ritm.Qemu
import Ritm.QemuLayout
import Ritm.Lib.BigEndian
import Ritm.DeviceTree
import Ritm.FlatDeviceTree
import Ritm.QemuDeviceTree
import Ritm.QemuMemoryNodes
import Ritm.QemuDevice
import Ritm.Boot
import Ritm.PlatformConfig
import Ritm.BuildScript
import Ritm.Mediation
import Ritm.Machine
import Ritm.Isolation
import Ritm.Suspend
import Ritm.StackSlots
import Ritm.SecondaryStacks
import Ritm.CpuOn
import Ritm.Lib.Simulation
import Ritm.PsciMachine
import Ritm.PsciRefinement
import Ritm.GuestMemory
import Ritm.Assembly
import Ritm.Handover
import Ritm.CriticalSections
import Ritm.InitialMap
import Ritm.FineMachine
import Ritm.El2Visits
import Ritm.LockedVisits
import Ritm.DeviceRuns
import Ritm.Console
