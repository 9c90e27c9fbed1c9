import Md2Core.Augment.DtDebug
import Md2Core.Augment.Failure
import Md2Core.Augment.InjectionOrder
import Md2Core.Augment.Placement
import Md2Core.CoreWriter.Canonical
import Md2Core.CoreWriter.CrashAttribution
import Md2Core.CoreWriter.DataSegments
import Md2Core.CoreWriter.HeaderCount
import Md2Core.CoreWriter.Overflow
import Md2Core.LinuxMaps.Grammar
import Md2Core.Main
import Md2Core.Main.Auxv
import Md2Core.Main.DsoStream
import Md2Core.Main.KernelMaps
import Md2Core.Main.Output
import Md2Core.Main.Safety
import Md2Core.Main.Threads
import Md2Core.Model.ProcessInfo
import Md2Core.Notes.FileDecoding
import Md2Core.Notes.NoteStream
import Md2Core.Pipeline
import Md2Core.Regs.FloatNotes
import Md2Core.Regs.FloatState
import Md2Core.RustMinidump.AuxvStream
import Md2Core.RustMinidump.Executable
import Md2Core.RustMinidump.LinkMapArray
import Md2Core.RustMinidump.LinuxMaps
import Md2Core.RustMinidump.LoadBias
import Md2Core.RustMinidump.MangledNames
import Md2Core.RustMinidump.ModuleNames
import Md2Core.RustMinidump.Process
import Md2Core.RustMinidump.ReadSafety
import Md2Core.RustMinidump.ScanSafety
import Md2Core.RustMinidump.SharedLibNames
import Md2Core.RustMinidump.Threads
