import Unarddeg.Kernel.Interleaved
import Unarddeg.Kernel.Vmem.LiveBlocks
import Unarddeg.Kernel.Vmem.Restored
import Unarddeg.Kernel.Vmem.Indices
import Unarddeg.Kernel.Vmem.Sizes
import Unarddeg.Kernel.Vmem.Rollback
import Unarddeg.Kernel.Vfs.Tree
import Unarddeg.Kernel.Vfs.Siblings
import Unarddeg.Kernel.Vfs.Composed
import Unarddeg.Kernel.Vfs.Folded
import Unarddeg.Kernel.Vfs.Children
import Unarddeg.Kernel.Vfs.Iterate
import Unarddeg.Kernel.Vfs.Cut
import Unarddeg.Kernel.Sched.Opened
import Unarddeg.Kernel.Sched.Dangling
import Unarddeg.Kernel.Sched.Switch
import Unarddeg.Kernel.Sched.Tables
import Unarddeg.Kernel.Sched.Lifetime
import Unarddeg.Kernel.Sched.SelfLink
import Unarddeg.Kernel.Sched.Names
import Unarddeg.Kernel.Sched.Release
import Unarddeg.Kernel.Sched.Selection
import Unarddeg.Arch.Riscv.Switch
import Unarddeg.Arch.Riscv.Resume
import Unarddeg.Arch.Module.Formats
import Unarddeg.Arch.Module.Patched
import Unarddeg.Arch.Module.Prescribed
import Unarddeg.Arch.Module.Bounded
import Unarddeg.Modules.Fat.Written
import Unarddeg.Modules.Fat.Circles
import Unarddeg.Modules.Fat.Stored
import Unarddeg.Modules.Fat.Loaded
import Unarddeg.Modules.Fat.Slots
import Unarddeg.Modules.Fat.Packed
import Unarddeg.Modules.Fat.Names
import Unarddeg.Modules.Fat.RoundTrip
import Unarddeg.Modules.Ide.Disk
import Unarddeg.Modules.Ide.Faults
import Unarddeg.Modules.Ide.Access
import Unarddeg.Modules.Ide.Errors
import Unarddeg.Modules.Uniform
import Unarddeg.Modules.Pci
import Unarddeg.Modules.Vga
import Unarddeg.Modules.Ide.Seeks
import Unarddeg.Arch.Ia32.Resume
import Unarddeg.Arch.Arm32.Resume
import Unarddeg.Arch.Amd64.Vga
import Unarddeg.Modules.Fat.Mount
import Unarddeg.Modules.Fat.Region
import Unarddeg.Modules.Fat.Overread
import Unarddeg.Modules.Fat.Search
import Unarddeg.Modules.Keyboard
import Unarddeg.Modules.Lines
import Unarddeg.Arch.Module.Sections
import Unarddeg.Modules.Terminals
import Unarddeg.Modules.Modifiers
import Unarddeg.Modules.Mouse
import Unarddeg.Modules.Shell.Quoting
import Unarddeg.Modules.Shell.Words
import Unarddeg.Modules.Shell.Init
import Unarddeg.Kernel.Vfs.Random
import Unarddeg.Kernel.Memset
import Unarddeg.Arch.Amd64.Delay
import Unarddeg.Kernel.Halting
import Unarddeg.Kernel.Formats
import Unarddeg.Arch.Ia32.Boot
import Unarddeg.Arch.Module.Narrowed
import Unarddeg.Modules.Ide.Probe
import Unarddeg.Modules.Fat.OnDisk
