import SourceDebugger.Breakpoint.Basic
import SourceDebugger.Breakpoint.Traps
import SourceDebugger.CallStack
import SourceDebugger.Command
import SourceDebugger.CommandLine
import SourceDebugger.Config
import SourceDebugger.Console
import SourceDebugger.Debuggee.Basic
import SourceDebugger.Debuggee.Event
import SourceDebugger.Debuggee.TrapByte
import SourceDebugger.Debugger
import SourceDebugger.Decimal.Binary64
import SourceDebugger.Decimal.Shortest
import SourceDebugger.Dwarf.Attribute
import SourceDebugger.Dwarf.Functions
import SourceDebugger.Dwarf.LineProgram
import SourceDebugger.Dwarf.Lines
import SourceDebugger.Dwarf.Ranges
import SourceDebugger.Dwarf.Tree
import SourceDebugger.Dwarf.Unit
import SourceDebugger.Dwarf.Variables
import SourceDebugger.Elf.Image
import SourceDebugger.Elf.Symbols
import SourceDebugger.Location
import SourceDebugger.Machine.Assembly
import SourceDebugger.Machine.Control
import SourceDebugger.Machine.Program
import SourceDebugger.Machine.State
import SourceDebugger.Machine.Step
import SourceDebugger.Main
import SourceDebugger.Memory.AddressSpace
import SourceDebugger.Memory.Cursor
import SourceDebugger.Memory.Mapping
import SourceDebugger.Memory.Word
import SourceDebugger.Module
import SourceDebugger.Numbers
import SourceDebugger.Output.LineBuffer
import SourceDebugger.Path
import SourceDebugger.Process.Delivery
import SourceDebugger.Process.Errno
import SourceDebugger.Process.FileTree
import SourceDebugger.Process.Kernel
import SourceDebugger.Process.Loading
import SourceDebugger.Process.Schedule
import SourceDebugger.Process.Signal
import SourceDebugger.Process.Symbols
import SourceDebugger.Process.SystemCall
import SourceDebugger.Process.Traced
import SourceDebugger.Process.TracedThread
import SourceDebugger.Process.Tracing
import SourceDebugger.Proofs.Breakpoint.Bookkeeping
import SourceDebugger.Proofs.Effects
import SourceDebugger.Proofs.Machine.Dress
import SourceDebugger.Proofs.Machine.Memory
import SourceDebugger.Proofs.Machine.Polling
import SourceDebugger.Proofs.Machine.Turn
import SourceDebugger.Proofs.Machine.Words
import SourceDebugger.Proofs.Program.Assembled
import SourceDebugger.Proofs.Program.Body
import SourceDebugger.Proofs.Program.Contained
import SourceDebugger.Proofs.Program.Decoding
import SourceDebugger.Proofs.Program.Frames
import SourceDebugger.Proofs.Program.History
import SourceDebugger.Proofs.Program.Openings
import SourceDebugger.Proofs.Program.Routine
import SourceDebugger.Proofs.Program.Running
import SourceDebugger.Proofs.Program.Symbols
import SourceDebugger.Proofs.Program.Unwinding
import SourceDebugger.Proofs.Session.Held
import SourceDebugger.Proofs.Session.Moves
import SourceDebugger.Proofs.Session.Ready
import SourceDebugger.Proofs.Session.Requests
import SourceDebugger.Proofs.Session.Sight
import SourceDebugger.Proofs.Symbols.Search
import SourceDebugger.Proofs.Symbols.Tables
import SourceDebugger.Proofs.Traps.Laid
import SourceDebugger.Proofs.Traps.Memory
import SourceDebugger.Proofs.Traps.Table
import SourceDebugger.Script
import SourceDebugger.Session.Control
import SourceDebugger.Session.Inspect
import SourceDebugger.Session.Move
import SourceDebugger.Session.State
import SourceDebugger.Stepper
import SourceDebugger.Symbols.FunctionTable
import SourceDebugger.Symbols.LineTable
import SourceDebugger.Symbols.Mangled
import SourceDebugger.Symbols.ModuleSymbols
import SourceDebugger.Symbols.ObjectFile
import SourceDebugger.Symbols.Search
import SourceDebugger.Symbols.Source
import SourceDebugger.Symbols.SymbolTable
import SourceDebugger.Symbols.ValueType
import SourceDebugger.Text.Blank
import SourceDebugger.Text.Hidden
import SourceDebugger.Text.Numeral
import SourceDebugger.Text.Quoted
import SourceDebugger.Text.Utf8
import SourceDebugger.Value.Basic
import SourceDebugger.Value.Reader
import SourceDebugger.X86.Arithmetic
import SourceDebugger.X86.Classify
import SourceDebugger.X86.Encoding
import SourceDebugger.X86.Execute
import SourceDebugger.X86.Floating
import SourceDebugger.X86.Operation
import SourceDebugger.X86.Register
import SourceDebugger.Proofs.Session.Watched
import SourceDebugger.Proofs.Program.Modules
import SourceDebugger.Proofs.Program.Backtrace
import SourceDebugger.Proofs.Session.Accord
import SourceDebugger.Proofs.Program.Course
import SourceDebugger.Proofs.Session.Pursuit
import SourceDebugger.Proofs.Session.Stages
import SourceDebugger.Proofs.Session.Progress
import SourceDebugger.Proofs.Session.Advance
import SourceDebugger.Proofs.Session.Conduct
import SourceDebugger.Proofs.Session.Commands
import SourceDebugger.Proofs.Session.Whereabouts
import SourceDebugger.Proofs.Session.Launch
import SourceDebugger.Proofs.Session.Sketch
import SourceDebugger.Proofs.Program.Overrun
import SourceDebugger.Proofs.Session.Overrun
import SourceDebugger.Proofs.Session.Transparency
import SourceDebugger.Proofs.Session.Integrity
import SourceDebugger.Proofs.Session.Freshness
import SourceDebugger.Proofs.Session.Interruption
import SourceDebugger.Proofs.Session.Reported
import SourceDebugger.Proofs.Session.Restart
import SourceDebugger.Proofs.Dispatch.Linearizable
import SourceDebugger.Proofs.Session.Interleaving
import SourceDebugger.Proofs.Dispatch.Agreement
import SourceDebugger.Proofs.Machine.Data
import SourceDebugger.Proofs.Program.Filled
import SourceDebugger.Proofs.Program.Holdings
import SourceDebugger.Proofs.Program.Reading
import SourceDebugger.Proofs.Session.Inspection
import SourceDebugger.Proofs.Traps.Overlay
import SourceDebugger.Proofs.Symbols.Names
import SourceDebugger.Proofs.Program.Emission
import SourceDebugger.Proofs.Traps.Window
import SourceDebugger.Proofs.Stack.Chain
import SourceDebugger.Proofs.Memory.Images
import SourceDebugger.Proofs.Memory.Listing
import SourceDebugger.Proofs.Breakpoint.Written
import SourceDebugger.Proofs.Text.Cut
import SourceDebugger.Proofs.Output.Pieces
import SourceDebugger.Proofs.Symbols.FileNames
import SourceDebugger.Proofs.Machine.Stepping
import SourceDebugger.Proofs.Dwarf.Functions
import SourceDebugger.Proofs.Session.Resumptions
import SourceDebugger.Proofs.Session.Recurrence
import SourceDebugger.Proofs.Session.Removal
import SourceDebugger.Proofs.Session.Unloading
import SourceDebugger.Proofs.Dispatch.Callbacks
