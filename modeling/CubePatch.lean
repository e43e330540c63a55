import CubePatch.Arithmetic
import CubePatch.Bytes
import CubePatch.Buffer
import CubePatch.Hexadecimal
import CubePatch.Word
import CubePatch.Instruction
import CubePatch.Instruction.Encoding
import CubePatch.Section
import CubePatch.Image
import CubePatch.Image.Cursor
import CubePatch.Image.Gap
import CubePatch.Image.Append
import CubePatch.Settings
import CubePatch.Code.Line
import CubePatch.CodeList
import CubePatch.Text.Padding
import CubePatch.Text.Split
import CubePatch.File.Path
import CubePatch.Bootstrap.Token
import CubePatch.Log.Event
import CubePatch.Log.Logged
import CubePatch.Text.Encoding
import CubePatch.Code.TextList
import CubePatch.Code.StaticWrite
import CubePatch.Code.Absorption
import CubePatch.Cipher
import CubePatch.Cipher.KeyDraw
import CubePatch.File.Error
import CubePatch.Payload.Error
import CubePatch.Payload.Handler
import CubePatch.Payload.Bootstrap
import CubePatch.Payload.Hook
import CubePatch.Payload.Placement
import CubePatch.Payload.Protection
import CubePatch.Code.Source
import CubePatch.Build.Error
import CubePatch.Build.Report
import CubePatch.Build.Patch
import CubePatch.Build.Destination
import CubePatch.Text.Escape
import CubePatch.Text.Shapeless
import CubePatch.Text.Quoted
import CubePatch.File.Tree
import CubePatch.File.System
import CubePatch.Build
import CubePatch.CommandLine.Number
import CubePatch.CommandLine.Argument
import CubePatch.CommandLine.Options
import CubePatch.CommandLine.Help
import CubePatch.CommandLine.Run
import CubePatch.Main
import CubePatch.Proofs.Bytes
import CubePatch.Proofs.Word
import CubePatch.Proofs.Word.Field
import CubePatch.Proofs.Instruction
import CubePatch.Proofs.Image.Layout
import CubePatch.Proofs.Image.Access
import CubePatch.Proofs.Absorption.Run
import CubePatch.Proofs.Absorption.Exactness
import CubePatch.Proofs.Image.Memory
import CubePatch.Proofs.Absorption.Effect
import CubePatch.Proofs.Cipher
import CubePatch.Proofs.Code.List
import CubePatch.Proofs.Code.Grammar
import CubePatch.Proofs.Code.Revision
import CubePatch.Proofs.Payload.Bootstrap
import CubePatch.Proofs.Image.Append
import CubePatch.Proofs.Image.Run
import CubePatch.Proofs.Image.Branch
import CubePatch.Proofs.Payload.Hook
import CubePatch.Proofs.Payload.Handler
import CubePatch.Proofs.Build.Installation
import CubePatch.Proofs.Build.Frame
import CubePatch.Proofs.Build.Arena
import CubePatch.Proofs.Build.Hook
import CubePatch.Proofs.Image.Cursor
import CubePatch.Proofs.Image.Reopen
import CubePatch.Proofs.Build.Reopen
import CubePatch.Proofs.Image.Gap
import CubePatch.Proofs.Build.Failure
import CubePatch.Proofs.Payload.Pointer
import CubePatch.Proofs.Build.Legacy
import CubePatch.Proofs.Image.Sharing
import CubePatch.Proofs.Build.Extent
import CubePatch.Proofs.File.Tree
import CubePatch.Proofs.File.System
import CubePatch.Proofs.Build.Reading
import CubePatch.Proofs.Build.Destination
import CubePatch.Proofs.Build.Directory
import CubePatch.Proofs.Build.Inputs
import CubePatch.Proofs.CommandLine.Run
import CubePatch.Proofs.Image.Addition
import CubePatch.Proofs.Image.Acceptance
import CubePatch.Proofs.Payload.Filling
import CubePatch.Proofs.Payload.Trampoline
import CubePatch.Proofs.Absorption.Repetition
import CubePatch.Proofs.Absorption.ClosedForm
import CubePatch.Proofs.Search
import CubePatch.Proofs.Text.Lines
import CubePatch.Proofs.Hexadecimal
import CubePatch.Proofs.Code.Text
import CubePatch.Proofs.Text.Encoding
import CubePatch.Proofs.Code.Rendering
import CubePatch.Proofs.Build.Emptiness
import CubePatch.Proofs.Payload.HookSite
import CubePatch.Proofs.Image.Failure
import CubePatch.Proofs.Build.Allocation
