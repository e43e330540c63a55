import CubePatch.Build
import CubePatch.CommandLine.Argument

/-!
# The options of the program

Options are taken in a fixed order, which matters: a value that looks like an option belongs to
the option in front of it only if that one is taken first.
-/
namespace CubePatch

namespace Scan

/-- The value of an option that is a word in hexadecimal. -/
def word (key : OptionKey) : Scan (Option UInt32) :=
  value key fun text => (readHexWord text).mapError .number

/-- The value of an option that is a number of 64 bits. -/
def seed (key : OptionKey) : Scan (Option UInt64) :=
  value key fun text => (readSeed text).mapError .number

/-- The value of an option that is one of some named alternatives. -/
def named (key : OptionKey) (ofName : String → Except UnknownName α) : Scan (Option α) :=
  value key fun text => (ofName text).mapError .name

/-- The value of an option that is a path. Every text is one. -/
def path (key : OptionKey) : Scan (Option Path) :=
  value key fun text => .ok ⟨text⟩

end Scan

/-- What the arguments of a run ask for. -/
structure RunOptions where
  help : Bool
  allocation : Option UInt32
  initAddress : Option UInt32
  selection : Option TextSelection
  handler : Option HandlerVariant
  handlerPath : Option Path
  loaderPath : Option Path
  hookKind : Option HookKind
  hookAddress : Option UInt32
  placement : Option PlacementChoice
  optimize : Bool
  protect : Bool
  encrypt : Bool
  seed : Option UInt64
  destination : Option Path
  quiet : Bool
  verbosity : Nat
  image : Option Path
  codes : Option Path
  deriving DecidableEq, Repr

namespace RunOptions

/-- Takes every option and then the free arguments off the arguments. -/
def scan : Scan RunOptions := do
  let options : RunOptions :=
    { help := ← Scan.flag ⟨some 'h', "--help"⟩
      allocation := ← Scan.word ⟨some 'a', "--alloc"⟩
      initAddress := ← Scan.word ⟨some 'i', "--init"⟩
      selection := ← Scan.named ⟨none, "--txtcodes"⟩ TextSelection.ofName
      handler := ← Scan.named ⟨none, "--handler"⟩ HandlerVariant.ofName
      handlerPath := ← Scan.path ⟨none, "--handlerpath"⟩
      loaderPath := ← Scan.path ⟨none, "--loaderpath"⟩
      hookKind := ← Scan.named ⟨none, "--hooktype"⟩ HookKind.ofName
      hookAddress := ← Scan.word ⟨none, "--hookaddress"⟩
      placement := ← Scan.named ⟨none, "--placement"⟩ PlacementChoice.ofName
      optimize := ← Scan.flag ⟨some 'o', "--optimize"⟩
      protect := ← Scan.flag ⟨some 'p', "--protect"⟩
      encrypt := ← Scan.flag ⟨none, "--encrypt"⟩
      seed := ← Scan.seed ⟨none, "--seed"⟩
      destination := ← Scan.path ⟨none, "--dest"⟩
      quiet := ← Scan.flag ⟨some 'q', "--quiet"⟩
      verbosity := ← Scan.count ⟨some 'v', "--verbose"⟩
      image := (← Scan.free).map Path.mk
      codes := (← Scan.free).map Path.mk }
  Scan.finish
  return options

/-- Reads the arguments of a run. -/
def ofArguments (arguments : List String) : Except ArgumentError RunOptions :=
  match scan arguments with
  | .ok options _ => .ok options
  | .error fault _ => .error fault

/-- The rank of the least urgent events that are shown. -/
def shownRank (options : RunOptions) : Nat :=
  if options.quiet then 0 else min (Level.warn.rank + options.verbosity) Level.trace.rank

/-- The binary of a handler in the directory of binaries. -/
def handlerName : HandlerVariant → String
  | .full => "codehandler.bin"
  | .mini => "codehandler-mini.bin"

/-- The loader in the directory of binaries. -/
def loaderName : String := "geckoloader.bin"

/-- The build that is asked for. Handler and loader are taken from `binaries` if no path is given,
and the key is drawn from `entropy` if no seed is given. -/
def build (options : RunOptions) (binaries : Path) (entropy : UInt64) :
    Except ArgumentError BuildOptions :=
  match options.image, options.codes with
  | none, _ => .error (.missing "<dolfile>")
  | some _, none => .error (.missing "<codelist>")
  | some image, some codes =>
    .ok {
      image := image
      codes := codes
      handler := options.handlerPath.getD
        (binaries.join (handlerName (options.handler.getD .full)))
      loader := options.loaderPath.getD (binaries.join loaderName)
      destination := options.destination
      selection := options.selection.getD .active
      settings :=
        { allocation := options.allocation
          initAddress := options.initAddress
          hookAddress := options.hookAddress
          hookKind := options.hookKind.getD .video
          placement := options.placement.getD .automatic
          optimize := options.optimize
          protect := options.protect
          encrypt := options.encrypt
          seed := options.seed.getD entropy } }

end RunOptions

end CubePatch
