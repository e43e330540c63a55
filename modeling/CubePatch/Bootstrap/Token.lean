import CubePatch.Bytes

/-!
# Tokens of the bootstrap loader

The loader is shipped as a binary with names where values belong. A name of four letters stands for
a word. A name of two letters stands for half of an address in the instruction that loads it.
-/
namespace CubePatch

/-- The values a loader asks for. -/
inductive Token where
  /-- Bytes reserved for handler and codes. -/
  | heap
  | loaderSize
  | handlerSize
  | codeSize
  | hook
  /-- Whether the codes are encrypted. -/
  | crypt
  /-- The scrambled key. -/
  | key
  | heapUpper
  | heapLower
  | keyUpper
  | keyLower
  | entryUpper
  | entryLower
  deriving DecidableEq, Repr

namespace Token

/-- The name of a token in messages. -/
def name : Token → String
  | .heap => "Heap"
  | .loaderSize => "LoaderSize"
  | .handlerSize => "HandlerSize"
  | .codeSize => "CodeSize"
  | .hook => "Hook"
  | .crypt => "Crypt"
  | .key => "Key"
  | .heapUpper => "DataUpper"
  | .heapLower => "DataLower"
  | .keyUpper => "KeyUpper"
  | .keyLower => "KeyLower"
  | .entryUpper => "EntryUpper"
  | .entryLower => "EntryLower"

/-- The letters by which a loader asks for the value. -/
def letters : Token → String
  | .heap => "HEAP"
  | .loaderSize => "LSIZ"
  | .handlerSize => "HSIZ"
  | .codeSize => "CSIZ"
  | .hook => "HOOK"
  | .crypt => "CRPT"
  | .key => "CYPT"
  | .heapUpper => "GH"
  | .heapLower => "GL"
  | .keyUpper => "DH"
  | .keyLower => "DL"
  | .entryUpper => "IH"
  | .entryLower => "IL"

/-- The tokens that stand for a word, by their letters as a word. -/
def wordTokens : List (UInt32 × Token) :=
  [(0x48454150, .heap), (0x4C53495A, .loaderSize), (0x4853495A, .handlerSize),
    (0x4353495A, .codeSize), (0x484F4F4B, .hook), (0x43525054, .crypt), (0x43595054, .key)]

/-- The tokens that stand for half of an address, by their letters. -/
def halfTokens : List (UInt16 × Token) :=
  [(0x4748, .heapUpper), (0x474C, .heapLower), (0x4448, .keyUpper), (0x444C, .keyLower),
    (0x4948, .entryUpper), (0x494C, .entryLower)]

end Token

end CubePatch
