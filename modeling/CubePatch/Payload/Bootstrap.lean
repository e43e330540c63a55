import CubePatch.Buffer
import CubePatch.Instruction.Encoding
import CubePatch.Payload.Error

/-!
# The bootstrap loader

The loader runs before the game, copies handler and codes to where the game leaves them alone, and
then starts the game. Its tokens are found once, in the binary as it was shipped: whole words at
multiples of four first, then halves at even offsets outside of those words. So no value that is
filled in can be taken for a token.
-/
namespace CubePatch

/-- What is filled into the tokens. -/
structure BootstrapValues where
  /-- Where the loader itself is placed. -/
  initAddress : UInt32
  allocation : UInt32
  handlerLength : UInt32
  codesLength : UInt32
  hookAddress : UInt32
  encrypted : Bool
  /-- The key in scrambled form. -/
  key : UInt32
  /-- Where the game starts. -/
  entryPoint : UInt32
  deriving DecidableEq, Repr

namespace Token

/-- The tokens at multiples of four. -/
def wordsIn (bytes : Bytes) : List (Nat × Token) :=
  (words bytes).zipIdx.filterMap fun (word, index) =>
    (wordTokens.lookup word).map fun token => (index * 4, token)

/-- The token for which a half at an offset stands, if there is one. -/
def ofHalf (offset : Nat) (half : UInt16) : List (Nat × Token) :=
  ((halfTokens.lookup half).map fun token => (offset, token)).toList

/-- The tokens for which the halves of a word stand. A word that is a token has none in it. -/
def ofHalves (offset : Nat) (word : UInt32) : List (Nat × Token) :=
  if (wordTokens.lookup word).isSome then []
  else ofHalf offset (upperHalf word) ++ ofHalf (offset + 2) (lowerHalf word)

/-- The tokens at even offsets outside of word tokens. A half that is no part of a whole word can
stand at the end. -/
def halvesIn (bytes : Bytes) : List (Nat × Token) :=
  let stop := bytes.length / 4 * 4
  let last :=
    match bytes.drop stop with
    | first :: second :: _ => ofHalf stop (joinHalf first second)
    | _ => []
  (words bytes).zipIdx.flatMap (fun (word, index) => ofHalves (index * 4) word) ++ last

/-- All tokens with their offsets, words before halves. -/
def allIn (bytes : Bytes) : List (Nat × Token) :=
  wordsIn bytes ++ halvesIn bytes

/-- The first offset of a token. -/
def firstIn? (token : Token) (bytes : Bytes) : Option Nat :=
  ((allIn bytes).find? fun entry => entry.2 = token).map (·.1)

end Token

/-- A loader as it was shipped, with the offsets of the two tokens it cannot do without. -/
structure Bootstrap where
  bytes : Bytes
  heapOffset : Nat
  keyOffset : Nat
  heapOffset_eq : Token.heap.firstIn? bytes = some heapOffset
  keyOffset_eq : Token.key.firstIn? bytes = some keyOffset

namespace Bootstrap

def ofBytes (bytes : Bytes) : Except PayloadError Bootstrap :=
  match heapOffset_eq : Token.heap.firstIn? bytes with
  | none => .error (.missingToken .heap)
  | some heapOffset =>
    match keyOffset_eq : Token.key.firstIn? bytes with
    | none => .error (.missingToken .key)
    | some keyOffset => .ok ⟨bytes, heapOffset, keyOffset, heapOffset_eq, keyOffset_eq⟩

def length (loader : Bootstrap) : Nat :=
  loader.bytes.length

def tokens (loader : Bootstrap) : List (Nat × Token) :=
  Token.allIn loader.bytes

/-- The bytes that take the place of a token. -/
def fill (loader : Bootstrap) (values : BootstrapValues) (token : Token) : Bytes :=
  let heapAddress := values.initAddress + UInt32.ofNat loader.heapOffset
  let keyAddress := values.initAddress + UInt32.ofNat loader.keyOffset
  match token with
  | .heap => wordBytes values.allocation
  | .loaderSize => wordBytes (UInt32.ofNat loader.length)
  | .handlerSize => wordBytes values.handlerLength
  | .codeSize => wordBytes values.codesLength
  | .hook => wordBytes values.hookAddress
  | .crypt => wordBytes (if values.encrypted then 1 else 0)
  | .key => wordBytes values.key
  | .heapUpper => halfBytes (adjustedUpperHalf heapAddress)
  | .heapLower => halfBytes (lowerHalf heapAddress)
  | .keyUpper => halfBytes (adjustedUpperHalf keyAddress)
  | .keyLower => halfBytes (lowerHalf keyAddress)
  | .entryUpper => halfBytes (adjustedUpperHalf values.entryPoint)
  | .entryLower => halfBytes (lowerHalf values.entryPoint)

/-- The loader with every token replaced. -/
def patch (loader : Bootstrap) (values : BootstrapValues) : Bytes :=
  (Buffer.overwriteAll loader.bytes.toArray
    (loader.tokens.map fun entry => (entry.1, loader.fill values entry.2))).toList

@[simp] theorem length_patch (loader : Bootstrap) (values : BootstrapValues) :
    (loader.patch values).length = loader.length := by
  simp [patch, length]

end Bootstrap

end CubePatch
