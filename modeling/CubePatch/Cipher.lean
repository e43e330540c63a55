import CubePatch.Bytes

/-!
# The code cipher

Codes are encrypted word by word with a key that grows: behind the word with index `i` it advances by
`8 * i`. One to three bytes at the end stay as they are. Encrypting twice gives the codes back. The
loader holds the key in a scrambled form, each byte but one combined with its neighbour.
-/
namespace CubePatch

/-- Encrypts from the word with the given index on. -/
def xorWordsFrom (index : Nat) (key : UInt32) : Bytes → Bytes
  | first :: second :: third :: fourth :: rest =>
    wordBytes (joinBytes first second third fourth ^^^ key) ++
      xorWordsFrom (index + 1) (key + UInt32.ofNat index * 8) rest
  | rest => rest

/-- Encrypts or decrypts bytes. -/
def xorWords (key : UInt32) (bytes : Bytes) : Bytes :=
  xorWordsFrom 0 key bytes

theorem length_xorWordsFrom (index : Nat) (key : UInt32) :
    ∀ bytes : Bytes, (xorWordsFrom index key bytes).length = bytes.length
  | first :: second :: third :: fourth :: rest => by
    have later := length_xorWordsFrom (index + 1) (key + UInt32.ofNat index * 8) rest
    simp only [xorWordsFrom, List.length_append, length_wordBytes, List.length_cons, later]
    omega
  | [] | [_] | [_, _] | [_, _, _] => rfl

@[simp] theorem length_xorWords (key : UInt32) (bytes : Bytes) :
    (xorWords key bytes).length = bytes.length :=
  length_xorWordsFrom 0 key bytes

/-- The form in which the loader holds a key: the bytes in reverse, each combined with the next
one as it is held. -/
def scrambleKey (key : UInt32) : UInt32 :=
  let fourth := (key >>> 24).toUInt8
  let third := (key >>> 16).toUInt8 ^^^ fourth
  let second := (key >>> 8).toUInt8 ^^^ third
  let first := key.toUInt8 ^^^ second
  joinBytes first second third fourth

/-- The key that a scrambled form stands for. -/
def unscrambleKey (held : UInt32) : UInt32 :=
  let first := (held >>> 24).toUInt8
  let second := (held >>> 16).toUInt8
  let third := (held >>> 8).toUInt8
  let fourth := held.toUInt8
  joinBytes fourth (third ^^^ fourth) (second ^^^ third) (first ^^^ second)

end CubePatch
