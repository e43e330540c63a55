import CubePatch.Bytes

/-!
# The protection code

Some games bring a code handler of their own and would put it in place of ours. This code runs in
front of all others and keeps the game from doing so. Its first line announces 23 lines of
instructions, which are its other words.
-/
namespace CubePatch

def protectionWords : List UInt32 := [
  0xC0000000, 0x00000017, 0x7C0802A6, 0x9421FF70, 0x90010008, 0xBC61000C,
  0x4800000D, 0x00D0C0DE, 0x00D0DEAD, 0x7FE802A6, 0x3BDF0008, 0x3C608000,
  0x38801100, 0x38A00000, 0x60631EF8, 0x7C8903A6, 0x38800000, 0x7D032214,
  0x54E9063E, 0x89080008, 0x7D3F48AE, 0x38E70001, 0x7C084840, 0x4182000C,
  0x60A70000, 0x48000004, 0x54E8063E, 0x28080003, 0x41810010, 0x38840001,
  0x4200FFCC, 0x4800002C, 0x38A00008, 0x7C841A14, 0x7CA903A6, 0x38600000,
  0x3884FFFF, 0x546607BE, 0x7CDE30AE, 0x38630001, 0x9CC40001, 0x4200FFF0,
  0xB861000C, 0x80010008, 0x38210090, 0x7C0803A6, 0x4E800020, 0x00000000]

def protectionCode : Bytes :=
  protectionWords.flatMap wordBytes

@[simp] theorem length_protectionCode : protectionCode.length = 192 := by
  simp [protectionCode, protectionWords]

end CubePatch
