import CubePatch.Proofs.Build.Stages
import CubePatch.Proofs.Payload.Handler

/-!
What installing a payload does to an image.

The payload becomes a section behind the end of the file. After that only words are written: those
of the slot of the section, the entry point if there is a loader, and the branch at the hook.
-/
namespace CubePatch

/-- The words written in a file behind which a payload was put: the slot of its section, the entry
point, and the branch at the place of the hook. -/
def installedWords (area : Section) (init : Option UInt32) (place : Nat) (branch : UInt32) :
    List (Nat × Bytes) :=
  Header.wordsOf area ++ init.toList.map (fun address => (Header.entryField, wordBytes address)) ++
    [(place, wordBytes branch)]

section InstalledWords

variable {file : Bytes} {area : Section} {init : Option UInt32} {place : Nat} {branch : UInt32}

theorem mem_installedWords {write : Nat × Bytes}
    (member : write ∈ installedWords area init place branch) :
    write ∈ Header.wordsOf area ∨
      (∃ address, init = some address ∧ write = (Header.entryField, wordBytes address)) ∨
      write = (place, wordBytes branch) := by
  simp only [installedWords, List.mem_append, List.mem_map, Option.mem_toList,
    List.mem_singleton] at member
  rcases member with (slot | ⟨address, given, rfl⟩) | rfl
  · exact Or.inl slot
  · exact Or.inr (Or.inl ⟨address, given, rfl⟩)
  · exact Or.inr (Or.inr rfl)

/-- The tables are written first, and what is written then stands behind them. -/
theorem overwriteAll_installed :
    overwriteAll file (installedWords area init place branch) =
      overwriteAll (Header.describe file area)
        (init.toList.map (fun address => (Header.entryField, wordBytes address)) ++
          [(place, wordBytes branch)]) := by
  rw [installedWords, List.append_assoc, overwriteAll_append]
  rfl

variable (behind : headerSize ≤ place)

include behind

theorem take_installed :
    (overwriteAll file (installedWords area init place branch)).take Header.bssAddressField =
      (Header.describe file area).take Header.bssAddressField := by
  rw [overwriteAll_installed]
  apply take_overwriteAll_of_le
  intro write member
  simp only [List.mem_append, List.mem_map, List.mem_singleton] at member
  have entry : Header.bssAddressField ≤ Header.entryField := by decide
  have header : Header.bssAddressField ≤ headerSize := by decide
  rcases member with ⟨address, -, rfl⟩ | rfl
  · exact entry
  · exact Nat.le_trans header behind

/-- A word between the tables and the entry point stays. -/
theorem wordAt_installed_of_between (slot : area.slot < 18) {offset : Nat}
    (lower : Header.bssAddressField ≤ offset) (upper : offset + 4 ≤ Header.entryField) :
    wordAt (overwriteAll file (installedWords area init place branch)) offset =
      wordAt file offset := by
  rw [overwriteAll_installed, wordAt_overwriteAll_of_apart]
  · exact Header.wordAt_describe_of_le file slot lower
  · intro write member
    simp only [List.mem_append, List.mem_map, List.mem_singleton] at member
    rcases member with ⟨address, -, rfl⟩ | rfl
    · exact Or.inl upper
    · exact Or.inl (Nat.le_trans (Nat.le_trans upper (by decide)) behind)

variable (slot : area.slot < 18)

include slot

/-- The slots of other sections are not written. -/
theorem sectionAt_installed_of_ne (kind : SectionKind) {other : Nat} (small : other < 18)
    (differs : other ≠ area.slot) :
    Header.sectionAt (overwriteAll file (installedWords area init place branch)) kind other =
      Header.sectionAt file kind other := by
  rw [Header.sectionAt_of_take_eq (take_installed behind) kind small]
  exact Header.sectionAt_describe_of_ne file kind small slot differs

variable (long : headerSize ≤ file.length)

include long

/-- The slot of the section describes the section. -/
theorem sectionAt_installed_self :
    Header.sectionAt (overwriteAll file (installedWords area init place branch)) area.kind
      area.slot = area := by
  rw [Header.sectionAt_of_take_eq (take_installed behind) area.kind slot]
  exact Header.sectionAt_describe_self slot (Nat.le_trans (by decide) long)

theorem entryField_installed :
    wordAt (overwriteAll file (installedWords area init place branch)) Header.entryField =
      init.getD (wordAt file Header.entryField) := by
  have header : Header.entryField + 4 ≤ headerSize := by decide
  have spared : ∀ write ∈ [(place, wordBytes branch)],
      Header.entryField + 4 ≤ write.1 ∨ write.1 + write.2.length ≤ Header.entryField := by
    intro write member
    obtain rfl := List.mem_singleton.mp member
    exact Or.inl (Nat.le_trans header behind)
  rw [overwriteAll_installed, overwriteAll_append, wordAt_overwriteAll_of_apart spared]
  cases init with
  | none => exact Header.wordAt_describe_of_le file slot (by decide)
  | some address =>
    refine wordAt_of_slice (slice_overwrite_self ?_)
    rw [Header.length_describe]
    exact Nat.le_trans header long

end InstalledWords

/-- A hook that was chosen changed nothing but the cursor. One that was given, or found in an image
that ends in the address space, is a word of a section, and the word that stands there is known. -/
theorem chooseHook_eq_ok {image after : Image} {settings : PatchSettings} {hook replaced : UInt32}
    (sound : image.WellFormed)
    (run : (chooseHook image settings).outcome = .ok (hook, replaced, after)) :
    (∃ cursor, after = { image with cursor := cursor }) ∧
      (settings.hookAddress.isSome = true ∨
          (∀ area ∈ image.sections, area.stop ≤ UInt32.size) →
        ∃ area ∈ image.sections, area.Holds hook 4 ∧
          wordAt image.bytes (area.placeOf hook) = replaced) := by
  obtain ⟨given, verified⟩ | ⟨searched, ⟨site, located, rfl⟩, rfl, rfl⟩ := chooseHook_cases run
  · -- a given hook was read at, so it is in a section without any bound on where sections end
    obtain ⟨area, cursor, found, fits, rfl, rfl⟩ := Image.verifyHook_eq_ok verified
    obtain ⟨member, inside⟩ := (Image.find?_contains_eq_some_iff sound _ _).mp found
    exact ⟨⟨cursor, rfl⟩, fun _ => ⟨area, member, ⟨inside, fits⟩, rfl⟩⟩
  · refine ⟨⟨_, rfl⟩, fun certain => ?_⟩
    obtain given | ends := certain
    · rw [searched] at given
      cases given
    · exact Image.locateHook_eq_ok sound ends located

namespace Installation

variable {start out : Image} {codes : CodeList} {handler : Handler} {loader : Bootstrap}
  {settings : PatchSettings} {entryPoint : UInt32} {init : Option UInt32}
  (stages : Installation start codes handler loader settings entryPoint init out)

theorem entry_eq : stages.moved.entry = handler.entry := by
  rw [Handler.entry, Handler.entry, (Handler.withTrampoline_eq_ok stages.trampoline).1]

/-- The payload becomes the next section of the image that was there when the hook was chosen. -/
theorem adds (sound : start.WellFormed) :
    stages.area.kind = start.freeKind ∧ stages.area.loadAddress = stages.payload.address ∧
      start.Adds stages.payload.bytes stages.area stages.installed := by
  -- looking for the hook moved the cursor, of which adding a section makes no use
  obtain ⟨⟨cursor, looked⟩, -⟩ := chooseHook_eq_ok sound stages.chosen
  have added := stages.added
  rw [looked] at added
  obtain ⟨kind, load, adds⟩ := Image.install_eq_ok added
  exact ⟨kind, load, adds.area_eq, adds.room, adds.size_eq, adds.free, adds.bytes, adds.text,
    adds.data⟩

/-- The branch is written at the place of the hook in the section it is in. -/
theorem hook_written :
    ∃ home, out.sections.find? (·.Contains stages.hook) = some home ∧
      stages.hook.toNat + 4 ≤ home.stop ∧ out.text = stages.installed.text ∧
      out.data = stages.installed.data ∧
      out.bytes = overwrite (stages.installed.startedAt init).bytes (home.placeOf stages.hook)
        (wordBytes (branchWord stages.hook handler.entry false)) := by
  obtain ⟨home, found, fits, written⟩ := Image.write_at_eq_ok stages.hooked
  rw [stages.entry_eq] at written
  have text : out.text = stages.installed.text := by
    rw [congrArg Image.text written, Image.text_written, Image.text_startedAt]
  have data : out.data = stages.installed.data := by
    rw [congrArg Image.data written, Image.data_written, Image.data_startedAt]
  have sections : out.sections = (stages.installed.startedAt init).sections := by
    rw [congrArg Image.sections written, Image.sections_written]
  have bytes := congrArg Image.bytes written
  rw [Image.bytes_written] at bytes
  exact ⟨home, sections ▸ found, fits, text, data, bytes⟩

theorem bytes_startedAt (sound : start.WellFormed) (place : Nat) (branch : UInt32) :
    overwrite (stages.installed.startedAt init).bytes place (wordBytes branch) =
      overwriteAll (padTo Image.sectionAlignment start.bytes ++ stages.payload.bytes)
        (installedWords stages.area init place branch) := by
  obtain ⟨-, -, adds⟩ := stages.adds sound
  rw [installedWords, overwriteAll_append, overwriteAll_append, ← Header.describe_eq, ← adds.bytes]
  cases init with
  | none => rfl
  | some address =>
    rw [Image.startedAt, Image.setEntryPoint, Image.setWord, Image.bytes_overwrite]
    rfl

variable (sound : start.WellFormed)

include sound

theorem mem_sections (other : Section) :
    other ∈ out.sections ↔ other ∈ start.sections ∨ other = stages.area := by
  obtain ⟨-, -, adds⟩ := stages.adds sound
  obtain ⟨home, -, -, text, data, -⟩ := stages.hook_written
  have sections : out.sections = stages.installed.sections := by
    rw [Image.sections, Image.sections, text, data]
  rw [sections]
  exact adds.mem_sections other

/-- The section that is added has no address in common with one that was there. -/
theorem not_contains_of_mem {home : Section} (member : home ∈ start.sections) {address : UInt32}
    (inside : home.Contains address) : ¬ stages.area.Contains address := by
  obtain ⟨-, -, adds⟩ := stages.adds sound
  exact Section.not_contains_of_apart (Section.apart_of_not_meets (adds.free home member)) inside

/-- A branch outside of the added section leaves the payload as it was put behind the file. -/
theorem payload_stands (outside : ¬ stages.area.Contains stages.hook) :
    slice out.bytes (padTo Image.sectionAlignment start.bytes).length
      stages.payload.bytes.length = stages.payload.bytes := by
  obtain ⟨-, -, adds⟩ := stages.adds sound
  obtain ⟨home, found, fits, -, -, bytes⟩ := stages.hook_written
  have inside : home.Contains stages.hook := by simpa using List.find?_some found
  obtain old | rfl := (stages.mem_sections sound home).mp (List.mem_of_find?_eq_some found)
  · have header := sound.header
    have behind := (Image.place_in_file sound old ⟨inside, fits⟩).2
    have grows : start.bytes.length ≤ (padTo Image.sectionAlignment start.bytes).length := by
      rw [padTo, List.length_append]
      omega
    rw [bytes, stages.bytes_startedAt sound, slice_overwriteAll_of_apart]
    · exact slice_append_right
    · -- every word that is written ends inside the file as it was before the padding
      intro write listed
      refine Or.inr (Nat.le_trans ?_ grows)
      unfold headerSize at header
      rcases mem_installedWords listed with slot | ⟨address, -, rfl⟩ | rfl
      · have := Header.mem_wordsOf adds.slot_lt slot
        unfold Header.bssAddressField at this
        omega
      · simp only [Header.entryField, length_wordBytes]
        omega
      · exact behind
  · exact absurd inside outside

variable (small : (padTo Image.sectionAlignment start.bytes).length < UInt32.size)

include small

/-- The image at the end keeps the layout, and its file is the padded one with the payload behind it
and the announced words in it. -/
theorem effect :
    out.WellFormed ∧
      (∀ other, other ∈ out.sections ↔ other ∈ start.sections ∨ other = stages.area) ∧
      ∃ home ∈ out.sections, home.Holds stages.hook 4 ∧
        out.bytes = overwriteAll (padTo Image.sectionAlignment start.bytes ++ stages.payload.bytes)
          (installedWords stages.area init (home.placeOf stages.hook)
            (branchWord stages.hook handler.entry false)) := by
  obtain ⟨-, -, adds⟩ := stages.adds sound
  obtain ⟨home, found, fits, text, data, bytes⟩ := stages.hook_written
  rw [stages.bytes_startedAt sound] at bytes
  have sections : out.sections = stages.installed.sections := by
    rw [Image.sections, Image.sections, text, data]
  have length : out.bytes.length = stages.installed.bytes.length := by
    rw [bytes, length_overwriteAll, adds.length_eq, List.length_append]
  have grown := (adds.wellFormed small sound).of_same_layout sections length
  obtain ⟨member, inside⟩ := (Image.find?_contains_eq_some_iff grown _ _).mp found
  exact ⟨grown, stages.mem_sections sound, home, member, ⟨inside, fits⟩, bytes⟩

/-- In an image that ends in the address space the hook is in a section that was there before. So
the branch stands in front of the added section, which is left as it was put there. -/
theorem hook_in_start (ends : ∀ other ∈ start.sections, other.stop ≤ UInt32.size) :
    ∃ home ∈ start.sections, home.Holds stages.hook 4 ∧
      wordAt start.bytes (home.placeOf stages.hook) = stages.replaced ∧
      out.sectionBytes stages.area = stages.payload.bytes := by
  obtain ⟨-, found⟩ := chooseHook_eq_ok sound stages.chosen
  obtain ⟨home, member, held, stands⟩ := found (Or.inr ends)
  obtain ⟨-, -, adds⟩ := stages.adds sound
  refine ⟨home, member, held, stands, ?_⟩
  rw [Image.sectionBytes_eq, adds.size_eq, adds.fileOffset_eq small]
  exact stages.payload_stands sound (stages.not_contains_of_mem sound member held.1)

end Installation

end CubePatch
