import CubePatch.Image.Cursor
import CubePatch.Proofs.Image.Layout

/-!
What setting the cursor, reading and writing do to an image.

A step that succeeds at an address finds the section of that address. Setting the cursor and reading
change nothing but the cursor, and a write changes only the bytes at the place of its address.
-/
namespace CubePatch

/-- Two steps in a row fail where the first one does, and else do what the second does. -/
theorem Edit.bind_apply {ε α β : Type} (first : Edit ε α) (next : α → Edit ε β) (image : Image) :
    (first >>= next) image =
      match first image with
      | .ok value after => next value after
      | .error fault after => .error fault after := by
  show EStateM.bind first next image = _
  unfold EStateM.bind
  cases first image <;> rfl

theorem Edit.bind_eq_ok {ε α β : Type} {first : Edit ε α} {next : α → Edit ε β}
    {image after : Image} {result : β} (run : (first >>= next) image = .ok result after) :
    ∃ value middle, first image = .ok value middle ∧ next value middle = .ok result after := by
  rw [Edit.bind_apply] at run
  split at run
  next value middle done => exact ⟨value, middle, done, run⟩
  next => cases run

namespace Image

@[simp] theorem text_overwrite (image : Image) (offset : Nat) (data : Bytes) :
    (image.overwrite offset data).text = image.text := rfl

@[simp] theorem data_overwrite (image : Image) (offset : Nat) (data : Bytes) :
    (image.overwrite offset data).data = image.data := rfl

/-- The image with other bytes from an address of one of its sections on, and the cursor behind
them. -/
def written (image : Image) (area : Section) (address : UInt32) (data : Bytes) : Image :=
  { image.overwrite (area.placeOf address) data with
    cursor := ⟨address + UInt32.ofNat data.length, some area⟩ }

@[simp] theorem bytes_written (image : Image) (area : Section) (address : UInt32) (data : Bytes) :
    (image.written area address data).bytes =
      CubePatch.overwrite image.bytes (area.placeOf address) data :=
  bytes_overwrite image (area.placeOf address) data

@[simp] theorem text_written (image : Image) (area : Section) (address : UInt32) (data : Bytes) :
    (image.written area address data).text = image.text := rfl

@[simp] theorem data_written (image : Image) (area : Section) (address : UInt32) (data : Bytes) :
    (image.written area address data).data = image.data := rfl

@[simp] theorem sections_written (image : Image) (area : Section) (address : UInt32)
    (data : Bytes) : (image.written area address data).sections = image.sections := rfl

theorem find?_of_resolve {image : Image} {address : UInt32} {area : Section}
    (mapped : image.resolve address = .ok area) :
    image.sections.find? (·.Contains address) = some area := by
  unfold resolve at mapped
  split at mapped
  next other hit =>
    cases mapped
    exact hit
  · cases mapped

theorem seek_eq_ok {image after : Image} {address value : UInt32}
    (run : seek address image = .ok value after) :
    ∃ area, image.sections.find? (·.Contains address) = some area ∧
      after = { image with cursor := ⟨address, some area⟩ } := by
  unfold seek at run
  split at run
  · cases run
  next area found =>
    cases run
    exact ⟨area, find?_of_resolve found, rfl⟩

theorem seek_eq_error {image after : Image} {address : UInt32} {fault : ImageError}
    (run : seek address image = .error fault after) : after = image := by
  unfold seek at run
  split at run <;> cases run
  rfl

/-- An access is checked against the end of the section the cursor was set in. What passes the check
is made at the distance of the cursor from the start of the section, if it has one. -/
theorem cursorOffset_of_home {image : Image} {home : Section}
    (standing : image.cursor.home = some home) (length : Nat) :
    image.cursorOffset length =
      if UInt64.size ≤ image.cursor.address.toNat + length then .error (.overflow .sum)
      else if home.stop < image.cursor.address.toNat + length then
        .error (.sectionOverflow image.cursor.address length home.stop)
      else if home.loadAddress ≤ image.cursor.address then
        .ok (home.placeOf image.cursor.address)
      else .error (.overflow .difference) := by
  simp only [cursorOffset, standing]
  by_cases full : UInt64.size ≤ image.cursor.address.toNat + length
  · rw [if_pos full, checkedStop_of_le full]
  · rw [if_neg full, checkedStop_of_lt (Nat.lt_of_not_le full)]
    dsimp only
    by_cases order : home.loadAddress ≤ image.cursor.address
    · rw [if_pos order, checkedDifference_of_le order, Section.placeOf]
    · rw [if_neg order, checkedDifference_of_not_le order]

theorem cursorOffset_of_homeless {image : Image} (standing : image.cursor.home = none)
    (length : Nat) :
    image.cursorOffset length = .error (.unmappedAddress image.cursor.address) := by
  simp only [cursorOffset, standing]

/-- An access is made where the cursor is not in front of its section and the access ends before the
section does. -/
theorem cursorOffset_eq_ok_iff {image : Image} {length offset : Nat} :
    image.cursorOffset length = .ok offset ↔
      ∃ home, image.cursor.home = some home ∧ home.loadAddress ≤ image.cursor.address ∧
        image.cursor.address.toNat + length ≤ home.stop ∧
        offset = home.placeOf image.cursor.address := by
  cases standing : image.cursor.home with
  | none =>
    rw [cursorOffset_of_homeless standing]
    simp
  | some home =>
    have narrow := home.stop_lt
    rw [cursorOffset_of_home standing]
    simp only [Option.some.injEq, exists_eq_left']
    constructor
    · intro granted
      split at granted
      · cases granted
      split at granted
      · cases granted
      next fits =>
        split at granted
        next order =>
          cases granted
          exact ⟨order, Nat.le_of_not_lt fits, rfl⟩
        · cases granted
    · rintro ⟨order, fits, rfl⟩
      rw [if_neg (by omega), if_neg (Nat.not_lt.mpr fits), if_pos order]

/-- An access inside the section that the cursor is set to. -/
theorem cursorOffset_of_holds {image : Image} {area : Section} {length : Nat}
    (standing : image.cursor.home = some area) (held : area.Holds image.cursor.address length) :
    image.cursorOffset length = .ok (area.placeOf image.cursor.address) :=
  cursorOffset_eq_ok_iff.mpr
    ⟨area, standing, UInt32.le_iff_toNat_le.mpr held.1.1, held.2, rfl⟩

theorem read_eq_ok {image after : Image} {length : Nat} {found : Bytes}
    (run : read length image = .ok found after) :
    ∃ home, image.cursor.home = some home ∧
      image.cursor.address.toNat + length ≤ home.stop ∧
      found = slice image.bytes (home.placeOf image.cursor.address) length ∧
      after = image.pass length := by
  unfold read at run
  split at run
  · cases run
  next offset granted =>
    obtain ⟨home, at_home, -, fits, rfl⟩ := cursorOffset_eq_ok_iff.mp granted
    cases run
    exact ⟨home, at_home, fits, Buffer.slice_eq _ _ _, rfl⟩

theorem read_eq_error {image after : Image} {length : Nat} {fault : ImageError}
    (run : read length image = .error fault after) : after = image := by
  unfold read at run
  split at run <;> cases run
  rfl

theorem readWord_eq_ok {image after : Image} {word : UInt32}
    (run : readWord image = .ok word after) :
    ∃ home, image.cursor.home = some home ∧ image.cursor.address.toNat + 4 ≤ home.stop ∧
      word = wordAt image.bytes (home.placeOf image.cursor.address) ∧ after = image.pass 4 := by
  obtain ⟨_, behind, taken, giving⟩ := Edit.bind_eq_ok run
  obtain ⟨home, here, fits, rfl, rfl⟩ := read_eq_ok taken
  cases giving
  exact ⟨home, here, fits, wordAt_slice _ _, rfl⟩

theorem readWord_eq_error {image after : Image} {fault : ImageError}
    (run : readWord image = .error fault after) : after = image := by
  rw [readWord, Edit.bind_apply] at run
  split at run
  next => cases run
  next refused =>
    cases run
    exact read_eq_error refused

theorem readWord_at_eq_ok {image after : Image} {address word : UInt32}
    (run : (do let _ ← seek address; readWord : Edit ImageError UInt32) image = .ok word after) :
    ∃ area cursor, image.sections.find? (·.Contains address) = some area ∧
      address.toNat + 4 ≤ area.stop ∧ word = wordAt image.bytes (area.placeOf address) ∧
      after = { image with cursor := cursor } := by
  obtain ⟨_, sought, seeking, reading⟩ := Edit.bind_eq_ok run
  obtain ⟨area, found, rfl⟩ := seek_eq_ok seeking
  obtain ⟨home, here, fits, rfl, rfl⟩ := readWord_eq_ok reading
  cases here
  exact ⟨area, _, found, fits, rfl, rfl⟩

theorem readWord_at_of_find? {image : Image} {area : Section} {address : UInt32}
    (found : image.sections.find? (·.Contains address) = some area)
    (fits : address.toNat + 4 ≤ area.stop) :
    ∃ after, (do let _ ← seek address; readWord : Edit ImageError UInt32) image =
      .ok (wordAt image.bytes (area.placeOf address)) after := by
  have sought : seek address image =
      .ok address { image with cursor := ⟨address, some area⟩ } := by
    unfold seek resolve
    rw [found]
  have inside : area.Contains address := by simpa using List.find?_some found
  have offset : cursorOffset { image with cursor := ⟨address, some area⟩ } 4 =
      .ok (area.placeOf address) := cursorOffset_of_holds rfl ⟨inside, fits⟩
  rw [Edit.bind_apply, sought]
  dsimp only
  rw [readWord, Edit.bind_apply, read, offset]
  refine ⟨_, congrArg (EStateM.Result.ok · _) ?_⟩
  rw [Buffer.slice_eq, wordAt_slice]
  rfl

theorem write_eq_ok {image after : Image} {data : Bytes} (run : write data image = .ok () after) :
    ∃ home, image.cursor.home = some home ∧
      image.cursor.address.toNat + data.length ≤ home.stop ∧
      after = image.written home image.cursor.address data := by
  unfold write at run
  split at run
  · cases run
  next offset granted =>
    obtain ⟨home, at_home, -, fits, rfl⟩ := cursorOffset_eq_ok_iff.mp granted
    cases run
    refine ⟨home, at_home, fits, ?_⟩
    rw [written, ← at_home]
    rfl

theorem write_eq_error {image after : Image} {data : Bytes} {fault : ImageError}
    (run : write data image = .error fault after) : after = image := by
  unfold write at run
  split at run <;> cases run
  rfl

theorem write_at_of_find? {image : Image} {area : Section} {address : UInt32} {data : Bytes}
    (found : image.sections.find? (·.Contains address) = some area)
    (fits : address.toNat + data.length ≤ area.stop) :
    (do let _ ← seek address; write data : Edit ImageError Unit) image =
      .ok () (image.written area address data) := by
  have sought : seek address image =
      .ok address { image with cursor := ⟨address, some area⟩ } := by
    unfold seek resolve
    rw [found]
  have inside : area.Contains address := by simpa using List.find?_some found
  have offset : cursorOffset { image with cursor := ⟨address, some area⟩ } data.length =
      .ok (area.placeOf address) := cursorOffset_of_holds rfl ⟨inside, fits⟩
  rw [Edit.bind_apply, sought]
  dsimp only
  rw [write, offset]
  rfl

theorem write_at_of_holds {image : Image} (sound : image.WellFormed) {area : Section}
    (member : area ∈ image.sections) {address : UInt32} {data : Bytes}
    (held : area.Holds address data.length) :
    (do let _ ← seek address; write data : Edit ImageError Unit) image =
      .ok () (image.written area address data) :=
  write_at_of_find? ((find?_contains_eq_some_iff sound address area).mpr ⟨member, held.1⟩) held.2

/-- A write at an address that succeeds was made in the section of the address. -/
theorem write_at_eq_ok {image after : Image} {address : UInt32} {data : Bytes}
    (run : (do let _ ← seek address; write data : Edit ImageError Unit) image = .ok () after) :
    ∃ area, image.sections.find? (·.Contains address) = some area ∧
      address.toNat + data.length ≤ area.stop ∧ after = image.written area address data := by
  obtain ⟨value, middle, sought, wrote⟩ := Edit.bind_eq_ok run
  obtain ⟨area, found, rfl⟩ := seek_eq_ok sought
  obtain ⟨home, at_home, fits, rfl⟩ := write_eq_ok wrote
  cases at_home
  exact ⟨area, found, fits, rfl⟩

theorem WellFormed.written {image : Image} (sound : image.WellFormed) (area : Section)
    (address : UInt32) (data : Bytes) : (image.written area address data).WellFormed :=
  sound.of_same_layout rfl (by simp)

end Image

end CubePatch
