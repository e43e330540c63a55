import CubePatch.Proofs.Image.Cursor
import CubePatch.Proofs.Image.Memory
import Mathlib.Data.List.Pairwise

/-!
Images as memories.

An address stands for a place in the file, and a write changes places. So an address shows what was
written at another one exactly if the two stand for the same place. The check of a header keeps the
addresses of two sections apart, but not their bytes in the file.

## Main result

`behavesAsMemory_iff`: what was written is read at its addresses, any other address is changed
exactly if its place was written, the addresses of one section have places of their own, and an image
behaves as a memory exactly if no two of its sections share a byte of the file. `twins_share` shows
an image that does not.
-/
namespace CubePatch

namespace Section

/-- Two sections share no byte of the file; an empty one has none. -/
def ApartInFile (first second : Section) : Prop :=
  first.size = 0 ∨ second.size = 0 ∨ first.fileStop ≤ second.fileOffset.toNat ∨
    second.fileStop ≤ first.fileOffset.toNat

instance (first second : Section) : Decidable (first.ApartInFile second) :=
  inferInstanceAs (Decidable (_ ∨ _))

theorem ApartInFile.symm {first second : Section} (apart : first.ApartInFile second) :
    second.ApartInFile first := by
  obtain empty | empty | before | behind := apart
  · exact Or.inr (Or.inl empty)
  · exact Or.inl empty
  · exact Or.inr (Or.inr (Or.inr before))
  · exact Or.inr (Or.inr (Or.inl behind))

instance : Std.Symm ApartInFile where
  symm _ _ := ApartInFile.symm

/-- The place of an address is one of the bytes of the section. -/
theorem placeOf_bounds {area : Section} {address : UInt32} (inside : area.Contains address) :
    area.fileOffset.toNat ≤ area.placeOf address ∧ area.placeOf address < area.fileStop := by
  have upper := inside.2
  have held : area.Holds address 1 := ⟨inside, by omega⟩
  exact ⟨Nat.le_add_right _ _, placeOf_add_le held⟩

/-- A byte of the file has an address in a section it belongs to, unless the section passes the top
of the address space in front of it. -/
theorem exists_placeOf_eq {area : Section} {place : Nat} (lower : area.fileOffset.toNat ≤ place)
    (upper : place < area.fileStop)
    (low : area.loadAddress.toNat + (place - area.fileOffset.toNat) < UInt32.size) :
    ∃ address, area.Contains address ∧ area.placeOf address = place := by
  have value : (UInt32.ofNat (area.loadAddress.toNat + (place - area.fileOffset.toNat))).toNat =
      area.loadAddress.toNat + (place - area.fileOffset.toNat) := UInt32.toNat_ofNat_of_lt' low
  unfold fileStop at upper
  have inside : area.Contains
      (UInt32.ofNat (area.loadAddress.toNat + (place - area.fileOffset.toNat))) := by
    unfold Contains stop
    omega
  refine ⟨_, inside, ?_⟩
  have there := placeOf_eq inside
  omega

end Section

namespace Image

/-! ### Single bytes -/

/-- The byte that is read at an address. -/
def Shows (image : Image) (address : UInt32) (byte : UInt8) : Prop :=
  ∃ after, (do let _ ← seek address; read 1 : Edit ImageError Bytes) image = .ok [byte] after

theorem shows_iff {image : Image} (sound : image.WellFormed) (address : UInt32) (byte : UInt8) :
    image.Shows address byte ↔ image.byteAt? address = some byte := by
  unfold byteAt?
  constructor
  · rintro ⟨after, run⟩
    obtain ⟨_, sought, seeking, reading⟩ := Edit.bind_eq_ok run
    obtain ⟨area, found, rfl⟩ := seek_eq_ok seeking
    obtain ⟨home, here, -, taken, -⟩ := read_eq_ok reading
    cases here
    rw [fileOffset?, found, Option.map_some, Option.bind_some]
    have first := congrArg (·[0]?) taken
    rw [getElem?_slice, if_pos Nat.one_pos] at first
    exact first.symm
  · intro holds
    obtain ⟨place, located, stands⟩ := Option.bind_eq_some_iff.mp holds
    obtain ⟨area, member, inside, rfl⟩ := (fileOffset?_eq_some_iff sound address place).mp located
    have upper := inside.2
    have fits : address.toNat + 1 ≤ area.stop := by omega
    have sought : seek address image =
        .ok address { image with cursor := ⟨address, some area⟩ } := by
      unfold seek
      rw [(resolve_eq_ok_iff sound address area).mpr ⟨member, inside⟩]
    -- one byte always fits in front of the end of the section that holds its address
    have granted : cursorOffset { image with cursor := ⟨address, some area⟩ } 1 =
        .ok (area.placeOf address) := cursorOffset_of_holds rfl ⟨inside, fits⟩
    have single : slice image.bytes (area.placeOf address) 1 = [byte] := by
      obtain ⟨below, rfl⟩ := List.getElem?_eq_some_iff.mp stands
      rw [slice, List.drop_eq_getElem_cons below, List.take_succ_cons, List.take_zero]
    refine ⟨pass { image with cursor := ⟨address, some area⟩ } 1, ?_⟩
    rw [Edit.bind_apply, sought]
    dsimp only
    rw [(grants_of_cursorOffset granted).read]
    exact congrArg (EStateM.Result.ok · _) single

theorem Shows.unique {image : Image} {address : UInt32} {one other : UInt8}
    (first : image.Shows address one) (second : image.Shows address other) : one = other := by
  obtain ⟨after, run⟩ := first
  obtain ⟨_, again⟩ := second
  rw [run] at again
  cases again
  rfl

theorem exists_shows {image : Image} (sound : image.WellFormed) {address : UInt32} {place : Nat}
    (located : image.fileOffset? address = some place) : ∃ byte, image.Shows address byte := by
  obtain ⟨byte, stands⟩ := exists_byteAt?_eq_some sound located
  exact ⟨byte, (shows_iff sound address byte).mpr stands⟩

/-- A write changes what an address shows exactly if it reaches the place of the address. -/
theorem byteAt?_written {image : Image} (sound : image.WellFormed) (area : Section)
    (address : UInt32) (data : Bytes) {other : UInt32} {place : Nat}
    (located : image.fileOffset? other = some place) :
    (image.written area address data).byteAt? other =
      if area.placeOf address ≤ place ∧ place < area.placeOf address + data.length then
        data[place - area.placeOf address]?
      else image.byteAt? other := by
  have inside := fileOffset?_lt_length sound located
  have same : (image.written area address data).fileOffset? other = some place := by
    rw [fileOffset?_congr (sections_written image area address data)]
    exact located
  rw [byteAt?, byteAt?, same, located, Option.bind_some, Option.bind_some, bytes_written,
    getElem?_overwrite]
  simp only [inside, and_true]

/-! ### Reading after writing -/

/-- What is read at the mapped addresses after some data was written: the data at the addresses it
was written to, and at any other address what was read there before. -/
def BehavesAsMemory (image : Image) : Prop :=
  ∀ address data after,
    (do let _ ← seek address; write data : Edit ImageError Unit) image = .ok () after →
    ∀ other, (∃ area, image.resolve other = .ok area) →
      ∃ old new, image.Shows other old ∧ after.Shows other new ∧
        some new =
          if address.toNat ≤ other.toNat ∧ other.toNat < address.toNat + data.length then
            data[other.toNat - address.toNat]?
          else some old

section Written

variable {image after : Image} (sound : image.WellFormed) {address : UInt32} {data : Bytes}
  (run : (do let _ ← seek address; write data : Edit ImageError Unit) image = .ok () after)

include sound run

/-- The places decide what an address shows after a write. -/
theorem shows_after_write {other : UInt32} {place : Nat}
    (located : image.fileOffset? other = some place) :
    ∃ start old new, image.fileOffset? address = some start ∧ image.Shows other old ∧
      after.Shows other new ∧
      some new =
        if start ≤ place ∧ place < start + data.length then data[place - start]? else some old := by
  obtain ⟨area, found, -, rfl⟩ := write_at_eq_ok run
  obtain ⟨member, inside⟩ := (find?_contains_eq_some_iff sound address area).mp found
  have grown := sound.written area address data
  have located_after : (image.written area address data).fileOffset? other = some place := by
    rw [fileOffset?_congr (sections_written image area address data)]
    exact located
  obtain ⟨old, showed⟩ := exists_shows sound located
  obtain ⟨new, shows⟩ := exists_shows grown located_after
  refine ⟨_, old, new, fileOffset?_of_mem sound member inside, showed, shows, ?_⟩
  rw [shows_iff sound] at showed
  rw [shows_iff grown, byteAt?_written sound area address data located, showed] at shows
  exact shows.symm

/-- The addresses that were written to are addresses of one section, so their places follow each
other as the addresses do. -/
theorem place_of_written {other : UInt32} {start place : Nat}
    (at_address : image.fileOffset? address = some start)
    (located : image.fileOffset? other = some place)
    (reached : address.toNat ≤ other.toNat ∧ other.toNat < address.toNat + data.length) :
    place = start + (other.toNat - address.toNat) := by
  obtain ⟨area, found, fits, -⟩ := write_at_eq_ok run
  obtain ⟨member, inside⟩ := (find?_contains_eq_some_iff sound address area).mp found
  obtain ⟨lower, upper⟩ := reached
  have there : area.Contains other := ⟨Nat.le_trans inside.1 lower, by omega⟩
  rw [fileOffset?_of_mem sound member inside, Option.some.injEq] at at_address
  rw [fileOffset?_of_mem sound member there, Option.some.injEq] at located
  have first := Section.placeOf_eq inside
  have second := Section.placeOf_eq there
  omega

end Written

theorem exists_resolve_iff {image : Image} (sound : image.WellFormed) (address : UInt32) :
    (∃ area, image.resolve address = .ok area) ↔ ∃ place, image.fileOffset? address = some place := by
  simp only [resolve_eq_ok_iff sound, fileOffset?_eq_some_iff sound]
  constructor
  · rintro ⟨area, member, inside⟩
    exact ⟨_, area, member, inside, rfl⟩
  · rintro ⟨place, area, member, inside, -⟩
    exact ⟨area, member, inside⟩

/-- The addresses of one section stand for different places. -/
theorem fileOffset?_ne_of_resolve {image : Image} (sound : image.WellFormed) {area : Section}
    {one other : UInt32} (first : image.resolve one = .ok area)
    (second : image.resolve other = .ok area) (distinct : one ≠ other) :
    image.fileOffset? one ≠ image.fileOffset? other := by
  obtain ⟨member, inside⟩ := (resolve_eq_ok_iff sound one area).mp first
  have there := ((resolve_eq_ok_iff sound other area).mp second).2
  rw [fileOffset?_of_mem sound member inside, fileOffset?_of_mem sound member there]
  intro same
  apply distinct
  have place := Section.placeOf_eq inside
  rw [Option.some.inj same, Section.placeOf_eq there] at place
  exact UInt32.toNat_inj.mp (by omega)

/-! ### Sections that share bytes -/

theorem behavesAsMemory_of_apartInFile {image : Image} (sound : image.WellFormed)
    (apart : image.sections.Pairwise Section.ApartInFile) : image.BehavesAsMemory := by
  intro address data after run other mapped
  obtain ⟨place, located⟩ := (exists_resolve_iff sound other).mp mapped
  obtain ⟨start, old, new, at_address, showed, shows, decides⟩ :=
    shows_after_write sound run located
  refine ⟨old, new, showed, shows, ?_⟩
  rw [decides]
  by_cases reached : address.toNat ≤ other.toNat ∧ other.toNat < address.toNat + data.length
  · have step := place_of_written sound run at_address located reached
    rw [if_pos reached, if_pos (by omega)]
    congr 1
    omega
  · rw [if_neg reached]
    refine if_neg ?_
    rintro ⟨lower, upper⟩
    obtain ⟨area, found, fits, -⟩ := write_at_eq_ok run
    obtain ⟨member, inside⟩ := (find?_contains_eq_some_iff sound address area).mp found
    obtain ⟨home, listed, there, rfl⟩ := (fileOffset?_eq_some_iff sound other place).mp located
    rw [fileOffset?_of_mem sound member inside, Option.some.injEq] at at_address
    subst at_address
    have first := Section.placeOf_eq inside
    have second := Section.placeOf_eq there
    by_cases same : home = area
    · -- in one section the places that were written have the addresses that were written to
      subst same
      omega
    · have written := Section.placeOf_add_le (⟨inside, fits⟩ : area.Holds address data.length)
      have begins := (Section.placeOf_bounds inside).1
      have bounds := Section.placeOf_bounds there
      have distinct := apart.forall listed member same
      simp only [Section.ApartInFile, Section.fileStop, ← UInt32.toNat_inj, UInt32.toNat_zero]
        at distinct written bounds
      omega

section Shared

variable {image : Image} (sound : image.WellFormed) {first second : Section}
  (one : first ∈ image.sections) (other : second ∈ image.sections)

include sound one other

/-- A byte that two sections share is written at an address of the one, and shows at an address of
the other. -/
theorem not_behavesAsMemory_of_shared (apart : first.Apart second) {place : Nat}
    (lower : first.fileOffset.toNat ≤ place ∧ place < first.fileStop)
    (upper : second.fileOffset.toNat ≤ place ∧ place < second.fileStop)
    (low : second.loadAddress.toNat + (place - second.fileOffset.toNat) < UInt32.size) :
    ¬ image.BehavesAsMemory := by
  intro behaves
  obtain ⟨address, inside, rfl⟩ := Section.exists_placeOf_eq upper.1 upper.2 low
  have located := fileOffset?_of_mem sound other inside
  obtain ⟨byte, showed⟩ := exists_shows sound located
  -- the first section is written from its start up to the shared byte, which is changed by that
  obtain ⟨count, count_eq⟩ : ∃ count,
      count = second.placeOf address - first.fileOffset.toNat + 1 := ⟨_, rfl⟩
  have start : first.Contains first.loadAddress := by
    unfold Section.Contains Section.stop
    unfold Section.fileStop at lower
    omega
  have begins := Section.placeOf_eq start
  have held : first.Holds first.loadAddress (List.replicate count (byte + 1)).length := by
    refine ⟨start, ?_⟩
    rw [List.length_replicate]
    unfold Section.fileStop at lower
    unfold Section.stop
    omega
  have run := write_at_of_holds sound one held
  obtain ⟨from_start, _, changed, at_start, _, shows, decided⟩ :=
    shows_after_write sound run located
  rw [fileOffset?_of_mem sound one start, Option.some.injEq] at at_start
  rw [List.length_replicate, if_pos (by omega), List.getElem?_replicate, if_pos (by omega),
    Option.some.injEq] at decided
  -- a memory would show the old byte, since the address is none of those that were written to
  obtain ⟨old, new, before, after, decides⟩ := behaves _ _ _ run address
    ((exists_resolve_iff sound address).mpr ⟨_, located⟩)
  have missed : ¬ (first.loadAddress.toNat ≤ address.toNat ∧
      address.toNat < first.loadAddress.toNat + (List.replicate count (byte + 1)).length) := by
    rintro ⟨above, below⟩
    have reached : first.Contains address := ⟨above, Nat.lt_of_lt_of_le below held.2⟩
    exact Section.not_contains_of_apart apart reached inside
  rw [if_neg missed, Option.some.injEq] at decides
  have same : byte + 1 = byte :=
    calc
      byte + 1 = changed := decided.symm
      _ = new := shows.unique after
      _ = old := decides
      _ = byte := before.unique showed
  exact absurd (UInt8.add_eq_left.mp same) (by decide)

/-- In a memory, sections that share no address share no byte of the file. -/
theorem apartInFile_of_behavesAsMemory (behaves : image.BehavesAsMemory)
    (apart : first.Apart second) : first.ApartInFile second := by
  by_contra shared
  simp only [Section.ApartInFile, not_or, Nat.not_le, ← UInt32.toNat_inj, UInt32.toNat_zero]
    at shared
  obtain ⟨filled, other_filled, crossed, crossed_back⟩ := shared
  -- the later of the two file starts is a byte of both
  obtain ⟨place, place_eq⟩ : ∃ place,
      place = max first.fileOffset.toNat second.fileOffset.toNat := ⟨_, rfl⟩
  unfold Section.fileStop at crossed crossed_back
  have in_first : first.fileOffset.toNat ≤ place ∧ place < first.fileStop := by
    unfold Section.fileStop
    omega
  have in_second : second.fileOffset.toNat ≤ place ∧ place < second.fileStop := by
    unfold Section.fileStop
    omega
  -- whichever section is loaded first, its address of the byte is below the start of the other
  have bounded := first.loadAddress.toNat_lt
  have other_bounded := second.loadAddress.toNat_lt
  have ordered := apart
  simp only [Section.Apart, Section.stop, ← UInt32.toNat_inj, UInt32.toNat_zero] at ordered
  unfold Section.fileStop at in_first in_second
  obtain empty | empty | before | behind := ordered
  · exact absurd empty filled
  · exact absurd empty other_filled
  · exact not_behavesAsMemory_of_shared sound other one apart.symm in_second in_first
      (by unfold UInt32.size; omega) behaves
  · exact not_behavesAsMemory_of_shared sound one other apart in_first in_second
      (by unfold UInt32.size; omega) behaves

end Shared

/-- What was written is read at its addresses, and any other address shows what was written to its
place in the file, if anything was. Two addresses of one section stand for two places. So an image
behaves as a memory exactly if no two of its sections share a byte of the file. -/
theorem behavesAsMemory_iff {bytes : Bytes} {image : Image} (opened : ofBytes bytes = .ok image) :
    (image.BehavesAsMemory ↔ image.sections.Pairwise Section.ApartInFile) ∧
    (∀ area one other, image.resolve one = .ok area → image.resolve other = .ok area →
      one ≠ other → image.fileOffset? one ≠ image.fileOffset? other) ∧
    ∀ address data after,
      (do let _ ← seek address; write data : Edit ImageError Unit) image = .ok () after →
      ∀ other, (∃ area, image.resolve other = .ok area) →
        ∃ start place old new,
          image.fileOffset? address = some start ∧ image.fileOffset? other = some place ∧
          image.Shows other old ∧ after.Shows other new ∧
          (some new =
            if start ≤ place ∧ place < start + data.length then data[place - start]?
            else some old) ∧
          (address.toNat ≤ other.toNat ∧ other.toNat < address.toNat + data.length →
            some new = data[other.toNat - address.toNat]?) := by
  have sound := wellFormed_of_ofBytes opened
  refine ⟨⟨fun behaves => ?_, behavesAsMemory_of_apartInFile sound⟩,
    fun _ _ _ => fileOffset?_ne_of_resolve sound, ?_⟩
  · exact sound.apart.imp_of_mem fun one other apart =>
      apartInFile_of_behavesAsMemory sound one other behaves apart
  · intro address data after run other mapped
    obtain ⟨place, located⟩ := (exists_resolve_iff sound other).mp mapped
    obtain ⟨start, old, new, at_address, showed, shows, decides⟩ :=
      shows_after_write sound run located
    refine ⟨start, place, old, new, at_address, located, showed, shows, decides, ?_⟩
    intro reached
    have step := place_of_written sound run at_address located reached
    rw [decides, if_pos (by omega), step, Nat.add_sub_cancel_left]

theorem behavesAsMemory_top : ofBytes topFile = .ok topImage ∧ topImage.BehavesAsMemory :=
  ⟨ofBytes_topFile, (behavesAsMemory_iff ofBytes_topFile).1.mpr (by decide)⟩

/-- Two sections whose last and first four bytes are the same bytes of the file. -/
def twinAreas : Section × Section :=
  (⟨.text, 0, 0x100, 0x80003100, 8⟩, ⟨.data, 7, 0x104, 0x80004000, 8⟩)

def twinFile : Bytes :=
  Header.describe (Header.describe (List.replicate headerSize 0) twinAreas.1) twinAreas.2 ++
    List.replicate 12 0

def twinImage : Image :=
  ⟨twinFile.toArray, [twinAreas.1], [twinAreas.2], ⟨0x80003100, some twinAreas.1⟩⟩

set_option maxRecDepth 4000 in
theorem ofBytes_twinFile : ofBytes twinFile = .ok twinImage := by rfl

/-- A file with such sections is opened, and what is written to the one is read in the other. -/
theorem twins_share :
    ofBytes twinFile = .ok twinImage ∧ ¬ twinImage.BehavesAsMemory ∧
    ∃ after,
      (do let _ ← seek 0x80003104; write [0xAA] : Edit ImageError Unit) twinImage = .ok () after ∧
      twinImage.Shows 0x80004000 0 ∧ after.Shows 0x80004000 0xAA := by
  have sound := wellFormed_of_ofBytes ofBytes_twinFile
  have one : twinAreas.1 ∈ twinImage.sections := by decide
  have other : twinAreas.2 ∈ twinImage.sections := by decide
  refine ⟨ofBytes_twinFile, fun behaves => ?_, ?_⟩
  · have apart := apartInFile_of_behavesAsMemory sound one other behaves
      (Or.inr (Or.inr (Or.inl (by decide))))
    exact absurd apart (by decide)
  · have held : twinAreas.1.Holds 0x80003104 1 := ⟨by decide, by decide⟩
    refine ⟨_, write_at_of_holds sound one held, ?_, ?_⟩
    · exact (shows_iff sound _ _).mpr (by decide +kernel)
    · exact (shows_iff (sound.written _ _ _) _ _).mpr (by decide +kernel)

end Image

end CubePatch
