import CubePatch.Proofs.Image.Run

/-!
How far a cursor can get from where it was set.

An access is checked against the end of the section the cursor was set in, but the cursor itself is
a word and starts again from zero at the top of the address space. So beside the image a mark is
kept: the section and the address the cursor was set to, and the number of bytes it has passed
since. Their sum does not wrap and never leaves the section. As long as it stays below the top it is
the address of the cursor, and the check is the one that is meant. Behind the top the cursor is in
front of its section, so nothing more is read or written before it is set again.

## Main result

`walk_stays_home`: an access is granted exactly if it ends before the section does, and then stays in
the part of the file that belongs to the section. The exception is a cursor that has passed the last
address there is, which only a section that reaches the top of the address space lets it do. There
no access is granted, and one that passes the check is stopped by the distance to the section.
-/
namespace CubePatch.Image

/-- What is done with a cursor. -/
inductive CursorStep where
  | seek (address : UInt32)
  | seekBy (delta : Int32)
  | read (length : Nat)
  | readWord
  | write (data : Bytes)
  | writeWord (word : UInt32)

/-- Where a cursor was set, and how many bytes it has passed since. -/
structure Mark where
  home : Option Section
  origin : UInt32
  passed : Nat

namespace Mark

/-- The sum of the address the cursor was set to and of the bytes it has passed. -/
def reached (mark : Mark) : Nat :=
  mark.origin.toNat + mark.passed

/-- The cursor of an image that was opened is set to the first section of the file. -/
def first (image : Image) : Mark :=
  match firstInFile? image.sections with
  | some area => ⟨some area, area.loadAddress, 0⟩
  | none => ⟨none, 0, 0⟩

/-- The cursor is set if the address is in a section. -/
def set (mark : Mark) (image : Image) (address : UInt32) : Mark :=
  match image.resolve address with
  | .ok area => ⟨some area, address, 0⟩
  | .error _ => mark

/-- The bytes of an access that succeeds are passed. -/
def pass (mark : Mark) (length : Nat) : EStateM.Result ImageError Image α → Mark
  | .ok _ _ => { mark with passed := mark.passed + length }
  | .error _ _ => mark

end Mark

/-- An image, and the mark of its cursor. -/
structure Walk where
  image : Image
  mark : Mark

namespace Walk

/-- The walk after a step, whether it succeeds or fails. -/
def step (walk : Walk) : CursorStep → Walk
  | .seek address =>
    ⟨(Image.seek address).after walk.image, walk.mark.set walk.image address⟩
  | .seekBy delta =>
    ⟨(Image.seekBy delta).after walk.image,
      walk.mark.set walk.image (walk.image.cursor.address + delta.toUInt32)⟩
  | .read length =>
    ⟨(Image.read length).after walk.image, walk.mark.pass length (Image.read length walk.image)⟩
  | .readWord =>
    ⟨Image.readWord.after walk.image, walk.mark.pass 4 (Image.readWord walk.image)⟩
  | .write data =>
    ⟨(Image.write data).after walk.image,
      walk.mark.pass data.length (Image.write data walk.image)⟩
  | .writeWord word =>
    ⟨(Image.writeWord word).after walk.image,
      walk.mark.pass 4 (Image.writeWord word walk.image)⟩

end Walk

/-- What is done with the cursor of an image that was opened. -/
def walk (image : Image) (steps : List CursorStep) : Walk :=
  steps.foldl Walk.step ⟨image, .first image⟩

/-! ### Granted and refused accesses -/

/-- Every access of some length at the cursor succeeds, and reaches the bytes at an offset of the
file. -/
structure Grants (image : Image) (length offset : Nat) : Prop where
  read : Image.read length image = .ok (slice image.bytes offset length) (image.pass length)
  write : ∀ data : Bytes, data.length = length →
    Image.write data image = .ok () ((image.pass length).overwrite offset data)
  readWord : length = 4 →
    Image.readWord image = .ok (wordAt image.bytes offset) (image.pass length)
  writeWord : length = 4 → ∀ word,
    Image.writeWord word image = .ok () ((image.pass length).overwrite offset (wordBytes word))

/-- Every access of some length at the cursor fails, and changes nothing. -/
structure Refuses (image : Image) (length : Nat) (fault : ImageError) : Prop where
  read : Image.read length image = .error fault image
  write : ∀ data : Bytes, data.length = length → Image.write data image = .error fault image
  readWord : length = 4 → Image.readWord image = .error fault image
  writeWord : length = 4 → ∀ word, Image.writeWord word image = .error fault image

theorem grants_of_cursorOffset {image : Image} {length offset : Nat}
    (granted : image.cursorOffset length = .ok offset) : image.Grants length offset := by
  have reading : Image.read length image =
      .ok (slice image.bytes offset length) (image.pass length) := by
    rw [Image.read, granted]
    exact congrArg (EStateM.Result.ok · _) (Buffer.slice_eq _ _ _)
  have writing : ∀ data : Bytes, data.length = length →
      Image.write data image = .ok () ((image.pass length).overwrite offset data) := by
    rintro data rfl
    rw [Image.write, granted]
  refine ⟨reading, writing, ?_, fun four word => writing _ four.symm⟩
  rintro rfl
  rw [Image.readWord, Edit.bind_apply, reading]
  exact congrArg (EStateM.Result.ok · _) (wordAt_slice _ _)

theorem refuses_of_cursorOffset {image : Image} {length : Nat} {fault : ImageError}
    (refused : image.cursorOffset length = .error fault) : image.Refuses length fault := by
  have reading : Image.read length image = .error fault image := by
    rw [Image.read, refused]
  have writing : ∀ data : Bytes, data.length = length →
      Image.write data image = .error fault image := by
    rintro data rfl
    rw [Image.write, refused]
  refine ⟨reading, writing, ?_, fun four word => writing _ four.symm⟩
  rintro rfl
  rw [Image.readWord, Edit.bind_apply, reading]

/-! ### The mark and the cursor -/

namespace Walk

/-- What holds between an image and the mark of its cursor. -/
structure IsMarked (walk : Walk) : Prop where
  layout : walk.image.WellFormed
  cursor_eq : walk.image.cursor = ⟨UInt32.ofNat walk.mark.reached, walk.mark.home⟩
  listed : ∀ home, walk.mark.home = some home → home ∈ walk.image.sections
  begins : ∀ home, walk.mark.home = some home →
    home.loadAddress.toNat ≤ walk.mark.origin.toNat
  ends : ∀ home, walk.mark.home = some home → walk.mark.reached ≤ home.stop

variable {walk : Walk}

theorem IsMarked.seek (marked : walk.IsMarked) (address : UInt32) :
    IsMarked ⟨(Image.seek address).after walk.image, walk.mark.set walk.image address⟩ := by
  unfold Edit.after Image.seek Mark.set
  cases found : walk.image.resolve address with
  | error fault => exact marked
  | ok area =>
    obtain ⟨member, inside⟩ := (resolve_eq_ok_iff marked.layout address area).mp found
    refine ⟨marked.layout.of_same_layout rfl rfl, ?_, ?_, ?_, ?_⟩
    · simp only [Mark.reached, Nat.add_zero, UInt32.ofNat_toNat]
    · rintro home ⟨⟩
      exact member
    · rintro home ⟨⟩
      exact inside.1
    · rintro home ⟨⟩
      exact Nat.le_of_lt inside.2

/-- Past the top the cursor is in front of the section it was set in. -/
theorem IsMarked.address_of_le (marked : walk.IsMarked) {home : Section}
    (standing : walk.mark.home = some home) (high : UInt32.size ≤ walk.mark.reached) :
    walk.image.cursor.address.toNat + UInt32.size = walk.mark.reached ∧
      ¬ home.loadAddress ≤ walk.image.cursor.address := by
  have ends := marked.ends home standing
  have first := home.loadAddress.toNat_lt
  have size := home.size.toNat_lt
  have address : walk.image.cursor.address.toNat = walk.mark.reached % UInt32.size := by
    rw [marked.cursor_eq]
    exact UInt32.toNat_ofNat'
  -- a section is shorter than the address space, so its end does not get back to its start
  rw [UInt32.le_iff_toNat_le]
  unfold Section.stop at ends
  unfold UInt32.size at *
  omega

theorem IsMarked.address_of_lt (marked : walk.IsMarked) (low : walk.mark.reached < UInt32.size) :
    walk.image.cursor.address.toNat = walk.mark.reached := by
  rw [marked.cursor_eq]
  exact UInt32.toNat_ofNat_of_lt' low

/-- What an access does to the cursor: if it is granted it ends before the section does, and moves
the cursor over its bytes. -/
theorem IsMarked.access (marked : walk.IsMarked) {length : Nat} {edit : Edit ImageError α}
    (keeps : Keeping edit)
    (grants : ∀ offset, walk.image.Grants length offset → ∃ value after,
      edit walk.image = .ok value after ∧ after.cursor = (walk.image.pass length).cursor)
    (refuses : ∀ fault, walk.image.Refuses length fault →
      edit walk.image = .error fault walk.image) :
    IsMarked ⟨edit.after walk.image, walk.mark.pass length (edit walk.image)⟩ := by
  have kept := keeps walk.image
  cases asked : walk.image.cursorOffset length with
  | error fault =>
    have made := refuses fault (refuses_of_cursorOffset asked)
    rw [Edit.after_of_error made, made]
    exact marked
  | ok offset =>
    obtain ⟨value, after, made, moved⟩ := grants offset (grants_of_cursorOffset asked)
    obtain ⟨home, standing, order, fits, -⟩ := cursorOffset_eq_ok_iff.mp asked
    rw [Edit.after_of_ok made] at kept ⊢
    rw [made]
    have reached : ({ walk.mark with passed := walk.mark.passed + length } : Mark).reached =
        walk.mark.reached + length := (Nat.add_assoc _ _ _).symm
    rw [congrArg Cursor.home marked.cursor_eq] at standing
    refine ⟨kept.wellFormed marked.layout, ?_, ?_, marked.begins, ?_⟩
    · rw [moved, Mark.pass, reached, Image.pass, marked.cursor_eq, UInt32.ofNat_add]
    · intro other there
      rw [kept.sections_eq]
      exact marked.listed other there
    · intro other there
      obtain rfl : other = home := Option.some.inj (there.symm.trans standing)
      -- the cursor is not in front of the section, so it has not passed the top
      have low : walk.mark.reached < UInt32.size :=
        Nat.lt_of_not_le fun high => (marked.address_of_le there high).2 order
      rw [marked.address_of_lt low] at fits
      exact reached ▸ fits

theorem IsMarked.step (marked : walk.IsMarked) (step : CursorStep) :
    (walk.step step).IsMarked := by
  cases step with
  | seek address => exact marked.seek address
  | seekBy delta => exact marked.seek _
  | read length =>
    exact marked.access (read_keeping length) (fun _ granted => ⟨_, _, granted.read, rfl⟩)
      fun _ refused => refused.read
  | readWord =>
    exact marked.access readWord_keeping (fun _ granted => ⟨_, _, granted.readWord rfl, rfl⟩)
      fun _ refused => refused.readWord rfl
  | write data =>
    exact marked.access (write_keeping data) (fun _ granted => ⟨_, _, granted.write data rfl, rfl⟩)
      fun _ refused => refused.write data rfl
  | writeWord word =>
    exact marked.access (write_keeping _) (fun _ granted => ⟨_, _, granted.writeWord rfl word, rfl⟩)
      fun _ refused => refused.writeWord rfl word

theorem isMarked_first {bytes : Bytes} {image : Image} (opened : ofBytes bytes = .ok image) :
    IsMarked ⟨image, .first image⟩ := by
  have sound := wellFormed_of_ofBytes opened
  have start : image.cursor =
      match firstInFile? image.sections with
      | some first => ⟨first.loadAddress, some first⟩
      | none => ⟨0, none⟩ := by
    simp only [ofBytes] at opened
    split at opened
    · cases opened
    · split at opened <;> cases opened
      rfl
  unfold Mark.first
  cases found : firstInFile? image.sections with
  | none =>
    rw [found] at start
    refine ⟨sound, start, ?_, ?_, ?_⟩
    all_goals
      intro home standing
      cases standing
  | some area =>
    rw [found] at start
    refine ⟨sound, ?_, ?_, ?_, ?_⟩
    · simp only [start, Mark.reached, Nat.add_zero, UInt32.ofNat_toNat]
    · rintro home ⟨⟩
      exact mem_of_firstInFile? found
    · rintro home ⟨⟩
      exact Nat.le_refl _
    · -- nothing is passed yet, and a section ends behind its first address
      rintro home ⟨⟩
      exact Nat.le_add_right _ _

theorem IsMarked.run (marked : walk.IsMarked) (steps : List CursorStep) :
    (steps.foldl Walk.step walk).IsMarked := by
  induction steps generalizing walk with
  | nil => exact marked
  | cons step later ih => exact ih (marked.step step)

end Walk

/-- What the cursor of an image may do in the section it was set in, when it has got to an address
that is given as a number. -/
structure StaysHome (image : Image) (home : Section) (reached : Nat) : Prop where
  member : home ∈ image.sections
  address_eq : image.cursor.address.toNat = reached
  begins : home.loadAddress.toNat ≤ reached
  ends : reached ≤ home.stop
  /-- An access that ends before the section does is made at the place of the address. -/
  grants : ∀ length, reached + length ≤ home.stop →
    image.Grants length (home.placeOf image.cursor.address)
  /-- The bytes it reaches are bytes of the section, and of the file. -/
  inside : ∀ length, reached + length ≤ home.stop →
    home.fileOffset.toNat ≤ home.placeOf image.cursor.address ∧
      home.placeOf image.cursor.address + length ≤ home.fileStop ∧
      home.fileStop ≤ image.bytes.length
  refuses : ∀ length, home.stop < reached + length → reached + length < UInt64.size →
    image.Refuses length (.sectionOverflow image.cursor.address length home.stop)
  /-- Its end is a number of 64 bits. -/
  stops : ∀ length, UInt64.size ≤ reached + length → image.Refuses length (.overflow .sum)

theorem Walk.IsMarked.staysHome {walk : Walk} (marked : walk.IsMarked) {home : Section}
    (standing : walk.mark.home = some home) (low : walk.mark.reached < UInt32.size) :
    walk.image.StaysHome home walk.mark.reached := by
  have member := marked.listed home standing
  have address := marked.address_of_lt low
  have at_home : walk.image.cursor.home = some home := by
    rw [marked.cursor_eq]
    exact standing
  have begins : home.loadAddress.toNat ≤ walk.mark.reached :=
    Nat.le_trans (marked.begins home standing) (Nat.le_add_right _ _)
  have order : home.loadAddress ≤ walk.image.cursor.address :=
    UInt32.le_iff_toNat_le.mpr (address ▸ begins)
  have narrow := home.stop_lt
  -- the distance from the start of the section is not reduced, since the cursor is behind it
  have place : home.placeOf walk.image.cursor.address + home.loadAddress.toNat =
      home.fileOffset.toNat + walk.mark.reached := by
    have distance := UInt32.toNat_sub_of_le _ _ order
    unfold Section.placeOf
    omega
  refine ⟨member, address, begins, marked.ends home standing, ?_, ?_, ?_, ?_⟩
  · intro length fits
    apply grants_of_cursorOffset
    exact cursorOffset_eq_ok_iff.mpr ⟨home, at_home, order, address.symm ▸ fits, rfl⟩
  · intro length fits
    have inFile := marked.layout.inFile home member
    unfold Section.stop at fits
    unfold Section.fileStop at inFile ⊢
    omega
  · intro length crosses room
    apply refuses_of_cursorOffset
    rw [cursorOffset_of_home at_home, address, if_neg (Nat.not_le.mpr room), if_pos crosses]
  · intro length full
    apply refuses_of_cursorOffset
    rw [cursorOffset_of_home at_home, address, if_pos full]

/-- What the cursor of an image may do when it has passed the last address: no access is granted. -/
structure IsPastTop (image : Image) (home : Section) (reached : Nat) : Prop where
  member : home ∈ image.sections
  address_eq : image.cursor.address.toNat + UInt32.size = reached
  ends : reached ≤ home.stop
  /-- The distance to the start of the section is computed, though the cursor is in front of it. -/
  underflows : ∀ length, image.cursor.address.toNat + length ≤ home.stop →
    image.Refuses length (.overflow .difference)
  refuses : ∀ length, home.stop < image.cursor.address.toNat + length →
    image.cursor.address.toNat + length < UInt64.size →
    image.Refuses length (.sectionOverflow image.cursor.address length home.stop)
  stops : ∀ length, UInt64.size ≤ image.cursor.address.toNat + length →
    image.Refuses length (.overflow .sum)

theorem Walk.IsMarked.isPastTop {walk : Walk} (marked : walk.IsMarked) {home : Section}
    (standing : walk.mark.home = some home) (high : UInt32.size ≤ walk.mark.reached) :
    walk.image.IsPastTop home walk.mark.reached := by
  obtain ⟨address, ahead⟩ := marked.address_of_le standing high
  have at_home : walk.image.cursor.home = some home := by
    rw [marked.cursor_eq]
    exact standing
  have narrow := home.stop_lt
  refine ⟨marked.listed home standing, address, marked.ends home standing, ?_, ?_, ?_⟩
  · intro length passes
    apply refuses_of_cursorOffset
    rw [cursorOffset_of_home at_home, if_neg (by omega), if_neg (Nat.not_lt.mpr passes),
      if_neg ahead]
  · intro length crosses room
    apply refuses_of_cursorOffset
    rw [cursorOffset_of_home at_home, if_neg (Nat.not_le.mpr room), if_pos crosses]
  · intro length full
    apply refuses_of_cursorOffset
    rw [cursorOffset_of_home at_home, if_pos full]

/-- Wherever a cursor of an opened image was led, an access of it stays in the section it was set in
and is refused if it cannot. Past the last address there is no access is granted until the cursor is
set again, and one that would seem to end in time is stopped. -/
theorem walk_stays_home {bytes : Bytes} {start : Image} (opened : ofBytes bytes = .ok start)
    (steps : List CursorStep) :
    let walk := start.walk steps
    (walk.mark.home = none → ∀ length,
      walk.image.Refuses length (.unmappedAddress walk.image.cursor.address)) ∧
    ∀ home, walk.mark.home = some home →
      (walk.mark.reached < UInt32.size → walk.image.StaysHome home walk.mark.reached) ∧
      (UInt32.size ≤ walk.mark.reached → walk.image.IsPastTop home walk.mark.reached) := by
  intro walk
  have marked : walk.IsMarked := (Walk.isMarked_first opened).run steps
  refine ⟨?_, fun home here => ⟨marked.staysHome here, marked.isPastTop here⟩⟩
  intro homeless length
  have standing : walk.image.cursor.home = none := by
    rw [marked.cursor_eq]
    exact homeless
  exact refuses_of_cursorOffset (cursorOffset_of_homeless standing length)

/-! ### Past the last address -/

/-- Sixteen bytes at the top of the address space. -/
def topArea : Section := ⟨.text, 0, 0x100, 0xFFFFFFF0, 16⟩

/-- Four bytes that follow them in the file. -/
def nextArea : Section := ⟨.data, 7, 0x110, 0x80003100, 4⟩

def topFile : Bytes :=
  Header.describe (Header.describe (List.replicate headerSize 0) topArea) nextArea ++
    List.replicate 16 0 ++ [1, 2, 3, 4]

def topImage : Image :=
  ⟨topFile.toArray, [topArea], [nextArea], ⟨0xFFFFFFF0, some topArea⟩⟩

set_option maxRecDepth 4000 in
theorem ofBytes_topFile : ofBytes topFile = .ok topImage := by rfl

theorem walk_stays_home_top :
    ofBytes topFile = .ok topImage ∧
    let walk := topImage.walk [.seek 0xFFFFFFF0, .read 12, .write [5], .seek 0]
    walk.mark.home = some topArea ∧ walk.mark.reached < UInt32.size ∧
      walk.image.StaysHome topArea walk.mark.reached := by
  refine ⟨ofBytes_topFile, ?_⟩
  intro walk
  have here : walk.mark.home = some topArea := by decide +kernel
  have low : walk.mark.reached < UInt32.size := by decide +kernel
  exact ⟨here, low, ((walk_stays_home ofBytes_topFile _).2 topArea here).1 low⟩

/-- Behind the last byte of a section at the top, reading and writing do not fail with the end of the
section: the distance of the cursor to its start is no number. -/
theorem cursor_underflows_behind_top :
    ofBytes topFile = .ok topImage ∧
    let walk := topImage.walk [.seek 0xFFFFFFF0, .read 16]
    walk.mark.home = some topArea ∧ walk.mark.reached = topArea.stop ∧
      walk.image.cursor.address < topArea.loadAddress ∧
      Image.read 4 walk.image = .error (.overflow .difference) walk.image ∧
      Image.write [9] walk.image = .error (.overflow .difference) walk.image := by
  refine ⟨ofBytes_topFile, ?_⟩
  intro walk
  have here : walk.mark.home = some topArea := by decide +kernel
  have reached : walk.mark.reached = topArea.stop := by decide +kernel
  have standing : walk.image.cursor = ⟨0, some topArea⟩ := by decide +kernel
  have marked : walk.IsMarked := (Walk.isMarked_first ofBytes_topFile).run _
  have past := marked.isPastTop here (by rw [reached]; decide)
  -- the cursor stands at zero, so far in front of the end of the section that the check passes
  have passes (length : Nat) (short : length ≤ 4) :
      walk.image.cursor.address.toNat + length ≤ topArea.stop := by
    have far : 4 ≤ topArea.stop := by decide
    rw [standing, UInt32.toNat_zero]
    omega
  refine ⟨here, reached, by rw [standing]; decide, ?_, ?_⟩
  · exact (past.underflows 4 (passes 4 (Nat.le_refl 4))).read
  · exact (past.underflows 1 (passes 1 (by decide))).write [9] rfl

end CubePatch.Image
