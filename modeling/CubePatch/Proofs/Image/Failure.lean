import CubePatch.Proofs.Payload.Hook

/-!
What is left of an edit that fails.

Everything that can refuse an edit is looked at before anything is changed, and the second attempt
to install a payload begins with the image of the first, which was refused. Only the edits that ask
for the word of an address set the cursor before they know whether they succeed. Where the cursor
stands then follows from the address and from the section that holds it, whatever was wrong with the
word.

## Main result

`failed_attempt_leaves_image`: an edit that fails leaves the file and the sections, and the cursor
too unless it asks for the word of an address.
-/
namespace CubePatch

/-- The image that an edit leaves where it fails, if it fails. -/
def Edit.left? (edit : Edit ε α) (image : Image) : Option Image :=
  match edit image with
  | .ok _ _ => none
  | .error _ left => some left

theorem Edit.left_eq {edit : Edit ε α} {image left other : Image}
    (failed : edit.left? image = some left)
    (leaves : ∀ fault, edit image = .error fault left → left = other) : left = other := by
  unfold Edit.left? at failed
  split at failed
  · cases failed
  next fault after run =>
    cases failed
    exact leaves fault run

theorem Edit.after_of_left? {edit : Edit ε α} {image left : Image}
    (failed : edit.left? image = some left) : edit.after image = left :=
  (Edit.left_eq failed fun _ run => (Edit.after_of_error run).symm).symm

namespace Image

/-! ### Attempts -/

/-- What may fail when it is tried on an image. -/
inductive Attempt where
  | seek (address : UInt32)
  | seekBy (delta : Int32)
  | read (length : Nat)
  | readWord
  | write (data : Bytes)
  | writeWord (word : UInt32)
  | append (kind : SectionKind) (payload : Bytes) (address : UInt32)
  | install (payload : Bytes) (address : UInt32)
  | insertBranch (target source : UInt32) (link : Bool)
  | branchAt (address : UInt32)
  | verifyHook (address : UInt32)
  deriving DecidableEq, Repr

namespace Attempt

/-- The image that an attempt leaves if it fails. -/
def left? (image : Image) : Attempt → Option Image
  | .seek address => (Image.seek address).left? image
  | .seekBy delta => (Image.seekBy delta).left? image
  | .read length => (Image.read length).left? image
  | .readWord => Image.readWord.left? image
  | .write data => (Image.write data).left? image
  | .writeWord word => (Image.writeWord word).left? image
  | .append kind payload address => (Image.append kind payload address).left? image
  | .install payload address => (Image.install payload address).left? image
  | .insertBranch target source link => (Image.insertBranch target source link).left? image
  | .branchAt address => (Image.branchAt address).left? image
  | .verifyHook address => (Image.verifyHook address).left? image

/-- The address whose word an attempt asks for, wherever the cursor was before. -/
def site? : Attempt → Option UInt32
  | .insertBranch _ source _ => some source
  | .branchAt address => some address
  | .verifyHook address => some address
  | _ => none

end Attempt

/-! ### Going to a word -/

/-- Where the cursor stands when the word of an address was asked for: where it was if no section
holds the address, at the address if its section ends within the word, and else behind the word. -/
def cursorAtWord (image : Image) (address : UInt32) : Cursor :=
  match image.resolve address with
  | .error _ => image.cursor
  | .ok area =>
    if area.stop < address.toNat + 4 then ⟨address, some area⟩ else ⟨address + 4, some area⟩

/-- A second look at the same word leaves the cursor where the first one did. -/
theorem cursorAtWord_again (image : Image) (address : UInt32) :
    cursorAtWord { image with cursor := image.cursorAtWord address } address =
      image.cursorAtWord address := by
  -- which section holds the address does not depend on the cursor
  have moved (cursor : Cursor) : cursorAtWord { image with cursor := cursor } address =
      match image.resolve address with
      | .error _ => cursor
      | .ok area =>
        if area.stop < address.toNat + 4 then ⟨address, some area⟩
        else ⟨address + 4, some area⟩ := rfl
  rw [moved, cursorAtWord]
  cases image.resolve address <;> rfl

/-- A look moves the cursor and nothing else, whether it succeeds or fails. -/
theorem after_look (image : Image) (address : UInt32) :
    Edit.after (do let _ ← seek address; readWord : Edit ImageError UInt32) image =
      { image with cursor := image.cursorAtWord address } := by
  rw [Edit.after, Edit.bind_apply, seek, cursorAtWord]
  cases mapped : image.resolve address with
  | error fault => rfl
  | ok area =>
    dsimp only
    rw [readWord, Edit.bind_apply, read]
    -- the access behind the seek is granted exactly if the word ends before the section does
    cases access : cursorOffset { image with cursor := ⟨address, some area⟩ } 4 with
    | ok offset =>
      obtain ⟨_, here, -, fits, -⟩ := cursorOffset_eq_ok_iff.mp access
      cases here
      rw [if_neg (Nat.not_lt.mpr fits)]
      rfl
    | error fault =>
      have inside : area.Contains address := by
        simpa using List.find?_some (find?_of_resolve mapped)
      have cut : area.stop < address.toNat + 4 := by
        refine Nat.lt_of_not_le fun fits => ?_
        rw [cursorOffset_of_holds rfl ⟨inside, fits⟩] at access
        cases access
      rw [if_pos cut]

theorem after_branchAt (image : Image) (address : UInt32) :
    (branchAt address).after image = { image with cursor := image.cursorAtWord address } := by
  have looked := after_look image address
  rw [Edit.after, branchAt_apply]
  cases look : (do let _ ← seek address; readWord : Edit ImageError UInt32) image with
  | error fault seen =>
    rw [Edit.after_of_error look] at looked
    exact looked
  | ok word seen =>
    rw [Edit.after_of_ok look] at looked
    dsimp only
    -- the word decides whether this is a branch, and has no part in what is left
    cases (Instruction.decode? word).filter (·.isBranch) <;> exact looked

theorem after_verifyHook (image : Image) (address : UInt32) :
    (verifyHook address).after image = { image with cursor := image.cursorAtWord address } := by
  have looked := after_look image address
  rw [Edit.after, verifyHook_apply]
  cases look : (do let _ ← seek address; readWord : Edit ImageError UInt32) image with
  | error fault seen =>
    rw [Edit.after_of_error look] at looked
    exact looked
  | ok word seen =>
    rw [Edit.after_of_ok look] at looked
    subst looked
    dsimp only
    by_cases returns : word = returnWord
    · rw [if_pos returns]
    · rw [if_neg returns]
      -- a word that is no return is looked at once more, and the cursor comes to the same place
      have again := after_branchAt { image with cursor := image.cursorAtWord address } address
      rw [cursorAtWord_again] at again
      cases decoded : branchAt address { image with cursor := image.cursorAtWord address } with
      | ok branch seen =>
        rw [Edit.after_of_ok decoded] at again
        dsimp only
        cases branch.conditional <;> exact again
      | error fault seen =>
        rw [Edit.after_of_error decoded] at again
        cases fault <;> exact again

/-- A branch that cannot be written leaves the cursor as a look at the word it was to replace
does. -/
theorem insertBranch_eq_error {image left : Image} {target source : UInt32} {link : Bool}
    {fault : ImageError} (run : insertBranch target source link image = .error fault left) :
    left = { image with cursor := image.cursorAtWord source } := by
  unfold cursorAtWord
  cases mapped : image.resolve source with
  | error reason =>
    rw [insertBranch, Edit.bind_apply, seek, mapped] at run
    cases run
    rfl
  | ok area =>
    dsimp only
    by_cases cut : area.stop < source.toNat + 4
    · rw [if_pos cut]
      rw [insertBranch, Edit.bind_apply, seek, mapped] at run
      exact write_eq_error run
    · -- a branch is written wherever there is room for its word
      rw [insertBranch_of_resolve mapped (Nat.le_of_not_lt cut)] at run
      cases run

/-! ### What is left -/

/-- An attempt that fails leaves the image, apart from the cursor where a word was asked for. -/
theorem Attempt.left_eq {image left : Image} {attempt : Attempt}
    (failed : attempt.left? image = some left) :
    attempt.site? = none ∧ left = image ∨
      ∃ site, attempt.site? = some site ∧
        left = { image with cursor := image.cursorAtWord site } := by
  cases attempt with
  | seek address => exact Or.inl ⟨rfl, Edit.left_eq failed fun _ => seek_eq_error⟩
  | seekBy delta => exact Or.inl ⟨rfl, Edit.left_eq failed fun _ => seek_eq_error⟩
  | read length => exact Or.inl ⟨rfl, Edit.left_eq failed fun _ => read_eq_error⟩
  | readWord => exact Or.inl ⟨rfl, Edit.left_eq failed fun _ => readWord_eq_error⟩
  | write data => exact Or.inl ⟨rfl, Edit.left_eq failed fun _ => write_eq_error⟩
  | writeWord word => exact Or.inl ⟨rfl, Edit.left_eq failed fun _ => write_eq_error⟩
  | append kind payload address =>
    exact Or.inl ⟨rfl, Edit.left_eq failed fun _ run => (append_eq_error run).1⟩
  | install payload address =>
    exact Or.inl ⟨rfl, Edit.left_eq failed fun _ run => (install_eq_error run).1⟩
  | insertBranch target source link =>
    exact Or.inr ⟨source, rfl, Edit.left_eq failed fun _ => insertBranch_eq_error⟩
  | branchAt address =>
    exact Or.inr ⟨address, rfl, (Edit.after_of_left? failed).symm.trans (after_branchAt _ _)⟩
  | verifyHook address =>
    exact Or.inr ⟨address, rfl, (Edit.after_of_left? failed).symm.trans (after_verifyHook _ _)⟩

/-- In whatever image an edit fails, the file and both lists of sections stay as they were. The
cursor stays too, unless the edit asks for the word of an address: then it may stand at the address
or behind its word. -/
theorem failed_attempt_leaves_image {image left : Image} {attempt : Attempt}
    (failed : attempt.left? image = some left) :
    left.bytes = image.bytes ∧ left.text = image.text ∧ left.data = image.data ∧
      (attempt.site? = none → left.cursor = image.cursor) ∧
      ∀ site, attempt.site? = some site → left.cursor = image.cursorAtWord site := by
  obtain ⟨elsewhere, rfl⟩ | ⟨site, looks, rfl⟩ := Attempt.left_eq failed
  · refine ⟨rfl, rfl, rfl, fun _ => rfl, fun site looks => ?_⟩
    rw [elsewhere] at looks
    cases looks
  · refine ⟨rfl, rfl, rfl, fun elsewhere => ?_, fun other there => ?_⟩
    · rw [looks] at elsewhere
      cases elsewhere
    · rw [looks] at there
      cases there
      rfl

/-- A conditional branch, and half a word behind it. -/
def branchArea : Section := ⟨.text, 0, 0x100, 0x80003100, 6⟩

def branchFile : Bytes :=
  Header.describe (List.replicate headerSize 0) branchArea ++ wordBytes 0x41820008 ++ [0x4E, 0x80]

def branchImage : Image :=
  ⟨branchFile.toArray, [branchArea], [], ⟨0x80003100, some branchArea⟩⟩

set_option maxRecDepth 4000 in
theorem ofBytes_branchFile : ofBytes branchFile = .ok branchImage := by rfl

theorem failed_attempt_leaves_image_branchImage :
    ofBytes branchFile = .ok branchImage ∧
    ∃ refused cut looked,
      (Attempt.install [1] 0x80003105).left? branchImage = some refused ∧
      refused.cursor = branchImage.cursor ∧
      (Attempt.insertBranch 0x80003100 0x80003104 false).left? branchImage = some cut ∧
      cut.bytes = branchImage.bytes ∧ cut.cursor = ⟨0x80003104, some branchArea⟩ ∧
      (Attempt.verifyHook 0x80003100).left? branchImage = some looked ∧
      looked.bytes = branchImage.bytes ∧ looked.cursor = ⟨0x80003104, some branchArea⟩ := by
  have fails (attempt : Attempt) (shown : (attempt.left? branchImage).isSome = true) :
      ∃ left, attempt.left? branchImage = some left := Option.isSome_iff_exists.mp shown
  obtain ⟨refused, first⟩ := fails (.install [1] 0x80003105) (by decide +kernel)
  obtain ⟨cut, second⟩ := fails (.insertBranch 0x80003100 0x80003104 false) (by decide +kernel)
  obtain ⟨looked, third⟩ := fails (.verifyHook 0x80003100) (by decide +kernel)
  obtain ⟨-, -, -, stays, -⟩ := failed_attempt_leaves_image first
  obtain ⟨kept, -, -, -, crosses⟩ := failed_attempt_leaves_image second
  obtain ⟨same, -, -, -, stands⟩ := failed_attempt_leaves_image third
  exact ⟨ofBytes_branchFile, refused, cut, looked, first, stays rfl, second, kept,
    (crosses _ rfl).trans (by decide +kernel), third, same,
    (stands _ rfl).trans (by decide +kernel)⟩

end Image

end CubePatch
