import CubePatch.Payload.Placement
import CubePatch.Proofs.Word
import Mathlib.Data.List.Perm.Subperm
import Mathlib.Order.Bounds.Defs

/-!
What is known of a gap that was found, and when one is found.

The search moves on from a candidate only if a section is in the way, so where it ends no section is.
An address that is jumped over is not free either: the section that was in the way ends behind it and
begins before the bytes that would be placed there end. So the first candidate that fits is the least
address that does. A section that was jumped over ends before all later candidates, and is never in
the way again.

## Main result

`gap_search_exact`: the search finds the least gap, or none where there is none, and jumps over each
section once at most; the address of the loader is that gap, if it is in main memory.
-/
namespace CubePatch

/-- What meets some bytes meets more of them too. -/
theorem Section.Meets.mono {area : Section} {start length more : Nat}
    (meets : area.Meets start length) (longer : length ≤ more) : area.Meets start more := by
  obtain ⟨used, before, behind⟩ := meets
  exact ⟨used, before, by omega⟩

theorem gapFrom?_eq_some {sections : List Section} {length candidate address : Nat}
    (found : gapFrom? sections length candidate = some address) :
    candidate ≤ address ∧ address + max length 1 ≤ addressTop ∧
      ∀ area ∈ sections, ¬ area.Meets address length := by
  fun_induction gapFrom? sections length candidate with
  | case1 candidate fits area hit ih =>
    -- the next candidate is the end of a section that the old one meets
    have meets : area.Meets candidate length := by simpa using List.find?_some hit
    obtain ⟨later, free⟩ := ih found
    exact ⟨Nat.le_trans (Nat.le_of_lt meets.2.1) later, free⟩
  | case2 candidate fits missed =>
    cases found
    exact ⟨Nat.le_refl _, fits, by simpa using missed⟩
  | case3 => cases found

/-- A gap ends in the address space, so the place that was found is an address. -/
theorem Image.findGap_eq_ok_iff_gapFrom? (image : Image) (start length address : UInt32) :
    image.findGap start length = .ok address ↔
      gapFrom? image.sections length.toNat start.toNat = some address.toNat := by
  unfold findGap
  constructor
  · intro found
    split at found
    next place searched =>
      have fits := (gapFrom?_eq_some searched).2.1
      have small : place < UInt32.size := by
        unfold addressTop at fits
        have := Nat.le_max_right length.toNat 1
        simp only [UInt32.size]
        omega
      cases found
      rw [searched, UInt32.toNat_ofNat_of_lt' small]
    · cases found
  · intro searched
    rw [searched]
    simp only [UInt32.ofNat_toNat]

/-- A gap that was found has room for its bytes between the sections. -/
theorem Image.findGap_eq_ok {image : Image} {start length address : UInt32}
    (found : image.findGap start length = .ok address) :
    start ≤ address ∧ address.toNat + max length.toNat 1 ≤ addressTop ∧
      ∀ area ∈ image.sections, ¬ area.Meets address.toNat length.toNat := by
  rw [UInt32.le_iff_toNat_le]
  exact gapFrom?_eq_some ((image.findGap_eq_ok_iff_gapFrom? _ _ _).mp found)

/-! ### The least gap -/

/-- Whether a section has a byte at a place. A section that goes past the last address has bytes at
places that are no address. -/
def Section.Covers (area : Section) (place : Nat) : Prop :=
  area.loadAddress.toNat ≤ place ∧ place < area.stop

/-- A section is met where it shares a byte. -/
theorem Section.meets_iff (area : Section) (start length : Nat) :
    area.Meets start length ↔
      ∃ place, start ≤ place ∧ place < start + max length 1 ∧ area.Covers place := by
  simp only [Meets, Covers, stop, ne_eq, ← UInt32.toNat_inj, UInt32.toNat_zero]
  constructor
  · rintro ⟨used, before, behind⟩
    -- the later one of the two starts is a place of both
    exact ⟨max start area.loadAddress.toNat, by omega, by omega, by omega, by omega⟩
  · rintro ⟨place, lower, upper, above, below⟩
    omega

/-- There is room for `length` bytes at a place: they end in the address space, and none of them is a
byte of a section. An empty range counts as the byte at its start. -/
def IsGap (sections : List Section) (length place : Nat) : Prop :=
  place + max length 1 ≤ addressTop ∧
    ∀ area ∈ sections, ∀ byte, place ≤ byte → byte < place + max length 1 → ¬ area.Covers byte

theorem isGap_iff (sections : List Section) (length place : Nat) :
    IsGap sections length place ↔
      place + max length 1 ≤ addressTop ∧ ∀ area ∈ sections, ¬ area.Meets place length := by
  refine and_congr_right fun _ => forall₂_congr fun area _ => ?_
  rw [area.meets_iff]
  constructor
  · rintro free ⟨byte, lower, upper, covered⟩
    exact free byte lower upper covered
  · intro free byte lower upper covered
    exact free ⟨byte, lower, upper, covered⟩

theorem IsGap.of_perm {sections order : List Section} {length place : Nat}
    (gap : IsGap sections length place) (same : order.Perm sections) : IsGap order length place :=
  ⟨gap.1, fun area member => gap.2 area (same.mem_iff.mp member)⟩

/-- From a candidate that meets a section up to the end of that section there is no room. -/
theorem not_isGap_of_jumped {sections : List Section} {area : Section} (member : area ∈ sections)
    {length candidate place : Nat} (meets : area.Meets candidate length) (later : candidate ≤ place)
    (jumped : place < area.stop) : ¬ IsGap sections length place := by
  rw [isGap_iff]
  rintro ⟨-, free⟩
  exact free area member ⟨meets.1, jumped, Nat.lt_of_lt_of_le meets.2.2 (by omega)⟩

/-- The search passes no gap. -/
theorem le_of_gapFrom? {sections : List Section} {length candidate place : Nat}
    (later : candidate ≤ place) (gap : IsGap sections length place) :
    ∃ address, gapFrom? sections length candidate = some address ∧ address ≤ place := by
  fun_induction gapFrom? sections length candidate with
  | case1 candidate fits area hit ih =>
    have meets : area.Meets candidate length := by simpa using List.find?_some hit
    have member := List.mem_of_find?_eq_some hit
    -- a gap in front of the next candidate would have been jumped over
    refine ih (Nat.le_of_not_lt fun jumped => ?_)
    exact not_isGap_of_jumped member meets later jumped gap
  | case2 candidate fits missed => exact ⟨candidate, rfl, later⟩
  | case3 candidate full =>
    -- what starts later ends later
    have fits := gap.1
    omega

theorem gapFrom?_eq_some_iff (sections : List Section) (length candidate address : Nat) :
    gapFrom? sections length candidate = some address ↔
      IsLeast {place | candidate ≤ place ∧ IsGap sections length place} address := by
  constructor
  · intro found
    obtain ⟨later, room⟩ := gapFrom?_eq_some found
    refine ⟨⟨later, (isGap_iff _ _ _).mpr room⟩, ?_⟩
    rintro place ⟨behind, gap⟩
    obtain ⟨first, same, le⟩ := le_of_gapFrom? behind gap
    rw [found] at same
    cases same
    exact le
  · rintro ⟨⟨later, gap⟩, least⟩
    obtain ⟨first, found, le⟩ := le_of_gapFrom? later gap
    obtain ⟨behind, room⟩ := gapFrom?_eq_some found
    rw [found, Nat.le_antisymm le (least ⟨behind, (isGap_iff _ _ _).mpr room⟩)]

theorem gapFrom?_eq_none_iff (sections : List Section) (length candidate : Nat) :
    gapFrom? sections length candidate = none ↔
      ¬ ∃ place, candidate ≤ place ∧ IsGap sections length place := by
  constructor
  · rintro missed ⟨place, later, gap⟩
    obtain ⟨first, found, -⟩ := le_of_gapFrom? later gap
    rw [missed] at found
    cases found
  · intro absent
    cases found : gapFrom? sections length candidate with
    | none => rfl
    | some address =>
      exact absurd ⟨address, ((gapFrom?_eq_some_iff _ _ _ _).mp found).1⟩ absent

/-- What is found does not depend on the order of the sections. -/
theorem gapFrom?_perm {sections order : List Section} (same : order.Perm sections)
    (length candidate : Nat) :
    gapFrom? order length candidate = gapFrom? sections length candidate := by
  have gaps : IsGap order length = IsGap sections length := by
    funext place
    exact propext ⟨fun gap => gap.of_perm same.symm, fun gap => gap.of_perm same⟩
  -- both searches find the least place of one set
  apply Option.ext
  intro address
  rw [gapFrom?_eq_some_iff, gapFrom?_eq_some_iff, gaps]

/-! ### The jumps of the search -/

/-- The section that the search jumps over at a candidate. -/
def jumpedAt? (sections : List Section) (length candidate : Nat) : Option Section :=
  if candidate + max length 1 ≤ addressTop then sections.find? (·.Meets candidate length) else none

/-- The search goes from one candidate to another and jumps over these sections on its way. -/
inductive Jumps (sections : List Section) (length : Nat) : Nat → List Section → Nat → Prop where
  | stay (candidate : Nat) : Jumps sections length candidate [] candidate
  | jump {candidate last : Nat} {area : Section} {rest : List Section}
      (hit : jumpedAt? sections length candidate = some area)
      (further : Jumps sections length area.stop rest last) :
      Jumps sections length candidate (area :: rest) last

theorem jumpedAt?_eq_some {sections : List Section} {length candidate : Nat} {area : Section}
    (hit : jumpedAt? sections length candidate = some area) :
    area ∈ sections ∧ area.Meets candidate length := by
  unfold jumpedAt? at hit
  split at hit
  · exact ⟨List.mem_of_find?_eq_some hit, by simpa using List.find?_some hit⟩
  · cases hit

/-- The search jumps on until there is nothing to jump over, and answers with where it is then. -/
theorem exists_jumps (sections : List Section) (length candidate : Nat) :
    ∃ path last, Jumps sections length candidate path last ∧
      jumpedAt? sections length last = none ∧
      gapFrom? sections length candidate =
        if last + max length 1 ≤ addressTop then some last else none := by
  fun_induction gapFrom? sections length candidate with
  | case1 candidate fits area hit ih =>
    obtain ⟨path, last, further, rest⟩ := ih
    exact ⟨area :: path, last, .jump ((if_pos fits).trans hit) further, rest⟩
  | case2 candidate fits missed =>
    exact ⟨[], candidate, .stay candidate, (if_pos fits).trans missed, (if_pos fits).symm⟩
  | case3 candidate full =>
    exact ⟨[], candidate, .stay candidate, if_neg full, (if_neg full).symm⟩

namespace Jumps

variable {sections path : List Section} {length candidate last : Nat}

theorem subset (jumps : Jumps sections length candidate path last) : path ⊆ sections := by
  induction jumps with
  | stay candidate => exact List.nil_subset _
  | jump hit further ih => exact List.cons_subset.mpr ⟨(jumpedAt?_eq_some hit).1, ih⟩

/-- Every section on the way ends behind where the way begins. -/
theorem lt_stop (jumps : Jumps sections length candidate path last) :
    ∀ area ∈ path, candidate < area.stop := by
  induction jumps with
  | stay candidate => exact List.forall_mem_nil _
  | jump hit further ih =>
    have ahead := (jumpedAt?_eq_some hit).2.2.1
    exact List.forall_mem_cons.mpr ⟨ahead, fun area member => Nat.lt_trans ahead (ih area member)⟩

/-- No section is jumped over twice, for the search is behind its end after the first time. -/
theorem nodup (jumps : Jumps sections length candidate path last) : path.Nodup := by
  induction jumps with
  | stay candidate => exact List.nodup_nil
  | jump hit further ih =>
    exact List.nodup_cons.mpr ⟨fun again => Nat.lt_irrefl _ (further.lt_stop _ again), ih⟩

theorem length_le (jumps : Jumps sections length candidate path last) :
    path.length ≤ sections.length :=
  (jumps.nodup.subperm jumps.subset).length_le

end Jumps

/-! ### The gap of an image -/

namespace Image

theorem findGap_eq_ok_iff (image : Image) (start length address : UInt32) :
    image.findGap start length = .ok address ↔
      IsLeast {place | start.toNat ≤ place ∧ IsGap image.sections length.toNat place}
        address.toNat := by
  rw [findGap_eq_ok_iff_gapFrom?, gapFrom?_eq_some_iff]

theorem findGap_eq_error_iff (image : Image) (start length : UInt32) (fault : ImageError) :
    image.findGap start length = .error fault ↔
      fault = .noFreeGap start length ∧
        ¬ ∃ place, start.toNat ≤ place ∧ IsGap image.sections length.toNat place := by
  rw [← gapFrom?_eq_none_iff, findGap]
  cases gapFrom? image.sections length.toNat start.toNat with
  | none => simp [eq_comm]
  | some place => simp

/-- The search for the address of the loader begins in the middle of the zeroed memory, at a multiple
of 256. -/
theorem toNat_gapStart (image : Image) :
    image.gapStart.toNat =
      (image.bssAddress.toNat + image.bssSize.toNat / 2) % 2 ^ 32 / 0x100 * 0x100 := by
  have mask : (0xFFFFFF00 : UInt32) = fieldMask 0 23 := by decide
  have small := (image.bssAddress + image.bssSize / 2).toNat_lt
  rw [gapStart, mask, toNat_and_fieldMask _ (by decide) (by decide)]
  simp only [UInt32.toNat_add, UInt32.toNat_div, UInt32.reduceToNat] at small ⊢
  omega

theorem outcome_chooseInit_none (image : Image) (length : UInt32) :
    (image.chooseInit none length).outcome =
      ((image.findGap image.gapStart length).mapError .image).bind (checkAddress .init) := by
  simp only [chooseInit, Logged.outcome_bind, Logged.outcome_ofExcept, Logged.outcome_tell]
  rfl

theorem chooseInit_none_eq_ok_iff (image : Image) (length address : UInt32) :
    (image.chooseInit none length).outcome = .ok address ↔
      image.findGap image.gapStart length = .ok address ∧
        memoryStart ≤ address ∧ address < memoryStop := by
  rw [outcome_chooseInit_none]
  cases image.findGap image.gapStart length with
  | error fault => simp [Except.mapError, Except.bind]
  | ok found =>
    simp only [Except.mapError, Except.bind, checkAddress, Except.ok.injEq]
    split
    next inside =>
      simp only [Except.ok.injEq, iff_self_and]
      rintro rfl
      exact inside
    next outside =>
      simp only [reduceCtorEq, false_iff]
      rintro ⟨rfl, inside⟩
      exact outside inside

end Image

/-- The search for a gap finds the least address with room from its start on, and fails exactly where
there is no such address. In whatever order it looks at the sections, it finds the same and jumps
over each of them once at most. The address of a loader that is not given is the least one with room
behind the middle of the zeroed memory, if that is in main memory. -/
theorem gap_search_exact (image : Image) (start length : UInt32) :
    (∀ address, image.findGap start length = .ok address ↔
      IsLeast {place | start.toNat ≤ place ∧ IsGap image.sections length.toNat place}
        address.toNat) ∧
    (∀ fault, image.findGap start length = .error fault ↔
      fault = .noFreeGap start length ∧
        ¬ ∃ place, start.toNat ≤ place ∧ IsGap image.sections length.toNat place) ∧
    (∀ order : List Section, order.Perm image.sections →
      gapFrom? order length.toNat start.toNat =
        gapFrom? image.sections length.toNat start.toNat ∧
      (∃ path last, Jumps order length.toNat start.toNat path last ∧
        jumpedAt? order length.toNat last = none ∧
        gapFrom? order length.toNat start.toNat =
          if last + max length.toNat 1 ≤ addressTop then some last else none) ∧
      ∀ path last, Jumps order length.toNat start.toNat path last →
        path.Nodup ∧ path ⊆ image.sections ∧ path.length ≤ image.sections.length) ∧
    ∀ address, (image.chooseInit none length).outcome = .ok address ↔
      IsLeast {place |
          (image.bssAddress.toNat + image.bssSize.toNat / 2) % 2 ^ 32 / 0x100 * 0x100 ≤ place ∧
            IsGap image.sections length.toNat place} address.toNat ∧
        memoryStart ≤ address ∧ address < memoryStop := by
  refine ⟨image.findGap_eq_ok_iff start length, image.findGap_eq_error_iff start length, ?_, ?_⟩
  · intro order same
    refine ⟨gapFrom?_perm same _ _, exists_jumps _ _ _, fun path last jumps => ?_⟩
    exact ⟨jumps.nodup, List.Subset.trans jumps.subset same.subset,
      Nat.le_trans jumps.length_le (Nat.le_of_eq same.length_eq)⟩
  · intro address
    rw [image.chooseInit_none_eq_ok_iff, image.findGap_eq_ok_iff, image.toNat_gapStart]

/-- The section in front of the other is listed behind it, and is jumped over first. -/
example :
    gapFrom? [⟨.text, 0, 0x100, 0x80003104, 8⟩, ⟨.data, 7, 0x200, 0x80003100, 4⟩] 2 0x80003101 =
      some 0x8000310C := by
  decide +kernel

end CubePatch
