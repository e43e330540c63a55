import CubePatch.Proofs.Code.List

/-!
Which bytes are a code list.

A code list is spelled by its first line, by records that each have the length their own first line
announces, and by a line that closes it. The bytes alone decide where each record ends, so there is
one way to read them. Whatever the bytes are, they begin with codes that are followed by something
that is no code: a closing line, the end, or a record that is cut off.

## Main result

`ofBytes_grammar`: reading accepts what is spelled and nothing else, gives the records it is spelled
by, and says of all other bytes why and where they are no code list.
-/
namespace CubePatch

/-! ### Records as bytes -/

/-- The length of a record that begins with some bytes, as its first line announces it. -/
def announcedLength (bytes : Bytes) : Nat :=
  8 + (CodeKind.ofOpcode (bytes.headD 0)).payloadLength (wordAt bytes 4)

/-- The bytes of a code. -/
def IsRecord (bytes : Bytes) : Prop :=
  bytes.head? ≠ some 0xF0 ∧ bytes.length = announcedLength bytes

/-- The bytes of a line that ends a code list. -/
def IsClosing (bytes : Bytes) : Prop :=
  bytes.head? = some 0xF0 ∧ bytes.length = 8

/-- Bytes that end before the record they begin with, or even before its first line. -/
def IsCutOff (bytes : Bytes) (needed : Nat) : Prop :=
  bytes ≠ [] ∧ bytes.length < needed ∧
    needed = if bytes.length < 8 then 8 else announcedLength bytes

theorem CodeKind.ofOpcode_eq_terminator_iff (opcode : UInt8) :
    CodeKind.ofOpcode opcode = .terminator ↔ opcode = 0xF0 := by
  have all : ∀ value : Fin 256, CodeKind.ofOpcode (UInt8.ofFin value) = .terminator ↔
      UInt8.ofFin value = 0xF0 := by
    decide +kernel
  exact all opcode.toFin

theorem CodeKind.payloadLength_le (kind : CodeKind) (operand : UInt32) :
    kind.payloadLength operand ≤ 8 * (UInt32.size - 1) := by
  have small := operand.toNat_lt_size
  have upper : (operand >>> 16).toNat ≤ operand.toNat := by
    rw [UInt32.toNat_shiftRight]
    exact Nat.shiftRight_le _ _
  simp only [UInt32.size] at small ⊢
  unfold payloadLength roundUp
  split <;> omega

namespace Line

theorem bytes_of_take? {bytes rest : Bytes} {line : Line}
    (taken : take? bytes = some (line, rest)) : bytes = line.bytes ++ rest := by
  unfold take? at taken
  split at taken
  next =>
    cases taken
    rw [Line.bytes, wordBytes_joinBytes, wordBytes_joinBytes]
    rfl
  · cases taken

theorem length_lt_of_take?_eq_none {bytes : Bytes} (short : take? bytes = none) :
    bytes.length < 8 := by
  unfold take? at short
  split at short
  · cases short
  next few =>
    rcases bytes with _ | ⟨a, _ | ⟨b, _ | ⟨c, _ | ⟨d, _ | ⟨e, _ | ⟨f, _ | ⟨g, _ | ⟨h, rest⟩⟩⟩⟩⟩⟩⟩⟩
    all_goals first | exact absurd rfl (few a b c d e f g h rest) | simp

theorem head?_bytes (line : Line) (rest : Bytes) :
    (line.bytes ++ rest).head? = some line.opcode := rfl

theorem announcedLength_bytes (line : Line) (rest : Bytes) :
    announcedLength (line.bytes ++ rest) = line.codeLength := by
  have operand : wordAt (line.bytes ++ rest) 4 = line.operand := joinBytes_of_wordBytes line.operand
  rw [announcedLength, operand]
  rfl

theorem kind_eq_terminator_iff (line : Line) : line.kind = .terminator ↔ line.opcode = 0xF0 :=
  CodeKind.ofOpcode_eq_terminator_iff line.opcode

end Line

theorem isRecord_iff (bytes : Bytes) : IsRecord bytes ↔ ∃ code : Code, code.bytes = bytes := by
  constructor
  · -- the first line can be taken off, and what is left has the length of the payload
    rintro ⟨running, length⟩
    cases taken : Line.take? bytes with
    | none =>
      have short := Line.length_lt_of_take?_eq_none taken
      unfold announcedLength at length
      omega
    | some found =>
      obtain ⟨line, rest⟩ := found
      obtain rfl := Line.bytes_of_take? taken
      rw [Line.announcedLength_bytes, List.length_append, Line.length_bytes, Line.codeLength]
        at length
      rw [Line.head?_bytes, ne_eq, Option.some.injEq, ← Line.kind_eq_terminator_iff] at running
      exact ⟨⟨line, rest, Nat.add_left_cancel length, running⟩, rfl⟩
  · rintro ⟨code, rfl⟩
    refine ⟨?_, ?_⟩
    · rw [Code.bytes, Line.head?_bytes, ne_eq, Option.some.injEq, ← Line.kind_eq_terminator_iff]
      exact code.running
    · rw [code.length_bytes, Code.bytes, Line.announcedLength_bytes]

theorem isClosing_iff (bytes : Bytes) :
    IsClosing bytes ↔ ∃ line : Line, line.kind = .terminator ∧ line.bytes = bytes := by
  constructor
  · rintro ⟨closes, length⟩
    cases taken : Line.take? bytes with
    | none =>
      have short := Line.length_lt_of_take?_eq_none taken
      omega
    | some found =>
      obtain ⟨line, rest⟩ := found
      obtain rfl := Line.bytes_of_take? taken
      rw [List.length_append, Line.length_bytes] at length
      obtain rfl : rest = [] := List.length_eq_zero_iff.mp (by omega)
      rw [Line.head?_bytes, Option.some.injEq, ← Line.kind_eq_terminator_iff] at closes
      exact ⟨line, closes, (List.append_nil _).symm⟩
  · rintro ⟨line, closes, rfl⟩
    refine ⟨?_, line.length_bytes⟩
    rw [← List.append_nil line.bytes, Line.head?_bytes, (Line.kind_eq_terminator_iff _).mp closes]

theorem exists_codes_of_isRecord {records : List Bytes} (all : ∀ record ∈ records, IsRecord record) :
    ∃ codes : List Code, codes.map Code.bytes = records := by
  induction records with
  | nil => exact ⟨[], rfl⟩
  | cons record rest ih =>
    obtain ⟨first, later⟩ := List.forall_mem_cons.mp all
    obtain ⟨code, rfl⟩ := (isRecord_iff record).mp first
    obtain ⟨codes, rfl⟩ := ih later
    exact ⟨code :: codes, rfl⟩

theorem isRecord_of_mem_map {codes : List Code} :
    ∀ record ∈ codes.map Code.bytes, IsRecord record := by
  intro record member
  obtain ⟨code, -, rfl⟩ := List.mem_map.mp member
  exact (isRecord_iff _).mpr ⟨code, rfl⟩

namespace CodeList

theorem body_eq_flatten (list : CodeList) : list.body = (list.codes.map Code.bytes).flatten :=
  List.flatMap_def

/-! ### One step of reading -/

theorem front_eq_code {offset : Nat} {bytes rest : Bytes} {code : Code}
    (found : front offset bytes = .ok (.code code rest)) : bytes = code.bytes ++ rest := by
  unfold front at found
  split at found
  · split at found <;> cases found
  next line behind taken =>
    split at found
    · cases found
    · split at found
      · cases found
        rw [Line.bytes_of_take? taken, Code.bytes, List.append_assoc, List.take_append_drop]
      · cases found

theorem front_eq_closing {offset : Nat} {bytes rest : Bytes} {line : Line}
    {closes : line.kind = .terminator} (found : front offset bytes = .ok (.closing line closes rest)) :
    bytes = line.bytes ++ rest := by
  unfold front at found
  split at found
  · split at found <;> cases found
  next other behind taken =>
    split at found
    · cases found
      exact Line.bytes_of_take? taken
    · split at found <;> cases found

theorem front_eq_error {offset : Nat} {bytes : Bytes} {fault : CodeFault}
    (failed : front offset bytes = .error fault) :
    bytes = [] ∧ fault = .missingTerminator ∨
      ∃ needed, IsCutOff bytes needed ∧ fault = .truncated offset needed bytes.length := by
  unfold front at failed
  split at failed
  next taken =>
    have short := Line.length_lt_of_take?_eq_none taken
    split at failed
    next empty =>
      cases failed
      exact Or.inl ⟨List.isEmpty_iff.mp empty, rfl⟩
    next some_left =>
      cases failed
      have nonempty : bytes ≠ [] := fun empty => some_left (List.isEmpty_iff.mpr empty)
      exact Or.inr ⟨8, ⟨nonempty, short, (if_pos short).symm⟩, rfl⟩
  next line rest taken =>
    obtain rfl := Line.bytes_of_take? taken
    split at failed
    · cases failed
    · split at failed
      · cases failed
      next cut =>
        cases failed
        -- the line is there, so it is the payload that is missing
        have long : ¬ (line.bytes ++ rest).length < 8 := by
          rw [List.length_append, Line.length_bytes]
          omega
        refine Or.inr ⟨line.codeLength, ⟨List.cons_ne_nil _ _, ?_, ?_⟩, rfl⟩
        · rw [List.length_take] at cut
          rw [List.length_append, Line.length_bytes, Line.codeLength]
          omega
        · rw [if_neg long, Line.announcedLength_bytes]

theorem front_of_isCutOff (offset : Nat) {bytes : Bytes} {needed : Nat}
    (cut : IsCutOff bytes needed) :
    front offset bytes = .error (.truncated offset needed bytes.length) := by
  obtain ⟨nonempty, shorter, announced⟩ := cut
  cases result : front offset bytes with
  | error fault =>
    -- the end is excluded, and what is cut off is so by one length only
    obtain ⟨empty, -⟩ | ⟨other, ⟨-, -, same⟩, rfl⟩ := front_eq_error result
    · exact absurd empty nonempty
    · rw [announced, same]
  | ok found =>
    cases found with
    -- a code or a closing line is as long as announced, so the bytes are not shorter than that
    | code code rest =>
      obtain rfl := front_eq_code result
      rw [List.length_append, code.length_bytes, Line.codeLength] at shorter announced
      rw [if_neg (by omega), Code.bytes, List.append_assoc, Line.announcedLength_bytes,
        Line.codeLength] at announced
      omega
    | closing line closes rest =>
      obtain rfl := front_eq_closing result
      rw [List.length_append, Line.length_bytes] at shorter announced
      have bare : line.payloadLength = 0 := by
        rw [Line.payloadLength, closes]
        rfl
      rw [if_neg (by omega), Line.announcedLength_bytes, Line.codeLength, bare] at announced
      omega

/-! ### What bytes begin with -/

/-- All bytes are codes and, behind them, something that no code begins with. -/
theorem exists_codes_append (offset : Nat) (bytes : Bytes) :
    ∃ (codes : List Code) (tail : Bytes), bytes = codes.flatMap Code.bytes ++ tail ∧
      ∀ code rest, front (offset + (codes.flatMap Code.bytes).length) tail ≠
        .ok (.code code rest) := by
  -- the induction is on the bytes that are left, which each code makes fewer
  induction length : bytes.length using Nat.strongRecOn generalizing offset bytes with
  | ind count ih =>
    subst length
    cases result : front offset bytes with
    | error fault =>
      refine ⟨[], bytes, rfl, ?_⟩
      intro code rest other
      rw [List.flatMap_nil, List.length_nil, Nat.add_zero, result] at other
      cases other
    | ok found =>
      cases found with
      | closing line closes rest =>
        refine ⟨[], bytes, rfl, ?_⟩
        intro code behind other
        rw [List.flatMap_nil, List.length_nil, Nat.add_zero, result] at other
        cases other
      | code code rest =>
        have fewer := length_lt_of_front result
        obtain ⟨codes, tail, rfl, stops⟩ :=
          ih rest.length fewer (offset + code.bytes.length) rest rfl
        refine ⟨code :: codes, tail, ?_, ?_⟩
        · rw [front_eq_code result, List.flatMap_cons, List.append_assoc]
        · rw [List.flatMap_cons, List.length_append, ← Nat.add_assoc]
          exact stops

/-! ### Reading all bytes -/

/-- How bytes are made of a first line, records and a closing line, with more bytes behind. -/
structure Spells (bytes : Bytes) (records : List Bytes) (last rest : Bytes) : Prop where
  bytes_eq : bytes = magic ++ records.flatten ++ last ++ rest
  isRecord : ∀ record ∈ records, IsRecord record
  isClosing : IsClosing last

theorem spells_iff {bytes last rest : Bytes} {records : List Bytes} :
    Spells bytes records last rest ↔
      ∃ list : CodeList, list.codes.map Code.bytes = records ∧ list.closing.bytes = last ∧
        bytes = list.bytes ++ rest := by
  constructor
  · rintro ⟨rfl, isRecord, isClosing⟩
    obtain ⟨codes, rfl⟩ := exists_codes_of_isRecord isRecord
    obtain ⟨line, closes, rfl⟩ := (isClosing_iff last).mp isClosing
    refine ⟨⟨codes, line, closes⟩, rfl, rfl, ?_⟩
    rw [CodeList.bytes, body_eq_flatten]
  · rintro ⟨list, rfl, rfl, rfl⟩
    refine ⟨?_, isRecord_of_mem_map, (isClosing_iff _).mpr ⟨list.closing, list.closes, rfl⟩⟩
    rw [CodeList.bytes, body_eq_flatten]

theorem ofBytes_magic (bytes : Bytes) : ofBytes (magic ++ bytes) = scan magic.length bytes := by
  have starts : magic.isPrefixOf (magic ++ bytes) = true :=
    List.isPrefixOf_iff_prefix.mpr (List.prefix_append _ _)
  rw [ofBytes, if_pos starts, List.drop_left]

theorem ofBytes_eq_error_of_front {codes : List Code} {tail : Bytes} {fault : CodeFault}
    (failed : front (magic.length + (codes.flatMap Code.bytes).length) tail = .error fault) :
    ofBytes (magic ++ (codes.map Code.bytes).flatten ++ tail) = .error fault := by
  rw [List.append_assoc, ofBytes_magic, ← List.flatMap_def, scan_append, scan_eq, failed]
  rfl

/-- What reading answers, by what the bytes are made of. -/
theorem ofBytes_cases (bytes : Bytes) :
    (¬ magic <+: bytes ∧ ofBytes bytes = .error .missingMagic) ∨
    (∃ list rest, bytes = list.bytes ++ rest ∧ ofBytes bytes = .ok (list, rest)) ∨
    ∃ (codes : List Code) (tail : Bytes),
      bytes = magic ++ (codes.map Code.bytes).flatten ++ tail ∧
      ((tail = [] ∧ ofBytes bytes = .error .missingTerminator) ∨
        ∃ needed, IsCutOff tail needed ∧ ofBytes bytes = .error
          (.truncated (magic.length + (codes.map Code.bytes).flatten.length) needed
            tail.length)) := by
  by_cases starts : magic <+: bytes
  · -- what no code begins with is a closing line or a fault, and this decides the answer
    obtain ⟨behind, rfl⟩ := starts
    obtain ⟨codes, tail, rfl, stops⟩ := exists_codes_append magic.length behind
    cases result : front (magic.length + (codes.flatMap Code.bytes).length) tail with
    | error fault =>
      have failed := ofBytes_eq_error_of_front result
      rw [List.flatMap_def, ← List.append_assoc, failed]
      refine Or.inr (Or.inr ⟨codes, tail, rfl, ?_⟩)
      obtain ⟨empty, rfl⟩ | ⟨needed, cut, rfl⟩ := front_eq_error result
      · exact Or.inl ⟨empty, rfl⟩
      · exact Or.inr ⟨needed, cut, rfl⟩
    | ok found =>
      cases found with
      | code code rest => exact absurd result (stops code rest)
      | closing line closes rest =>
        have whole : magic ++ (codes.flatMap Code.bytes ++ tail) =
            (⟨codes, line, closes⟩ : CodeList).bytes ++ rest := by
          rw [front_eq_closing result, CodeList.bytes, body, List.append_assoc, List.append_assoc]
        rw [whole]
        exact Or.inr (Or.inl ⟨_, rest, rfl, ofBytes_bytes _ rest⟩)
  · have missing : ¬ magic.isPrefixOf bytes = true :=
      fun found => starts (List.isPrefixOf_iff_prefix.mp found)
    exact Or.inl ⟨starts, if_neg missing⟩

theorem ofBytes_eq_ok_iff (bytes rest : Bytes) (list : CodeList) :
    ofBytes bytes = .ok (list, rest) ↔ bytes = list.bytes ++ rest := by
  constructor
  · intro accepted
    obtain ⟨-, failed⟩ | ⟨other, behind, rfl, found⟩ | ⟨codes, tail, -, shape⟩ :=
      ofBytes_cases bytes
    · rw [failed] at accepted
      cases accepted
    · rw [found] at accepted
      cases accepted
      rfl
    · obtain ⟨-, failed⟩ | ⟨needed, -, failed⟩ := shape <;>
        (rw [failed] at accepted; cases accepted)
  · rintro rfl
    exact ofBytes_bytes list rest

theorem ofBytes_of_records {records : List Bytes}
    (isRecord : ∀ record ∈ records, IsRecord record) :
    ofBytes (magic ++ records.flatten) = .error .missingTerminator := by
  obtain ⟨codes, rfl⟩ := exists_codes_of_isRecord isRecord
  rw [← List.append_nil (magic ++ _)]
  exact ofBytes_eq_error_of_front rfl

theorem ofBytes_of_isCutOff {records : List Bytes} {tail : Bytes} {needed : Nat}
    (isRecord : ∀ record ∈ records, IsRecord record) (cut : IsCutOff tail needed) :
    ofBytes (magic ++ records.flatten ++ tail) =
      .error (.truncated (magic.length + records.flatten.length) needed tail.length) := by
  obtain ⟨codes, rfl⟩ := exists_codes_of_isRecord isRecord
  exact ofBytes_eq_error_of_front (front_of_isCutOff _ cut)

theorem ofBytes_eq_missingMagic_iff (bytes : Bytes) :
    ofBytes bytes = .error .missingMagic ↔ ¬ magic <+: bytes := by
  constructor
  · intro failed
    obtain ⟨absent, -⟩ | ⟨list, rest, -, other⟩ | ⟨codes, tail, -, ⟨-, other⟩ | ⟨_, -, other⟩⟩ :=
      ofBytes_cases bytes
    · exact absent
    all_goals
      rw [failed] at other
      cases other
  · intro absent
    exact if_neg fun found => absent (List.isPrefixOf_iff_prefix.mp found)

/-- The terminator is missing exactly if records go on to the end. -/
theorem ofBytes_eq_missingTerminator_iff (bytes : Bytes) :
    ofBytes bytes = .error .missingTerminator ↔
      ∃ records : List Bytes, (∀ record ∈ records, IsRecord record) ∧
        bytes = magic ++ records.flatten := by
  constructor
  · intro failed
    obtain ⟨-, other⟩ | ⟨list, rest, -, other⟩ | ⟨codes, tail, whole, ⟨rfl, -⟩ | ⟨_, -, other⟩⟩ :=
      ofBytes_cases bytes
    case inr.inr.inl => exact ⟨_, isRecord_of_mem_map, whole.trans (List.append_nil _)⟩
    all_goals
      rw [failed] at other
      cases other
  · rintro ⟨records, isRecord, rfl⟩
    exact ofBytes_of_records isRecord

/-- A fault of length is about the first record that does not fit. -/
theorem ofBytes_eq_truncated_iff (bytes : Bytes) (offset needed available : Nat) :
    ofBytes bytes = .error (.truncated offset needed available) ↔
      ∃ (records : List Bytes) (tail : Bytes), (∀ record ∈ records, IsRecord record) ∧
        bytes = magic ++ records.flatten ++ tail ∧ IsCutOff tail needed ∧
        offset = magic.length + records.flatten.length ∧ available = tail.length := by
  constructor
  · intro failed
    obtain ⟨-, other⟩ | ⟨list, rest, -, other⟩ |
      ⟨codes, tail, whole, ⟨-, other⟩ | ⟨_, cut, other⟩⟩ := ofBytes_cases bytes
    all_goals
      rw [failed] at other
      cases other
    exact ⟨_, tail, isRecord_of_mem_map, whole, cut, rfl, rfl⟩
  · rintro ⟨records, tail, isRecord, rfl, cut, rfl, rfl⟩
    exact ofBytes_of_isCutOff isRecord cut

theorem Spells.unique {bytes last rest last' rest' : Bytes} {records records' : List Bytes}
    (one : Spells bytes records last rest) (other : Spells bytes records' last' rest') :
    records = records' ∧ last = last' ∧ rest = rest' := by
  obtain ⟨list, rfl, rfl, whole⟩ := spells_iff.mp one
  obtain ⟨list', rfl, rfl, whole'⟩ := spells_iff.mp other
  -- reading has one answer, and each spelling is that answer
  have accepted := (ofBytes_eq_ok_iff bytes rest list).mpr whole
  rw [(ofBytes_eq_ok_iff bytes rest' list').mpr whole'] at accepted
  cases accepted
  exact ⟨rfl, rfl, rfl⟩

/-! ### The records of a list -/

/-- The records met from some bytes on, with their offsets. Whatever is no record ends the walk, a
closing line and a fault alike. -/
def recordsFrom (offset : Nat) (bytes : Bytes) : List (Nat × Bytes) :=
  match _found : front offset bytes with
  | .ok (.code code rest) => (offset, code.bytes) :: recordsFrom (offset + code.bytes.length) rest
  | _ => []
termination_by bytes.length
decreasing_by exact length_lt_of_front _found

/-- The records behind the first line of some bytes. -/
def recordsOf (bytes : Bytes) : List (Nat × Bytes) :=
  recordsFrom magic.length (bytes.drop magic.length)

theorem recordsFrom_codes (offset : Nat) (codes : List Code) {closing : Line}
    (closes : closing.kind = .terminator) (rest : Bytes) :
    recordsFrom offset (codes.flatMap Code.bytes ++ (closing.bytes ++ rest)) =
      (placedFrom offset codes).map fun entry => (entry.1, entry.2.bytes) := by
  induction codes generalizing offset with
  | nil =>
    -- the closing line is what ends the walk here
    rw [List.flatMap_nil, List.nil_append, recordsFrom]
    split
    next code behind found =>
      rw [front_closing offset closes] at found
      cases found
    · rfl
  | cons code later ih =>
    rw [List.flatMap_cons, List.append_assoc, recordsFrom]
    split
    next found_code behind found =>
      rw [front_code] at found
      cases found
      rw [ih, code.length_bytes]
      rfl
    next no_code => exact absurd (front_code offset code _) (no_code _ _)

/-- No record of a list is lost to a fault. -/
theorem recordsOf_bytes (list : CodeList) :
    recordsOf list.bytes = list.placed.map fun entry => (entry.1, entry.2.bytes) := by
  have behind : list.bytes.drop magic.length =
      list.codes.flatMap Code.bytes ++ (list.closing.bytes ++ []) := by
    rw [CodeList.bytes, List.append_assoc, List.drop_left, List.append_nil]
    rfl
  rw [recordsOf, behind, recordsFrom_codes _ _ list.closes]
  rfl

theorem getElem?_placedFrom (offset : Nat) (codes : List Code) (index : Nat) :
    (placedFrom offset codes)[index]? =
      codes[index]?.map fun code =>
        (offset + ((codes.take index).map Code.bytes).flatten.length, code) := by
  induction codes generalizing offset index with
  | nil => rfl
  | cons code later ih =>
    cases index with
    | zero => rfl
    | succ index =>
      rw [placedFrom, List.getElem?_cons_succ, List.getElem?_cons_succ, ih]
      congr 1
      funext other
      rw [List.take_succ_cons, List.map_cons, List.flatten_cons, List.length_append,
        code.length_bytes, Nat.add_assoc]

/-- A list as it is read from its records. -/
structure IsReadAs (list : CodeList) (records : List Bytes) (last : Bytes) : Prop where
  bytes_eq : list.bytes = magic ++ records.flatten ++ last
  body_eq : list.body = records.flatten
  records_eq : ∀ index, (recordsOf list.bytes)[index]? = records[index]?.map fun record =>
    (magic.length + (records.take index).flatten.length, record)

theorem isReadAs_codes (list : CodeList) :
    IsReadAs list (list.codes.map Code.bytes) list.closing.bytes := by
  refine ⟨?_, list.body_eq_flatten, ?_⟩
  · rw [CodeList.bytes, body_eq_flatten]
  · intro index
    rw [recordsOf_bytes, placed, List.getElem?_map, getElem?_placedFrom, List.getElem?_map,
      ← List.map_take]
    cases list.codes[index]? <;> rfl

/-- Reading accepts what is spelled, gives the records it is spelled by, and says of all other bytes
what is wrong with them. -/
theorem ofBytes_grammar (bytes : Bytes) :
    (∀ list rest, ofBytes bytes = .ok (list, rest) ↔
      ∃ records last, Spells bytes records last rest ∧ IsReadAs list records last) ∧
    (∀ records last rest, Spells bytes records last rest →
      ∃ list, ofBytes bytes = .ok (list, rest)) ∧
    (∀ records last rest records' last' rest', Spells bytes records last rest →
      Spells bytes records' last' rest' → records = records' ∧ last = last' ∧ rest = rest') ∧
    (ofBytes bytes = .error .missingMagic ↔ ¬ magic <+: bytes) ∧
    (ofBytes bytes = .error .missingTerminator ↔
      ∃ records : List Bytes, (∀ record ∈ records, IsRecord record) ∧
        bytes = magic ++ records.flatten) ∧
    (∀ offset needed available, ofBytes bytes = .error (.truncated offset needed available) ↔
      ∃ (records : List Bytes) (tail : Bytes), (∀ record ∈ records, IsRecord record) ∧
        bytes = magic ++ records.flatten ++ tail ∧ IsCutOff tail needed ∧
        offset = magic.length + records.flatten.length ∧ available = tail.length) ∧
    -- whatever the operand is, lengths are far from the bounds of the numbers they are counted in
    ∀ record, announcedLength record < 0x1000000000 := by
  refine ⟨?_, ?_, fun _ _ _ _ _ _ one other => one.unique other, ofBytes_eq_missingMagic_iff bytes,
    ofBytes_eq_missingTerminator_iff bytes, ofBytes_eq_truncated_iff bytes, ?_⟩
  · intro list rest
    rw [ofBytes_eq_ok_iff]
    constructor
    · intro whole
      exact ⟨_, _, spells_iff.mpr ⟨list, rfl, rfl, whole⟩, isReadAs_codes list⟩
    · rintro ⟨records, last, spells, read⟩
      rw [spells.bytes_eq, read.bytes_eq]
  · intro records last rest spells
    obtain ⟨list, -, -, whole⟩ := spells_iff.mp spells
    exact ⟨list, (ofBytes_eq_ok_iff bytes rest list).mpr whole⟩
  · intro record
    have := CodeKind.payloadLength_le (CodeKind.ofOpcode (record.headD 0)) (wordAt record 4)
    simp only [UInt32.size] at this
    unfold announcedLength
    omega

end CodeList

end CubePatch
