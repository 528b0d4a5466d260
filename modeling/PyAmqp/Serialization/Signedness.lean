import PyAmqp.Serialization.Fields
import PyAmqp.Serialization.Termination

/-!
The integers of tables and arrays. Of the eight type codes the two of one octet are read with
the signedness of the other.
-/

namespace PyAmqp

open Cursor

/-- A type of integers in a table: its code, and its words. -/
structure IntType where
  code : Char
  signed : Bool
  width : Nat

/-- The integer types, as the comments of `_read_item` name them. -/
def intTypes : List IntType :=
  [⟨'b', true, 1⟩, ⟨'B', false, 1⟩, ⟨'U', true, 2⟩, ⟨'u', false, 2⟩,
    ⟨'I', true, 4⟩, ⟨'i', false, 4⟩, ⟨'L', true, 8⟩, ⟨'l', false, 8⟩]

namespace IntType

def InRange (t : IntType) (v : Int) : Prop :=
  if t.signed then -2 ^ (8 * t.width - 1) ≤ v ∧ v < 2 ^ (8 * t.width - 1)
  else 0 ≤ v ∧ v < 2 ^ (8 * t.width)

/-- The code and the big-endian two's complement. -/
def octets (t : IntType) (v : Int) : Octets := PyAmqp.code t.code :: BigEndian.encodeInt t.width v

/-- What `_read_item` makes of the octets of `v`. -/
def readAs (t : IntType) (v : Int) : Int :=
  if t.code = 'b' then v % 256 else if t.code = 'B' then (v + 128) % 256 - 128 else v

end IntType

/-- Where the octets stand, a call of `_read_item` returns the value and takes them; no other
value comes from there. -/
def DecodesTo (octets : Octets) (value : Value) (buf : Octets) (marks : List Mark) : Prop :=
  ∀ offset, octets <+: buf.drop offset →
    (.call offset ∈ marks → .item offset value (offset + octets.length) ∈ marks) ∧
    ∀ value' next, .item offset value' next ∈ marks →
      value' = value ∧ next = offset + octets.length

/-- At any place in a buffer, and at every depth of whatever `loads` reads there, the octets of
`v` decode to `v`. -/
def IntType.ReadsBack (t : IntType) (v : Int) : Prop :=
  Reads readItem (t.octets v) (.int v) ∧
    ∀ format buf offset, DecodesTo (t.octets v) (.int v) buf (tracedLoads format buf offset).1

section Words

theorem encodeInt_emod (width : Nat) {i j : Int} (h : i % 256 ^ width = j % 256 ^ width) :
    BigEndian.encodeInt width i = BigEndian.encodeInt width j := by
  rw [BigEndian.encodeInt, h, ← BigEndian.encodeInt]

theorem reads_unsigned (width : Nat) {v : Int} (hlow : 0 ≤ v) (hhigh : v < 256 ^ width) :
    Reads (unpackFrom width >>= fun n => pure (Value.int n)) (BigEndian.encodeInt width v)
      (.int v) := by
  obtain ⟨n, rfl⟩ := Int.eq_ofNat_of_zero_le hlow
  have hfit : n < 256 ^ width := by exact_mod_cast hhigh
  have hword : BigEndian.encodeInt width n = BigEndian.encode width n := by
    rw [BigEndian.encodeInt, Int.emod_eq_of_lt hlow hhigh, Int.toNat_natCast]
  rw [hword]
  exact (reads_unpackFrom width hfit).bind_pure fun n : Nat => Value.int n

theorem reads_signed (width : Nat) {v : Int} (hlow : -(256 ^ width : Int) ≤ 2 * v)
    (hhigh : 2 * v < 256 ^ width) :
    Reads (unpackSigned width >>= fun i => pure (Value.int i)) (BigEndian.encodeInt width v)
      (.int v) :=
  (reads_unpackSigned width hlow hhigh).bind_pure Value.int

end Words

section Items

variable {t : IntType} {v : Int}

/-- The word behind the code of an integer type. -/
theorem reads_word (ht : t ∈ intTypes) (hv : t.InRange v) (item : Reader Value) :
    Reads (readField item t.code) (BigEndian.encodeInt t.width v) (.int (t.readAs v)) := by
  simp only [intTypes, List.mem_cons, List.not_mem_nil, or_false] at ht
  rcases ht with rfl | rfl | rfl | rfl | rfl | rfl | rfl | rfl
  · have hword : BigEndian.encodeInt 1 v = BigEndian.encodeInt 1 (v % 256) :=
      encodeInt_emod 1 (by simp)
    have hread := @reads_unsigned 1 (v % 256) (by omega) (by omega)
    rwa [← hword] at hread
  · have hword : BigEndian.encodeInt 1 v = BigEndian.encodeInt 1 ((v + 128) % 256 - 128) :=
      encodeInt_emod 1 (by simp only [pow_one]; omega)
    have hread := @reads_signed 1 ((v + 128) % 256 - 128) (by omega) (by omega)
    rwa [← hword] at hread
  · simp [IntType.InRange] at hv
    exact reads_signed 2 (by omega) (by omega)
  · simp [IntType.InRange] at hv
    exact reads_unsigned 2 (by omega) (by omega)
  · simp [IntType.InRange] at hv
    exact reads_signed 4 (by omega) (by omega)
  · simp [IntType.InRange] at hv
    exact reads_unsigned 4 (by omega) (by omega)
  · simp [IntType.InRange] at hv
    exact reads_signed 8 (by omega) (by omega)
  · simp [IntType.InRange] at hv
    exact reads_unsigned 8 (by omega) (by omega)

/-- The codes are octets of their own, and the traced decoder has nothing to note there. -/
theorem tracedField_word (ht : t ∈ intTypes) (item : Tracer Value) :
    tracedField item (Char.ofNat (code t.code).toNat) =
      Traced.lift (readField (Cursor.fail .outOfFuel) t.code) := by
  simp only [intTypes, List.mem_cons, List.not_mem_nil, or_false] at ht
  rcases ht with rfl | rfl | rfl | rfl | rfl | rfl | rfl | rfl
  all_goals rfl

/-- A call of `_read_item` where the octets of an integer stand. -/
theorem tracedItemWithin_word (ht : t ∈ intTypes) (hv : t.InRange v) {buf : Octets} {offset : Nat}
    (hstands : t.octets v <+: buf.drop offset) (depth : Nat) :
    tracedItemWithin (depth + 1) buf offset =
      ([.call offset, .item offset (.int (t.readAs v)) (offset + (t.octets v).length)],
        .ok (.int (t.readAs v), offset + (t.octets v).length)) := by
  obtain ⟨after, hafter⟩ := hstands
  have hlt : offset < buf.length := by
    have hlength := congrArg List.length hafter
    simp only [IntType.octets, List.cons_append, List.length_cons, List.length_drop] at hlength
    omega
  have hbuf : buf = buf.take offset ++ t.octets v ++ after := by
    rw [List.append_assoc, hafter, List.take_append_drop]
  have hbefore : (buf.take offset).length = offset := by
    rw [List.length_take]
    omega
  generalize buf.take offset = before at hbuf hbefore
  subst hbuf hbefore
  have hindex : Cursor.index PyError.indexError (before ++ t.octets v ++ after) before.length =
      .ok (code t.code, before.length + 1) := by
    simp [Cursor.index, IntType.octets]
  have hword := reads_word ht hv (Cursor.fail .outOfFuel) (before ++ [code t.code]) after
  have hassoc : before ++ [code t.code] ++ BigEndian.encodeInt t.width v ++ after =
      before ++ t.octets v ++ after := by
    simp [IntType.octets]
  rw [hassoc] at hword
  simp only [List.length_append, List.length_singleton] at hword
  have hlength : before.length + (t.octets v).length =
      before.length + 1 + (BigEndian.encodeInt t.width v).length := by
    simp only [IntType.octets, List.length_cons]
    omega
  simp only [tracedItemWithin, Traced.noting, Bind.bind, Traced.bind, Traced.lift, hindex,
    tracedField_word ht, hword, hlength]
  rfl

theorem reads_int (ht : t ∈ intTypes) (hv : t.InRange v) :
    Reads readItem (t.octets v) (.int (t.readAs v)) := by
  intro before after
  have hstands : t.octets v <+: (before ++ t.octets v ++ after).drop before.length := by
    simp [List.append_assoc]
  have hrun := tracedItemWithin_word ht hv hstands (before ++ t.octets v ++ after).length
  rw [← erase_item]
  exact congrArg Prod.snd hrun

theorem decodesTo_quiet (octets : Octets) (value : Value) (buf : Octets) :
    Quiet (DecodesTo octets value buf) where
  nil := fun offset _ => ⟨fun h => absurd h List.not_mem_nil,
    fun value' next h => absurd h List.not_mem_nil⟩
  append := by
    intro marks marks' h h' offset hstands
    obtain ⟨hcall, hitem⟩ := h offset hstands
    obtain ⟨hcall', hitem'⟩ := h' offset hstands
    constructor
    · intro hmem
      rcases List.mem_append.mp hmem with hleft | hright
      · exact List.mem_append_left _ (hcall hleft)
      · exact List.mem_append_right _ (hcall' hright)
    · intro value' next hmem
      rcases List.mem_append.mp hmem with hleft | hright
      · exact hitem value' next hleft
      · exact hitem' value' next hright
  slice := by
    intro offset length offset' _
    simp
  round := by
    intro offset next _ offset' _
    simp
  ended := by
    intro limit offset offset' _
    simp

/-- Every call, at every depth. -/
theorem tracedItemWithin_decodes (ht : t ∈ intTypes) (hv : t.InRange v) (buf : Octets)
    (depth : Nat) :
    Traced.Notes buf (DecodesTo (t.octets v) (.int (t.readAs v)) buf)
      (tracedItemWithin depth) := by
  have hquiet := decodesTo_quiet (t.octets v) (.int (t.readAs v)) buf
  induction depth with
  | zero => exact .lift hquiet.toGathers _
  | succ depth ih =>
      intro offset
      by_cases hstands : t.octets v <+: buf.drop offset
      · rw [tracedItemWithin_word ht hv hstands]
        intro offset' _
        refine ⟨fun hcall => ?_, fun value' next hitem => ?_⟩
        · obtain rfl : offset' = offset := by simpa using hcall
          simp
        · obtain ⟨rfl, rfl, rfl⟩ : offset' = offset ∧ value' = _ ∧ next = _ := by
            simpa using hitem
          exact ⟨rfl, rfl⟩
      · -- What the call itself notes says nothing of octets that stand elsewhere.
        have helsewhere : ∀ offset', t.octets v <+: buf.drop offset' → offset' ≠ offset := by
          rintro offset' hstands' rfl
          exact hstands hstands'
        refine Traced.Notes.noting_at hquiet.toGathers (tracedBehindCode_notes hquiet ih offset) ?_ ?_
        · intro offset' hstands'
          simp [helsewhere offset' hstands']
        · intro value next _ offset' hstands'
          simp [helsewhere offset' hstands']

/-- All depends on what `_read_item` makes of the octets. -/
theorem readsBack_iff (ht : t ∈ intTypes) (hv : t.InRange v) :
    t.ReadsBack v ↔ t.readAs v = v := by
  constructor
  · intro hback
    have hread := (reads_int ht hv [] []).symm.trans (hback.1 [] [])
    exact Value.int.inj (Prod.mk.inj (Except.ok.inj hread)).1
  · intro hsame
    refine ⟨?_, fun format buf offset => ?_⟩
    · simpa only [hsame] using reads_int ht hv
    · have hdecodes := tracedLoads_notes (decodesTo_quiet (t.octets v) (.int (t.readAs v)) buf)
        (tracedItemWithin_decodes ht hv buf) format offset
      rwa [hsame] at hdecodes

end Items

/-- An integer of a table or an array decodes to itself, at every depth, unless it is one of the
octets that the signed and the unsigned type read differently. -/
theorem integers_read_iff {t : IntType} (ht : t ∈ intTypes) {v : Int} (hv : t.InRange v) :
    t.ReadsBack v ↔ ¬ (t.code = 'b' ∧ v < 0 ∨ t.code = 'B' ∧ 128 ≤ v) := by
  rw [readsBack_iff ht hv]
  simp only [intTypes, List.mem_cons, List.not_mem_nil, or_false] at ht
  rcases ht with rfl | rfl | rfl | rfl | rfl | rfl | rfl | rfl
  · simp [IntType.InRange, IntType.readAs] at hv ⊢
    omega
  · simp [IntType.InRange, IntType.readAs] at hv ⊢
    omega
  all_goals simp [IntType.readAs]

/-- A short. -/
theorem integers_read_short :
    IntType.ReadsBack ⟨'U', true, 2⟩ (-321) ↔
      ¬ ('U' = 'b' ∧ (-321 : Int) < 0 ∨ 'U' = 'B' ∧ 128 ≤ (-321 : Int)) :=
  @integers_read_iff ⟨'U', true, 2⟩ (by simp [intTypes]) (-321) (by simp [IntType.InRange])

/-- The signed octet of -1 is read as 255, and the unsigned one of 255 as -1. -/
theorem octets_swapped :
    IntType.InRange ⟨'b', true, 1⟩ (-1) ∧ readItem [98, 255] 0 = .ok (.int 255, 2) ∧
      ¬ IntType.ReadsBack ⟨'b', true, 1⟩ (-1) ∧
      IntType.InRange ⟨'B', false, 1⟩ 255 ∧ readItem [66, 255] 0 = .ok (.int (-1), 2) ∧
      ¬ IntType.ReadsBack ⟨'B', false, 1⟩ 255 := by
  have hsigned : readItem [98, 255] 0 = .ok (.int 255, 2) := rfl
  have hunsigned : readItem [66, 255] 0 = .ok (.int (-1), 2) := rfl
  refine ⟨by simp [IntType.InRange], hsigned, fun hback => ?_, by simp [IntType.InRange],
    hunsigned, fun hback => ?_⟩
  · have hread : readItem [98, 255] 0 = .ok (.int (-1), 2) := hback.1 [] []
    exact absurd (hsigned.symm.trans hread) (by simp)
  · have hread : readItem [66, 255] 0 = .ok (.int 255, 2) := hback.1 [] []
    exact absurd (hunsigned.symm.trans hread) (by simp)

end PyAmqp
