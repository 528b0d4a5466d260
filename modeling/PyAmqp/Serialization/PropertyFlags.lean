import PyAmqp.Base.FlagWords
import PyAmqp.Serialization.Concatenation
import PyAmqp.Serialization.PropertyRoundTrip

/-!
The flag words of `_serialize_properties` for the `PROPERTIES` of any class. Their low bits
are never set, so a reader stops behind the first word; and the shift is set back only by a
property that comes when it is zero, past which the next one shifts by a negative count.
-/

namespace PyAmqp

/-- Property number `i` is set. -/
def Properties.isSet (props : Properties) (properties : List (String × String)) (i : Nat) : Bool :=
  properties[i]?.any fun row => (props.present row.1).isSome

/-- The set properties that have a value behind the flags. -/
def Properties.fields (props : Properties) (properties : List (String × String)) :
    List (String × String × Value) :=
  (props.written properties).filter fun field => field.2.1 ≠ "bit"

/-- Every property that is set is a bit, or has a value that `dumps` takes for its letter. -/
def Properties.Encodable (props : Properties) (properties : List (String × String)) : Prop :=
  ∀ row ∈ properties, ∀ val, props.present row.1 = some val →
    row.2 = "bit" ∨ ∃ p, row.2.toList = [p] ∧ Accepts p val

/-- `_serialize_properties` returns chained words that flag the set properties, and then
their values; a reader that goes by the low bits gets the words back. -/
def SetFlagged (properties : List (String × String)) (props : Properties) : Prop :=
  ∃ words values,
    serializeProperties properties props =
      .ok (words.flatMap (BigEndian.encode 2) ++ values) ∧
    dumps ((props.fields properties).flatMap fun field => field.2.1.toList)
      ((props.fields properties).map fun field => field.2.2) = .ok values ∧
    (∀ word ∈ words, word < 2 ^ 16) ∧
    (∀ i, FlagWords.flagged words i = props.isSet properties i) ∧
    FlagWords.Chained words ∧
    FlagWords.read (words.flatMap (BigEndian.encode 2) ++ values) = some (words, values)

section Loop

variable {props : Properties} {properties : List (String × String)} {w w' : PropertyWriter}

/-! The low bits -/

/-- No word has its low bit set. -/
def PropertyWriter.Low (w : PropertyWriter) : Prop :=
  ∀ word ∈ w.flags ++ [w.flagBits], word.testBit 0 = false

theorem PropertyWriter.Low.set_pos {proptype : String} {val : Value} (h : w.Low)
    (hw : 0 < w.shift) (hset : w.set proptype val = .ok w') : w'.Low := by
  rw [PropertyWriter.set_pos proptype val hw] at hset
  obtain rfl := Except.ok.inj hset
  intro word hword
  rcases List.mem_append.mp hword with hword | hword
  · exact h word (List.mem_append_left _ hword)
  · obtain rfl := List.mem_singleton.mp hword
    rw [Nat.testBit_or, h w.flagBits (by simp), Nat.testBit_two_pow_of_ne (by omega), Bool.or_self]

theorem PropertyWriter.Low.set {proptype : String} {val : Value} (h : w.Low)
    (hset : w.set proptype val = .ok w') : w'.Low := by
  rcases lt_trichotomy w.shift 0 with hneg | hzero | hpos
  · rw [PropertyWriter.set_neg proptype val hneg] at hset
    cases hset
  · rw [PropertyWriter.set_zero proptype val hzero] at hset
    refine Low.set_pos (fun word hword => ?_) (show (0 : Int) < 15 by decide) hset
    rcases List.mem_append.mp hword with hword | hword
    · exact h word hword
    · obtain rfl := List.mem_singleton.mp hword
      exact Nat.zero_testBit 0
  · exact h.set_pos hpos hset

theorem serializeLoop_low (h : w.Low) (hloop : serializeLoop props properties w = .ok w') :
    w'.Low := by
  induction properties generalizing w with
  | nil =>
      obtain rfl := Except.ok.inj hloop
      exact h
  | cons row properties ih =>
      obtain ⟨key, proptype⟩ := row
      cases hpresent : props.present key with
      | none =>
          rw [serializeLoop, hpresent] at hloop
          exact ih (w := { w with shift := w.shift - 1 }) h hloop
      | some val =>
          rw [serializeLoop, hpresent] at hloop
          obtain ⟨mid, hset, hrest⟩ := bind_eq_ok hloop
          have hmid : mid.Low := h.set hset
          exact ih (w := { mid with shift := mid.shift - 1 }) hmid hrest

theorem packFlags_eq_ok {words : List Nat} {octets : Octets} (h : packFlags words = .ok octets) :
    octets = words.flatMap (BigEndian.encode 2) ∧ ∀ word ∈ words, word < 2 ^ 16 := by
  induction words generalizing octets with
  | nil =>
      obtain rfl := Except.ok.inj h
      exact ⟨rfl, by simp⟩
  | cons word words ih =>
      obtain ⟨first, hfirst, hrest⟩ := bind_eq_ok h
      obtain ⟨rest, hwords, hout⟩ := bind_eq_ok hrest
      obtain rfl := Except.ok.inj hout
      obtain ⟨hfits, rfl⟩ := pack_nat_ok hfirst
      obtain ⟨rfl, hall⟩ := ih hwords
      refine ⟨rfl, fun word' hword' => ?_⟩
      rcases List.mem_cons.mp hword' with rfl | hmem
      · exact hfits
      · exact hall word' hmem

/-- A reader stops behind the first word. -/
theorem serializeProperties_read {octets : Octets}
    (h : serializeProperties properties props = .ok octets) :
    ∃ word rest, FlagWords.read octets = some ([word], rest) := by
  obtain ⟨w, hloop, hrest⟩ := bind_eq_ok h
  obtain ⟨block, hblock, hrest⟩ := bind_eq_ok hrest
  obtain ⟨values, -, hout⟩ := bind_eq_ok hrest
  obtain rfl := Except.ok.inj hout
  obtain ⟨rfl, hfit⟩ := packFlags_eq_ok hblock
  have hlow : w.Low := serializeLoop_low (by simp [PropertyWriter.Low]) hloop
  unfold PropertyWriter.Low at hlow
  obtain ⟨word, words, hwords⟩ : ∃ word words, w.flags ++ [w.flagBits] = word :: words :=
    List.exists_cons_of_ne_nil (by simp)
  rw [hwords] at hlow hfit ⊢
  rw [List.flatMap_cons, List.append_assoc, FlagWords.read_word (hfit word (by simp)),
    if_neg (by simp [hlow word (by simp)])]
  exact ⟨word, _, rfl⟩

/-! The first fifteen -/

theorem Properties.isSet_zero (row : String × String) :
    props.isSet (row :: properties) 0 = (props.present row.1).isSome := rfl

theorem Properties.isSet_succ (row : String × String) (i : Nat) :
    props.isSet (row :: properties) (i + 1) = props.isSet properties i := rfl

/-- The rest of `PROPERTIES` from number `j` on, where none is set that the word has no
bit for. -/
theorem serializeLoop_flags {j : Nat} (hw : w.shift = 15 - (j : Int))
    (hroom : ∀ i, 15 ≤ j + i → props.isSet properties i = false) :
    ∃ shift bits, serializeLoop props properties w = .ok { w with
        shift := shift
        flagBits := w.flagBits ||| bits
        sformat := w.sformat ++ (props.fields properties).flatMap fun field => field.2.1.toList
        svalues := w.svalues ++ (props.fields properties).map fun field => field.2.2 } ∧
      ∀ b, bits.testBit b = true ↔ ∃ i, j + i + b = 15 ∧ props.isSet properties i = true := by
  induction properties generalizing j w with
  | nil =>
      refine ⟨w.shift, 0, by simp [serializeLoop, Properties.fields, Properties.written], ?_⟩
      simp [Properties.isSet]
  | cons row properties ih =>
      obtain ⟨key, proptype⟩ := row
      have hroom' : ∀ i, 15 ≤ j + 1 + i → props.isSet properties i = false := by
        intro i hi
        rw [← Properties.isSet_succ (key, proptype)]
        exact hroom (i + 1) (by omega)
      cases hpresent : props.present key with
      | none =>
          obtain ⟨shift, bits, hloop, hbits⟩ := ih (w := { w with shift := w.shift - 1 }) (j := j + 1)
            (by simp only [hw]; omega) hroom'
          refine ⟨shift, bits, ?_, fun b => ?_⟩
          · rw [serializeLoop, hpresent]
            simpa [Properties.fields, Properties.written, hpresent, pure, Except.pure] using hloop
          · rw [hbits]
            constructor
            · rintro ⟨i, hi, hset⟩
              exact ⟨i + 1, by omega, hset⟩
            · rintro ⟨i, hi, hset⟩
              cases i with
              | zero =>
                  rw [Properties.isSet_zero, hpresent] at hset
                  cases hset
              | succ i => exact ⟨i, by omega, hset⟩
      | some val =>
          have hj : j < 15 := by
            by_contra hfull
            have hclear := hroom 0 (by omega)
            rw [Properties.isSet_zero, hpresent] at hclear
            cases hclear
          have hset := PropertyWriter.set_pos (w := w) proptype val (by omega)
          obtain ⟨shift, bits, hloop, hbits⟩ := ih (j := j + 1)
            (w := { w with
              flagBits := w.flagBits ||| 2 ^ w.shift.toNat
              sformat := w.sformat ++ if proptype = "bit" then [] else proptype.toList
              svalues := w.svalues ++ if proptype = "bit" then [] else [val]
              shift := w.shift - 1 })
            (by simp only [hw]; omega) hroom'
          refine ⟨shift, 2 ^ w.shift.toNat ||| bits, ?_, fun b => ?_⟩
          · rw [serializeLoop, hpresent]
            simp only [hset, ok_bind, hloop]
            by_cases hbit : proptype = "bit"
            · simp [Properties.fields, Properties.written, hpresent, hbit, Nat.or_assoc]
            · simp [Properties.fields, Properties.written, hpresent, hbit, Nat.or_assoc]
          · rw [Nat.testBit_or, Nat.testBit_two_pow, Bool.or_eq_true, decide_eq_true_eq, hbits]
            constructor
            · rintro (hb | ⟨i, hi, hset⟩)
              · refine ⟨0, by omega, ?_⟩
                rw [Properties.isSet_zero, hpresent]
                rfl
              · exact ⟨i + 1, by omega, hset⟩
            · rintro ⟨i, hi, hset⟩
              cases i with
              | zero => exact .inl (by omega)
              | succ i => exact .inr ⟨i, by omega, hset⟩

/-! The values -/

theorem Properties.encodable_iff :
    props.Encodable properties ↔
      ∀ field ∈ props.fields properties, ∃ p, field.2.1.toList = [p] ∧ Accepts p field.2.2 := by
  constructor
  · intro h field hfield
    obtain ⟨hwritten, hbit⟩ := List.mem_filter.mp hfield
    obtain ⟨⟨key, proptype⟩, hrow, hentry⟩ := List.mem_filterMap.mp hwritten
    obtain ⟨val, hpresent, rfl⟩ := Option.map_eq_some_iff.mp hentry
    exact (h _ hrow val hpresent).resolve_left (by simpa using hbit)
  · intro h row hrow val hpresent
    by_cases hbit : row.2 = "bit"
    · exact .inl hbit
    · refine .inr (h (row.1, row.2, val) (List.mem_filter.mpr ⟨?_, by simpa using hbit⟩))
      exact List.mem_filterMap.mpr ⟨row, hrow, by simp [hpresent]⟩

/-- What `dumps` is given it takes. -/
theorem Properties.Encodable.dumps (h : props.Encodable properties) :
    ∃ values, PyAmqp.dumps ((props.fields properties).flatMap fun field => field.2.1.toList)
      ((props.fields properties).map fun field => field.2.2) = .ok values := by
  have hfields : ∀ fields : List (String × String × Value),
      (∀ field ∈ fields, field ∈ props.fields properties) →
        List.Forall₂ Accepts (fields.flatMap fun field => field.2.1.toList)
          (fields.map fun field => field.2.2) := by
    intro fields hfields
    induction fields with
    | nil => exact .nil
    | cons field fields ih =>
        obtain ⟨p, hletter, haccepts⟩ := Properties.encodable_iff.mp h field (hfields field (by simp))
        rw [List.flatMap_cons, hletter]
        exact .cons haccepts (ih fun other hother => hfields other (by simp [hother]))
  exact ⟨_, dumps_accepts (hfields _ fun _ hfield => hfield)⟩

end Loop

theorem SetFlagged.room {properties : List (String × String)} {props : Properties}
    (h : SetFlagged properties props) {i : Nat} (hi : 15 ≤ i) :
    props.isSet properties i = false := by
  obtain ⟨words, values, hwrite, -, -, hflagged, -, hread⟩ := h
  obtain ⟨word, rest, hfirst⟩ := serializeProperties_read hwrite
  obtain ⟨rfl, -⟩ : words = [word] ∧ values = rest := by
    simpa only [hread, Option.some.injEq, Prod.mk.injEq] using hfirst
  rw [← hflagged, FlagWords.flagged_singleton, decide_eq_false (by omega), Bool.false_and]

/-- The flag words are right if and only if no property after the fifteenth is set. -/
theorem serializeProperties_flags_iff (properties : List (String × String)) (props : Properties)
    (h : props.Encodable properties) :
    SetFlagged properties props ↔ ∀ i, 15 ≤ i → props.isSet properties i = false := by
  constructor
  · exact fun hset i hi => hset.room hi
  · intro hroom
    obtain ⟨values, hdumps⟩ := h.dumps
    obtain ⟨shift, bits, hloop, hbits⟩ :=
      @serializeLoop_flags props properties {} 0 rfl fun i hi => hroom i (by omega)
    have hlow : bits.testBit 0 = false := by
      rw [← Bool.not_eq_true, hbits]
      rintro ⟨i, hi, hset⟩
      rw [hroom i (by omega)] at hset
      cases hset
    have hfit : bits < 2 ^ 16 := by
      refine Nat.lt_pow_two_of_testBit bits fun b hb => ?_
      rw [← Bool.not_eq_true, hbits]
      rintro ⟨i, hi, -⟩
      omega
    have hwords : ∀ word ∈ [bits], word < 2 ^ 16 := by simpa using hfit
    have hchained : FlagWords.Chained [bits] := by
      rw [FlagWords.chained_cons]
      refine ⟨by simp [hlow], fun k word hword => by simp at hword⟩
    refine ⟨[bits], values, ?_, hdumps, hwords, fun i => ?_, hchained,
      FlagWords.read_encode (by simp) hchained hwords values⟩
    · have hpack : packFlags [bits] = .ok (BigEndian.encode 2 bits) := by
        simp [packFlags, pack_nat 2 hfit]
      simp only [serializeProperties, hloop, ok_bind, Nat.zero_or, List.nil_append, hpack, hdumps,
        List.flatMap_singleton]
      rfl
    · rw [FlagWords.flagged_singleton, Bool.eq_iff_iff, Bool.and_eq_true, decide_eq_true_eq, hbits]
      constructor
      · rintro ⟨hi, i', hi', hset⟩
        obtain rfl : i' = i := by omega
        exact hset
      · intro hset
        have hi : i < 15 := by
          by_contra hfull
          rw [hroom i (by omega)] at hset
          cases hset
        exact ⟨hi, i, by omega, hset⟩

/-- Seventeen properties: one more than a second word begins with. -/
def wideProperties : List (String × String) :=
  [("a", "s"), ("b", "bit"), ("c", "bit"), ("d", "bit"), ("e", "bit"), ("f", "bit"), ("g", "bit"),
    ("h", "bit"), ("i", "bit"), ("j", "bit"), ("k", "bit"), ("l", "bit"), ("m", "bit"),
    ("n", "bit"), ("o", "bit"), ("p", "bit"), ("q", "bit")]

theorem serializeProperties_flags_iff_wide :
    SetFlagged wideProperties [("a", .str []), ("o", .bool true)] ↔
      ∀ i, 15 ≤ i →
        Properties.isSet [("a", .str []), ("o", .bool true)] wideProperties i = false := by
  refine serializeProperties_flags_iff _ _ (Properties.encodable_iff.mpr fun field hfield => ?_)
  obtain rfl : field = ("a", "s", .str []) := List.mem_singleton.mp hfield
  exact ⟨'s', rfl, [0], rfl⟩

/-- The sixteenth property begins a word that the first does not announce; without it the
seventeenth raises. -/
theorem flags_unchained :
    (Properties.Encodable [("p", .bool true)] wideProperties ∧
      serializeProperties wideProperties [("p", .bool true)] = .ok [0, 0, 0x80, 0] ∧
      ¬ SetFlagged wideProperties [("p", .bool true)]) ∧
    Properties.Encodable [("q", .bool true)] wideProperties ∧
      serializeProperties wideProperties [("q", .bool true)] = .error .valueError ∧
      ¬ SetFlagged wideProperties [("q", .bool true)] := by
  have hnone : ∀ field ∈ ([] : List (String × String × Value)),
      ∃ p, field.2.1.toList = [p] ∧ Accepts p field.2.2 := by simp
  refine ⟨⟨Properties.encodable_iff.mpr hnone, rfl, fun h => ?_⟩,
    Properties.encodable_iff.mpr hnone, rfl, fun h => ?_⟩
  · have hclear := h.room (i := 15) (by decide)
    exact absurd hclear (by decide)
  · have hclear := h.room (i := 16) (by decide)
    exact absurd hclear (by decide)

end PyAmqp
