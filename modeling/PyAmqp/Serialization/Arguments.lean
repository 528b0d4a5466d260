import PyAmqp.Serialization.TableRoundTrip

/-!
Method arguments through `dumps` and `loads`, for the letters of the library's
method signatures. Runs of bits share octets, so the induction over the format
carries the bits the encoder has not written and the decoder has not used.
-/

namespace PyAmqp

open Cursor

/-- The values a letter of a method signature takes. -/
inductive InRange : Char → Value → Prop
  | bit (v : Value) : InRange 'b' v
  | octet {n : Nat} : n < 2 ^ 8 → InRange 'o' (.int n)
  | short {n : Nat} : n < 2 ^ 16 → InRange 'B' (.int n)
  | long {n : Nat} : n < 2 ^ 32 → InRange 'l' (.int n)
  | longlong {n : Nat} : n < 2 ^ 64 → InRange 'L' (.int n)
  | noShortstr : InRange 's' .none
  | shortstr {text : PyStr} : (Utf8.encode text).length ≤ 255 → InRange 's' (.str text)
  | noLongstr : InRange 'S' .none
  | longstr {text : PyStr} : (Utf8.encode text).length < 2 ^ 32 → InRange 'S' (.str text)
  | noTable : InRange 'F' .none
  | table {entries : List (PyStr × Value)} :
      (Value.dict entries).Encodable → InRange 'F' (.dict entries)

/-- What an argument comes back as: a truth value as `bool`, `None` as the empty text
or table, a table as its own codec returns it. -/
def ArgumentBack (p : Char) (v u : Value) : Prop :=
  match p, v with
  | 'b', v => u = .bool v.truthy
  | 'F', .none => u = .dict []
  | 'F', v => v.ReadBack u
  | _, .none => u = .str []
  | _, v => u = v

/-- The argument the decoder returns. -/
def argumentBack (p : Char) (v : Value) : Value :=
  match p, v with
  | 'b', v => .bool v.truthy
  | 'F', .none => .dict []
  | 'F', v => v.readBack
  | _, .none => .str []
  | _, v => v

theorem argumentBack_spec {p : Char} {v : Value} (h : InRange p v) :
    ArgumentBack p v (argumentBack p v) := by
  cases h with
  | table htable => exact Value.readBack_spec _ htable
  | _ => rfl

/-! Fields other than bits -/

private theorem writeText_ok (width : Nat) (text : PyStr)
    (h : (Utf8.encode text).length < 256 ^ width) :
    writeText width (.str text) = .ok (sized width (Utf8.encode text)) := by
  have hor : (Value.str text).orElse (.str []) = .str text := by cases text <;> rfl
  have hcast : ((Utf8.encode text).length : Int) < 256 ^ width := by exact_mod_cast h
  simp [writeText, hor, Value.strToBytes, Value.len, Value.octets,
    pack_ok (Int.natCast_nonneg _) hcast, sized]

private theorem writeText_none (width : Nat) :
    writeText width .none = writeText width (.str []) := rfl

/-- A field other than a bit is written and read back, whatever bits the decoder has
left. -/
theorem field_ok {p : Char} {v : Value} (h : InRange p v) (hp : p ≠ 'b') :
    ∃ octets, (∀ d, dumpsStep p v d = .ok (d.flushbits.write octets)) ∧
      ∀ b, Reads (loadsStep p b) octets (argumentBack p v, {}) := by
  have hword : ∀ (width n : Nat), n < 256 ^ width →
      pack width n = .ok (BigEndian.encode width n) := by
    intro width n hn
    simpa using pack_ok (Int.natCast_nonneg n) (by exact_mod_cast hn : (n : Int) < 256 ^ width)
  cases h with
  | bit v => exact absurd rfl hp
  | @octet n hn =>
      refine ⟨BigEndian.encode 1 n, fun d => ?_, fun b => ?_⟩
      · simp [dumpsStep, dumpsField, Value.index, hword 1 n (by omega)]
      · exact Reads.bind_pure (fun n : Nat => (Value.int n, ({} : Bits)))
          (reads_unpackFrom 1 (by omega))
  | @short n hn =>
      refine ⟨BigEndian.encode 2 n, fun d => ?_, fun b => ?_⟩
      · simp [dumpsStep, dumpsField, Value.toInt, hword 2 n (by omega)]
      · exact Reads.bind_pure (fun n : Nat => (Value.int n, ({} : Bits)))
          (reads_unpackFrom 2 (by omega))
  | @long n hn =>
      refine ⟨BigEndian.encode 4 n, fun d => ?_, fun b => ?_⟩
      · simp [dumpsStep, dumpsField, Value.index, hword 4 n (by omega)]
      · exact Reads.bind_pure (fun n : Nat => (Value.int n, ({} : Bits)))
          (reads_unpackFrom 4 (by omega))
  | @longlong n hn =>
      refine ⟨BigEndian.encode 8 n, fun d => ?_, fun b => ?_⟩
      · simp [dumpsStep, dumpsField, Value.index, hword 8 n (by omega)]
      · exact Reads.bind_pure (fun n : Nat => (Value.int n, ({} : Bits)))
          (reads_unpackFrom 8 (by omega))
  | noShortstr =>
      refine ⟨sized 1 (Utf8.encode []), fun d => ?_, fun b => ?_⟩
      · simp [dumpsStep, dumpsField, writeText_none, writeText_ok 1 [] (by decide)]
      · exact Reads.bind_pure (fun text => (Value.str text, ({} : Bits)))
          (reads_text 1 (by decide))
  | @shortstr text hn =>
      refine ⟨sized 1 (Utf8.encode text), fun d => ?_, fun b => ?_⟩
      · simp [dumpsStep, dumpsField, writeText_ok 1 text (by omega)]
      · exact Reads.bind_pure (fun text => (Value.str text, ({} : Bits)))
          (reads_text 1 (by omega))
  | noLongstr =>
      refine ⟨sized 4 (Utf8.encode []), fun d => ?_, fun b => ?_⟩
      · simp [dumpsStep, dumpsField, writeText_none, writeText_ok 4 [] (by decide)]
      · exact Reads.bind_pure (fun text => (Value.str text, ({} : Bits)))
          (reads_text 4 (by decide))
  | @longstr text hn =>
      refine ⟨sized 4 (Utf8.encode text), fun d => ?_, fun b => ?_⟩
      · simp [dumpsStep, dumpsField, writeText_ok 4 text (four_octets hn)]
      · exact Reads.bind_pure (fun text => (Value.str text, ({} : Bits)))
          (reads_text 4 (four_octets hn))
  | noTable =>
      have htable : (Value.dict []).Encodable := by
        simp [encodable_dict, Assoc.keys, writeEntries]
      refine ⟨tableOctets [], fun d => ?_, fun b => ?_⟩
      · simp [dumpsStep, dumpsField, Value.orElse, Value.truthy, writeTable_ok htable]
      · exact Reads.bind_pure (fun table => (Value.dict table, ({} : Bits)))
          (reads_tableOctets htable)
  | @table entries htable =>
      refine ⟨tableOctets entries, fun d => ?_, fun b => ?_⟩
      · simp [dumpsStep, dumpsField, writeTable_ok htable]
      · exact Reads.bind_pure (fun table => (Value.dict table, ({} : Bits)))
          (reads_tableOctets htable)

/-! Bits -/

/-- A bit below the bits that follow it. -/
private theorem ofNat_bit_or (bit rest shift : Nat) (hbit : bit < 2) :
    UInt8.ofNat (bit <<< shift) ||| UInt8.ofNat (rest <<< (shift + 1)) =
      UInt8.ofNat ((bit + 2 * rest) <<< shift) := by
  have hsum : bit + 2 * rest = rest <<< 1 ||| bit := by
    rw [← Nat.shiftLeft_add_eq_or_of_lt (by omega), Nat.shiftLeft_eq]
    omega
  rw [← UInt8.ofNat_or, hsum, Nat.shiftLeft_or_distrib, ← Nat.shiftLeft_add, Nat.or_comm,
    Nat.add_comm 1 shift]

/-- What the encoder writes for the rest of the format, and how the decoder reads it:
`rest` are the bits still to come in the octet the encoder has open, which has room
for `8 - d.bitcount % 8` of them, and `tail` the octets after it. -/
private def LoopOk (format : List Char) (values : List Value) (d : Dumper) : Prop :=
  ∃ d' rest tail, dumpsLoop format values d = .ok d' ∧
    rest < 2 ^ (8 - d.bitcount % 8) ∧ (d.bitcount % 8 = 0 → rest = 0) ∧
    d'.flushbits.out =
      d.out ++ orLast d.bits (UInt8.ofNat (rest <<< (d.bitcount % 8))) ++ tail ∧
    Reads (loadsLoop format { bitcount := (8 - d.bitcount % 8) % 8, bits := rest }) tail
      (List.zipWith argumentBack format values)

private theorem loopOk_field {p : Char} {v : Value} {format : List Char} {values : List Value}
    (h : InRange p v) (hp : p ≠ 'b') (ih : ∀ d : Dumper, d.bitcount = 0 → d.bits = [] →
      LoopOk format values d) (d : Dumper) :
    LoopOk (p :: format) (v :: values) d := by
  obtain ⟨octets, hwrite, hread⟩ := field_ok h hp
  obtain ⟨d', rest, tail, hloop, -, hrest, hout, hreads⟩ :=
    ih (d.flushbits.write octets) rfl rfl
  obtain rfl := hrest rfl
  refine ⟨d', 0, octets ++ tail, ?_, by positivity, fun _ => rfl, ?_, ?_⟩
  · simp [dumpsLoop, hwrite, hloop]
  · have hbits : (d.flushbits.write octets).bits = [] := rfl
    rw [hout, hbits, orLast_zero, orLast_zero]
    simp [Dumper.write, Dumper.flushbits]
  · have hcount : (8 - (d.flushbits.write octets).bitcount % 8) % 8 = 0 := by
      simp [Dumper.write, Dumper.flushbits]
    rw [hcount] at hreads
    exact (hread _).bind (Reads.bind_pure (fun values => argumentBack p v :: values) hreads)

theorem reads_bit_left {b : Bits} (h : b.bitcount ≠ 0) :
    Reads (loadsStep 'b' b) []
      (.bool (b.bits &&& 1 = 1), { bitcount := b.bitcount - 1, bits := b.bits >>> 1 }) := by
  simpa [loadsStep, h] using Reads.pure _

theorem reads_bit_fetched {b : Bits} (h : b.bitcount = 0) (octet : UInt8) :
    Reads (loadsStep 'b' b) [octet]
      (.bool (octet.toNat &&& 1 = 1), { bitcount := 7, bits := octet.toNat >>> 1 }) := by
  have hord : Reads (Cursor.liftExcept (ord [octet]) : Reader Nat) [] octet.toNat :=
    Reads.liftExcept rfl
  have hfetch := Reads.bind (k := fun octets => Cursor.liftExcept (ord octets))
    (Reads.slice (rfl : [octet].length = 1)) hord
  have hbit := Reads.bind_pure (fun bits => (Value.bool (bits &&& 1 = 1),
    ({ bitcount := 7, bits := bits >>> 1 } : Bits))) hfetch
  simpa [loadsStep, h] using hbit

/-- One bit: the encoder opens an octet where none is open, the decoder fetches one
where none is left. -/
private theorem loopOk_bit {v : Value} {format : List Char} {values : List Value}
    (ih : ∀ d : Dumper, (d.bitcount % 8 ≠ 0 → d.bits ≠ []) → LoopOk format values d)
    (d : Dumper) (hd : d.bitcount % 8 ≠ 0 → d.bits ≠ []) :
    LoopOk ('b' :: format) (v :: values) d := by
  obtain ⟨bit, hbit⟩ : ∃ bit : Nat, (if v.truthy then 1 else 0) = bit := ⟨_, rfl⟩
  have hlt : bit < 2 := by
    rw [← hbit]
    split <;> omega
  have hvalue : ∀ rest, Value.bool ((bit + 2 * rest) &&& 1 = 1) = argumentBack 'b' v := by
    intro rest
    have hmod : (bit + 2 * rest) &&& 1 = bit := by
      rw [Nat.and_one_is_mod]
      omega
    rw [hmod, ← hbit]
    simp [argumentBack]
  have hshifted : ∀ rest, (bit + 2 * rest) >>> 1 = rest := by
    intro rest
    rw [Nat.shiftRight_eq_div_pow]
    omega
  by_cases hopen : d.bitcount % 8 = 0
  · obtain ⟨d', rest, tail, hloop, hrest, -, hout, hreads⟩ :=
      ih { d with bitcount := d.bitcount + 1, bits := d.bits ++ [UInt8.ofNat bit] }
        (fun _ => by simp)
    have hshift : (d.bitcount + 1) % 8 = 1 := by omega
    simp only [hshift, orLast_append] at hrest hout hreads
    have hoctet := ofNat_bit_or bit rest 0 hlt
    simp only [Nat.shiftLeft_zero, Nat.zero_add] at hoctet
    have hfit : bit + 2 * rest < UInt8.size := by
      simp only [Nat.reduceSub, Nat.reducePow] at hrest
      simp only [UInt8.size]
      omega
    refine ⟨d', 0, UInt8.ofNat (bit + 2 * rest) :: tail, ?_, by positivity, fun _ => rfl,
      ?_, ?_⟩
    · simp [dumpsLoop, dumpsStep, hopen, hbit, orLast_append, hloop]
    · rw [hout, hoctet, orLast_zero]
      simp
    · have hfirst := reads_bit_fetched (b := { bitcount := (8 - d.bitcount % 8) % 8 })
        (by simp [hopen]) (UInt8.ofNat (bit + 2 * rest))
      rw [UInt8.toNat_ofNat_of_lt' hfit, hvalue, hshifted] at hfirst
      exact hfirst.bind (Reads.bind_pure (fun values => argumentBack 'b' v :: values) hreads)
  · obtain ⟨d', rest, tail, hloop, hrest, hzero, hout, hreads⟩ :=
      ih { d with
        bitcount := d.bitcount + 1
        bits := orLast d.bits (UInt8.ofNat (bit <<< (d.bitcount % 8))) }
        (fun _ => orLast_ne_nil (hd hopen) _)
    have hnext : rest <<< ((d.bitcount + 1) % 8) = rest <<< (d.bitcount % 8 + 1) := by
      by_cases hlastBit : (d.bitcount + 1) % 8 = 0
      · rw [hzero hlastBit, Nat.zero_shiftLeft, Nat.zero_shiftLeft]
      · have hmod : (d.bitcount + 1) % 8 = d.bitcount % 8 + 1 := by omega
        rw [hmod]
    have hroom : bit + 2 * rest < 2 ^ (8 - d.bitcount % 8) := by
      by_cases hlastBit : (d.bitcount + 1) % 8 = 0
      · have hone : 8 - d.bitcount % 8 = 1 := by omega
        rw [hone, hzero hlastBit]
        omega
      · have hsucc : 8 - d.bitcount % 8 = 8 - (d.bitcount + 1) % 8 + 1 := by omega
        rw [hsucc, Nat.pow_succ]
        simp only at hrest
        omega
    refine ⟨d', bit + 2 * rest, tail, ?_, hroom, fun h => absurd h hopen, ?_, ?_⟩
    · simp [dumpsLoop, dumpsStep, hopen, hbit, hloop]
    · rw [hout, orLast_orLast, hnext, ofNat_bit_or bit rest _ hlt]
    · have hfirst := reads_bit_left
        (b := { bitcount := (8 - d.bitcount % 8) % 8, bits := bit + 2 * rest })
        (by simp only; omega)
      have hcount : (8 - d.bitcount % 8) % 8 - 1 = (8 - (d.bitcount + 1) % 8) % 8 := by omega
      simp only [hvalue, hshifted, hcount] at hfirst
      exact hfirst.bind (Reads.bind_pure (fun values => argumentBack 'b' v :: values) hreads)

/-- The induction over the format carries the bits of the octet both sides are in. -/
private theorem loop_ok {format : List Char} {values : List Value}
    (h : List.Forall₂ InRange format values) (d : Dumper)
    (hd : d.bitcount % 8 ≠ 0 → d.bits ≠ []) : LoopOk format values d := by
  induction h generalizing d with
  | nil =>
      refine ⟨d, 0, [], rfl, by positivity, fun _ => rfl, ?_, Reads.pure _⟩
      rw [orLast_zero]
      simp [Dumper.flushbits]
  | @cons p v format values hfirst _ ih =>
      by_cases hp : p = 'b'
      · subst hp
        exact loopOk_bit ih d hd
      · exact loopOk_field hfirst hp (fun d hcount _ => ih d (by simp [hcount])) d

/-- The octets that `dumps` writes, `loads` reads back, wherever they stand. -/
theorem dumps_reads {format : List Char} {values : List Value}
    (h : List.Forall₂ InRange format values) :
    ∃ octets, dumps format values = .ok octets ∧
      Reads (loads format) octets (List.zipWith argumentBack format values) := by
  obtain ⟨d', rest, tail, hloop, -, hzero, hout, hreads⟩ := loop_ok h {} (fun h => absurd rfl h)
  obtain rfl := hzero rfl
  refine ⟨tail, ?_, hreads⟩
  rw [orLast_zero] at hout
  simp only [dumps, hloop, ok_bind, hout]
  rfl

/-- The arguments of a method survive `dumps` and `loads` for every signature over the
library's letters: at any place in a buffer the decoder takes exactly the octets of the
arguments and returns the same values. -/
theorem loads_dumps {format : List Char} {values : List Value}
    (h : List.Forall₂ InRange format values) :
    ∃ octets values', dumps format values = .ok octets ∧
      List.Forall₂ (fun arg u => ArgumentBack arg.1 arg.2 u) (format.zip values) values' ∧
      ∀ before after : Octets,
        loads format (before ++ octets ++ after) before.length =
          .ok (values', before.length + octets.length) := by
  obtain ⟨d', rest, tail, hloop, -, hzero, hout, hreads⟩ := loop_ok h {} (fun h => absurd rfl h)
  obtain rfl := hzero rfl
  refine ⟨tail, List.zipWith argumentBack format values, ?_, ?_, hreads⟩
  · rw [orLast_zero] at hout
    simp only [dumps, hloop, ok_bind]
    rw [hout]
    rfl
  · clear hloop hout hreads
    induction h with
    | nil => exact .nil
    | cons hfirst _ ih => exact .cons (argumentBack_spec hfirst) ih

theorem loads_dumps_mixed :
    ∃ octets values',
      dumps ['b', 'b', 's', 'b', 'F'] [.bool true, .int 0, .none, .str [65], .dict []] =
        .ok octets ∧
      List.Forall₂ (fun arg u => ArgumentBack arg.1 arg.2 u)
        (['b', 'b', 's', 'b', 'F'].zip [.bool true, .int 0, .none, .str [65], .dict []])
        values' ∧
      ∀ before after : Octets,
        loads ['b', 'b', 's', 'b', 'F'] (before ++ octets ++ after) before.length =
          .ok (values', before.length + octets.length) :=
  loads_dumps (.cons (.bit _) (.cons (.bit _) (.cons .noShortstr (.cons (.bit _)
    (.cons (.table (by decide)) .nil)))))

end PyAmqp
