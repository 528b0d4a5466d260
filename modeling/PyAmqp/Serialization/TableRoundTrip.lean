import PyAmqp.Serialization.Fields
import Mathlib.Tactic.FieldSimp

/-!
What `loads` makes of the tables `dumps` writes. `Encodable` is the domain of the
table codec and `ReadBack` what a value of it comes back as.
-/

namespace PyAmqp

open Cursor

/-! Decimals and dates -/

namespace Decimal

theorem shed_value (coefficient places : Nat) :
    ((shed coefficient places).1 : ℚ) * 10 ^ (-((shed coefficient places).2 : Int)) =
      (coefficient : ℚ) * 10 ^ (-(places : Int)) := by
  induction places generalizing coefficient with
  | zero => simp [shed]
  | succ places ih =>
      unfold shed
      by_cases h : coefficient % 10 = 0
      · rw [if_pos h, ih]
        obtain ⟨m, rfl⟩ := Nat.dvd_of_mod_eq_zero h
        rw [Nat.mul_div_cancel_left m (by omega)]
        have hten : (10 : ℚ) ≠ 0 := by norm_num
        simp only [zpow_neg, zpow_natCast, pow_succ, Nat.cast_mul, Nat.cast_ofNat]
        field_simp
      · rw [if_neg h]

/-- Dividing by a power of ten moves the exponent and nothing else. -/
theorem divPow10_value (n : Int) (places : Nat) :
    (divPow10 n places).value = some ((n : ℚ) * 10 ^ (-(places : Int))) := by
  have hshed := shed_value n.natAbs places
  unfold divPow10
  simp only [value, Option.some.injEq]
  by_cases hn : n < 0
  · have habs : ((n.natAbs : Nat) : ℚ) = -(n : ℚ) := by
      rw [Nat.cast_natAbs, abs_of_neg hn, Int.cast_neg]
    simp only [hn, decide_true, signed, if_true, Int.cast_neg, Int.cast_natCast, neg_mul]
    rw [hshed, habs]
    ring
  · have habs : ((n.natAbs : Nat) : ℚ) = (n : ℚ) := by
      rw [Nat.cast_natAbs, abs_of_nonneg (not_lt.mp hn)]
    simp only [hn, decide_false, signed]
    rw [← habs, ← hshed]
    simp

end Decimal

namespace DateTime

/-- The instant of `t` on the UTC clock, without its microseconds. -/
def truncated (t : DateTime) (hlow : 0 ≤ t.utcMicros)
    (hhigh : t.utcMicros < 253402300800000000) : DateTime where
  micros := t.utcMicros / 1000000 * 1000000
  utcoffset := none
  low := by omega
  high := by omega

theorem fromtimestamp_timegm (t : DateTime) (hlow : 0 ≤ t.utcMicros)
    (hhigh : t.utcMicros < 253402300800000000) :
    fromtimestamp (t.utcMicros / 1000000).toNat = .ok (t.truncated hlow hhigh) := by
  have hlt : (t.utcMicros / 1000000).toNat < 253402300800 := by omega
  simp only [fromtimestamp, dif_pos hlt, truncated]
  congr 2
  omega

end DateTime

/-! The domain of the table codec -/

mutual

/-- The values a table may hold. A date is taken as an instant: from 1970-01-01 to
the end of the year 9999, UTC. -/
def Value.Encodable : Value → Prop
  | .str text => (Utf8.encode text).length < 2 ^ 32
  | .bytes octets => octets.length < 2 ^ 32
  | .int i => -2 ^ 63 ≤ i ∧ i < 2 ^ 63
  | .decimal (.finite negative coefficient exponent) =>
      -255 ≤ exponent ∧ exponent ≤ 0 ∧
        -2 ^ 31 ≤ Decimal.signed negative coefficient ∧
        Decimal.signed negative coefficient < 2 ^ 31
  | .datetime t => 0 ≤ t.utcMicros ∧ t.utcMicros < 253402300800000000
  | .dict entries =>
      EntriesEncodable entries ∧ (Assoc.keys entries).Nodup ∧
        ∀ data, writeEntries entries = .ok data → data.length < 2 ^ 32
  | .list items | .tuple items =>
      ItemsEncodable items ∧ ∀ data, writeElements items = .ok data → data.length < 2 ^ 32
  | .none | .bool _ | .float _ => True
  | .decimal _ | .other _ _ => False

def EntriesEncodable : List (PyStr × Value) → Prop
  | [] => True
  | (key, value) :: rest =>
      (Utf8.encode key).length ≤ 255 ∧ value.Encodable ∧ EntriesEncodable rest

def ItemsEncodable : List Value → Prop
  | [] => True
  | value :: rest => value.Encodable ∧ ItemsEncodable rest

end

instance (written : Except PyError Octets) (size : Nat) :
    Decidable (∀ data, written = .ok data → data.length < size) :=
  match written with
  | .ok data => decidable_of_iff (data.length < size) (by simp)
  | .error _ => isTrue (by simp)

mutual

def Value.decEncodable : (v : Value) → Decidable v.Encodable
  | .str text => decidable_of_iff ((Utf8.encode text).length < 2 ^ 32) (by rw [Value.Encodable])
  | .bytes octets => decidable_of_iff (octets.length < 2 ^ 32) (by rw [Value.Encodable])
  | .int i => decidable_of_iff (-2 ^ 63 ≤ i ∧ i < 2 ^ 63) (by rw [Value.Encodable])
  | .decimal (.finite negative coefficient exponent) =>
      decidable_of_iff (-255 ≤ exponent ∧ exponent ≤ 0 ∧
        -2 ^ 31 ≤ Decimal.signed negative coefficient ∧
        Decimal.signed negative coefficient < 2 ^ 31) (by rw [Value.Encodable])
  | .decimal (.infinite _) => isFalse (by simp [Value.Encodable])
  | .decimal (.nan _ _ _) => isFalse (by simp [Value.Encodable])
  | .datetime t =>
      decidable_of_iff (0 ≤ t.utcMicros ∧ t.utcMicros < 253402300800000000)
        (by rw [Value.Encodable])
  | .dict entries =>
      have := decEntriesEncodable entries
      decidable_of_iff (EntriesEncodable entries ∧ (Assoc.keys entries).Nodup ∧
        ∀ data, writeEntries entries = .ok data → data.length < 2 ^ 32)
        (by rw [Value.Encodable])
  | .list items =>
      have := decItemsEncodable items
      decidable_of_iff (ItemsEncodable items ∧
        ∀ data, writeElements items = .ok data → data.length < 2 ^ 32) (by rw [Value.Encodable])
  | .tuple items =>
      have := decItemsEncodable items
      decidable_of_iff (ItemsEncodable items ∧
        ∀ data, writeElements items = .ok data → data.length < 2 ^ 32) (by rw [Value.Encodable])
  | .none => isTrue (by simp [Value.Encodable])
  | .bool _ => isTrue (by simp [Value.Encodable])
  | .float _ => isTrue (by simp [Value.Encodable])
  | .other _ _ => isFalse (by simp [Value.Encodable])

def decEntriesEncodable : (entries : List (PyStr × Value)) → Decidable (EntriesEncodable entries)
  | [] => isTrue (by simp [EntriesEncodable])
  | (key, value) :: rest =>
      have := value.decEncodable
      have := decEntriesEncodable rest
      decidable_of_iff ((Utf8.encode key).length ≤ 255 ∧ value.Encodable ∧ EntriesEncodable rest)
        (by rw [EntriesEncodable])

def decItemsEncodable : (items : List Value) → Decidable (ItemsEncodable items)
  | [] => isTrue (by simp [ItemsEncodable])
  | value :: rest =>
      have := value.decEncodable
      have := decItemsEncodable rest
      decidable_of_iff (value.Encodable ∧ ItemsEncodable rest) (by rw [ItemsEncodable])

end

instance : DecidablePred Value.Encodable := Value.decEncodable

mutual

/-- What a value of a table comes back as: bytes that are text come back as text,
tuples as lists, a decimal by its numeric value, a date as naive UTC truncated to
seconds, and everything else as it was. -/
def Value.ReadBack : Value → Value → Prop
  | .bytes octets, u =>
      match Utf8.decode octets with
      | some text => u = .str text
      | none => u = .bytes octets
  | .decimal d, u => ∃ d', u = .decimal d' ∧ d'.value = d.value
  | .datetime t, u =>
      ∃ t', u = .datetime t' ∧ t'.utcoffset = none ∧
        t'.micros = t.utcMicros / 1000000 * 1000000
  | .dict entries, u => ∃ entries', u = .dict entries' ∧ EntriesReadBack entries entries'
  | .list items, u | .tuple items, u => ∃ items', u = .list items' ∧ ItemsReadBack items items'
  | v, u => u = v

def EntriesReadBack : List (PyStr × Value) → List (PyStr × Value) → Prop
  | [], entries' => entries' = []
  | (key, value) :: rest, entries' =>
      ∃ value' rest', entries' = (key, value') :: rest' ∧ value.ReadBack value' ∧
        EntriesReadBack rest rest'

def ItemsReadBack : List Value → List Value → Prop
  | [], items' => items' = []
  | value :: rest, items' =>
      ∃ value' rest', items' = value' :: rest' ∧ value.ReadBack value' ∧
        ItemsReadBack rest rest'

end

mutual

/-- The value the decoder returns for `v`. -/
def Value.readBack : Value → Value
  | .bytes octets => strOrBytes octets
  | .decimal (.finite negative coefficient exponent) =>
      .decimal (Decimal.divPow10 (Decimal.signed negative coefficient) (-exponent).toNat)
  | .datetime t =>
      match DateTime.fromtimestamp (t.utcMicros / 1000000).toNat with
      | .ok t' => .datetime t'
      | .error _ => .datetime t
  | .dict entries => .dict (readBackEntries entries)
  | .list items | .tuple items => .list (readBackItems items)
  | v => v

def readBackEntries : List (PyStr × Value) → List (PyStr × Value)
  | [] => []
  | (key, value) :: rest => (key, value.readBack) :: readBackEntries rest

def readBackItems : List Value → List Value
  | [] => []
  | value :: rest => value.readBack :: readBackItems rest

end

theorem readBackEntries_eq (entries : List (PyStr × Value)) :
    readBackEntries entries = entries.map fun entry => (entry.1, entry.2.readBack) := by
  induction entries with
  | nil => rfl
  | cons entry rest ih => simp [readBackEntries, ih]

theorem readBackItems_eq (items : List Value) :
    readBackItems items = items.map Value.readBack := by
  induction items with
  | nil => rfl
  | cons value rest ih => simp [readBackItems, ih]

theorem entriesEncodable_iff (entries : List (PyStr × Value)) :
    EntriesEncodable entries ↔
      ∀ entry ∈ entries, (Utf8.encode entry.1).length ≤ 255 ∧ entry.2.Encodable := by
  induction entries with
  | nil => simp [EntriesEncodable]
  | cons entry rest ih => simp [EntriesEncodable, ih, and_assoc]

theorem itemsEncodable_iff (items : List Value) :
    ItemsEncodable items ↔ ∀ value ∈ items, value.Encodable := by
  induction items with
  | nil => simp [ItemsEncodable]
  | cons value rest ih => simp [ItemsEncodable, ih]

theorem encodable_dict (entries : List (PyStr × Value)) :
    (Value.dict entries).Encodable ↔
      (∀ entry ∈ entries, (Utf8.encode entry.1).length ≤ 255 ∧ entry.2.Encodable) ∧
        (Assoc.keys entries).Nodup ∧
        ∀ data, writeEntries entries = .ok data → data.length < 2 ^ 32 := by
  rw [Value.Encodable, entriesEncodable_iff]

theorem encodable_list (items : List Value) :
    (Value.list items).Encodable ↔ (∀ value ∈ items, value.Encodable) ∧
      ∀ data, writeElements items = .ok data → data.length < 2 ^ 32 := by
  rw [Value.Encodable, itemsEncodable_iff]

theorem encodable_tuple (items : List Value) :
    (Value.tuple items).Encodable ↔ (∀ value ∈ items, value.Encodable) ∧
      ∀ data, writeElements items = .ok data → data.length < 2 ^ 32 := by
  rw [Value.Encodable, itemsEncodable_iff]

/-- The domain is closed under taking apart. -/
theorem Value.Encodable.children {v : Value} (h : v.Encodable) :
    ∀ u ∈ v.children, u.Encodable := by
  cases v with
  | dict entries =>
      intro u hu
      obtain ⟨entry, hentry, rfl⟩ := List.mem_map.mp hu
      exact (((encodable_dict entries).mp h).1 entry hentry).2
  | list items => exact ((encodable_list items).mp h).1
  | tuple items => exact ((encodable_tuple items).mp h).1
  | _ => simp [Value.children]

private theorem entries_readBack (entries : List (PyStr × Value))
    (h : ∀ entry ∈ entries, entry.2.ReadBack entry.2.readBack) :
    EntriesReadBack entries (readBackEntries entries) := by
  induction entries with
  | nil => rfl
  | cons entry rest ih =>
      exact ⟨_, _, rfl, h entry (by simp), ih fun e he => h e (by simp [he])⟩

private theorem items_readBack (items : List Value)
    (h : ∀ value ∈ items, value.ReadBack value.readBack) :
    ItemsReadBack items (readBackItems items) := by
  induction items with
  | nil => rfl
  | cons value rest ih =>
      exact ⟨_, _, rfl, h value (by simp), ih fun v hv => h v (by simp [hv])⟩

theorem Value.readBack_spec (v : Value) (h : v.Encodable) : v.ReadBack v.readBack := by
  induction v using Value.inductionOn with
  | h v ih =>
    have hchildren := fun u hu => ih u hu (h.children u hu)
    cases v with
    | bytes octets =>
        simp only [Value.ReadBack, Value.readBack, strOrBytes]
        cases Utf8.decode octets <;> rfl
    | decimal d =>
        cases d with
        | finite negative coefficient exponent =>
            refine ⟨_, rfl, ?_⟩
            have hexponent : -((-exponent).toNat : Int) = exponent := by
              have := h.2.1
              omega
            rw [Decimal.divPow10_value, hexponent]
            rfl
        | _ => exact h.elim
    | datetime t =>
        simp only [Value.readBack, DateTime.fromtimestamp_timegm t h.1 h.2]
        exact ⟨_, rfl, rfl, rfl⟩
    | dict entries =>
        refine ⟨_, rfl, entries_readBack entries fun entry hentry => ?_⟩
        exact hchildren entry.2 (List.mem_map_of_mem hentry)
    | list items => exact ⟨_, rfl, items_readBack items hchildren⟩
    | tuple items => exact ⟨_, rfl, items_readBack items hchildren⟩
    | _ => rfl

/-- `v` is written, and its octets are read back as `u` wherever they stand. -/
def RoundTrips (v u : Value) : Prop :=
  ∃ octets, writeItem v = .ok octets ∧ octets ≠ [] ∧
    ∀ depth, octets.length < depth → Reads (readItemWithin depth) octets u

/-- A type code and a body read by the branch of that code. The branch may use a
reader for values that are shorter than the whole. -/
private theorem roundTrips_of_field {v u : Value} (c : Char) (body : Octets)
    (hc : Char.ofNat (code c).toNat = c) (hwrite : writeItem v = .ok (code c :: body))
    (hread : ∀ depth, body.length < depth → Reads (readField (readItemWithin depth) c) body u) :
    RoundTrips v u := by
  refine ⟨code c :: body, hwrite, by simp, fun depth hdepth => ?_⟩
  obtain ⟨depth, rfl⟩ := Nat.exists_eq_succ_of_ne_zero (by omega : depth ≠ 0)
  simp only [List.length_cons] at hdepth
  have hfield := hread depth (by omega)
  rw [← hc] at hfield
  exact (Reads.index _ (code c)).bind
    (k := fun octet => readField (readItemWithin depth) (Char.ofNat octet.toNat)) hfield

private theorem roundTrips_string {v : Value} {octets : Octets}
    (hwrite : writeItem v = .ok (code 'S' :: sized 4 octets)) (h : octets.length < 2 ^ 32) :
    RoundTrips v (strOrBytes octets) :=
  roundTrips_of_field 'S' _ (by decide) hwrite fun _ _ =>
    Reads.bind_pure strOrBytes (reads_sized 4 (four_octets h))

private theorem roundTrips_int {i : Int} (hlow : -2 ^ 63 ≤ i) (hhigh : i < 2 ^ 63) :
    RoundTrips (.int i) (.int i) := by
  by_cases hlong : i > 2147483647 ∨ i < -2147483647
  · have hpack : packSigned 8 i = .ok (BigEndian.encodeInt 8 i) := by
      rw [packSigned, if_pos (by omega)]
    refine roundTrips_of_field 'L' (BigEndian.encodeInt 8 i) (by decide) ?_ fun _ _ =>
      Reads.bind_pure Value.int (reads_unpackSigned 8 (by omega) (by omega))
    simp [writeItem, hlong, hpack]
  · have hpack : packSigned 4 i = .ok (BigEndian.encodeInt 4 i) := by
      rw [packSigned, if_pos (by omega)]
    refine roundTrips_of_field 'I' (BigEndian.encodeInt 4 i) (by decide) ?_ fun _ _ =>
      Reads.bind_pure Value.int (reads_unpackSigned 4 (by omega) (by omega))
    simp [writeItem, hlong, hpack]

private theorem roundTrips_bool (b : Bool) : RoundTrips (.bool b) (.bool b) := by
  have hword : [if b then (1 : UInt8) else 0] = BigEndian.encode 1 b.toNat := by
    cases b <;> decide
  have hread := Reads.bind_pure (fun n : Nat => Value.bool (n ≠ 0))
    (reads_unpackFrom 1 (n := b.toNat) (by cases b <;> decide))
  refine roundTrips_of_field 't' (BigEndian.encode 1 b.toNat) (by decide) ?_ fun _ _ => ?_
  · simp [writeItem, ← hword]
  · cases b <;> exact hread

private theorem roundTrips_float (bits : UInt64) : RoundTrips (.float bits) (.float bits) := by
  have hlt : bits.toNat < 256 ^ 8 := bits.toNat_lt
  have hread := Reads.bind_pure (fun n => Value.float (UInt64.ofNat n)) (reads_unpackFrom 8 hlt)
  rw [UInt64.ofNat_toNat] at hread
  exact roundTrips_of_field 'd' (BigEndian.encode 8 bits.toNat) (by decide) rfl fun _ _ => hread

private theorem roundTrips_decimal {negative : Bool} {coefficient : Nat} {exponent : Int}
    (hplaces : -255 ≤ exponent) (hexponent : exponent ≤ 0)
    (hlow : -2 ^ 31 ≤ Decimal.signed negative coefficient)
    (hhigh : Decimal.signed negative coefficient < 2 ^ 31) :
    RoundTrips (.decimal (.finite negative coefficient exponent))
      (.decimal (Decimal.divPow10 (Decimal.signed negative coefficient) (-exponent).toNat)) := by
  have hpack : pack 1 (-exponent) = .ok (BigEndian.encode 1 (-exponent).toNat) :=
    pack_ok (by omega) (by omega)
  have hsigned : packSigned 4 (Decimal.signed negative coefficient) =
      .ok (BigEndian.encodeInt 4 (Decimal.signed negative coefficient)) := by
    rw [packSigned, if_pos (by omega)]
  refine roundTrips_of_field 'D' (BigEndian.encode 1 (-exponent).toNat ++
    BigEndian.encodeInt 4 (Decimal.signed negative coefficient)) (by decide) ?_ fun _ _ => ?_
  · simp [writeItem, Decimal.asTuple, Decimal.foldl_digits, hpack, hsigned]
  · refine (reads_unpackFrom 1 (by omega)).bind ?_
    exact Reads.bind_pure (fun n => Value.decimal (Decimal.divPow10 n (-exponent).toNat))
      (reads_unpackSigned 4 (by omega) (by omega))

private theorem roundTrips_datetime {t : DateTime} (hlow : 0 ≤ t.utcMicros)
    (hhigh : t.utcMicros < 253402300800000000) :
    RoundTrips (.datetime t) (.datetime (t.truncated hlow hhigh)) := by
  have htimegm : t.timegm = .ok (t.utcMicros / 1000000) := by
    rw [DateTime.timegm, if_pos (by omega)]
  have hpack : pack 8 (t.utcMicros / 1000000) =
      .ok (BigEndian.encode 8 (t.utcMicros / 1000000).toNat) :=
    pack_ok (by omega) (by omega)
  have hread := (reads_unpackFrom 8 (n := (t.utcMicros / 1000000).toNat) (by omega)).bind
    (k := fun seconds => Cursor.liftExcept (DateTime.fromtimestamp seconds))
    (Reads.liftExcept (DateTime.fromtimestamp_timegm t hlow hhigh))
  have hdate := Reads.bind_pure Value.datetime hread
  refine roundTrips_of_field 'T' (BigEndian.encode 8 (t.utcMicros / 1000000).toNat)
    (by decide) ?_ fun _ _ => ?_
  · simp [writeItem, htimegm, hpack]
  · simpa [readField, bind_assoc] using hdate

/-! Containers -/

def itemOctets (v : Value) : Octets :=
  match writeItem v with
  | .ok octets => octets
  | .error _ => []

def entryOctets (entry : PyStr × Value) : Octets :=
  sized 1 (Utf8.encode entry.1) ++ itemOctets entry.2

theorem RoundTrips.writeItem_eq {v u : Value} (h : RoundTrips v u) :
    writeItem v = .ok (itemOctets v) := by
  obtain ⟨octets, hwrite, -⟩ := h
  simp [itemOctets, hwrite]

theorem RoundTrips.itemOctets_ne_nil {v u : Value} (h : RoundTrips v u) :
    itemOctets v ≠ [] := by
  obtain ⟨octets, hwrite, hne, -⟩ := h
  simpa [itemOctets, hwrite] using hne

theorem RoundTrips.reads {v u : Value} (h : RoundTrips v u) {depth : Nat}
    (hdepth : (itemOctets v).length < depth) :
    Reads (readItemWithin depth) (itemOctets v) u := by
  obtain ⟨octets, hwrite, -, hread⟩ := h
  simp only [itemOctets, hwrite] at hdepth ⊢
  exact hread depth hdepth

theorem writeEntries_ok (entries : List (PyStr × Value))
    (hkey : ∀ entry ∈ entries, (Utf8.encode entry.1).length ≤ 255)
    (hitem : ∀ entry ∈ entries, writeItem entry.2 = .ok (itemOctets entry.2)) :
    writeEntries entries = .ok (entries.flatMap entryOctets) := by
  induction entries with
  | nil => rfl
  | cons entry rest ih =>
      obtain ⟨key, value⟩ := entry
      have hlength : (Utf8.encode key).length < 256 ^ 1 :=
        Nat.lt_of_le_of_lt (hkey (key, value) (by simp)) (by decide)
      have hsized := writeSized_ok 1 hlength
      have hvalue := hitem (key, value) (by simp)
      have hrest := ih (fun e he => hkey e (by simp [he])) fun e he => hitem e (by simp [he])
      simp only at hvalue
      simp [writeEntries, hsized, hvalue, hrest, orSyntaxError, entryOctets]

theorem writeElements_ok (items : List Value)
    (hitem : ∀ value ∈ items, writeItem value = .ok (itemOctets value)) :
    writeElements items = .ok (items.flatMap itemOctets) := by
  induction items with
  | nil => rfl
  | cons value rest ih =>
      have hrest := ih fun v hv => hitem v (by simp [hv])
      simp [writeElements, hitem value (by simp), hrest, orSyntaxError]

private theorem length_le_flatMap {α : Type} (f : α → Octets) {xs : List α} {x : α}
    (hx : x ∈ xs) : (f x).length ≤ (xs.flatMap f).length := by
  obtain ⟨before, after, rfl⟩ := List.append_of_mem hx
  simp only [List.flatMap_append, List.flatMap_cons, List.length_append]
  omega

/-- A table's octets are read back entry by entry, with any reader that reads the
entries' values. -/
theorem reads_table (item : Reader Value) (entries : List (PyStr × Value))
    (hkey : ∀ entry ∈ entries, (Utf8.encode entry.1).length ≤ 255)
    (hnodup : (Assoc.keys entries).Nodup)
    (hsize : (entries.flatMap entryOctets).length < 256 ^ 4)
    (hitem : ∀ entry ∈ entries, Reads item (itemOctets entry.2) entry.2.readBack) :
    Reads (readTable item) (sized 4 (entries.flatMap entryOctets))
      (readBackEntries entries) := by
  have hentry : ∀ entry ∈ entries, ∀ table, Reads (readEntry item table) (entryOctets entry)
      (Assoc.set table entry.1 entry.2.readBack) := by
    intro entry hmem table
    have hlength : (Utf8.encode entry.1).length < 256 ^ 1 :=
      Nat.lt_of_le_of_lt (hkey entry hmem) (by decide)
    exact (reads_text 1 hlength).bind
      (Reads.bind_pure (fun value => Assoc.set table entry.1 value) (hitem entry hmem))
  have hloop := Reads.within PyError.outOfFuel entryOctets
    (fun table entry => Assoc.set table entry.1 entry.2.readBack) []
    (fun entry _ => by simp [entryOctets, sized, BigEndian.encode]) hentry rfl
  have hfold : entries.foldl (fun table entry => Assoc.set table entry.1 entry.2.readBack) [] =
      readBackEntries entries := by
    have hkeys : Assoc.keys (readBackEntries entries) = Assoc.keys entries := by
      simp [readBackEntries_eq, Assoc.keys]
    have hset := Assoc.foldl_set_fresh [] (readBackEntries entries) (hkeys ▸ hnodup)
      (by simp [Assoc.keys])
    rwa [readBackEntries_eq, List.foldl_map, List.nil_append, ← readBackEntries_eq] at hset
  rw [hfold] at hloop
  exact (reads_unpackFrom 4 hsize).bind hloop

/-- An array's octets are read back element by element. -/
theorem reads_array (item : Reader Value) (items : List Value)
    (hne : ∀ value ∈ items, itemOctets value ≠ [])
    (hsize : (items.flatMap itemOctets).length < 256 ^ 4)
    (hitem : ∀ value ∈ items, Reads item (itemOctets value) value.readBack) :
    Reads (readArray item) (sized 4 (items.flatMap itemOctets)) (readBackItems items) := by
  have helement : ∀ value ∈ items, ∀ values,
      Reads (readElement item values) (itemOctets value) (values ++ [value.readBack]) :=
    fun value hmem values => Reads.bind_pure (fun u => values ++ [u]) (hitem value hmem)
  have hloop := Reads.within PyError.outOfFuel itemOctets
    (fun values value => values ++ [value.readBack]) [] hne helement rfl
  have hfold : ∀ start : List Value,
      items.foldl (fun values value => values ++ [value.readBack]) start =
        start ++ readBackItems items := by
    clear hne hsize hitem helement hloop
    induction items with
    | nil => simp [readBackItems]
    | cons value rest ih => simp [readBackItems, ih]
  rw [hfold, List.nil_append] at hloop
  exact (reads_unpackFrom 4 hsize).bind hloop

private theorem roundTrips_dict {entries : List (PyStr × Value)}
    (h : (Value.dict entries).Encodable)
    (hitems : ∀ entry ∈ entries, RoundTrips entry.2 entry.2.readBack) :
    RoundTrips (.dict entries) (.dict (readBackEntries entries)) := by
  obtain ⟨hentries, hnodup, hsize⟩ := (encodable_dict entries).mp h
  have hkey := fun entry hmem => (hentries entry hmem).1
  have hwrite := writeEntries_ok entries hkey fun entry hmem => (hitems entry hmem).writeItem_eq
  have hfit := four_octets (hsize _ hwrite)
  refine roundTrips_of_field 'F' (sized 4 (entries.flatMap entryOctets)) (by decide) ?_
    fun depth hdepth => Reads.bind_pure Value.dict (reads_table _ entries hkey hnodup hfit ?_)
  · simp [writeItem, hwrite, writeSized_ok 4 hfit]
  · intro entry hmem
    have hle := length_le_flatMap entryOctets hmem
    simp only [sized, entryOctets, List.length_append] at hdepth hle
    exact (hitems entry hmem).reads (by omega)

private theorem roundTrips_items {v : Value} {items : List Value}
    (hv : v = .list items ∨ v = .tuple items) (h : v.Encodable)
    (hitems : ∀ value ∈ items, RoundTrips value value.readBack) :
    RoundTrips v (.list (readBackItems items)) := by
  have hsize : ∀ data, writeElements items = .ok data → data.length < 2 ^ 32 := by
    rcases hv with rfl | rfl
    · exact ((encodable_list items).mp h).2
    · exact ((encodable_tuple items).mp h).2
  have hwrite := writeElements_ok items fun value hmem => (hitems value hmem).writeItem_eq
  have hfit := four_octets (hsize _ hwrite)
  have hne := fun value hmem => (hitems value hmem).itemOctets_ne_nil
  refine roundTrips_of_field 'A' (sized 4 (items.flatMap itemOctets)) (by decide) ?_
    fun depth hdepth => Reads.bind_pure Value.list (reads_array _ items hne hfit ?_)
  · rcases hv with rfl | rfl <;> simp [writeItem, hwrite, writeSized_ok 4 hfit]
  · intro value hmem
    have hle := length_le_flatMap itemOctets hmem
    simp only [sized, List.length_append] at hdepth
    exact (hitems value hmem).reads (by omega)

/-- Every value of the domain is written, and read back from its octets. The
induction is on nesting: a container rests on the round trips of its parts. -/
theorem roundTrips (v : Value) (h : v.Encodable) : RoundTrips v v.readBack := by
  induction v using Value.inductionOn with
  | h v ih =>
    have hchildren := fun u hu => ih u hu (h.children u hu)
    cases v with
    | none => exact roundTrips_of_field 'V' [] (by decide) rfl fun _ _ => Reads.pure _
    | bool b => exact roundTrips_bool b
    | int i => exact roundTrips_int h.1 h.2
    | float bits => exact roundTrips_float bits
    | str text =>
        have hwrite : writeItem (.str text) = .ok (code 'S' :: sized 4 (Utf8.encode text)) := by
          simp [writeItem, writeSized_ok 4 (four_octets h)]
        simpa [Value.readBack, strOrBytes] using roundTrips_string hwrite h
    | bytes octets =>
        exact roundTrips_string (by simp [writeItem, writeSized_ok 4 (four_octets h)]) h
    | decimal d =>
        cases d with
        | finite negative coefficient exponent =>
            exact roundTrips_decimal h.1 h.2.1 h.2.2.1 h.2.2.2
        | _ => exact h.elim
    | datetime t =>
        simp only [Value.readBack, DateTime.fromtimestamp_timegm t h.1 h.2]
        exact roundTrips_datetime h.1 h.2
    | dict entries =>
        exact roundTrips_dict h fun entry hmem => hchildren entry.2 (List.mem_map_of_mem hmem)
    | list items => exact roundTrips_items (.inl rfl) h hchildren
    | tuple items => exact roundTrips_items (.inr rfl) h hchildren
    | other cls repr => exact h.elim

theorem reads_readItem {v u : Value} (h : RoundTrips v u) : Reads readItem (itemOctets v) u := by
  intro before after
  exact h.reads (by simp only [List.length_append]; omega) before after

/-! Whole tables -/

def tableOctets (entries : List (PyStr × Value)) : Octets :=
  sized 4 (entries.flatMap entryOctets)

theorem writeEntries_encodable {entries : List (PyStr × Value)}
    (h : (Value.dict entries).Encodable) :
    writeEntries entries = .ok (entries.flatMap entryOctets) :=
  writeEntries_ok entries (fun entry hmem => (((encodable_dict entries).mp h).1 entry hmem).1)
    fun entry hmem =>
      (roundTrips entry.2 (h.children _ (List.mem_map_of_mem hmem))).writeItem_eq

theorem entries_fit {entries : List (PyStr × Value)} (h : (Value.dict entries).Encodable) :
    (entries.flatMap entryOctets).length < 256 ^ 4 :=
  four_octets (((encodable_dict entries).mp h).2.2 _ (writeEntries_encodable h))

theorem writeTable_ok {entries : List (PyStr × Value)} (h : (Value.dict entries).Encodable) :
    writeTable (.dict entries) = .ok (tableOctets entries) := by
  simp [writeTable, writeEntries_encodable h, writeSized_ok 4 (entries_fit h), tableOctets]

theorem reads_tableOctets {entries : List (PyStr × Value)} (h : (Value.dict entries).Encodable) :
    Reads (readTable readItem) (tableOctets entries) (readBackEntries entries) := by
  obtain ⟨hentries, hnodup, -⟩ := (encodable_dict entries).mp h
  exact reads_table readItem entries (fun entry hmem => (hentries entry hmem).1) hnodup
    (entries_fit h) fun entry hmem =>
      reads_readItem (roundTrips entry.2 (h.children _ (List.mem_map_of_mem hmem)))

@[simp] theorem orElse_dict (entries : List (PyStr × Value)) :
    (Value.dict entries).orElse (.dict []) = .dict entries := by
  cases entries <;> rfl

/-- A field table survives `dumps` and `loads`: at any place in a buffer the decoder
takes exactly the table's octets and returns its entries in order, each value as
`ReadBack` says. -/
theorem loads_dumps_table (entries : List (PyStr × Value))
    (h : (Value.dict entries).Encodable) :
    ∃ octets entries', dumps ['F'] [.dict entries] = .ok octets ∧
      EntriesReadBack entries entries' ∧
      ∀ before after : Octets,
        loads ['F'] (before ++ octets ++ after) before.length =
          .ok ([.dict entries'], before.length + octets.length) := by
  obtain ⟨entries', hback, hspec⟩ := Value.readBack_spec _ h
  obtain rfl : readBackEntries entries = entries' := Value.dict.inj hback
  refine ⟨tableOctets entries, _, ?_, hspec, ?_⟩
  · simp [dumps, dumpsLoop, dumpsStep, dumpsField, writeTable_ok h, Dumper.flushbits,
      Dumper.write]
  · have hfield := Reads.bind_pure (fun table => (Value.dict table, ({} : Bits)))
      (reads_tableOctets h)
    exact Reads.bind_pure (fun r : Value × Bits => [r.1]) hfield

theorem loads_dumps_table_nested :
    ∃ octets entries',
      dumps ['F'] [.dict [(PyStr.ofString "n", .list [.int (-2147483648), .tuple [.bool true]]),
        (PyStr.ofString "t", .dict [(PyStr.ofString "n", .bytes [0xff])])]] = .ok octets ∧
      EntriesReadBack
        [(PyStr.ofString "n", .list [.int (-2147483648), .tuple [.bool true]]),
          (PyStr.ofString "t", .dict [(PyStr.ofString "n", .bytes [0xff])])] entries' ∧
      ∀ before after : Octets,
        loads ['F'] (before ++ octets ++ after) before.length =
          .ok ([.dict entries'], before.length + octets.length) :=
  loads_dumps_table _ (by decide)

end PyAmqp
