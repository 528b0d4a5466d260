import PyAmqp.Serialization.Loads

/-!
The values that come out of the table decoder, whatever octets went in: the image of the
19 type codes of `_read_item`.
-/

namespace PyAmqp

/-- A value that `_read_item` may return. Text and keys are as long as their length field
can say, and a table has a key once. -/
inductive Value.Received : Value → Prop
  | none : Received .none
  | bool (b : Bool) : Received (.bool b)
  | float (bits : UInt64) : Received (.float bits)
  | int {i : Int} : -2 ^ 63 ≤ i → i < 2 ^ 64 → Received (.int i)
  | str {text : PyStr} : (Utf8.encode text).length < 2 ^ 32 → Received (.str text)
  | bytes {octets : Octets} : octets.length < 2 ^ 32 → Received (.bytes octets)
  | decimal {n : Int} {places : Nat} : -2 ^ 31 ≤ n → n < 2 ^ 31 → places < 256 →
      Received (.decimal (Decimal.divPow10 n places))
  | datetime {seconds : Nat} {t : DateTime} : DateTime.fromtimestamp seconds = .ok t →
      Received (.datetime t)
  | dict {entries : List (PyStr × Value)} :
      (∀ entry ∈ entries, (Utf8.encode entry.1).length ≤ 255) →
      (∀ entry ∈ entries, Received entry.2) → (Assoc.keys entries).Nodup →
      Received (.dict entries)
  | list {items : List Value} : (∀ value ∈ items, Received value) → Received (.list items)

/-- A table under construction. -/
structure TableReceived (entries : List (PyStr × Value)) : Prop where
  keys : ∀ entry ∈ entries, (Utf8.encode entry.1).length ≤ 255
  values : ∀ entry ∈ entries, entry.2.Received
  nodup : (Assoc.keys entries).Nodup

theorem TableReceived.set {entries : List (PyStr × Value)} (h : TableReceived entries)
    {key : PyStr} (hkey : (Utf8.encode key).length ≤ 255) {value : Value}
    (hvalue : value.Received) : TableReceived (Assoc.set entries key value) := by
  have hmem : ∀ entry ∈ Assoc.set entries key value,
      entry = (key, value) ∨ entry ∈ entries := fun _ => Assoc.mem_set
  constructor
  · intro entry hentry
    rcases hmem entry hentry with rfl | hold
    · exact hkey
    · exact h.keys entry hold
  · intro entry hentry
    rcases hmem entry hentry with rfl | hold
    · exact hvalue
    · exact h.values entry hold
  · exact Assoc.nodup_set h.nodup key value

section Readers

open Cursor

theorem unpackFrom_returns (width : Nat) :
    (unpackFrom width).Returns fun n => n < 256 ^ width :=
  .map BigEndian.decode (.exactly _ width) fun octets hlength => hlength ▸ BigEndian.decode_lt octets

theorem unpackSigned_returns (width : Nat) :
    (unpackSigned width).Returns fun i => -(256 ^ width : Int) ≤ 2 * i ∧ 2 * i < 256 ^ width :=
  .map BigEndian.decodeInt (.exactly _ width) fun _ hlength => BigEndian.decodeInt_range hlength

theorem readSized_returns (width : Nat) :
    (readSized width).Returns fun octets => octets.length < 256 ^ width := by
  refine .bind (unpackFrom_returns width) fun size hsize buf offset octets next h => ?_
  exact (Returns.slice size buf offset octets next h).trans_lt hsize

theorem readText_returns (width : Nat) :
    (readText width).Returns fun text => (Utf8.encode text).length < 256 ^ width := by
  refine .bind (readSized_returns width) fun octets hlength => .liftExcept fun text htext => ?_
  unfold bytesToStr at htext
  split at htext
  next text' hdecode =>
    obtain rfl := Except.ok.inj htext
    rwa [Utf8.encode_decode hdecode]
  next => simp at htext

theorem strOrBytes_received {octets : Octets} (h : octets.length < 2 ^ 32) :
    (strOrBytes octets).Received := by
  unfold strOrBytes
  split
  next text hdecode => exact .str (by rwa [Utf8.encode_decode hdecode])
  next => exact .bytes h

variable {item : Reader Value}

theorem readTable_returns (hitem : item.Returns Value.Received) :
    (readTable item).Returns TableReceived := by
  refine .bind (unpackFrom_returns 4) fun size _ => .within (fun table htable => ?_) size
    ⟨by simp, by simp, List.nodup_nil⟩
  refine .bind (readText_returns 1) fun key hkey => .bind hitem fun value hvalue => .pure ?_
  exact htable.set (Nat.le_of_lt_succ hkey) hvalue

theorem readArray_returns (hitem : item.Returns Value.Received) :
    (readArray item).Returns fun items => ∀ value ∈ items, value.Received := by
  refine .bind (unpackFrom_returns 4) fun size _ => .within (fun values hvalues => ?_) size
    (by simp)
  refine .bind hitem fun value hvalue => .pure fun value' hmem => ?_
  rcases List.mem_append.mp hmem with hold | hnew
  · exact hvalues value' hold
  · exact List.mem_singleton.mp hnew ▸ hvalue

theorem four_octets_lt {n : Nat} (h : n < 256 ^ 4) : n < 2 ^ 32 := by
  norm_num at h ⊢
  exact h

theorem unsigned_received (width : Nat) (hwidth : width ≤ 8) :
    (unpackFrom width >>= fun n => pure (Value.int n)).Returns Value.Received := by
  refine .map (fun n : Nat => Value.int n) (unpackFrom_returns width) fun n hn => ?_
  have hle : 256 ^ width ≤ 256 ^ 8 := Nat.pow_le_pow_right (by decide) hwidth
  exact .int (by omega) (by omega)

theorem signed_received (width : Nat) (hwidth : width ≤ 8) :
    (unpackSigned width >>= fun i => pure (Value.int i)).Returns Value.Received := by
  refine .map Value.int (unpackSigned_returns width) fun i hi => ?_
  have hle : (256 : Int) ^ width ≤ 256 ^ 8 := by exact_mod_cast Nat.pow_le_pow_right (by decide) hwidth
  exact .int (by omega) (by omega)

/-- One field, whatever its type code. -/
theorem readField_received (hitem : item.Returns Value.Received) (ftype : Char) :
    (readField item ftype).Returns Value.Received := by
  unfold readField
  split
  case h_1 =>
    exact .map strOrBytes (readSized_returns 4) fun octets h => strOrBytes_received (four_octets_lt h)
  case h_2 =>
    refine .map Value.str (readText_returns 1) fun text h => .str ?_
    omega
  case h_3 => exact .map Value.bytes (readSized_returns 4) fun octets h => .bytes (four_octets_lt h)
  case h_4 | h_7 | h_9 | h_11 => exact unsigned_received _ (by decide)
  case h_5 | h_6 | h_8 | h_10 => exact signed_received _ (by decide)
  case h_12 => exact .map (fun n => Value.float _) (.anything _) fun n _ => .float _
  case h_13 => exact .map (fun n => Value.float _) (.anything _) fun n _ => .float _
  case h_14 =>
    refine .bind (unpackFrom_returns 1) fun places hplaces => ?_
    refine .map (fun n => Value.decimal (Decimal.divPow10 n places)) (unpackSigned_returns 4)
      fun n hn => ?_
    exact .decimal (by omega) (by omega) hplaces
  case h_15 => exact .map Value.dict (readTable_returns hitem) fun entries h => .dict h.1 h.2 h.3
  case h_16 => exact .map Value.list (readArray_returns hitem) fun items h => .list h
  case h_17 => exact .map (fun n : Nat => Value.bool (n ≠ 0)) (.anything _) fun n _ => .bool _
  case h_18 =>
    refine .bind (.anything _) fun seconds _ => ?_
    exact .map Value.datetime (.liftExcept fun t ht => ht) fun t ht => .datetime ht
  case h_19 => exact .pure .none
  case h_20 => exact .fail _

theorem readItemWithin_received (depth : Nat) :
    (readItemWithin depth).Returns Value.Received := by
  induction depth with
  | zero => exact .fail _
  | succ depth ih => exact .bind (.anything _) fun octet _ => readField_received ih _

theorem readItem_received : readItem.Returns Value.Received := fun buf offset v next h =>
  readItemWithin_received (buf.length + 1) buf offset v next h

end Readers

end PyAmqp
