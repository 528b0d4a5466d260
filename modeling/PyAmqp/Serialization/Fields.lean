import PyAmqp.Serialization.Dumps
import PyAmqp.Serialization.Loads

/-! The fields both sides of the codec share: words of a width, and octets behind
their length. -/

namespace PyAmqp

open Cursor

def sized (width : Nat) (data : Octets) : Octets :=
  BigEndian.encode width data.length ++ data

theorem four_octets {n : Nat} (h : n < 2 ^ 32) : n < 256 ^ 4 := by
  norm_num at h ⊢
  exact h

theorem pack_ok {width : Nat} {n : Int} (hlow : 0 ≤ n) (hhigh : n < 256 ^ width) :
    pack width n = .ok (BigEndian.encode width n.toNat) := by
  simp [pack, hlow, hhigh]

theorem pack_nat (width : Nat) {n : Nat} (h : n < 256 ^ width) :
    pack width n = .ok (BigEndian.encode width n) := by
  have hcast : (n : Int) < 256 ^ width := by exact_mod_cast h
  simp [pack, hcast]

theorem pack_nat_ok {width n : Nat} {octets : Octets} (h : pack width n = .ok octets) :
    n < 256 ^ width ∧ octets = BigEndian.encode width n := by
  unfold pack at h
  split at h
  next hrange =>
    refine ⟨by exact_mod_cast hrange.2, ?_⟩
    simpa using (Except.ok.inj h).symm
  next => simp at h

theorem writeSized_ok (width : Nat) {data : Octets} (h : data.length < 256 ^ width) :
    writeSized width data = .ok (sized width data) := by
  have hcast : (data.length : Int) < 256 ^ width := by exact_mod_cast h
  simp [writeSized, pack_ok (Int.natCast_nonneg _) hcast, sized]

theorem reads_unpackFrom (width : Nat) {n : Nat} (h : n < 256 ^ width) :
    Reads (unpackFrom width) (BigEndian.encode width n) n := by
  have hread := Reads.bind_pure BigEndian.decode
    (Reads.exactly PyError.structError (BigEndian.encode_length width n))
  rwa [BigEndian.decode_encode width n h] at hread

theorem reads_unpackSigned (width : Nat) {i : Int} (hlow : -(256 ^ width : Int) ≤ 2 * i)
    (hhigh : 2 * i < 256 ^ width) :
    Reads (unpackSigned width) (BigEndian.encodeInt width i) i := by
  have hread := Reads.bind_pure BigEndian.decodeInt
    (Reads.exactly PyError.structError (BigEndian.encodeInt_length width i))
  rwa [BigEndian.decodeInt_encodeInt width i hlow hhigh] at hread

theorem reads_sized (width : Nat) {data : Octets} (h : data.length < 256 ^ width) :
    Reads (readSized width) (sized width data) data :=
  (reads_unpackFrom width h).bind (Reads.slice rfl)

theorem reads_text (width : Nat) {text : PyStr} (h : (Utf8.encode text).length < 256 ^ width) :
    Reads (readText width) (sized width (Utf8.encode text)) text := by
  have htext : bytesToStr (Utf8.encode text) = .ok text := by simp [bytesToStr]
  have hread := Reads.bind (k := fun octets => Cursor.liftExcept (bytesToStr octets))
    (reads_sized width h) (Reads.liftExcept htext)
  simpa [readText] using hread

end PyAmqp
