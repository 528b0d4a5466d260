import Mathlib.Data.Nat.Digits.Defs
import Mathlib.Algebra.Order.Ring.Nat
import Mathlib.Tactic.Ring

/-!
Fixed-width big-endian words. `encode w n` keeps the `w` low octets of `n`, most
significant first; the signed pair is two's complement on top of it.
-/

namespace BigEndian

def encode : Nat → Nat → List UInt8
  | 0, _ => []
  | w + 1, n => UInt8.ofNat (n / 256 ^ w) :: encode w n

def decode (octets : List UInt8) : Nat :=
  octets.foldl (fun n octet => 256 * n + octet.toNat) 0

@[simp] theorem encode_length (w n : Nat) : (encode w n).length = w := by
  induction w with
  | zero => rfl
  | succ w ih => simp [encode, ih]

private theorem foldl_encode (w n start : Nat) :
    (encode w n).foldl (fun n octet => 256 * n + octet.toNat) start =
      start * 256 ^ w + n % 256 ^ w := by
  induction w generalizing start with
  | zero => simp [encode, Nat.mod_one]
  | succ w ih =>
      have hoctet : (UInt8.ofNat (n / 256 ^ w)).toNat = n / 256 ^ w % 256 := by
        simp
      simp only [encode, List.foldl_cons]
      rw [ih, hoctet, Nat.mod_pow_succ]
      ring

/-- A word that fits in `w` octets is read back unchanged. -/
theorem decode_encode (w n : Nat) (hfit : n < 256 ^ w) :
    decode (encode w n) = n := by
  simp [decode, foldl_encode, Nat.mod_eq_of_lt hfit]

private theorem foldl_lt (octets : List UInt8) (start : Nat) :
    octets.foldl (fun n octet => 256 * n + octet.toNat) start <
      (start + 1) * 256 ^ octets.length := by
  induction octets generalizing start with
  | nil => simp
  | cons octet rest ih =>
      have hoctet : octet.toNat < 256 := octet.toNat_lt
      calc
        _ < (256 * start + octet.toNat + 1) * 256 ^ rest.length := ih _
        _ ≤ (256 * (start + 1)) * 256 ^ rest.length :=
            Nat.mul_le_mul_right _ (by omega)
        _ = (start + 1) * 256 ^ (octet :: rest).length := by
            simp only [List.length_cons]
            ring

theorem decode_lt (octets : List UInt8) : decode octets < 256 ^ octets.length := by
  simpa [decode] using foldl_lt octets 0

/-- What lies above `w` octets is cut off. -/
theorem encode_add (w k n : Nat) : encode w (k * 256 ^ w + n) = encode w n := by
  induction w generalizing k with
  | zero => rfl
  | succ w ih =>
      have hsplit : k * 256 ^ (w + 1) + n = k * 256 * 256 ^ w + n := by ring
      have hdiv : (k * 256 * 256 ^ w + n) / 256 ^ w = n / 256 ^ w + k * 256 := by
        rw [Nat.add_comm, Nat.add_mul_div_right _ _ (Nat.pow_pos (by decide))]
      have hoctet : UInt8.ofNat (n / 256 ^ w + k * 256) = UInt8.ofNat (n / 256 ^ w) := by
        apply UInt8.toNat_inj.mp
        simp
      rw [hsplit, encode, hdiv, hoctet, ih (k * 256), encode]

private theorem decode_cons (octet : UInt8) (rest : List UInt8) :
    decode (octet :: rest) = octet.toNat * 256 ^ rest.length + decode rest := by
  have hfold : ∀ (octets : List UInt8) (start : Nat),
      octets.foldl (fun n octet => 256 * n + octet.toNat) start =
        start * 256 ^ octets.length + decode octets := by
    intro octets
    induction octets with
    | nil => simp [decode]
    | cons octet rest ih =>
        intro start
        have hcons : decode (octet :: rest) =
            (256 * 0 + octet.toNat) * 256 ^ rest.length + decode rest := by
          rw [decode, List.foldl_cons, ih]
        rw [List.foldl_cons, ih, hcons, List.length_cons]
        ring
  rw [decode, List.foldl_cons, hfold, Nat.mul_zero, Nat.zero_add]

/-- Octets are written back as they were read. -/
theorem encode_decode (octets : List UInt8) : encode octets.length (decode octets) = octets := by
  induction octets with
  | nil => rfl
  | cons octet rest ih =>
      have hpos : 0 < 256 ^ rest.length := Nat.pow_pos (by decide)
      have hfirst : (octet.toNat * 256 ^ rest.length + decode rest) / 256 ^ rest.length =
          octet.toNat := by
        rw [Nat.add_comm, Nat.add_mul_div_right _ _ hpos,
          Nat.div_eq_of_lt (decode_lt rest), Nat.zero_add]
      rw [List.length_cons, encode, decode_cons, hfirst, encode_add, ih, UInt8.ofNat_toNat]

def encodeInt (w : Nat) (i : Int) : List UInt8 :=
  encode w (i % 256 ^ w).toNat

def decodeInt (octets : List UInt8) : Int :=
  if 2 * decode octets < 256 ^ octets.length then decode octets
  else decode octets - 256 ^ octets.length

@[simp] theorem encodeInt_length (w : Nat) (i : Int) : (encodeInt w i).length = w :=
  encode_length w _

/-- A word of `w` octets stands for an integer of its signed range. -/
theorem decodeInt_range {w : Nat} {octets : List UInt8} (h : octets.length = w) :
    -(256 ^ w : Int) ≤ 2 * decodeInt octets ∧ 2 * decodeInt octets < 256 ^ w := by
  subst h
  have hlt : ((decode octets : Nat) : Int) < 256 ^ octets.length := by
    exact_mod_cast decode_lt octets
  unfold decodeInt
  split
  next hsmall =>
    have hsmall' : 2 * ((decode octets : Nat) : Int) < 256 ^ octets.length := by
      exact_mod_cast hsmall
    omega
  next hlarge =>
    have hlarge' : (256 : Int) ^ octets.length ≤ 2 * (decode octets : Nat) := by
      exact_mod_cast not_lt.mp hlarge
    omega

/-- Two's complement: an integer in the signed range of `w` octets is read back
unchanged. -/
theorem decodeInt_encodeInt (w : Nat) (i : Int)
    (hlow : -(256 ^ w : Int) ≤ 2 * i) (hhigh : 2 * i < 256 ^ w) :
    decodeInt (encodeInt w i) = i := by
  have hpos : (0 : Int) < 256 ^ w := by positivity
  have hmod : 0 ≤ i % 256 ^ w ∧ i % 256 ^ w < 256 ^ w :=
    ⟨Int.emod_nonneg _ hpos.ne', Int.emod_lt_of_pos _ hpos⟩
  have hfit : (i % 256 ^ w).toNat < 256 ^ w := by
    have hcast : ((256 ^ w : Nat) : Int) = 256 ^ w := by norm_cast
    omega
  have hword : ((decode (encodeInt w i) : Nat) : Int) = i % 256 ^ w := by
    rw [encodeInt, decode_encode _ _ hfit]
    exact Int.toNat_of_nonneg hmod.1
  have hsize : ((256 ^ (encodeInt w i).length : Nat) : Int) = 256 ^ w := by
    rw [encodeInt_length]
    norm_cast
  unfold decodeInt
  by_cases hsign : 0 ≤ i
  · have hi : i % 256 ^ w = i := Int.emod_eq_of_lt hsign (by omega)
    rw [if_pos (by zify; rw [hword, hi]; simpa using hhigh)]
    rw [hword, hi]
  · have hi : i % 256 ^ w = i + 256 ^ w := by
      rw [← Int.add_emod_right]
      exact Int.emod_eq_of_lt (by omega) (by omega)
    rw [if_neg (by zify; rw [hword, hi]; simp; omega)]
    rw [hword, hi]
    simp

end BigEndian
