import Mathlib.Data.Fin.Basic
import Mathlib.Tactic.Ring
import Mathlib.Order.Basic

/-!
UTF-8 over all 0x110000 code points, surrogates included: the form text takes
when lone surrogates are let through. The decoder refuses stray and missing
continuation octets, overlong forms and values past the last code point.
-/

namespace Utf8

abbrev CodePoint := Fin 0x110000

/-- Whether a code point is in a text is decided by equality. -/
instance : LawfulBEq CodePoint := inferInstance

def point (n : Nat) : CodePoint := Fin.ofNat 0x110000 n

def encodePoint (c : CodePoint) : List UInt8 :=
  let n := c.val
  if n < 0x80 then [UInt8.ofNat n]
  else if n < 0x800 then
    [UInt8.ofNat (0xC0 + n / 64), UInt8.ofNat (0x80 + n % 64)]
  else if n < 0x10000 then
    [UInt8.ofNat (0xE0 + n / 4096), UInt8.ofNat (0x80 + n / 64 % 64),
      UInt8.ofNat (0x80 + n % 64)]
  else
    [UInt8.ofNat (0xF0 + n / 262144), UInt8.ofNat (0x80 + n / 4096 % 64),
      UInt8.ofNat (0x80 + n / 64 % 64), UInt8.ofNat (0x80 + n % 64)]

def encode (text : List CodePoint) : List UInt8 := text.flatMap encodePoint

/-- The six payload bits of a continuation octet. -/
def tail? (octet : UInt8) : Option Nat :=
  if 0x80 ≤ octet.toNat ∧ octet.toNat < 0xC0 then some (octet.toNat - 0x80) else none

def pair? (a b : UInt8) : Option CodePoint := do
  let y ← tail? b
  if 0xC2 ≤ a.toNat ∧ a.toNat < 0xE0 then
    some (point ((a.toNat - 0xC0) * 64 + y))
  else none

def triple? (a b c : UInt8) : Option CodePoint := do
  let y ← tail? b
  let z ← tail? c
  let n := (a.toNat - 0xE0) * 4096 + y * 64 + z
  if 0xE0 ≤ a.toNat ∧ a.toNat < 0xF0 ∧ 0x800 ≤ n then some (point n) else none

def quad? (a b c d : UInt8) : Option CodePoint := do
  let x ← tail? b
  let y ← tail? c
  let z ← tail? d
  let n := (a.toNat - 0xF0) * 262144 + x * 4096 + y * 64 + z
  if 0xF0 ≤ a.toNat ∧ 0x10000 ≤ n ∧ n < 0x110000 then some (point n) else none

def decode : List UInt8 → Option (List CodePoint)
  | [] => some []
  | a :: rest =>
      if a.toNat < 0x80 then (decode rest).map (point a.toNat :: ·)
      else match rest with
        | [] => none
        | b :: rest =>
            match pair? a b with
            | some c => (decode rest).map (c :: ·)
            | none => match rest with
              | [] => none
              | c :: rest =>
                  match triple? a b c with
                  | some p => (decode rest).map (p :: ·)
                  | none => match rest with
                    | [] => none
                    | d :: rest =>
                        match quad? a b c d with
                        | some p => (decode rest).map (p :: ·)
                        | none => none

private theorem toNat_ofNat {n : Nat} (h : n < 256) : (UInt8.ofNat n).toNat = n := by
  simp [Nat.mod_eq_of_lt h]

private theorem point_val (c : CodePoint) {n : Nat} (h : n = c.val) : point n = c := by
  apply Fin.ext
  simp [point, h]

private theorem tail_encoded {n : Nat} (h : n < 64) :
    tail? (UInt8.ofNat (0x80 + n)) = some n := by
  have hoctet := toNat_ofNat (show 0x80 + n < 256 by omega)
  unfold tail?
  rw [hoctet, if_pos (by omega)]
  simp

private theorem decode_one {a : UInt8} (rest : List UInt8) (ha : a.toNat < 0x80) :
    decode (a :: rest) = (decode rest).map (point a.toNat :: ·) := by
  rw [decode.eq_def]
  simp [ha]

private theorem decode_two {a b : UInt8} {c : CodePoint} (rest : List UInt8)
    (ha : ¬ a.toNat < 0x80) (hpair : pair? a b = some c) :
    decode (a :: b :: rest) = (decode rest).map (c :: ·) := by
  rw [decode.eq_def]
  simp [ha, hpair]

private theorem decode_three {a b c : UInt8} {p : CodePoint} (rest : List UInt8)
    (ha : ¬ a.toNat < 0x80) (hpair : pair? a b = none)
    (htriple : triple? a b c = some p) :
    decode (a :: b :: c :: rest) = (decode rest).map (p :: ·) := by
  rw [decode.eq_def]
  simp [ha, hpair, htriple]

private theorem decode_four {a b c d : UInt8} {p : CodePoint} (rest : List UInt8)
    (ha : ¬ a.toNat < 0x80) (hpair : pair? a b = none)
    (htriple : triple? a b c = none) (hquad : quad? a b c d = some p) :
    decode (a :: b :: c :: d :: rest) = (decode rest).map (p :: ·) := by
  rw [decode.eq_def]
  simp [ha, hpair, htriple, hquad]

/-- One encoded code point in front of any octets is read back as itself. -/
theorem decode_encodePoint_append (c : CodePoint) (rest : List UInt8) :
    decode (encodePoint c ++ rest) = (decode rest).map (c :: ·) := by
  have hc := c.isLt
  unfold encodePoint
  by_cases h1 : c.val < 0x80
  · have ha := toNat_ofNat (show c.val < 256 by omega)
    rw [if_pos h1]
    refine (decode_one rest (by rw [ha]; exact h1)).trans ?_
    rw [ha, point_val c rfl]
  rw [if_neg h1]
  by_cases h2 : c.val < 0x800
  · have ha := toNat_ofNat (show 0xC0 + c.val / 64 < 256 by omega)
    have hb := tail_encoded (Nat.mod_lt c.val (show 64 > 0 by omega))
    rw [if_pos h2]
    refine decode_two rest (by rw [ha]; omega) ?_
    simp only [pair?, ha, hb, Option.bind_eq_bind, Option.bind_some]
    rw [if_pos (by omega), point_val c (by omega)]
  rw [if_neg h2]
  by_cases h3 : c.val < 0x10000
  · have ha := toNat_ofNat (show 0xE0 + c.val / 4096 < 256 by omega)
    have hb := tail_encoded (Nat.mod_lt (c.val / 64) (show 64 > 0 by omega))
    have hz := tail_encoded (Nat.mod_lt c.val (show 64 > 0 by omega))
    rw [if_pos h3]
    refine decode_three rest (by rw [ha]; omega) ?_ ?_
    · simp only [pair?, ha, hb, Option.bind_eq_bind, Option.bind_some]
      rw [if_neg (by omega)]
    · simp only [triple?, ha, hb, hz, Option.bind_eq_bind, Option.bind_some]
      rw [if_pos (by omega), point_val c (by omega)]
  · have ha := toNat_ofNat (show 0xF0 + c.val / 262144 < 256 by omega)
    have hb := tail_encoded (Nat.mod_lt (c.val / 4096) (show 64 > 0 by omega))
    have hy := tail_encoded (Nat.mod_lt (c.val / 64) (show 64 > 0 by omega))
    have hz := tail_encoded (Nat.mod_lt c.val (show 64 > 0 by omega))
    rw [if_neg h3]
    refine decode_four rest (by rw [ha]; omega) ?_ ?_ ?_
    · simp only [pair?, ha, hb, Option.bind_eq_bind, Option.bind_some]
      rw [if_neg (by omega)]
    · simp only [triple?, ha, hb, hy, Option.bind_eq_bind, Option.bind_some]
      rw [if_neg (by omega)]
    · simp only [quad?, ha, hb, hy, hz, Option.bind_eq_bind, Option.bind_some]
      rw [if_pos (by omega), point_val c (by omega)]

theorem decode_encode_append (text : List CodePoint) (rest : List UInt8) :
    decode (encode text ++ rest) = (decode rest).map (text ++ ·) := by
  induction text with
  | nil => simp [encode]
  | cons c text ih =>
      have hsplit : encode (c :: text) ++ rest = encodePoint c ++ (encode text ++ rest) := by
        simp [encode]
      rw [hsplit, decode_encodePoint_append, ih, Option.map_map]
      rfl

/-- Every text, lone surrogates included, is read back from its octets. -/
@[simp] theorem decode_encode (text : List CodePoint) : decode (encode text) = some text := by
  simpa [decode] using decode_encode_append text []

theorem encode_eq_nil {text : List CodePoint} : encode text = [] ↔ text = [] := by
  constructor
  · intro hempty
    have htext := decode_encode text
    rw [hempty] at htext
    exact (Option.some.inj htext).symm
  · rintro rfl
    rfl

private theorem tail_val {octet : UInt8} {n : Nat} (h : tail? octet = some n) :
    n < 64 ∧ octet = UInt8.ofNat (0x80 + n) := by
  unfold tail? at h
  split at h
  next hrange =>
    obtain rfl := Option.some.inj h
    refine ⟨by omega, ?_⟩
    rw [Nat.add_sub_cancel' hrange.1, UInt8.ofNat_toNat]
  next => simp at h

private theorem octet_eq {a : UInt8} {n : Nat} (h : n = a.toNat) : UInt8.ofNat n = a := by
  rw [h, UInt8.ofNat_toNat]

private theorem point_of_lt {n : Nat} (h : n < 0x110000) : (point n).val = n :=
  Nat.mod_eq_of_lt h

theorem encodePoint_one {a : UInt8} (h : a.toNat < 0x80) : encodePoint (point a.toNat) = [a] := by
  have hval := point_of_lt (show a.toNat < 0x110000 by omega)
  simp only [encodePoint, hval, if_pos h, UInt8.ofNat_toNat]

theorem encodePoint_pair {a b : UInt8} {c : CodePoint} (h : pair? a b = some c) :
    encodePoint c = [a, b] := by
  simp only [pair?, Option.bind_eq_bind, Option.bind_eq_some_iff] at h
  obtain ⟨y, hy, h⟩ := h
  obtain ⟨hlt, rfl⟩ := tail_val hy
  split at h
  next hrange =>
    obtain rfl := Option.some.inj h
    have hval := point_of_lt (show (a.toNat - 0xC0) * 64 + y < 0x110000 by omega)
    have hlow : ((a.toNat - 0xC0) * 64 + y) % 64 = y := by omega
    simp only [encodePoint, hval]
    rw [if_neg (by omega), if_pos (by omega), octet_eq (a := a) (by omega), hlow]
  next => simp at h

theorem encodePoint_triple {a b c : UInt8} {p : CodePoint} (h : triple? a b c = some p) :
    encodePoint p = [a, b, c] := by
  simp only [triple?, Option.bind_eq_bind, Option.bind_eq_some_iff] at h
  obtain ⟨y, hy, z, hz, h⟩ := h
  obtain ⟨hylt, rfl⟩ := tail_val hy
  obtain ⟨hzlt, rfl⟩ := tail_val hz
  split at h
  next hrange =>
    obtain rfl := Option.some.inj h
    have hval := point_of_lt (show (a.toNat - 0xE0) * 4096 + y * 64 + z < 0x110000 by omega)
    have hmid : ((a.toNat - 0xE0) * 4096 + y * 64 + z) / 64 % 64 = y := by omega
    have hlow : ((a.toNat - 0xE0) * 4096 + y * 64 + z) % 64 = z := by omega
    simp only [encodePoint, hval]
    rw [if_neg (by omega), if_neg (by omega), if_pos (by omega), octet_eq (a := a) (by omega), hmid,
      hlow]
  next => simp at h

theorem encodePoint_quad {a b c d : UInt8} {p : CodePoint} (h : quad? a b c d = some p) :
    encodePoint p = [a, b, c, d] := by
  simp only [quad?, Option.bind_eq_bind, Option.bind_eq_some_iff] at h
  obtain ⟨x, hx, y, hy, z, hz, h⟩ := h
  obtain ⟨hxlt, rfl⟩ := tail_val hx
  obtain ⟨hylt, rfl⟩ := tail_val hy
  obtain ⟨hzlt, rfl⟩ := tail_val hz
  split at h
  next hrange =>
    obtain rfl := Option.some.inj h
    have hval := point_of_lt hrange.2.2
    have hhigh : ((a.toNat - 0xF0) * 262144 + x * 4096 + y * 64 + z) / 4096 % 64 = x := by omega
    have hmid : ((a.toNat - 0xF0) * 262144 + x * 4096 + y * 64 + z) / 64 % 64 = y := by omega
    have hlow : ((a.toNat - 0xF0) * 262144 + x * 4096 + y * 64 + z) % 64 = z := by omega
    simp only [encodePoint, hval]
    rw [if_neg (by omega), if_neg (by omega), if_neg (by omega), octet_eq (a := a) (by omega),
      hhigh, hmid, hlow]
  next => simp at h

private theorem encode_cons {p : CodePoint} {points rest : List UInt8}
    (hpoint : encodePoint p = points)
    (ih : ∀ {text}, decode rest = some text → encode text = rest) {text : List CodePoint}
    (h : (decode rest).map (p :: ·) = some text) : encode text = points ++ rest := by
  obtain ⟨tail, htail, rfl⟩ := Option.map_eq_some_iff.mp h
  rw [← ih htail, ← hpoint]
  simp [encode]

/-- Octets that are text are that text's encoding. -/
theorem encode_decode {octets : List UInt8} {text : List CodePoint}
    (h : decode octets = some text) : encode text = octets := by
  fun_induction decode octets generalizing text with
  | case1 =>
      obtain rfl := Option.some.inj h
      rfl
  | case2 a rest hone ih => exact encode_cons (encodePoint_one hone) ih h
  | case4 a hone b rest p hpair ih => exact encode_cons (encodePoint_pair hpair) ih h
  | case6 a hone b hpair c rest p htriple ih => exact encode_cons (encodePoint_triple htriple) ih h
  | case8 a hone b hpair c htriple d rest p hquad ih =>
      exact encode_cons (encodePoint_quad hquad) ih h
  | case3 | case5 | case7 | case9 => simp at h

/-! Text without surrogates -/

/-- The code points that strict UTF-8 has octets for. -/
def Scalar (c : CodePoint) : Prop := c.val < 0xD800 ∨ 0xE000 ≤ c.val

instance (c : CodePoint) : Decidable (Scalar c) := inferInstanceAs (Decidable (_ ∨ _))

/-- Strict UTF-8 has no octets for a surrogate. -/
def encodeScalars (text : List CodePoint) : Option (List UInt8) :=
  if ∀ c ∈ text, Scalar c then some (encode text) else none

/-- Strict UTF-8 refuses the octets of a surrogate. -/
def decodeScalars (octets : List UInt8) : Option (List CodePoint) :=
  (decode octets).filter fun text => ∀ c ∈ text, Scalar c

theorem encodeScalars_eq {text : List CodePoint} (h : ∀ c ∈ text, Scalar c) :
    encodeScalars text = some (encode text) := by
  rw [encodeScalars, if_pos h]

theorem decodeScalars_encode {text : List CodePoint} (h : ∀ c ∈ text, Scalar c) :
    decodeScalars (encode text) = some text := by
  rw [decodeScalars, decode_encode, Option.filter_some, if_pos (by simpa using h)]

/-! Digits -/

/-- The zeros of Unicode's decimal digits. Each is followed by the digits 1 to 9. -/
def decimalZeros : List Nat :=
  [0x30, 0x660, 0x6F0, 0x7C0, 0x966, 0x9E6, 0xA66, 0xAE6, 0xB66, 0xBE6, 0xC66, 0xCE6, 0xD66,
    0xDE6, 0xE50, 0xED0, 0xF20, 0x1040, 0x1090, 0x17E0, 0x1810, 0x1946, 0x19D0, 0x1A80, 0x1A90,
    0x1B50, 0x1BB0, 0x1C40, 0x1C50, 0xA620, 0xA8D0, 0xA900, 0xA9D0, 0xA9F0, 0xAA50, 0xABF0,
    0xFF10, 0x104A0, 0x10D30, 0x11066, 0x110F0, 0x11136, 0x111D0, 0x112F0, 0x11450, 0x114D0,
    0x11650, 0x116C0, 0x11730, 0x118E0, 0x11950, 0x11C50, 0x11D50, 0x11DA0, 0x11F50, 0x16A60,
    0x16AC0, 0x16B50, 0x1D7CE, 0x1D7D8, 0x1D7E2, 0x1D7EC, 0x1D7F6, 0x1E140, 0x1E2F0, 0x1E4F0,
    0x1E950, 0x1FBF0]

def decimalValue? (c : Nat) : Option Nat :=
  (decimalZeros.find? fun start => start ≤ c ∧ c < start + 10).map fun start => c - start

/-- The white space beyond ASCII. -/
def spaces : List Nat :=
  [0x85, 0xA0, 0x1680, 0x2000, 0x2001, 0x2002, 0x2003, 0x2004, 0x2005, 0x2006, 0x2007, 0x2008,
    0x2009, 0x200A, 0x2028, 0x2029, 0x202F, 0x205F, 0x3000]

/-- Digits and white space of other scripts as those of ASCII, `?` for the rest. -/
def toAscii (c : Nat) : Nat :=
  if c < 128 then c
  else if c ∈ spaces then 32
  else match decimalValue? c with
    | some digit => 48 + digit
    | none => 63

end Utf8
