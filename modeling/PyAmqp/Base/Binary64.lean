import Mathlib.Algebra.Field.Rat
import Mathlib.Algebra.Order.Ring.Rat
import Mathlib.Data.Int.Log
import Mathlib.Data.Rat.Floor
import Mathlib.Tactic.Linarith

/-!
Rounding to binary64: to the nearest number with 53 significant bits, or with fewer below the
least normal number, and to the even one of two that are as near. A sum, a product or a quotient
of floats is the exact one, rounded. Overflow is left out: the exponent has no upper bound.
-/

namespace Binary64

/-- The nearest integer, the even one of two. -/
def roundEven (q : ℚ) : ℤ :=
  if 2 * (q - ⌊q⌋) < 1 ∨ 2 * (q - ⌊q⌋) = 1 ∧ ⌊q⌋ % 2 = 0 then ⌊q⌋ else ⌊q⌋ + 1

/-- The exponent of the last bit of a float next to `q`. -/
def exponent (q : ℚ) : ℤ := max (Int.log 2 |q| - 52) (-1074)

/-- The float nearest to `q`. -/
def nearest (q : ℚ) : ℚ := roundEven (q / 2 ^ exponent q) * 2 ^ exponent q

/-- A float can have this value. -/
def IsFloat (q : ℚ) : Prop := nearest q = q

instance (q : ℚ) : Decidable (IsFloat q) := inferInstanceAs (Decidable (_ = _))

/-! Rounding to an integer -/

theorem floor_le_roundEven (q : ℚ) : ⌊q⌋ ≤ roundEven q := by
  unfold roundEven
  split <;> omega

theorem roundEven_le_floor (q : ℚ) : roundEven q ≤ ⌊q⌋ + 1 := by
  unfold roundEven
  split <;> omega

@[simp] theorem roundEven_intCast (n : ℤ) : roundEven n = n := by
  simp [roundEven]

theorem roundEven_mono {p q : ℚ} (h : p ≤ q) : roundEven p ≤ roundEven q := by
  rcases (Int.floor_mono h).lt_or_eq with hlt | heq
  · calc roundEven p ≤ ⌊p⌋ + 1 := roundEven_le_floor p
      _ ≤ ⌊q⌋ := hlt
      _ ≤ roundEven q := floor_le_roundEven q
  · unfold roundEven
    rw [heq]
    split
    next => split <;> omega
    next hp =>
      rw [if_neg]
      rintro (hq | ⟨hq, heven⟩)
      · exact hp (.inl (by linarith))
      · rcases (show 2 * (p - ⌊q⌋) ≤ 1 by linarith).lt_or_eq with hbelow | hhalf
        · exact hp (.inl hbelow)
        · exact hp (.inr ⟨hhalf, heven⟩)

theorem roundEven_neg (q : ℚ) : roundEven (-q) = -roundEven q := by
  have hfloor := Int.floor_le q
  have hceil := Int.lt_floor_add_one q
  by_cases hint : q = ⌊q⌋
  · rw [hint, ← Int.cast_neg, roundEven_intCast, roundEven_intCast]
  · have hneg : ⌊-q⌋ = -⌊q⌋ - 1 := by
      rw [Int.floor_eq_iff]
      push_cast
      exact ⟨by linarith, by linarith [lt_of_le_of_ne hfloor (Ne.symm hint)]⟩
    unfold roundEven
    rw [hneg]
    push_cast
    split
    next hup =>
      rw [if_neg]
      · ring
      · rcases hup with hup | ⟨hhalf, heven⟩
        · rintro (hdown | ⟨hhalf, -⟩) <;> linarith
        · rintro (hdown | ⟨-, heven'⟩)
          · linarith
          · omega
    next hdown =>
      rw [if_pos]
      · ring
      · by_contra hup
        simp only [not_or, not_and, not_lt] at hdown hup
        have hhalf : 2 * (q - ⌊q⌋) = 1 := by linarith
        have hodd := hup.2 hhalf
        have heven := hdown.2 (by linarith)
        omega

/-! Rounding to a float -/

section Nearest

variable {x y : ℚ}

theorem zpow_two_pos (e : ℤ) : (0 : ℚ) < 2 ^ e := zpow_pos two_pos e

@[simp] theorem nearest_zero : nearest 0 = 0 := by
  have hzero : roundEven 0 = 0 := by simpa using roundEven_intCast 0
  simp [nearest, hzero]

theorem nearest_neg (x : ℚ) : nearest (-x) = -nearest x := by
  have hexponent : exponent (-x) = exponent x := by simp [exponent]
  unfold nearest
  rw [hexponent, neg_div, roundEven_neg]
  push_cast
  ring

theorem nearest_nonneg (h : 0 ≤ x) : 0 ≤ nearest x := by
  have hpos := zpow_two_pos (exponent x)
  have hround : (0 : ℤ) ≤ roundEven (x / 2 ^ exponent x) :=
    (Int.floor_nonneg.mpr (div_nonneg h hpos.le)).trans (floor_le_roundEven _)
  exact mul_nonneg (by exact_mod_cast hround) hpos.le

theorem lt_zpow_exponent (h : 0 < x) : x < 2 ^ (exponent x + 53) := by
  have hlog : Int.log 2 x < exponent x + 53 := by
    have hle := le_max_left (Int.log 2 |x| - 52) (-1074)
    rw [abs_of_pos h] at hle
    simp only [exponent, abs_of_pos h]
    omega
  have hlt := (Int.lt_zpow_iff_log_lt (R := ℚ) (b := 2) (by norm_num) h).mpr hlog
  exact_mod_cast hlt

/-- Above the least normal number a float has all of its bits. -/
theorem zpow_exponent_le (h : 0 < x) (hnormal : -1074 < exponent x) :
    2 ^ (exponent x + 52) ≤ x := by
  have hlog : exponent x + 52 ≤ Int.log 2 x := by
    simp only [exponent, abs_of_pos h] at hnormal ⊢
    omega
  have hle := (Int.zpow_le_iff_le_log (R := ℚ) (b := 2) (by norm_num) h).mpr hlog
  exact_mod_cast hle

theorem exponent_mono (hx : 0 < x) (h : x ≤ y) : exponent x ≤ exponent y := by
  unfold exponent
  rw [abs_of_pos hx, abs_of_pos (hx.trans_le h)]
  have hlog := Int.log_mono_right (b := 2) hx h
  omega

theorem nearest_le_zpow (h : 0 < x) : nearest x ≤ 2 ^ (exponent x + 53) := by
  have hpos := zpow_two_pos (exponent x)
  have hquotient : x / 2 ^ exponent x ≤ ((2 ^ 53 : ℤ) : ℚ) := by
    rw [div_le_iff₀ hpos]
    push_cast
    have hlt := lt_zpow_exponent h
    rw [add_comm, zpow_add₀ two_ne_zero] at hlt
    exact_mod_cast hlt.le
  have hround := roundEven_mono hquotient
  rw [roundEven_intCast] at hround
  rw [add_comm, zpow_add₀ two_ne_zero]
  exact mul_le_mul_of_nonneg_right (by exact_mod_cast hround) hpos.le

theorem zpow_le_nearest (h : 0 < x) (hnormal : -1074 < exponent x) :
    2 ^ (exponent x + 52) ≤ nearest x := by
  have hpos := zpow_two_pos (exponent x)
  have hquotient : ((2 ^ 52 : ℤ) : ℚ) ≤ x / 2 ^ exponent x := by
    rw [le_div_iff₀ hpos]
    push_cast
    have hle := zpow_exponent_le h hnormal
    rw [add_comm, zpow_add₀ two_ne_zero] at hle
    exact_mod_cast hle
  have hround := roundEven_mono hquotient
  rw [roundEven_intCast] at hround
  rw [add_comm, zpow_add₀ two_ne_zero]
  exact mul_le_mul_of_nonneg_right (by exact_mod_cast hround) hpos.le

/-- Positive numbers with the same last bit are rounded to the same grid; otherwise a power of
two stands between them, which both have for a float. -/
theorem nearest_mono_pos (hx : 0 < x) (h : x ≤ y) : nearest x ≤ nearest y := by
  rcases (exponent_mono hx h).lt_or_eq with hlt | heq
  · have hfloor : -1074 ≤ exponent x := le_max_right _ _
    calc nearest x ≤ 2 ^ (exponent x + 53) := nearest_le_zpow hx
      _ ≤ 2 ^ (exponent y + 52) := zpow_le_zpow_right₀ one_le_two (by omega)
      _ ≤ nearest y := zpow_le_nearest (hx.trans_le h) (by omega)
  · have hpos := zpow_two_pos (exponent y)
    unfold nearest
    rw [heq]
    have hround := roundEven_mono (div_le_div_of_nonneg_right h hpos.le)
    exact mul_le_mul_of_nonneg_right (by exact_mod_cast hround) hpos.le

theorem nearest_mono (h : x ≤ y) : nearest x ≤ nearest y := by
  rcases lt_or_ge 0 x with hx | hx
  · exact nearest_mono_pos hx h
  rcases lt_or_ge y 0 with hy | hy
  · have hneg := nearest_mono_pos (neg_pos.mpr hy) (neg_le_neg h)
    rw [nearest_neg, nearest_neg] at hneg
    exact neg_le_neg_iff.mp hneg
  · have hbelow := nearest_nonneg (neg_nonneg.mpr hx)
    rw [nearest_neg] at hbelow
    exact (neg_nonneg.mp hbelow).trans (nearest_nonneg hy)

/-! Floats -/

theorem IsFloat.le_nearest (hx : IsFloat x) (h : x ≤ y) : x ≤ nearest y :=
  hx.symm.le.trans (nearest_mono h)

theorem isFloat_of_eq {m e : ℤ} (hx : x = m * 2 ^ e) (he : exponent x ≤ e) : IsFloat x := by
  obtain ⟨n, hn⟩ : ∃ n : ℕ, e = exponent x + n := ⟨(e - exponent x).toNat, by omega⟩
  have hpos := zpow_two_pos (exponent x)
  have hquotient : x / 2 ^ exponent x = ((m * 2 ^ n : ℤ) : ℚ) := by
    rw [div_eq_iff hpos.ne']
    push_cast
    calc x = m * 2 ^ (exponent x + n) := by rw [← hn]; exact hx
      _ = m * 2 ^ n * 2 ^ exponent x := by
        rw [zpow_add₀ two_ne_zero, zpow_natCast]
        ring
  unfold IsFloat nearest
  rw [hquotient, roundEven_intCast, ← hquotient, div_mul_cancel₀ x hpos.ne']

theorem exponent_two_mul (x : ℚ) : exponent (2 * x) ≤ exponent x + 1 := by
  rcases eq_or_ne x 0 with rfl | hx
  · simp
  · have hpos : 0 < |x| := abs_pos.mpr hx
    have hlog : Int.log 2 (2 * |x|) < Int.log 2 |x| + 2 := by
      apply (Int.lt_zpow_iff_log_lt (R := ℚ) (b := 2) (by norm_num) (by positivity)).mp
      have hlt := Int.lt_zpow_succ_log_self (R := ℚ) (b := 2) (by norm_num) |x|
      rw [show Int.log 2 |x| + 2 = Int.log 2 |x| + 1 + 1 by ring, zpow_add_one₀ (by norm_num)]
      push_cast at hlt ⊢
      linarith
    unfold exponent
    rw [abs_mul, abs_two]
    omega

/-- Twice a float is one. -/
theorem IsFloat.two_mul (hx : IsFloat x) : IsFloat (2 * x) := by
  apply isFloat_of_eq (m := roundEven (x / 2 ^ exponent x)) _ (exponent_two_mul x)
  calc 2 * x = 2 * nearest x := by rw [hx]
    _ = roundEven (x / 2 ^ exponent x) * 2 ^ (exponent x + 1) := by
      rw [nearest, zpow_add_one₀ two_ne_zero]
      ring

end Nearest

example : nearest (1 / 3) = 6004799503160661 / 2 ^ 54 := by decide +kernel
example : nearest (128 + 3 / 2 ^ 46) = 128 + 1 / 2 ^ 44 := by decide +kernel

end Binary64
