import Mathlib.Data.Nat.Bitwise
import PyAmqp.Base.BigEndian

/-!
A set of numbers in words of sixteen bits: fifteen flags from the high bit down, and a low
bit that says whether another word follows. A reader finds the last word by the low bits.
-/

namespace FlagWords

/-- Number `i` is flagged. -/
def flagged (words : List Nat) (i : Nat) : Bool :=
  match words[i / 15]? with
  | some word => word.testBit (15 - i % 15)
  | none => false

/-- The low bit of a word is set if and only if another word follows. -/
def Chained (words : List Nat) : Prop :=
  ∀ k word, words[k]? = some word → (word.testBit 0 = true ↔ k + 1 < words.length)

/-- Words up to the first whose low bit is clear, and what stands behind it. -/
def read : List UInt8 → Option (List Nat × List UInt8)
  | high :: low :: rest =>
      let word := BigEndian.decode [high, low]
      if word.testBit 0 then (read rest).map fun (words, rest) => (word :: words, rest)
      else some ([word], rest)
  | _ => none

section Words

variable {word : Nat} {words : List Nat}

theorem chained_cons :
    Chained (word :: words) ↔ (word.testBit 0 = true ↔ words ≠ []) ∧ Chained words := by
  constructor
  · intro h
    constructor
    · rw [h 0 word rfl, List.length_cons, Nat.lt_add_left_iff_pos, List.length_pos_iff]
    · intro k word' hword'
      rw [h (k + 1) word' hword', List.length_cons, Nat.add_lt_add_iff_right]
  · rintro ⟨hfirst, hrest⟩ k word' hword'
    cases k with
    | zero =>
        obtain rfl : word = word' := by simpa using hword'
        rw [hfirst, List.length_cons, Nat.lt_add_left_iff_pos, List.length_pos_iff]
    | succ k =>
        rw [hrest k word' hword', List.length_cons, Nat.add_lt_add_iff_right]

theorem flagged_singleton (word i : Nat) :
    flagged [word] i = (decide (i < 15) && word.testBit (15 - i)) := by
  unfold flagged
  by_cases hi : i < 15
  · rw [Nat.div_eq_of_lt hi, Nat.mod_eq_of_lt hi]
    simp [hi]
  · have hword : [word][i / 15]? = none := List.getElem?_eq_none (by simp; omega)
    simp only [hword, hi, decide_false, Bool.false_and]

theorem read_word (hfit : word < 2 ^ 16) (rest : List UInt8) :
    read (BigEndian.encode 2 word ++ rest) =
      if word.testBit 0 then (read rest).map fun (words, rest) => (word :: words, rest)
      else some ([word], rest) := by
  have hdecode := BigEndian.decode_encode 2 word hfit
  obtain ⟨high, low, hoctets⟩ : ∃ high low, BigEndian.encode 2 word = [high, low] := ⟨_, _, rfl⟩
  rw [hoctets] at hdecode ⊢
  rw [List.cons_append, List.cons_append, List.nil_append, read, hdecode]

/-- A reader finds chained words, and stops behind them. -/
theorem read_encode (hne : words ≠ []) (h : Chained words) (hfit : ∀ word ∈ words, word < 2 ^ 16)
    (rest : List UInt8) : read (words.flatMap (BigEndian.encode 2) ++ rest) = some (words, rest) := by
  induction words with
  | nil => exact absurd rfl hne
  | cons word words ih =>
      obtain ⟨hlow, hchained⟩ := chained_cons.mp h
      rw [List.flatMap_cons, List.append_assoc, read_word (hfit word (by simp))]
      by_cases hmore : words = []
      · subst hmore
        rw [if_neg (fun hset => hlow.mp hset rfl)]
        rfl
      · rw [if_pos (hlow.mpr hmore), ih hmore hchained fun word hword => hfit word (by simp [hword])]
        rfl

end Words

end FlagWords
