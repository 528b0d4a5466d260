import Mathlib.Data.List.Nodup

/-!
Insertion-ordered dictionaries as association lists: setting a key that is there
keeps its place, setting a new one appends it.
-/

namespace Assoc

variable {κ α : Type} [DecidableEq κ]

def get? : List (κ × α) → κ → Option α
  | [], _ => none
  | (k, a) :: rest, key => if k = key then some a else get? rest key

def set : List (κ × α) → κ → α → List (κ × α)
  | [], key, value => [(key, value)]
  | (k, a) :: rest, key, value =>
      if k = key then (k, value) :: rest else (k, a) :: set rest key value

/-- The value under a key that is there; a new key gets the default. -/
def setdefault (d : List (κ × α)) (key : κ) (default : α) : α × List (κ × α) :=
  match get? d key with
  | some value => (value, d)
  | none => (default, set d key default)

/-- `pop(key, None)`, without the value. -/
def erase (d : List (κ × α)) (key : κ) : List (κ × α) := d.filter fun entry => entry.1 ≠ key

def keys (d : List (κ × α)) : List κ := d.map Prod.fst

theorem set_fresh (d : List (κ × α)) (key : κ) (value : α) (h : key ∉ keys d) :
    set d key value = d ++ [(key, value)] := by
  induction d with
  | nil => rfl
  | cons entry rest ih =>
      obtain ⟨k, a⟩ := entry
      simp only [keys, List.map_cons, List.mem_cons, not_or] at h
      simp only [set, if_neg (Ne.symm h.1), List.cons_append, ih h.2]

/-- Setting distinct new keys one after the other appends them in order. -/
theorem foldl_set_fresh (d added : List (κ × α)) (hnodup : (keys added).Nodup)
    (hfresh : ∀ key ∈ keys added, key ∉ keys d) :
    added.foldl (fun d entry => set d entry.1 entry.2) d = d ++ added := by
  induction added generalizing d with
  | nil => simp
  | cons entry rest ih =>
      simp only [keys, List.map_cons, List.nodup_cons, List.mem_cons, forall_eq_or_imp]
        at hnodup hfresh
      rw [List.foldl_cons, set_fresh d entry.1 entry.2 hfresh.1]
      rw [ih _ hnodup.2 ?_]
      · simp
      · intro key hkey
        have hne : key ≠ entry.1 := fun h => hnodup.1 (h ▸ hkey)
        simpa [keys, hne] using hfresh.2 key hkey

@[simp] theorem get?_set_self (d : List (κ × α)) (key : κ) (value : α) :
    get? (set d key value) key = some value := by
  induction d with
  | nil => simp [set, get?]
  | cons entry rest ih =>
      rw [set]
      split
      next hk => simp [get?, hk]
      next hk => rw [get?, if_neg hk, ih]

theorem get?_set_ne (d : List (κ × α)) {key other : κ} (value : α) (h : key ≠ other) :
    get? (set d key value) other = get? d other := by
  induction d with
  | nil => simp [set, get?, h]
  | cons entry rest ih =>
      rw [set]
      split
      next hk => simp [get?, hk, h]
      next => rw [get?, get?, ih]

theorem mem_of_get? {d : List (κ × α)} {key : κ} {value : α} (h : get? d key = some value) :
    (key, value) ∈ d := by
  induction d with
  | nil => simp [get?] at h
  | cons entry rest ih =>
      obtain ⟨k, a⟩ := entry
      rw [get?] at h
      split at h
      next hk =>
        obtain rfl := Option.some.inj h
        simp [hk]
      next => simp [ih h]

theorem mem_set {d : List (κ × α)} {key : κ} {value : α} {entry : κ × α}
    (h : entry ∈ set d key value) : entry = (key, value) ∨ entry ∈ d := by
  induction d with
  | nil => exact .inl (by simpa [set] using h)
  | cons first rest ih =>
      rw [set] at h
      split at h
      next hk =>
        rcases List.mem_cons.mp h with rfl | hrest
        · exact .inl (by rw [hk])
        · exact .inr (List.mem_cons_of_mem _ hrest)
      next =>
        rcases List.mem_cons.mp h with rfl | hrest
        · exact .inr List.mem_cons_self
        · exact (ih hrest).imp_right (List.mem_cons_of_mem _)

theorem keys_set (d : List (κ × α)) (key : κ) (value : α) :
    keys (set d key value) = if key ∈ keys d then keys d else keys d ++ [key] := by
  induction d with
  | nil => rfl
  | cons first rest ih =>
      rw [set]
      by_cases hk : first.1 = key
      · simp [keys, hk]
      · have hk' : key ≠ first.1 := Ne.symm hk
        simp only [keys] at ih
        simp only [if_neg hk, keys, List.map_cons, ih, List.mem_cons, hk', false_or]
        exact apply_ite (first.1 :: ·) ..

theorem nodup_set {d : List (κ × α)} (h : (keys d).Nodup) (key : κ) (value : α) :
    (keys (set d key value)).Nodup := by
  rw [keys_set]
  split
  next => exact h
  next hnew => exact List.nodup_append_comm.mp (List.nodup_cons.mpr ⟨hnew, h⟩)

theorem keys_erase (d : List (κ × α)) (key : κ) :
    keys (erase d key) = (keys d).filter fun k => k ≠ key := by
  induction d with
  | nil => rfl
  | cons entry rest ih =>
      simp only [keys, erase, List.map_cons, List.filter_cons] at ih ⊢
      split
      · rw [List.map_cons, ih]
      · exact ih

theorem mem_keys_set {d : List (κ × α)} {key other : κ} {value : α} :
    other ∈ keys (set d key value) ↔ other ∈ keys d ∨ other = key := by
  rw [keys_set]
  split
  next hmem =>
    refine ⟨.inl, ?_⟩
    rintro (h | rfl)
    · exact h
    · exact hmem
  next => rw [List.mem_append, List.mem_singleton]

/-- The keys after `dict.update`. -/
theorem mem_keys_foldl_set {d added : List (κ × α)} {key : κ} :
    key ∈ keys (added.foldl (fun d entry => set d entry.1 entry.2) d) ↔
      key ∈ keys d ∨ key ∈ keys added := by
  induction added generalizing d with
  | nil => simp [keys]
  | cons entry rest ih =>
      rw [List.foldl_cons, ih, mem_keys_set]
      simp only [keys, List.map_cons, List.mem_cons]
      tauto

@[simp] theorem get?_erase_self (d : List (κ × α)) (key : κ) : get? (erase d key) key = none := by
  induction d with
  | nil => rfl
  | cons entry rest ih =>
      rw [erase, List.filter_cons]
      split
      next hne => rwa [get?, if_neg (by simpa using hne)]
      next => exact ih

theorem get?_erase_ne (d : List (κ × α)) {key other : κ} (h : key ≠ other) :
    get? (erase d key) other = get? d other := by
  induction d with
  | nil => rfl
  | cons entry rest ih =>
      rw [erase, List.filter_cons]
      split
      next => rw [get?, get?, ← ih, erase]
      next heq =>
        have hkey : entry.1 = key := by simpa using heq
        rw [get?, if_neg (hkey ▸ h), ← ih, erase]

end Assoc
