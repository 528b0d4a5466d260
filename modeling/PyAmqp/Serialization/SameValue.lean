import PyAmqp.Serialization.TableRoundTrip

/-!
Equal values. Decimals are compared by the number they stand for, and containers by
what they hold, key by key in order. A value without bytes, tuples and dates comes back
from a table equal to what was written.
-/

namespace PyAmqp

mutual

/-- `v == u` -/
def Value.Same : Value → Value → Prop
  | .decimal d, u => ∃ d' q, u = .decimal d' ∧ d.value = some q ∧ d'.value = some q
  | .dict entries, u => ∃ entries', u = .dict entries' ∧ SameEntries entries entries'
  | .list items, u => ∃ items', u = .list items' ∧ SameItems items items'
  | v, u => u = v

def SameEntries : List (PyStr × Value) → List (PyStr × Value) → Prop
  | [], entries' => entries' = []
  | (key, value) :: rest, entries' =>
      ∃ value' rest', entries' = (key, value') :: rest' ∧ value.Same value' ∧
        SameEntries rest rest'

def SameItems : List Value → List Value → Prop
  | [], items' => items' = []
  | value :: rest, items' =>
      ∃ value' rest', items' = value' :: rest' ∧ value.Same value' ∧ SameItems rest rest'

end

mutual

/-- No bytes, tuple or date anywhere in it. -/
def Value.Plain : Value → Bool
  | .bytes _ | .tuple _ | .datetime _ => false
  | .dict entries => PlainEntries entries
  | .list items => PlainItems items
  | _ => true

def PlainEntries : List (PyStr × Value) → Bool
  | [] => true
  | (_, value) :: rest => value.Plain && PlainEntries rest

def PlainItems : List Value → Bool
  | [] => true
  | value :: rest => value.Plain && PlainItems rest

end

theorem sameEntries_symm (entries : List (PyStr × Value))
    (ih : ∀ entry ∈ entries, ∀ u, entry.2.Same u → u.Same entry.2) {entries' : List (PyStr × Value)}
    (h : SameEntries entries entries') : SameEntries entries' entries := by
  induction entries generalizing entries' with
  | nil =>
      obtain rfl : entries' = [] := h
      rfl
  | cons entry rest ihrest =>
      obtain ⟨value', rest', rfl, hvalue, hrest⟩ := h
      exact ⟨entry.2, rest, rfl, ih entry (by simp) _ hvalue,
        ihrest (fun e he => ih e (by simp [he])) hrest⟩

theorem sameItems_symm (items : List Value)
    (ih : ∀ value ∈ items, ∀ u, value.Same u → u.Same value) {items' : List Value}
    (h : SameItems items items') : SameItems items' items := by
  induction items generalizing items' with
  | nil =>
      obtain rfl : items' = [] := h
      rfl
  | cons value rest ihrest =>
      obtain ⟨value', rest', rfl, hvalue, hrest⟩ := h
      exact ⟨value, rest, rfl, ih value (by simp) _ hvalue,
        ihrest (fun v hv => ih v (by simp [hv])) hrest⟩

theorem Value.Same.symm {v u : Value} (h : v.Same u) : u.Same v := by
  induction v using Value.inductionOn generalizing u with
  | h v ih =>
    cases v with
    | decimal d =>
        obtain ⟨d', q, rfl, hd, hd'⟩ := h
        exact ⟨d, q, rfl, hd', hd⟩
    | dict entries =>
        obtain ⟨entries', rfl, hentries⟩ := h
        exact ⟨entries, rfl, sameEntries_symm entries
          (fun entry hentry u hu => ih entry.2 (List.mem_map_of_mem hentry) hu) hentries⟩
    | list items =>
        obtain ⟨items', rfl, hitems⟩ := h
        exact ⟨items, rfl, sameItems_symm items (fun value hvalue u hu => ih value hvalue hu) hitems⟩
    | _ =>
        obtain rfl := h
        rfl

theorem sameEntries_trans (entries : List (PyStr × Value))
    (ih : ∀ entry ∈ entries, ∀ u w, entry.2.Same u → u.Same w → entry.2.Same w)
    {entries' entries'' : List (PyStr × Value)} (h : SameEntries entries entries')
    (h' : SameEntries entries' entries'') : SameEntries entries entries'' := by
  induction entries generalizing entries' entries'' with
  | nil =>
      obtain rfl : entries' = [] := h
      exact h'
  | cons entry rest ihrest =>
      obtain ⟨value', rest', rfl, hvalue, hrest⟩ := h
      obtain ⟨value'', rest'', rfl, hvalue', hrest'⟩ := h'
      exact ⟨value'', rest'', rfl, ih entry (by simp) _ _ hvalue hvalue',
        ihrest (fun e he => ih e (by simp [he])) hrest hrest'⟩

theorem sameItems_trans (items : List Value)
    (ih : ∀ value ∈ items, ∀ u w, value.Same u → u.Same w → value.Same w)
    {items' items'' : List Value} (h : SameItems items items') (h' : SameItems items' items'') :
    SameItems items items'' := by
  induction items generalizing items' items'' with
  | nil =>
      obtain rfl : items' = [] := h
      exact h'
  | cons value rest ihrest =>
      obtain ⟨value', rest', rfl, hvalue, hrest⟩ := h
      obtain ⟨value'', rest'', rfl, hvalue', hrest'⟩ := h'
      exact ⟨value'', rest'', rfl, ih value (by simp) _ _ hvalue hvalue',
        ihrest (fun v hv => ih v (by simp [hv])) hrest hrest'⟩

theorem Value.Same.trans {v u w : Value} (h : v.Same u) (h' : u.Same w) : v.Same w := by
  induction v using Value.inductionOn generalizing u w with
  | h v ih =>
    cases v with
    | decimal d =>
        obtain ⟨d', q, rfl, hd, hd'⟩ := h
        obtain ⟨d'', q', rfl, hq, hd''⟩ := h'
        obtain rfl : q' = q := Option.some.inj (hq.symm.trans hd')
        exact ⟨d'', q', rfl, hd, hd''⟩
    | dict entries =>
        obtain ⟨entries', rfl, hentries⟩ := h
        obtain ⟨entries'', rfl, hentries'⟩ := h'
        exact ⟨entries'', rfl, sameEntries_trans entries
          (fun entry hentry u w hu hw => ih entry.2 (List.mem_map_of_mem hentry) hu hw)
          hentries hentries'⟩
    | list items =>
        obtain ⟨items', rfl, hitems⟩ := h
        obtain ⟨items'', rfl, hitems'⟩ := h'
        exact ⟨items'', rfl, sameItems_trans items
          (fun value hvalue u w hu hw => ih value hvalue hu hw) hitems hitems'⟩
    | _ =>
        obtain rfl := h
        exact h'

theorem plainEntries_iff (entries : List (PyStr × Value)) :
    PlainEntries entries = true ↔ ∀ entry ∈ entries, entry.2.Plain = true := by
  induction entries with
  | nil => simp [PlainEntries]
  | cons entry rest ih => simp [PlainEntries, ih]

theorem plainItems_iff (items : List Value) :
    PlainItems items = true ↔ ∀ value ∈ items, value.Plain = true := by
  induction items with
  | nil => simp [PlainItems]
  | cons value rest ih => simp [PlainItems, ih]

private theorem sameEntries_readBack (entries : List (PyStr × Value))
    (h : ∀ entry ∈ entries, ∀ u, entry.2.ReadBack u → entry.2.Same u)
    {entries' : List (PyStr × Value)} (hback : EntriesReadBack entries entries') :
    SameEntries entries entries' := by
  induction entries generalizing entries' with
  | nil => exact hback
  | cons entry rest ih =>
      obtain ⟨value', rest', rfl, hvalue, hrest⟩ := hback
      exact ⟨value', rest', rfl, h entry (by simp) _ hvalue,
        ih (fun e he => h e (by simp [he])) hrest⟩

private theorem sameItems_readBack (items : List Value)
    (h : ∀ value ∈ items, ∀ u, value.ReadBack u → value.Same u) {items' : List Value}
    (hback : ItemsReadBack items items') : SameItems items items' := by
  induction items generalizing items' with
  | nil => exact hback
  | cons value rest ih =>
      obtain ⟨value', rest', rfl, hvalue, hrest⟩ := hback
      exact ⟨value', rest', rfl, h value (by simp) _ hvalue,
        ih (fun v hv => h v (by simp [hv])) hrest⟩

/-- A plain value comes back from a table equal to itself. -/
theorem Value.ReadBack.same {v u : Value} (h : v.ReadBack u) (hv : v.Encodable)
    (hplain : v.Plain = true) : v.Same u := by
  induction v using Value.inductionOn generalizing u with
  | h v ih =>
    cases v with
    | decimal d =>
        cases d with
        | finite negative coefficient exponent =>
            obtain ⟨d', rfl, hvalue⟩ := h
            exact ⟨d', _, rfl, rfl, hvalue⟩
        | _ => exact hv.elim
    | dict entries =>
        obtain ⟨entries', rfl, hentries⟩ := h
        refine ⟨entries', rfl, sameEntries_readBack entries (fun entry hentry u hu => ?_) hentries⟩
        have hmem : entry.2 ∈ (Value.dict entries).children := List.mem_map_of_mem hentry
        exact ih entry.2 hmem hu (hv.children _ hmem) ((plainEntries_iff entries).mp hplain _ hentry)
    | list items =>
        obtain ⟨items', rfl, hitems⟩ := h
        refine ⟨items', rfl, sameItems_readBack items (fun value hvalue u hu => ?_) hitems⟩
        exact ih value hvalue hu (hv.children _ hvalue) ((plainItems_iff items).mp hplain _ hvalue)
    | bytes | tuple | datetime => simp [Value.Plain] at hplain
    | _ => exact h

end PyAmqp
