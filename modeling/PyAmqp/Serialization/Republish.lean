import PyAmqp.Serialization.Received
import PyAmqp.Serialization.TableRoundTrip

/-!
Received headers written again. The encoder has fewer type codes than the decoder, but all
that the decoder returns can be written, except integers past the signed 64 bits and tables
that outgrow their length field. It comes back as it was, except byte strings that are text.
-/

namespace PyAmqp

open Cursor

/-! Nested values -/

mutual

/-- `p` holds of the value and of all that is in it. -/
def Value.every (p : Value → Bool) : Value → Bool
  | .dict entries => p (.dict entries) && everyEntry p entries
  | .list items => p (.list items) && everyItem p items
  | .tuple items => p (.tuple items) && everyItem p items
  | v => p v

def everyEntry (p : Value → Bool) : List (PyStr × Value) → Bool
  | [] => true
  | (_, value) :: rest => value.every p && everyEntry p rest

def everyItem (p : Value → Bool) : List Value → Bool
  | [] => true
  | value :: rest => value.every p && everyItem p rest

end

theorem everyEntry_iff (p : Value → Bool) (entries : List (PyStr × Value)) :
    everyEntry p entries = true ↔ ∀ entry ∈ entries, entry.2.every p = true := by
  induction entries with
  | nil => simp [everyEntry]
  | cons entry rest ih => simp [everyEntry, ih]

theorem everyItem_iff (p : Value → Bool) (items : List Value) :
    everyItem p items = true ↔ ∀ value ∈ items, value.every p = true := by
  induction items with
  | nil => simp [everyItem]
  | cons value rest ih => simp [everyItem, ih]

mutual

/-- How many octets `_write_item` writes. -/
def Value.size : Value → Nat
  | .str text => 5 + (Utf8.encode text).length
  | .bytes octets => 5 + octets.length
  | .bool _ => 2
  | .float _ => 9
  | .int i => if i > 2147483647 ∨ i < -2147483647 then 9 else 5
  | .decimal _ => 6
  | .datetime _ => 9
  | .dict entries => 5 + entriesSize entries
  | .list items => 5 + itemsSize items
  | .tuple items => 5 + itemsSize items
  | .none => 1
  | .other _ _ => 0

def entriesSize : List (PyStr × Value) → Nat
  | [] => 0
  | (key, value) :: rest => 1 + (Utf8.encode key).length + value.size + entriesSize rest

def itemsSize : List Value → Nat
  | [] => 0
  | value :: rest => value.size + itemsSize rest

end

/-- An integer within the signed 64 bits, a table or an array within its length field. -/
def Value.fits : Value → Bool
  | .int i => i < 2 ^ 63
  | .dict entries => entriesSize entries < 2 ^ 32
  | .list items => itemsSize items < 2 ^ 32
  | .tuple items => itemsSize items < 2 ^ 32
  | _ => true

/-- No byte string that is text. -/
def Value.notText : Value → Bool
  | .bytes octets => (Utf8.decode octets).isNone
  | _ => true

mutual

/-- The value with its byte strings that are text turned into text. -/
def Value.asText : Value → Value
  | .bytes octets => strOrBytes octets
  | .dict entries => .dict (entriesAsText entries)
  | .list items => .list (itemsAsText items)
  | .tuple items => .tuple (itemsAsText items)
  | v => v

def entriesAsText : List (PyStr × Value) → List (PyStr × Value)
  | [] => []
  | (key, value) :: rest => (key, value.asText) :: entriesAsText rest

def itemsAsText : List Value → List Value
  | [] => []
  | value :: rest => value.asText :: itemsAsText rest

end

theorem entriesAsText_eq (entries : List (PyStr × Value)) :
    entriesAsText entries = entries.map fun entry => (entry.1, entry.2.asText) := by
  induction entries with
  | nil => rfl
  | cons entry rest ih => simp [entriesAsText, ih]

theorem itemsAsText_eq (items : List Value) : itemsAsText items = items.map Value.asText := by
  induction items with
  | nil => rfl
  | cons value rest ih => simp [itemsAsText, ih]

theorem map_eq_self {α : Type} (f : α → α) (xs : List α) :
    xs.map f = xs ↔ ∀ x ∈ xs, f x = x := by
  simpa using @List.map_inj_left _ _ xs f id

/-- Nothing changes in a value without byte strings that are text, and in no other. -/
theorem Value.asText_eq_iff (v : Value) : v.asText = v ↔ v.every Value.notText = true := by
  induction v using Value.inductionOn with
  | h v ih =>
    cases v with
    | bytes octets =>
        simp only [Value.asText, strOrBytes, Value.every, Value.notText]
        cases Utf8.decode octets <;> simp
    | dict entries =>
        have hentries : (∀ entry ∈ entries, (entry.1, entry.2.asText) = entry) ↔
            ∀ entry ∈ entries, entry.2.every Value.notText = true := by
          refine forall₂_congr fun entry hmem => ?_
          rw [← ih entry.2 (List.mem_map_of_mem hmem), Prod.ext_iff]
          simp
        simp only [Value.asText, Value.every, Value.notText, Bool.true_and, Value.dict.injEq,
          everyEntry_iff, entriesAsText_eq, ← hentries, map_eq_self]
    | list items =>
        simp only [Value.asText, Value.every, Value.notText, Bool.true_and, Value.list.injEq,
          everyItem_iff, itemsAsText_eq, map_eq_self]
        exact forall₂_congr fun value hmem => ih value hmem
    | tuple items =>
        simp only [Value.asText, Value.every, Value.notText, Bool.true_and, Value.tuple.injEq,
          everyItem_iff, itemsAsText_eq, map_eq_self]
        exact forall₂_congr fun value hmem => ih value hmem
    | _ => simp [Value.asText, Value.every, Value.notText]

/-! What is written -/

theorem writeSized_eq_ok {width : Nat} {data octets : Octets}
    (h : writeSized width data = .ok octets) :
    data.length < 256 ^ width ∧ octets.length = width + data.length := by
  obtain ⟨size, hpack, hoctets⟩ := bind_eq_ok h
  obtain ⟨hlt, rfl⟩ := pack_nat_ok hpack
  obtain rfl := Except.ok.inj hoctets
  exact ⟨hlt, by simp⟩

theorem packSigned_eq_ok {width : Nat} {i : Int} {octets : Octets}
    (h : packSigned width i = .ok octets) :
    2 * i < 256 ^ width ∧ octets.length = width := by
  unfold packSigned at h
  split at h
  next hrange =>
    obtain rfl := Except.ok.inj h
    exact ⟨hrange.2, by simp⟩
  next => simp at h

theorem pack_eq_ok {width : Nat} {i : Int} {octets : Octets} (h : pack width i = .ok octets) :
    octets.length = width := by
  unfold pack at h
  split at h
  next =>
    obtain rfl := Except.ok.inj h
    simp
  next => simp at h

theorem orSyntaxError_eq_ok {text : Except PyError ReplyText} {written : Except PyError Octets}
    {octets : Octets} (h : orSyntaxError text written = .ok octets) : written = .ok octets := by
  unfold orSyntaxError at h
  split at h
  · exact h
  · split at h
    · split at h <;> simp at h
    · simp at h

/-- The values of a table that is written are written. -/
theorem writeEntries_eq_ok {entries : List (PyStr × Value)} {data : Octets}
    (h : writeEntries entries = .ok data)
    (hsize : ∀ entry ∈ entries, ∀ octets, writeItem entry.2 = .ok octets →
      octets.length = entry.2.size) :
    data.length = entriesSize entries ∧
      ∀ entry ∈ entries, ∃ octets, writeItem entry.2 = .ok octets := by
  induction entries generalizing data with
  | nil =>
      obtain rfl := Except.ok.inj h
      exact ⟨rfl, by simp⟩
  | cons entry rest ih =>
      obtain ⟨key, value⟩ := entry
      obtain ⟨sizedKey, hkey, h⟩ := bind_eq_ok h
      obtain ⟨item, hitem, h⟩ := bind_eq_ok h
      obtain ⟨tail, htail, h⟩ := bind_eq_ok h
      obtain rfl := Except.ok.inj h
      have hvalue := orSyntaxError_eq_ok hitem
      obtain ⟨hlength, hwritten⟩ := ih htail fun entry hmem => hsize entry (by simp [hmem])
      refine ⟨?_, fun entry hmem => ?_⟩
      · simp only [List.length_append, entriesSize, (writeSized_eq_ok hkey).2, hlength,
          hsize (key, value) (by simp) item hvalue]
      · rcases List.mem_cons.mp hmem with rfl | hrest
        · exact ⟨item, hvalue⟩
        · exact hwritten entry hrest

theorem writeElements_eq_ok {items : List Value} {data : Octets}
    (h : writeElements items = .ok data)
    (hsize : ∀ value ∈ items, ∀ octets, writeItem value = .ok octets →
      octets.length = value.size) :
    data.length = itemsSize items ∧ ∀ value ∈ items, ∃ octets, writeItem value = .ok octets := by
  induction items generalizing data with
  | nil =>
      obtain rfl := Except.ok.inj h
      exact ⟨rfl, by simp⟩
  | cons value rest ih =>
      obtain ⟨item, hitem, h⟩ := bind_eq_ok h
      obtain ⟨tail, htail, h⟩ := bind_eq_ok h
      obtain rfl := Except.ok.inj h
      have hvalue := orSyntaxError_eq_ok hitem
      obtain ⟨hlength, hwritten⟩ := ih htail fun value hmem => hsize value (by simp [hmem])
      refine ⟨?_, fun value' hmem => ?_⟩
      · simp only [List.length_append, itemsSize, hlength, hsize value (by simp) item hvalue]
      · rcases List.mem_cons.mp hmem with rfl | hrest
        · exact ⟨item, hvalue⟩
        · exact hwritten value' hrest

/-- A value takes as many octets as `size` says. -/
theorem writeItem_size (v : Value) {octets : Octets} (h : writeItem v = .ok octets) :
    octets.length = v.size := by
  induction v using Value.inductionOn generalizing octets with
  | h v ih =>
    have hbody : ∀ {written : Except PyError Octets} {c : UInt8} {n : Nat},
        (written >>= fun body => pure (c :: body)) = .ok octets →
        (∀ body, written = .ok body → body.length = n) → octets.length = 1 + n := by
      intro written c n h hwritten
      obtain ⟨body, hok, h⟩ := bind_eq_ok h
      obtain rfl := Except.ok.inj h
      rw [List.length_cons, hwritten body hok, Nat.add_comm]
    have hsized : ∀ {data body : Octets}, writeSized 4 data = .ok body →
        body.length = 4 + data.length := fun h => (writeSized_eq_ok h).2
    cases v with
    | str text =>
        rw [hbody h fun body => hsized, Value.size]
        omega
    | bytes data =>
        rw [hbody h fun body => hsized, Value.size]
        omega
    | bool b =>
        obtain rfl := Except.ok.inj h
        rfl
    | float bits =>
        obtain rfl := Except.ok.inj h
        simp [Value.size]
    | int i =>
        simp only [writeItem] at h
        split at h
        next hlong => rw [hbody h fun body hok => (packSigned_eq_ok hok).2, Value.size, if_pos hlong]
        next hlong => rw [hbody h fun body hok => (packSigned_eq_ok hok).2, Value.size, if_neg hlong]
    | decimal d =>
        simp only [writeItem] at h
        split at h
        · simp at h
        · obtain ⟨places, hplaces, h⟩ := bind_eq_ok h
          obtain ⟨word, hword, h⟩ := bind_eq_ok h
          obtain rfl := Except.ok.inj h
          simp only [List.length_cons, List.length_append, pack_eq_ok hplaces,
            (packSigned_eq_ok hword).2, Value.size]
    | datetime t =>
        obtain ⟨seconds, -, h⟩ := bind_eq_ok h
        rw [hbody h fun body => pack_eq_ok, Value.size]
    | dict entries =>
        obtain ⟨data, hdata, h⟩ := bind_eq_ok h
        have hsize := (writeEntries_eq_ok hdata fun entry hmem octets hok =>
          ih entry.2 (List.mem_map_of_mem hmem) hok).1
        rw [hbody h fun body => hsized, hsize, Value.size]
        omega
    | list items =>
        obtain ⟨data, hdata, h⟩ := bind_eq_ok h
        have hsize := (writeElements_eq_ok hdata fun value hmem octets => ih value hmem).1
        rw [hbody h fun body => hsized, hsize, Value.size]
        omega
    | tuple items =>
        obtain ⟨data, hdata, h⟩ := bind_eq_ok h
        have hsize := (writeElements_eq_ok hdata fun value hmem octets => ih value hmem).1
        rw [hbody h fun body => hsized, hsize, Value.size]
        omega
    | none =>
        obtain rfl := Except.ok.inj h
        rfl
    | other cls repr => simp [writeItem] at h

theorem writeEntries_size {entries : List (PyStr × Value)} {data : Octets}
    (h : writeEntries entries = .ok data) :
    data.length = entriesSize entries ∧
      ∀ entry ∈ entries, ∃ octets, writeItem entry.2 = .ok octets :=
  writeEntries_eq_ok h fun entry _ _ => writeItem_size entry.2

theorem writeElements_size {items : List Value} {data : Octets}
    (h : writeElements items = .ok data) :
    data.length = itemsSize items ∧ ∀ value ∈ items, ∃ octets, writeItem value = .ok octets :=
  writeElements_eq_ok h fun value _ _ => writeItem_size value

/-! Decimals and dates -/

namespace Decimal

theorem shed_le (coefficient places : Nat) :
    (shed coefficient places).1 ≤ coefficient ∧ (shed coefficient places).2 ≤ places := by
  induction places generalizing coefficient with
  | zero => exact ⟨le_refl _, le_refl _⟩
  | succ places ih =>
      unfold shed
      split
      · obtain ⟨hcoefficient, hplaces⟩ := ih (coefficient / 10)
        exact ⟨by omega, by omega⟩
      · exact ⟨le_refl _, le_refl _⟩

theorem shed_pos {coefficient : Nat} (h : 0 < coefficient) (places : Nat) :
    0 < (shed coefficient places).1 := by
  induction places generalizing coefficient with
  | zero => exact h
  | succ places ih =>
      unfold shed
      split
      · exact ih (by omega)
      · exact h

/-- No more zeros are shed the second time. -/
theorem shed_shed (coefficient places : Nat) :
    shed (shed coefficient places).1 (shed coefficient places).2 = shed coefficient places := by
  induction places generalizing coefficient with
  | zero => rfl
  | succ places ih =>
      rw [shed]
      split
      next => exact ih _
      next hdigit => rw [shed, if_neg hdigit]

theorem shed_sign (n : Int) (places : Nat) :
    (signed (decide (n < 0)) (shed n.natAbs places).1 < 0 ↔ n < 0) ∧
      (signed (decide (n < 0)) (shed n.natAbs places).1).natAbs = (shed n.natAbs places).1 := by
  by_cases hn : n < 0
  · have hpos := shed_pos (show 0 < n.natAbs by omega) places
    simp only [hn, signed, decide_true, if_true, iff_true]
    exact ⟨by omega, by simp⟩
  · simp only [hn, signed, decide_false]
    exact ⟨by simp, by simp⟩

/-- The decimal that the decoder makes of `n` and `places`, taken apart and put together
again. -/
theorem divPow10_again (n : Int) (places : Nat) :
    divPow10 (signed (decide (n < 0)) (shed n.natAbs places).1) (shed n.natAbs places).2 =
      divPow10 n places := by
  obtain ⟨hsign, habs⟩ := shed_sign n places
  simp only [divPow10, habs, shed_shed, hsign]

end Decimal

theorem DateTime.fromtimestamp_eq_ok {seconds : Nat} {t : DateTime}
    (h : DateTime.fromtimestamp seconds = .ok t) :
    t.utcMicros = seconds * 1000000 ∧ seconds < 253402300800 := by
  unfold DateTime.fromtimestamp at h
  split at h
  next hlt =>
    obtain rfl := Except.ok.inj h
    exact ⟨by simp [DateTime.utcMicros], hlt⟩
  next => split_ifs at h

/-! Received values -/

theorem Value.Received.decimal_parts {d : Decimal} (h : (Value.decimal d).Received) :
    ∃ negative coefficient exponent, d = .finite negative coefficient exponent ∧
      (Value.decimal d).Encodable ∧
      Decimal.divPow10 (Decimal.signed negative coefficient) (-exponent).toNat = d := by
  cases h with
  | @decimal n places hlow hhigh hplaces =>
    obtain ⟨hcoefficient, hle⟩ := Decimal.shed_le n.natAbs places
    obtain ⟨hsign, habs⟩ := Decimal.shed_sign n places
    refine ⟨_, _, _, rfl, ⟨by omega, by omega, by omega, by omega⟩, ?_⟩
    rw [neg_neg, Int.toNat_natCast]
    exact Decimal.divPow10_again n places

theorem Value.Received.datetime_parts {t : DateTime} (h : (Value.datetime t).Received) :
    (Value.datetime t).Encodable ∧
      DateTime.fromtimestamp (t.utcMicros / 1000000).toNat = .ok t := by
  cases h with
  | @datetime seconds _ hseconds =>
    obtain ⟨hmicros, hlt⟩ := DateTime.fromtimestamp_eq_ok hseconds
    refine ⟨⟨by omega, by omega⟩, ?_⟩
    rw [hmicros, Int.mul_ediv_cancel _ (by decide), Int.toNat_natCast]
    exact hseconds

/-- The decoder makes of a received value what it is, with byte strings that are text turned
into text. -/
theorem Value.Received.readBack {v : Value} (h : v.Received) : v.readBack = v.asText := by
  induction h with
  | decimal hlow hhigh hplaces =>
      obtain ⟨negative, coefficient, exponent, hd, -, hagain⟩ :=
        (Value.Received.decimal hlow hhigh hplaces).decimal_parts
      rw [hd] at hagain ⊢
      simp only [Value.readBack, Value.asText, hagain]
  | datetime hseconds =>
      simp only [Value.readBack, (Value.Received.datetime hseconds).datetime_parts.2, Value.asText]
  | dict hkeys hvalues hnodup ih =>
      simp only [Value.readBack, Value.asText, readBackEntries_eq, entriesAsText_eq]
      exact congrArg Value.dict (List.map_congr_left fun entry hmem => by rw [ih entry hmem])
  | list hvalues ih =>
      simp only [Value.readBack, Value.asText, readBackItems_eq, itemsAsText_eq]
      exact congrArg Value.list (List.map_congr_left fun value hmem => ih value hmem)
  | _ => rfl

/-- A received value that is written is in the domain of the encoder. -/
theorem Value.Received.encodable {v : Value} (h : v.Received) {octets : Octets}
    (hwritten : writeItem v = .ok octets) : v.Encodable := by
  induction h generalizing octets with
  | none | bool | float => trivial
  | str hlength | bytes hlength => exact hlength
  | int hlow hhigh =>
      refine ⟨hlow, ?_⟩
      simp only [writeItem] at hwritten
      split at hwritten
      · obtain ⟨word, hword, -⟩ := bind_eq_ok hwritten
        have hrange := (packSigned_eq_ok hword).1
        omega
      · omega
  | decimal hlow hhigh hplaces =>
      obtain ⟨-, -, -, -, hencodable, -⟩ := (Value.Received.decimal hlow hhigh hplaces).decimal_parts
      exact hencodable
  | datetime hseconds => exact (Value.Received.datetime hseconds).datetime_parts.1
  | dict hkeys hvalues hnodup ih =>
      obtain ⟨data, hdata, hsized⟩ := bind_eq_ok hwritten
      obtain ⟨sizedData, hsized, -⟩ := bind_eq_ok hsized
      refine (encodable_dict _).mpr ⟨fun entry hmem => ⟨hkeys entry hmem, ?_⟩, hnodup, ?_⟩
      · obtain ⟨item, hitem⟩ := (writeEntries_size hdata).2 entry hmem
        exact ih entry hmem hitem
      · intro data' hdata'
        obtain rfl := Except.ok.inj (hdata.symm.trans hdata')
        exact four_octets_lt (writeSized_eq_ok hsized).1
  | list hvalues ih =>
      obtain ⟨data, hdata, hsized⟩ := bind_eq_ok hwritten
      obtain ⟨sizedData, hsized, -⟩ := bind_eq_ok hsized
      refine (encodable_list _).mpr ⟨fun value hmem => ?_, ?_⟩
      · obtain ⟨item, hitem⟩ := (writeElements_size hdata).2 value hmem
        exact ih value hmem hitem
      · intro data' hdata'
        obtain rfl := Except.ok.inj (hdata.symm.trans hdata')
        exact four_octets_lt (writeSized_eq_ok hsized).1

/-- The domain of the encoder, for received values. -/
theorem Value.Received.encodable_iff {v : Value} (h : v.Received) :
    v.Encodable ↔ v.every Value.fits = true := by
  induction h with
  | none | bool | float => simp [Value.Encodable, Value.every, Value.fits]
  | int hlow _ =>
      simp only [Value.Encodable, Value.every, Value.fits, decide_eq_true_eq]
      exact and_iff_right hlow
  | str hlength | bytes hlength => simpa [Value.Encodable, Value.every, Value.fits] using hlength
  | decimal hlow hhigh hplaces =>
      obtain ⟨-, -, -, -, hencodable, -⟩ := (Value.Received.decimal hlow hhigh hplaces).decimal_parts
      exact iff_of_true hencodable rfl
  | datetime hseconds =>
      exact iff_of_true (Value.Received.datetime hseconds).datetime_parts.1 rfl
  | @dict entries hkeys hvalues hnodup ih =>
      simp only [Value.every, Value.fits, Bool.and_eq_true, everyEntry_iff, decide_eq_true_eq]
      constructor
      · intro h
        have hdata := writeEntries_encodable h
        obtain ⟨hentries, -, hsize⟩ := (encodable_dict entries).mp h
        rw [← (writeEntries_size hdata).1]
        exact ⟨hsize _ hdata, fun entry hmem => (ih entry hmem).mp (hentries entry hmem).2⟩
      · rintro ⟨hsize, hentries⟩
        refine (encodable_dict entries).mpr
          ⟨fun entry hmem => ⟨hkeys entry hmem, (ih entry hmem).mpr (hentries entry hmem)⟩, hnodup, ?_⟩
        intro data hdata
        rwa [(writeEntries_size hdata).1]
  | @list items hvalues ih =>
      simp only [Value.every, Value.fits, Bool.and_eq_true, everyItem_iff, decide_eq_true_eq]
      constructor
      · intro h
        obtain ⟨hitems, hsize⟩ := (encodable_list items).mp h
        have hdata := writeElements_ok items fun value hmem =>
          (roundTrips value (hitems value hmem)).writeItem_eq
        rw [← (writeElements_size hdata).1]
        exact ⟨hsize _ hdata, fun value hmem => (ih value hmem).mp (hitems value hmem)⟩
      · rintro ⟨hsize, hitems⟩
        refine (encodable_list items).mpr
          ⟨fun value hmem => (ih value hmem).mpr (hitems value hmem), ?_⟩
        intro data hdata
        rwa [(writeElements_size hdata).1]

/-! Tables -/

/-- What `loads` returns for a table was received. -/
theorem loads_table_received {buf : Octets} {offset next : Nat} {v : Value}
    (h : loads ['F'] buf offset = .ok ([v], next)) :
    ∃ entries, v = .dict entries ∧ v.Received := by
  have hstep : (loadsStep 'F' {}).Returns fun r => ∃ entries, r.1 = .dict entries ∧ r.1.Received :=
    .map (fun table => (Value.dict table, ({} : Bits))) (readTable_returns readItem_received)
      fun entries hentries => ⟨entries, rfl, .dict hentries.1 hentries.2 hentries.3⟩
  have hloads : (loads ['F']).Returns fun values =>
      ∃ u entries, values = [u] ∧ u = .dict entries ∧ u.Received :=
    .map (fun r : Value × Bits => [r.1]) hstep fun r ⟨entries, hr, hreceived⟩ =>
      ⟨r.1, entries, rfl, hr, hreceived⟩
  obtain ⟨u, entries, hu, hentries, hreceived⟩ := hloads _ _ _ _ h
  obtain rfl : v = u := by simpa using hu
  exact ⟨entries, hentries, hreceived⟩

theorem dumps_table (entries : List (PyStr × Value)) :
    dumps ['F'] [.dict entries] = writeTable (.dict entries) := by
  cases hwrite : writeTable (.dict entries) <;>
    simp [dumps, dumpsLoop, dumpsStep, dumpsField, hwrite, Dumper.flushbits, Dumper.write]

/-- A table that was received can be written again if and only if every integer in it is
within the signed 64 bits and every table and array within its length field. -/
theorem dumps_received_iff {buf : Octets} {offset next : Nat} {v : Value}
    (h : loads ['F'] buf offset = .ok ([v], next)) :
    (∃ octets, dumps ['F'] [v] = .ok octets) ↔ v.every Value.fits = true := by
  obtain ⟨entries, rfl, hreceived⟩ := loads_table_received h
  rw [← hreceived.encodable_iff, dumps_table]
  constructor
  · rintro ⟨octets, hwrite⟩
    obtain ⟨data, hdata, hsized⟩ := bind_eq_ok hwrite
    have hitem : writeItem (.dict entries) = .ok (code 'F' :: octets) := by
      simp only [writeItem, hdata, ok_bind, hsized]
      rfl
    exact hreceived.encodable hitem
  · intro hencodable
    exact ⟨_, writeTable_ok hencodable⟩

/-- A table that was received, if it can be written, comes back from what is written with
its byte strings that are text turned into text, and the same for the rest: as it was, if
and only if it has no such byte string. -/
theorem loads_republished (buf : Octets) (offset next : Nat) (v : Value)
    (h : loads ['F'] buf offset = .ok ([v], next)) (hfits : v.every Value.fits = true) :
    ∃ octets, dumps ['F'] [v] = .ok octets ∧
      loads ['F'] octets 0 = .ok ([v.asText], octets.length) ∧
      (v.asText = v ↔ v.every Value.notText = true) := by
  obtain ⟨entries, rfl, hreceived⟩ := loads_table_received h
  have hencodable := hreceived.encodable_iff.mpr hfits
  refine ⟨tableOctets entries, ?_, ?_, Value.asText_eq_iff _⟩
  · rw [dumps_table, writeTable_ok hencodable]
  · have hfield := Reads.bind_pure (fun table => (Value.dict table, ({} : Bits)))
      (reads_tableOctets hencodable)
    have hloads : Reads (loads ['F']) (tableOctets entries) [(Value.dict entries).readBack] :=
      Reads.bind_pure (fun r : Value × Bits => [r.1]) hfield
    rw [← hreceived.readBack]
    simpa only [List.nil_append, List.append_nil, List.length_nil, Nat.zero_add] using hloads [] []

/-- An integer of a type code that the encoder does not use, octets that are no text, and a
decimal with a zero to shed. -/
theorem loads_republished_codes :
    let v : Value := .dict [(PyStr.ofString "n", .int 5), (PyStr.ofString "x", .bytes [0xff]),
      (PyStr.ofString "d", .decimal (.finite false 15 (-1)))]
    ∃ octets, dumps ['F'] [v] = .ok octets ∧
      loads ['F'] octets 0 = .ok ([v.asText], octets.length) ∧
      (v.asText = v ↔ v.every Value.notText = true) :=
  loads_republished
    [0, 0, 0, 27, 1, 110, 108, 0, 0, 0, 0, 0, 0, 0, 5, 1, 120, 120, 0, 0, 0, 1, 0xff,
      1, 100, 68, 2, 0, 0, 0, 150] 0 31 _ rfl (by decide)

/-- A byte array with the octet of a letter comes back as text. -/
theorem loads_republished_letter :
    ¬ ∀ (buf : Octets) (next : Nat) (v : Value), loads ['F'] buf 0 = .ok ([v], next) →
      ∃ octets next', dumps ['F'] [v] = .ok octets ∧ loads ['F'] octets 0 = .ok ([v], next') := by
  intro hclaim
  obtain ⟨octets, next', hdumps, hloads⟩ := hclaim
    [0, 0, 0, 8, 1, 107, 120, 0, 0, 0, 1, 97] 12 (.dict [(PyStr.ofString "k", .bytes [97])]) rfl
  obtain rfl : [0, 0, 0, 8, 1, 107, 83, 0, 0, 0, 1, 97] = octets := Except.ok.inj hdumps
  have htext : loads ['F'] [0, 0, 0, 8, 1, 107, 83, 0, 0, 0, 1, 97] 0 =
      .ok ([.dict [(PyStr.ofString "k", .str [97])]], 12) := rfl
  rw [htext] at hloads
  simp at hloads

end PyAmqp
