import PyAmqp.Serialization.Republish

/-!
What `_write_item` accepts. A Python dictionary has no key twice; apart from that the encoder
checks all that its decoder needs, so a table that is written can be read.
-/

namespace PyAmqp

open Cursor

/-- A dictionary has no key twice. -/
def Value.distinctKeys : Value → Bool
  | .dict entries => (Assoc.keys entries).Nodup
  | _ => true

theorem writeEntries_keys {entries : List (PyStr × Value)} {data : Octets}
    (h : writeEntries entries = .ok data) : ∀ entry ∈ entries, (Utf8.encode entry.1).length ≤ 255 := by
  induction entries generalizing data with
  | nil => simp
  | cons entry rest ih =>
      obtain ⟨key, value⟩ := entry
      obtain ⟨sizedKey, hkey, h⟩ := bind_eq_ok h
      obtain ⟨item, -, h⟩ := bind_eq_ok h
      obtain ⟨tail, htail, -⟩ := bind_eq_ok h
      have hlength := (writeSized_eq_ok hkey).1
      intro entry hmem
      rcases List.mem_cons.mp hmem with rfl | hrest
      · simp only at hlength ⊢
        omega
      · exact ih htail entry hrest

theorem pack_range {width : Nat} {i : Int} {octets : Octets} (h : pack width i = .ok octets) :
    0 ≤ i ∧ i < 256 ^ width := by
  unfold pack at h
  split at h
  next hrange => exact hrange
  next => simp at h

theorem packSigned_range {width : Nat} {i : Int} {octets : Octets}
    (h : packSigned width i = .ok octets) : -(256 ^ width) ≤ 2 * i ∧ 2 * i < 256 ^ width := by
  unfold packSigned at h
  split at h
  next hrange => exact hrange
  next => simp at h

namespace Value

theorem encodable_int {i : Int} {octets : Octets} (h : writeItem (.int i) = .ok octets) :
    (Value.int i).Encodable := by
  simp only [writeItem] at h
  split at h
  · obtain ⟨word, hword, -⟩ := bind_eq_ok h
    have hrange := packSigned_range hword
    constructor <;> omega
  · constructor <;> omega

theorem encodable_decimal {d : Decimal} {octets : Octets}
    (h : writeItem (.decimal d) = .ok octets) : (Value.decimal d).Encodable := by
  cases d with
  | finite negative coefficient exponent =>
      obtain ⟨places, hplaces, h⟩ := bind_eq_ok h
      obtain ⟨word, hword, -⟩ := bind_eq_ok h
      have hexponent := pack_range hplaces
      have hrange := packSigned_range hword
      simp only [Decimal.foldl_digits] at hrange
      simp only [Encodable]
      omega
  | infinite negative => simp [writeItem, Decimal.asTuple] at h
  | nan negative signaling payload => simp [writeItem, Decimal.asTuple] at h

theorem encodable_datetime {t : DateTime} {octets : Octets}
    (h : writeItem (.datetime t) = .ok octets) : (Value.datetime t).Encodable := by
  obtain ⟨seconds, hseconds, h⟩ := bind_eq_ok h
  obtain ⟨word, hword, -⟩ := bind_eq_ok h
  have hrange := pack_range hword
  unfold DateTime.timegm at hseconds
  split at hseconds
  next hyears =>
    obtain rfl := Except.ok.inj hseconds
    constructor <;> omega
  next => cases hseconds

/-- A value that is written is in the domain of the encoder. -/
theorem encodable_of_written {v : Value} (hkeys : v.every distinctKeys = true) {octets : Octets}
    (h : writeItem v = .ok octets) : v.Encodable := by
  induction v using Value.inductionOn generalizing octets with
  | h v ih =>
    cases v with
    | none | bool | float => trivial
    | str text =>
        obtain ⟨body, hbody, -⟩ := bind_eq_ok h
        exact four_octets_lt (writeSized_eq_ok hbody).1
    | bytes data =>
        obtain ⟨body, hbody, -⟩ := bind_eq_ok h
        exact four_octets_lt (writeSized_eq_ok hbody).1
    | int i => exact encodable_int h
    | decimal d => exact encodable_decimal h
    | datetime t => exact encodable_datetime h
    | dict entries =>
        obtain ⟨data, hdata, h⟩ := bind_eq_ok h
        obtain ⟨body, hbody, -⟩ := bind_eq_ok h
        simp only [every, distinctKeys, Bool.and_eq_true, everyEntry_iff, decide_eq_true_eq] at hkeys
        apply (encodable_dict entries).mpr
        refine ⟨fun entry hmem => ?_, hkeys.1, fun data' hdata' => ?_⟩
        · obtain ⟨item, hitem⟩ := (writeEntries_size hdata).2 entry hmem
          constructor
          · exact writeEntries_keys hdata entry hmem
          · exact ih entry.2 (List.mem_map_of_mem hmem) (hkeys.2 entry hmem) hitem
        · obtain rfl := Except.ok.inj (hdata.symm.trans hdata')
          exact four_octets_lt (writeSized_eq_ok hbody).1
    | list items =>
        obtain ⟨data, hdata, h⟩ := bind_eq_ok h
        obtain ⟨body, hbody, -⟩ := bind_eq_ok h
        simp only [every, distinctKeys, Bool.and_eq_true, everyItem_iff] at hkeys
        apply (encodable_list items).mpr
        refine ⟨fun value hmem => ?_, fun data' hdata' => ?_⟩
        · obtain ⟨item, hitem⟩ := (writeElements_size hdata).2 value hmem
          exact ih value hmem (hkeys.2 value hmem) hitem
        · obtain rfl := Except.ok.inj (hdata.symm.trans hdata')
          exact four_octets_lt (writeSized_eq_ok hbody).1
    | tuple items =>
        obtain ⟨data, hdata, h⟩ := bind_eq_ok h
        obtain ⟨body, hbody, -⟩ := bind_eq_ok h
        simp only [every, distinctKeys, Bool.and_eq_true, everyItem_iff] at hkeys
        apply (encodable_tuple items).mpr
        refine ⟨fun value hmem => ?_, fun data' hdata' => ?_⟩
        · obtain ⟨item, hitem⟩ := (writeElements_size hdata).2 value hmem
          exact ih value hmem (hkeys.2 value hmem) hitem
        · obtain rfl := Except.ok.inj (hdata.symm.trans hdata')
          exact four_octets_lt (writeSized_eq_ok hbody).1
    | other cls repr => simp [writeItem] at h

end Value

theorem encodable_of_table {entries : List (PyStr × Value)}
    (hkeys : (Value.dict entries).every Value.distinctKeys = true) {octets : Octets}
    (h : writeTable (.dict entries) = .ok octets) : (Value.dict entries).Encodable := by
  obtain ⟨data, hdata, hsized⟩ := bind_eq_ok h
  apply Value.encodable_of_written hkeys
  simp only [writeItem, hdata, ok_bind, hsized]
  rfl

end PyAmqp
