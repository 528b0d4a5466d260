import PyAmqp.Serialization.Arguments
import PyAmqp.Serialization.Content
import PyAmqp.Serialization.SameValue
import Mathlib.Data.Nat.Bitwise

/-!
The property block of a content header: what `_serialize_properties` flags and writes,
`decode_properties_basic` finds. Encoder and decoder walk the same rows; the
induction over them carries the flag bits of the rows still to come.
-/

namespace PyAmqp

open Cursor

/-- The properties that are set, in the order of `PROPERTIES`. -/
def Properties.written (props : Properties) (properties : List (String × String)) :
    List (String × String × Value) :=
  properties.filterMap fun (key, proptype) =>
    (props.present key).map fun val => (key, proptype, val)

/-- Every property that is set has a value of its type. -/
def Properties.InRange (props : Properties) (properties : List (String × String)) : Prop :=
  ∀ row ∈ properties, ∀ val, props.present row.1 = some val →
    ∃ p, row.2.toList = [p] ∧ PyAmqp.InRange p val

/-- The properties a reader finds: the ones that were set, with the values their types
bring back. -/
def PropertiesBack (written : List (String × String × Value)) (props' : Properties) : Prop :=
  List.Forall₂ (fun field entry =>
    entry.1 = field.1 ∧ ∃ p, field.2.1.toList = [p] ∧ ArgumentBack p field.2.2 entry.2)
    written props'

/-- The rows of the decoder are the properties of the encoder, from flag bit `shift`
down. -/
def Aligned : Nat → List (Nat × String × Reader Value) → List (String × String) → Prop
  | _, [], [] => True
  | shift + 1, (mask, key, read) :: rows, (key', proptype) :: properties =>
      mask = 2 ^ (shift + 1) ∧ key = key' ∧ proptype ≠ "bit" ∧
        (∃ p, proptype.toList = [p] ∧ p ≠ 'b' ∧ read = do return (← loadsStep p {}).1) ∧
        Aligned shift rows properties
  | _, _, _ => False

theorem basicRows_aligned : Aligned 15 basicRows basicProperties := by
  have hshortstr : readShortstr = do return (← loadsStep 's' {}).1 := by
    simp [readShortstr, loadsStep]
  have htable : readHeaders = do return (← loadsStep 'F' {}).1 := by
    simp [readHeaders, loads, loadsLoop, loadsStep]
  have hoctet : readOctet = do return (← loadsStep 'o' {}).1 := by
    simp [readOctet, loadsStep]
  have hlonglong : readLonglong = do return (← loadsStep 'L' {}).1 := by
    simp [readLonglong, loadsStep]
  simp [Aligned, basicRows, basicProperties, hshortstr, htable, hoctet, hlonglong]

theorem and_mask (flags shift : Nat) :
    flags &&& 2 ^ shift ≠ 0 ↔ flags.testBit shift = true := by
  rw [Nat.and_two_pow]
  cases flags.testBit shift <;> simp

/-- What the encoder makes of the properties from flag bit `shift` down, and how the
decoder reads it back: `bits` are their flags and `octets` their values. -/
private def RowsOk (shift : Nat) (rows : List (Nat × String × Reader Value))
    (properties : List (String × String)) (props : Properties) : Prop :=
  ∃ bits letters values octets entries,
    (∀ w : PropertyWriter, w.shift = shift → ∃ shift', serializeLoop props properties w =
      .ok { w with
        shift := shift'
        flagBits := w.flagBits ||| bits
        sformat := w.sformat ++ letters
        svalues := w.svalues ++ values }) ∧
    bits < 2 ^ (shift + 1) ∧
    (∀ d : Dumper, ∃ d', dumpsLoop letters values d = .ok d' ∧
      d'.flushbits.out = d.flushbits.out ++ octets) ∧
    (∀ flags, (∀ i ≤ shift, flags.testBit i = bits.testBit i) → ∀ acc : Properties,
      (∀ row ∈ properties, row.1 ∉ Assoc.keys acc) →
        Reads (decodeRows flags rows acc) octets (acc ++ entries)) ∧
    PropertiesBack (props.written properties) entries

private theorem rowsOk_absent {shift : Nat} {key proptype : String} {read : Reader Value}
    {rows : List (Nat × String × Reader Value)} {properties : List (String × String)}
    {props : Properties} (habsent : props.present key = none)
    (ih : RowsOk shift rows properties props) :
    RowsOk (shift + 1) ((2 ^ (shift + 1), key, read) :: rows) ((key, proptype) :: properties)
      props := by
  obtain ⟨bits, letters, values, octets, entries, hwrite, hbits, hdumps, hread, hback⟩ := ih
  refine ⟨bits, letters, values, octets, entries, fun w hw => ?_, ?_, hdumps, ?_, ?_⟩
  · obtain ⟨shift', hrest⟩ := hwrite { w with shift := w.shift - 1 } (by simp [hw])
    exact ⟨shift', by simpa [serializeLoop, habsent, pure, Except.pure] using hrest⟩
  · exact hbits.trans (Nat.pow_lt_pow_right (by omega) (by omega))
  · intro flags hflags acc hacc
    have hclear : ¬ flags &&& 2 ^ (shift + 1) ≠ 0 := by
      rw [and_mask, hflags _ (by omega), Nat.testBit_lt_two_pow hbits]
      exact Bool.false_ne_true
    rw [decodeRows, if_neg hclear]
    exact hread flags (fun i hi => hflags i (by omega)) acc fun row hrow => hacc row (by simp [hrow])
  · simpa [Properties.written, habsent] using hback

private theorem rowsOk_present {shift : Nat} {key proptype : String} {read : Reader Value}
    {p : Char} {val : Value}
    {rows : List (Nat × String × Reader Value)} {properties : List (String × String)}
    {props : Properties} (hpresent : props.present key = some val)
    (hbit : proptype ≠ "bit") (hletter : proptype.toList = [p]) (hp : p ≠ 'b')
    (hreader : read = do return (← loadsStep p {}).1) (hrange : InRange p val)
    (hfresh : ∀ row ∈ properties, row.1 ≠ key)
    (ih : RowsOk shift rows properties props) :
    RowsOk (shift + 1) ((2 ^ (shift + 1), key, read) :: rows) ((key, proptype) :: properties)
      props := by
  obtain ⟨bits, letters, values, octets, entries, hwrite, hbits, hdumps, hread, hback⟩ := ih
  obtain ⟨field, hstep, hfield⟩ := field_ok hrange hp
  refine ⟨2 ^ (shift + 1) ||| bits, p :: letters, val :: values, field ++ octets,
    (key, argumentBack p val) :: entries, fun w hw => ?_, ?_, fun d => ?_, ?_, ?_⟩
  · obtain ⟨shift', hrest⟩ := hwrite
      { w with
        shift := w.shift - 1
        flagBits := w.flagBits ||| 2 ^ (shift + 1)
        sformat := w.sformat ++ [p]
        svalues := w.svalues ++ [val] } (by simp [hw])
    have hset : w.set proptype val = .ok { w with
        flagBits := w.flagBits ||| 2 ^ (shift + 1)
        sformat := w.sformat ++ [p]
        svalues := w.svalues ++ [val] } := by
      have hnat : w.shift.toNat = shift + 1 := by omega
      rw [PropertyWriter.set_pos proptype val (by omega), hnat, if_neg hbit, if_neg hbit, hletter]
    refine ⟨shift', ?_⟩
    simp only [serializeLoop, hpresent, hset, ok_bind, hrest]
    simp [Nat.or_assoc]
  · exact Nat.or_lt_two_pow (Nat.pow_lt_pow_right (by omega) (by omega))
      (hbits.trans (Nat.pow_lt_pow_right (by omega) (by omega)))
  · obtain ⟨d', hloop, hout⟩ := hdumps (d.flushbits.write field)
    refine ⟨d', by simp [dumpsLoop, hstep, hloop], ?_⟩
    rw [hout]
    simp [Dumper.flushbits, Dumper.write]
  · intro flags hflags acc hacc
    have hset : flags &&& 2 ^ (shift + 1) ≠ 0 := by
      rw [and_mask, hflags _ (by omega), Nat.testBit_or, Nat.testBit_two_pow_self]
      simp
    have hrest := hread flags (fun i hi => by
        rw [hflags i (by omega), Nat.testBit_or, Nat.testBit_two_pow_of_ne (by omega),
          Bool.false_or])
      (Assoc.set acc key (argumentBack p val)) (fun row hrow => by
        rw [Assoc.set_fresh acc key _ (hacc (key, proptype) (by simp))]
        have hne := hfresh row hrow
        have hkeys := hacc row (by simp [hrow])
        simpa [Assoc.keys, hne] using hkeys)
    rw [Assoc.set_fresh acc key _ (hacc (key, proptype) (by simp)), List.append_assoc] at hrest
    have hvalue : Reads read field (argumentBack p val) := by
      rw [hreader]
      exact Reads.bind_pure Prod.fst (hfield {})
    rw [decodeRows, if_pos hset]
    refine hvalue.bind ?_
    rw [Assoc.set_fresh acc key _ (hacc (key, proptype) (by simp))]
    exact hrest
  · simp only [Properties.written, List.filterMap_cons, hpresent, Option.map_some]
    exact .cons ⟨rfl, p, hletter, argumentBack_spec hrange⟩ hback

private theorem rows_ok {shift : Nat} {rows : List (Nat × String × Reader Value)}
    {properties : List (String × String)} {props : Properties}
    (haligned : Aligned shift rows properties) (hnodup : (properties.map Prod.fst).Nodup)
    (hrange : props.InRange properties) : RowsOk shift rows properties props := by
  induction properties generalizing shift rows with
  | nil =>
      cases rows with
      | nil =>
          refine ⟨0, [], [], [], [], fun w _ => ⟨w.shift, ?_⟩, by positivity,
            fun d => ⟨d, rfl, by simp⟩, fun flags _ acc _ => ?_, .nil⟩
          · simp [serializeLoop]
          · simpa [decodeRows] using Reads.pure acc
      | cons row rows => simp [Aligned] at haligned
  | cons property properties ih =>
      obtain ⟨key, proptype⟩ := property
      cases shift with
      | zero => cases rows <;> simp [Aligned] at haligned
      | succ shift =>
          cases rows with
          | nil => simp [Aligned] at haligned
          | cons row rows =>
              obtain ⟨mask, key', read⟩ := row
              obtain ⟨rfl, rfl, hbit, ⟨p, hletter, hp, hreader⟩, hrest⟩ := haligned
              simp only [List.map_cons, List.nodup_cons, List.mem_map, not_exists, not_and]
                at hnodup
              have htail := ih hrest hnodup.2 fun row hrow => hrange row (by simp [hrow])
              cases hpresent : props.present key' with
              | none => exact rowsOk_absent hpresent htail
              | some val =>
                  obtain ⟨p', hletter', hval⟩ := hrange (key', proptype) (by simp) val hpresent
                  obtain rfl : p' = p := by simpa [hletter] using hletter'.symm
                  exact rowsOk_present hpresent hbit hletter hp hreader hval
                    (fun row hrow => hnodup.1 row hrow) htail

/-- The block `_serialize_properties` writes for a message's properties is read by
`decode_properties_basic`, wherever it stands, as the properties that were set. -/
theorem serializeProperties_reads (props : Properties) (h : props.InRange basicProperties) :
    ∃ octets props', serializeProperties basicProperties props = .ok octets ∧
      PropertiesBack (props.written basicProperties) props' ∧
      Reads decodePropertiesBasic octets props' := by
  obtain ⟨bits, letters, values, octets, entries, hwrite, hbits, hdumps, hread, hback⟩ :=
    rows_ok basicRows_aligned (by decide) h
  obtain ⟨shift', hloop⟩ := hwrite {} rfl
  obtain ⟨d', hfields, hout⟩ := hdumps {}
  have hword : pack 2 (bits : Int) = .ok (BigEndian.encode 2 bits) := by
    simpa using pack_ok (Int.natCast_nonneg bits)
      (by exact_mod_cast hbits.trans_le (by decide) : (bits : Int) < 256 ^ 2)
  refine ⟨BigEndian.encode 2 bits ++ octets, entries, ?_, hback, ?_⟩
  · have hoctets : d'.flushbits.out = octets := by simpa [Dumper.flushbits] using hout
    simp [serializeProperties, hloop, packFlags, hword, dumps, hfields, hoctets]
  · refine (reads_unpackFrom 2 (hbits.trans_le (by decide))).bind ?_
    simpa using hread bits (fun i _ => rfl) [] (by simp [Assoc.keys])

/-! Equal properties -/

/-- The properties that are known and set, as a dictionary. -/
def Properties.known (props : Properties) (properties : List (String × String)) : Properties :=
  properties.filterMap fun (key, _) => (props.present key).map fun val => (key, val)

/-- The same keys with equal values. -/
def SameProperties (props props' : Properties) : Prop :=
  List.Forall₂ (fun entry entry' => entry'.1 = entry.1 ∧ entry.2.Same entry'.2) props props'

/-- Every known property that is set has a value of its type, and a table holds no
bytes, tuples or dates. -/
def Properties.InDomain (props : Properties) (properties : List (String × String)) : Prop :=
  props.InRange properties ∧
    ∀ row ∈ properties, ∀ val, props.present row.1 = some val → val.Plain = true

theorem Properties.inDomain_of_written {props : Properties} {properties : List (String × String)}
    (h : ∀ field ∈ props.written properties,
      (∃ p, field.2.1.toList = [p] ∧ PyAmqp.InRange p field.2.2) ∧ field.2.2.Plain = true) :
    props.InDomain properties := by
  have hfield : ∀ row ∈ properties, ∀ val, props.present row.1 = some val →
      (row.1, row.2, val) ∈ props.written properties := by
    intro row hrow val hval
    exact List.mem_filterMap.mpr ⟨row, hrow, by simp [hval]⟩
  exact ⟨fun row hrow val hval => (h _ (hfield row hrow val hval)).1,
    fun row hrow val hval => (h _ (hfield row hrow val hval)).2⟩

theorem present_ne_none (props : Properties) (key : String) {val : Value}
    (h : props.present key = some val) : val ≠ .none := by
  unfold Properties.present at h
  split at h
  · simp at h
  next hnone =>
    rintro rfl
    exact hnone h

/-- A property comes back equal to what was set. -/
theorem ArgumentBack.same {p : Char} {v u : Value} (h : ArgumentBack p v u) (hrange : InRange p v)
    (hp : p ≠ 'b') (hv : v ≠ .none) (hplain : v.Plain = true) : v.Same u := by
  cases hrange with
  | bit => exact absurd rfl hp
  | noShortstr | noLongstr | noTable => exact absurd rfl hv
  | table htable => exact Value.ReadBack.same h htable hplain
  | _ =>
      obtain rfl := h
      rfl

theorem PropertiesBack.same {props props' : Properties} {properties : List (String × String)}
    (hletters : ∀ row ∈ properties, row.2 ≠ "b") (h : props.InDomain properties)
    (hback : PropertiesBack (props.written properties) props') :
    SameProperties (props.known properties) props' := by
  induction properties generalizing props' with
  | nil => simpa [Properties.known, SameProperties, PropertiesBack, Properties.written] using hback
  | cons row rest ih =>
      obtain ⟨key, proptype⟩ := row
      obtain ⟨hrange, hplain⟩ := h
      have hrest : props.InDomain rest :=
        ⟨fun row hrow => hrange row (by simp [hrow]), fun row hrow => hplain row (by simp [hrow])⟩
      cases hpresent : props.present key with
      | none =>
          simp only [PropertiesBack, Properties.written, List.filterMap_cons, hpresent,
            Option.map_none] at hback
          simp only [Properties.known, List.filterMap_cons, hpresent, Option.map_none]
          exact ih (fun row hrow => hletters row (by simp [hrow])) hrest hback
      | some val =>
          simp only [PropertiesBack, Properties.written, List.filterMap_cons, hpresent,
            Option.map_some] at hback
          simp only [Properties.known, List.filterMap_cons, hpresent, Option.map_some]
          obtain ⟨p', hletter', hval⟩ := hrange (key, proptype) (by simp) val hpresent
          cases hback with
          | @cons _ entry _ _ hentry hentries =>
              obtain ⟨hkey, p, hletter, hargument⟩ := hentry
              obtain rfl : p = p' := by simpa [hletter] using hletter'
              have hp : p ≠ 'b' := by
                rintro rfl
                exact hletters _ (.head _) (String.toList_inj.mp hletter)
              refine .cons ⟨hkey, hargument.same hval hp (present_ne_none _ _ hpresent) ?_⟩
                (ih (fun row hrow => hletters row (by simp [hrow])) hrest hentries)
              exact hplain (key, proptype) (by simp) val hpresent

theorem SameProperties.agree {props props' back : Properties} (h : SameProperties props back)
    (h' : SameProperties props' back) : SameProperties props props' := by
  induction h generalizing props' with
  | nil =>
      cases h'
      exact .nil
  | cons hentry hrest ih =>
      cases h' with
      | cons hentry' hrest' =>
          exact .cons ⟨hentry'.1.symm.trans hentry.1, hentry.2.trans hentry'.2.symm⟩ (ih hrest')

/-- The block of a message's properties is decoded, behind any octets and before any, as
the known properties that were set, and ends where the decoder stops. Properties with
the same block agree. -/
theorem decode_serializeProperties (props : Properties) (h : props.InDomain basicProperties) :
    ∃ octets props', serializeProperties basicProperties props = .ok octets ∧
      SameProperties (props.known basicProperties) props' ∧
      (∀ before after, decodePropertiesBasic (before ++ octets ++ after) before.length =
        .ok (props', before.length + octets.length)) ∧
      ∀ other : Properties, other.InDomain basicProperties →
        serializeProperties basicProperties other = .ok octets →
          SameProperties (props.known basicProperties) (other.known basicProperties) := by
  obtain ⟨octets, props', hwrite, hback, hread⟩ := serializeProperties_reads props h.1
  have hsame := hback.same (by decide) h
  refine ⟨octets, props', hwrite, hsame, hread, fun other hother hwrite' => ?_⟩
  obtain ⟨octets', other', hok, hback', hread'⟩ := serializeProperties_reads other hother.1
  obtain rfl : octets' = octets := Except.ok.inj (hok.symm.trans hwrite')
  have heq : other' = props' := by
    have hboth := (hread' [] []).symm.trans (hread [] [])
    exact (Prod.mk.inj (Except.ok.inj hboth)).1
  exact hsame.agree (heq ▸ hback'.same (by decide) hother)

/-- An empty text, a zero, headers, an entry that is `None` and one that is not known. -/
def sampleProperties : Properties :=
  [("content_type", .str []), ("priority", .int 0), ("type", .none),
    ("application_headers",
      .dict [([], .list [.bool true, .decimal (.finite false 10 (-1))])]),
    ("x", .bytes [1])]

theorem decode_serializeProperties_sample :
    ∃ octets props', serializeProperties basicProperties sampleProperties = .ok octets ∧
      SameProperties (sampleProperties.known basicProperties) props' ∧
      (∀ before after, decodePropertiesBasic (before ++ octets ++ after) before.length =
        .ok (props', before.length + octets.length)) ∧
      ∀ other : Properties, other.InDomain basicProperties →
        serializeProperties basicProperties other = .ok octets →
          SameProperties (sampleProperties.known basicProperties)
            (other.known basicProperties) := by
  refine decode_serializeProperties _ (Properties.inDomain_of_written ?_)
  have hwritten : sampleProperties.written basicProperties =
      [("content_type", "s", .str []),
        ("application_headers", "F",
          .dict [([], .list [.bool true, .decimal (.finite false 10 (-1))])]),
        ("priority", "o", .int 0)] := rfl
  rw [hwritten]
  rintro field (_ | ⟨_, _ | ⟨_, _ | ⟨_, hfield⟩⟩⟩)
  · exact ⟨⟨'s', rfl, .shortstr (by decide)⟩, rfl⟩
  · exact ⟨⟨'F', rfl, .table (by decide)⟩, rfl⟩
  · exact ⟨⟨'o', rfl, .octet (by decide : 0 < 2 ^ 8)⟩, rfl⟩
  · cases hfield

end PyAmqp
