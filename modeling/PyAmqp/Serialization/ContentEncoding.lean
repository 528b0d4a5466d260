import PyAmqp.Serialization.PropertyRoundTrip

/-!
The encoding of a content comes back from its property block whatever the other properties
hold. Only `content_type` stands before it; both are short strings, so the decoder has gone
over as many octets as were written when it comes to the encoding.
-/

namespace PyAmqp

open Cursor

/-! The block -/

section Block

variable {props : Properties} {properties : List (String × String)} {shift : Nat}

/-- One row of `_serialize_properties`. -/
theorem serializeLoop_cons {key proptype : String} {w : PropertyWriter}
    (hw : w.shift = (shift + 1 : Nat)) (hbit : proptype ≠ "bit") :
    serializeLoop props ((key, proptype) :: properties) w =
      serializeLoop props properties { w with
        shift := shift
        flagBits := w.flagBits ||| if (props.present key).isSome then 2 ^ (shift + 1) else 0
        sformat := w.sformat ++ (props.present key).toList.flatMap fun _ => proptype.toList
        svalues := w.svalues ++ (props.present key).toList } := by
  have hpred : w.shift - 1 = shift := by omega
  rw [serializeLoop]
  cases hpresent : props.present key with
  | none => simp [pure, Except.pure, hpred]
  | some val =>
      have hset : w.set proptype val = .ok { w with
          flagBits := w.flagBits ||| 2 ^ (shift + 1)
          sformat := w.sformat ++ proptype.toList
          svalues := w.svalues ++ [val] } := by
        have hnat : w.shift.toNat = shift + 1 := by omega
        rw [PropertyWriter.set_pos proptype val (by omega), hnat, if_neg hbit, if_neg hbit]
      simp [hset, hpred]

/-- What the rows from flag bit `shift` down add to the writer. -/
theorem serializeLoop_adds {w w' : PropertyWriter} (hcount : properties.length ≤ shift)
    (hbit : ∀ row ∈ properties, row.2 ≠ "bit") (hw : w.shift = shift)
    (h : serializeLoop props properties w = .ok w') :
    ∃ bits letters values, bits < 2 ^ (shift + 1) ∧
      (∀ p ∈ letters, ∃ row ∈ properties, p ∈ row.2.toList) ∧ w'.flags = w.flags ∧
      w'.flagBits = w.flagBits ||| bits ∧ w'.sformat = w.sformat ++ letters ∧
      w'.svalues = w.svalues ++ values := by
  induction properties generalizing shift w with
  | nil =>
      obtain rfl : w = w' := Except.ok.inj h
      exact ⟨0, [], [], by positivity, by simp, rfl, by simp, by simp, by simp⟩
  | cons row properties ih =>
      obtain ⟨key, proptype⟩ := row
      obtain ⟨shift, rfl⟩ := Nat.exists_eq_succ_of_ne_zero
        (show shift ≠ 0 by simp only [List.length_cons] at hcount; omega)
      rw [serializeLoop_cons hw (hbit (key, proptype) (by simp))] at h
      obtain ⟨bits, letters, values, hbits, hletters, hflags, hflagBits, hsformat, hsvalues⟩ :=
        ih (by simpa using hcount) (fun row hrow => hbit row (by simp [hrow])) rfl h
      refine ⟨_, _, _, ?_, ?_, hflags, by rw [hflagBits, Nat.or_assoc],
        by rw [hsformat, List.append_assoc], by rw [hsvalues, List.append_assoc]⟩
      · refine Nat.or_lt_two_pow ?_ (hbits.trans (Nat.pow_lt_pow_right (by omega) (by omega)))
        split
        · exact Nat.pow_lt_pow_right (by omega) (by omega)
        · positivity
      · intro p hp
        rcases List.mem_append.mp hp with hp | hp
        · obtain ⟨val, -, hletter⟩ := List.mem_flatMap.mp hp
          exact ⟨(key, proptype), by simp, hletter⟩
        · obtain ⟨row, hrow, hletter⟩ := hletters p hp
          exact ⟨row, by simp [hrow], hletter⟩

/-- A letter of a property. -/
theorem dumpsStep_field {p : Char} {val : Value} {d : Dumper} (hp : p ∈ ['s', 'F', 'o', 'L']) :
    dumpsStep p val d = do return d.flushbits.write (← dumpsField p val) := by
  simp only [List.mem_cons, List.not_mem_nil, or_false] at hp
  rcases hp with rfl | rfl | rfl | rfl <;> rfl

/-- Short strings are written one after the other. -/
theorem dumpsLoop_short {vals values : List Value} {letters : List Char} {d d' : Dumper}
    (h : dumpsLoop (vals.map (fun _ => 's') ++ letters) (vals ++ values) d = .ok d') :
    ∃ texts d1, List.Forall₂ (fun val text => writeText 1 val = .ok text) vals texts ∧
      d1.flushbits.out = d.flushbits.out ++ texts.flatten ∧
      dumpsLoop letters values d1 = .ok d' := by
  induction vals generalizing d with
  | nil => exact ⟨[], d, .nil, by simp, h⟩
  | cons val vals ih =>
      obtain ⟨d0, hstep, hrest⟩ := bind_eq_ok h
      rw [dumpsStep_field (by simp)] at hstep
      obtain ⟨text, htext, hd0⟩ := bind_eq_ok hstep
      obtain rfl := Except.ok.inj hd0
      obtain ⟨texts, d1, htexts, hout, hloop⟩ := ih hrest
      refine ⟨text :: texts, d1, .cons htext htexts, ?_, hloop⟩
      rw [hout]
      simp [Dumper.flushbits, Dumper.write]

/-- The fields of a property block are written behind what there is. -/
theorem dumpsLoop_appends {letters : List Char} {values : List Value} {d d' : Dumper}
    (hletters : ∀ p ∈ letters, p ∈ ['s', 'F', 'o', 'L'])
    (h : dumpsLoop letters values d = .ok d') :
    ∃ tail, d'.flushbits.out = d.flushbits.out ++ tail := by
  induction letters generalizing values d with
  | nil =>
      cases values with
      | nil =>
          obtain rfl : d = d' := Except.ok.inj h
          exact ⟨[], by simp⟩
      | cons val values => simp [dumpsLoop] at h
  | cons p letters ih =>
      cases values with
      | nil =>
          obtain rfl : d = d' := Except.ok.inj h
          exact ⟨[], by simp⟩
      | cons val values =>
          obtain ⟨d0, hstep, hrest⟩ := bind_eq_ok h
          obtain ⟨field, rfl⟩ : ∃ field, d0 = d.flushbits.write field := by
            rw [dumpsStep_field (hletters p (by simp))] at hstep
            obtain ⟨field, -, hd0⟩ := bind_eq_ok hstep
            exact ⟨field, (Except.ok.inj hd0).symm⟩
          obtain ⟨tail, hout⟩ := ih (fun q hq => hletters q (by simp [hq])) hrest
          refine ⟨field ++ tail, ?_⟩
          rw [hout]
          simp [Dumper.flushbits, Dumper.write]

/-- The block of a message: its flags, the two short strings that may stand at its
beginning, and the other fields. -/
theorem serializeProperties_block {octets : Octets}
    (h : serializeProperties basicProperties props = .ok octets) :
    ∃ bits texts tail, octets = BigEndian.encode 2 bits ++ (texts.flatten ++ tail) ∧
      bits < 2 ^ 16 ∧ bits.testBit 15 = (props.present "content_type").isSome ∧
      bits.testBit 14 = (props.present "content_encoding").isSome ∧
      List.Forall₂ (fun val text => writeText 1 val = .ok text)
        ((props.present "content_type").toList ++ (props.present "content_encoding").toList)
        texts := by
  obtain ⟨w, hloop, hrest⟩ := bind_eq_ok h
  obtain ⟨words, hwords, hrest⟩ := bind_eq_ok hrest
  obtain ⟨fields, hfields, hoctets⟩ := bind_eq_ok hrest
  obtain ⟨d', hdumps, hout⟩ := bind_eq_ok hfields
  rw [basicProperties, @serializeLoop_cons props _ 14 _ _ _ rfl (by simp),
    @serializeLoop_cons props _ 13 _ _ _ rfl (by simp)] at hloop
  obtain ⟨bits, letters, values, hbits, hletters, hflags, hflagBits, hsformat, hsvalues⟩ :=
    serializeLoop_adds (by simp) (by simp) rfl hloop
  have hword : packFlags (w.flags ++ [w.flagBits]) = do
      return (← pack 2 w.flagBits) ++ [] := by
    rw [hflags]
    rfl
  rw [hword] at hwords
  obtain ⟨word, hpack, hwords⟩ := bind_eq_ok hwords
  obtain ⟨hfits, rfl⟩ := pack_nat_ok hpack
  obtain rfl := Except.ok.inj hwords
  obtain rfl := Except.ok.inj hout
  obtain rfl := Except.ok.inj hoctets
  have hformat : w.sformat = ((props.present "content_type").toList ++
      (props.present "content_encoding").toList).map (fun _ => 's') ++ letters := by
    rw [hsformat]
    cases props.present "content_type" <;> cases props.present "content_encoding" <;> rfl
  have hvalues : w.svalues = ((props.present "content_type").toList ++
      (props.present "content_encoding").toList) ++ values := by
    rw [hsvalues]
    rfl
  have hlead : w.flagBits =
      ((if (props.present "content_type").isSome then 2 ^ 15 else 0) |||
        if (props.present "content_encoding").isSome then 2 ^ 14 else 0) ||| bits := by
    rw [hflagBits]
    simp
  rw [hformat, hvalues] at hdumps
  obtain ⟨texts, d1, htexts, htextsOut, hdumps⟩ := dumpsLoop_short hdumps
  have hplain : ∀ p ∈ letters, p ∈ ['s', 'F', 'o', 'L'] := by
    have hall : (basicProperties.all fun row =>
        row.2.toList.all fun p => decide (p ∈ ['s', 'F', 'o', 'L'])) = true := by decide
    intro p hp
    obtain ⟨row, hrow, hletter⟩ := hletters p hp
    have hrow' := List.all_eq_true.mp hall row (.tail _ (.tail _ hrow))
    exact of_decide_eq_true (List.all_eq_true.mp hrow' p hletter)
  obtain ⟨tail, htail⟩ := dumpsLoop_appends hplain hdumps
  refine ⟨w.flagBits, texts, tail, ?_, hfits, ?_, ?_, htexts⟩
  · rw [htail, htextsOut]
    simp [Dumper.flushbits]
  · rw [hlead, Nat.testBit_or, Nat.testBit_lt_two_pow (hbits.trans (by decide))]
    cases (props.present "content_type").isSome <;>
      cases (props.present "content_encoding").isSome <;> decide
  · rw [hlead, Nat.testBit_or, Nat.testBit_lt_two_pow hbits]
    cases (props.present "content_type").isSome <;>
      cases (props.present "content_encoding").isSome <;> decide

end Block

/-! Reading the encoding -/

/-- What is written of a short string: its octets behind their number. -/
theorem writeText_eq_ok {width : Nat} {val : Value} {text : Octets}
    (h : writeText width val = .ok text) :
    ∃ data, (val.orElse (.str [])).strToBytes = .bytes data ∧ data.length < 256 ^ width ∧
      text = sized width data := by
  obtain ⟨length, hlength, hrest⟩ := bind_eq_ok h
  obtain ⟨size, hpack, hrest⟩ := bind_eq_ok hrest
  obtain ⟨octets, hoctets, hok⟩ := bind_eq_ok hrest
  obtain rfl := Except.ok.inj hok
  obtain ⟨hfits, rfl⟩ := pack_nat_ok hpack
  cases hval : (val.orElse (.str [])).strToBytes with
  | bytes data =>
      rw [hval] at hlength hoctets
      obtain rfl := Except.ok.inj hlength
      obtain rfl := Except.ok.inj hoctets
      exact ⟨data, rfl, hfits, rfl⟩
  | _ =>
      rw [hval] at hoctets
      cases hoctets

/-- A short string is as long as it was written, whatever it holds. -/
theorem readShortstr_spans {val : Value} {text : Octets} (h : writeText 1 val = .ok text) :
    readShortstr.Spans text := by
  obtain ⟨data, -, hfits, rfl⟩ := writeText_eq_ok h
  exact ((reads_sized 1 hfits).spans bytesToStr).bind_pure Value.str

theorem reads_shortstr {text : PyStr} {octets : Octets} (h : writeText 1 (.str text) = .ok octets) :
    Reads readShortstr octets (.str text) := by
  obtain ⟨data, hdata, hfits, rfl⟩ := writeText_eq_ok h
  have hor : (Value.str text).orElse (.str []) = .str text := by cases text <;> rfl
  obtain rfl : Utf8.encode text = data := by simpa [hor, Value.strToBytes] using hdata
  exact (reads_text 1 hfits).bind_pure Value.str

/-- The rows leave alone what has no row. -/
theorem decodeRows_get? {flags : Nat} {rows : List (Nat × String × Reader Value)} {key : String}
    {acc props' : Properties} {buf : Octets} {offset next : Nat}
    (hkey : ∀ row ∈ rows, row.2.1 ≠ key)
    (h : decodeRows flags rows acc buf offset = .ok (props', next)) :
    Assoc.get? props' key = Assoc.get? acc key := by
  induction rows generalizing acc offset with
  | nil =>
      obtain ⟨rfl, -⟩ := Prod.mk.inj (Except.ok.inj h)
      rfl
  | cons row rows ih =>
      obtain ⟨mask, key', read⟩ := row
      have hrows : ∀ row ∈ rows, row.2.1 ≠ key := fun row hrow => hkey row (by simp [hrow])
      rw [decodeRows] at h
      split at h
      next =>
        obtain ⟨val, mid, -, hrest⟩ := Cursor.bind_eq_ok h
        rw [ih hrows hrest, Assoc.get?_set_ne _ _ (hkey (mask, key', read) (by simp))]
      next => exact ih hrows h

section Encoding

variable {bits : Nat} {encoding : Option Value} {acc props' : Properties} {before tail : Octets}
  {texts : List Octets} {next : Nat}

/-- The rows from `content_encoding` on. -/
theorem decodeRows_encoding (hbit : bits.testBit 14 = encoding.isSome)
    (hacc : Assoc.get? acc "content_encoding" = none)
    (hencoding : ∀ val ∈ encoding, ∃ text, val = .str text)
    (htexts : List.Forall₂ (fun val text => writeText 1 val = .ok text) encoding.toList texts)
    (h : decodeRows bits (basicRows.drop 1) acc (before ++ texts.flatten ++ tail) before.length =
      .ok (props', next)) :
    Assoc.get? props' "content_encoding" = encoding := by
  have hrows : ∀ row ∈ basicRows.drop 2, row.2.1 ≠ "content_encoding" := by
    simp [basicRows]
  have hdrop : basicRows.drop 1 =
      (2 ^ 14, "content_encoding", readShortstr) :: basicRows.drop 2 := rfl
  rw [hdrop, decodeRows] at h
  cases encoding with
  | none =>
      rw [if_neg (by rw [and_mask, hbit]; simp)] at h
      rw [decodeRows_get? hrows h, hacc]
  | some val =>
      obtain ⟨text, rfl⟩ := hencoding val rfl
      rw [if_pos (by rw [and_mask, hbit]; rfl)] at h
      obtain ⟨val, mid, hread, hrest⟩ := Cursor.bind_eq_ok h
      cases htexts with
      | @cons _ octets _ rest hwrite hrest' =>
          have htext := reads_shortstr hwrite before (rest.flatten ++ tail)
          rw [List.flatten_cons, ← List.append_assoc, List.append_assoc] at hread
          obtain ⟨rfl, -⟩ := Prod.mk.inj (Except.ok.inj (htext.symm.trans hread))
          rw [decodeRows_get? hrows hrest, Assoc.get?_set_self]

/-- The encoding that was written comes back wherever the block can be read at all. -/
theorem decode_contentEncoding {props : Properties} {octets : Octets}
    (hwrite : serializeProperties basicProperties props = .ok octets)
    (hencoding : ∀ val ∈ props.present "content_encoding", ∃ text, val = .str text)
    (hread : decodePropertiesBasic (before ++ octets) before.length = .ok (props', next)) :
    Assoc.get? props' "content_encoding" = props.present "content_encoding" := by
  obtain ⟨bits, texts, tail, rfl, hbits, htype, hencoded, htexts⟩ :=
    serializeProperties_block hwrite
  obtain ⟨flags, mid, hflags, hrows⟩ := Cursor.bind_eq_ok hread
  have hword := reads_unpackFrom 2 hbits before (texts.flatten ++ tail)
  rw [List.append_assoc, hflags] at hword
  obtain ⟨rfl, rfl⟩ := Prod.mk.inj (Except.ok.inj hword)
  have hrow : basicRows = (2 ^ 15, "content_type", readShortstr) :: basicRows.drop 1 := rfl
  rw [hrow, decodeRows] at hrows
  cases hpresent : props.present "content_type" with
  | none =>
      rw [hpresent] at htype htexts
      rw [if_neg (by rw [and_mask, htype]; simp)] at hrows
      refine @decodeRows_encoding flags _ [] _ (before ++ BigEndian.encode 2 flags) tail texts next
        hencoded rfl hencoding htexts ?_
      simpa using hrows
  | some val =>
      rw [hpresent] at htype htexts
      rw [if_pos (by rw [and_mask, htype]; rfl)] at hrows
      obtain ⟨val', mid, hread, hrest⟩ := Cursor.bind_eq_ok hrows
      cases htexts with
      | @cons _ text _ rest hwritten hrest' =>
          have hspan := readShortstr_spans hwritten (before ++ BigEndian.encode 2 flags)
            (rest.flatten ++ tail) val' mid (by simpa using hread)
          refine @decodeRows_encoding flags _ (Assoc.set [] "content_type" val') _
            (before ++ BigEndian.encode 2 flags ++ text) tail rest next hencoded rfl hencoding
            hrest' ?_
          rw [hspan] at hrest
          simpa [Nat.add_assoc] using hrest

end Encoding

end PyAmqp
