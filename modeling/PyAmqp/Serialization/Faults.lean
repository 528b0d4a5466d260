import PyAmqp.Serialization.Republish

/-!
What `_write_table` raises. A value of a class the codec does not know becomes a
`FrameSyntaxError` that names it, if its `repr` can be had; a value that its field cannot hold
raises what `struct` or the value's own methods raise, which no handler translates.
-/

namespace PyAmqp

/-- Why a value cannot be written. -/
inductive Fault where
  /-- A class the codec does not know. -/
  | unsupported
  /-- A class the codec does not know, of an object whose `repr` raises. -/
  | unnameable (e : PyError)
  /-- A number, a date, a key or a length that its field cannot hold. -/
  | outOfRange
  deriving DecidableEq

def faultUnless (p : Prop) [Decidable p] : Option Fault := if p then none else some .outOfRange

/-- A coefficient of 32 bits and at most 255 decimal places. -/
def Decimal.Packs : Decimal → Prop
  | .finite negative coefficient exponent =>
      -255 ≤ exponent ∧ exponent ≤ 0 ∧
        -2 ^ 31 ≤ signed negative coefficient ∧ signed negative coefficient < 2 ^ 31
  | _ => False

instance (d : Decimal) : Decidable d.Packs := by
  cases d with
  | finite negative coefficient exponent => exact inferInstanceAs (Decidable (_ ∧ _ ∧ _ ∧ _))
  | infinite negative => exact instDecidableFalse
  | nan negative signaling payload => exact instDecidableFalse

/-- In UTC, from 1970 on and within the year 9999. -/
def DateTime.Packs (t : DateTime) : Prop :=
  0 ≤ t.utcMicros ∧ t.utcMicros < 253402300800000000

instance (t : DateTime) : Decidable t.Packs := inferInstanceAs (Decidable (_ ∧ _))

mutual

/-- The first fault in the order of writing: keys before their values, what is in a table or
an array before its length. -/
def Value.fault : Value → Option Fault
  | .str text => faultUnless ((Utf8.encode text).length < 2 ^ 32)
  | .bytes octets => faultUnless (octets.length < 2 ^ 32)
  | .int i => faultUnless (-2 ^ 63 ≤ i ∧ i < 2 ^ 63)
  | .decimal d => faultUnless d.Packs
  | .datetime t => faultUnless t.Packs
  | .dict entries => (entriesFault entries).or (faultUnless (entriesSize entries < 2 ^ 32))
  | .list items => (itemsFault items).or (faultUnless (itemsSize items < 2 ^ 32))
  | .tuple items => (itemsFault items).or (faultUnless (itemsSize items < 2 ^ 32))
  | .bool _ | .float _ | .none => none
  | .other _ (.ok _) => some .unsupported
  | .other _ (.error e) => some (.unnameable e)

def entriesFault : List (PyStr × Value) → Option Fault
  | [] => none
  | (key, value) :: rest =>
      (faultUnless ((Utf8.encode key).length ≤ 255)).or (value.fault.or (entriesFault rest))

def itemsFault : List Value → Option Fault
  | [] => none
  | value :: rest => value.fault.or (itemsFault rest)

end

/-- The text names a value of an unknown class in the table or array. -/
inductive Names : Value → ReplyText → Prop
  | entry {entries : List (PyStr × Value)} {key : PyStr} {cls : String} {repr : PyStr} :
      (key, Value.other cls (.ok repr)) ∈ entries →
      Names (.dict entries) (.illegalTableTypeWithKey cls (Utf8.encode key) repr)
  | element {items : List Value} {cls : String} {repr : PyStr} :
      Value.other cls (.ok repr) ∈ items →
      Names (.list items) (.illegalTableTypeWithValue cls repr)
  | component {items : List Value} {cls : String} {repr : PyStr} :
      Value.other cls (.ok repr) ∈ items →
      Names (.tuple items) (.illegalTableTypeWithValue cls repr)
  | nested {u v : Value} {text : ReplyText} : u ∈ v.children → Names u text → Names v text

/-- What `struct`, arithmetic and dates raise. -/
def PyError.isPacking : PyError → Bool
  | structError | typeError | overflowError => true
  | _ => false

/-- What a writer does, by the first fault in what it writes. -/
def Writes (names : ReplyText → Prop) : Option Fault → Except PyError Octets → Prop
  | none, written => ∃ octets, written = .ok octets
  | some .outOfRange, written => ∃ e, written = .error e ∧ e.isPacking = true
  | some .unsupported, written => ∃ text, written = .error (syntaxError text) ∧ names text
  | some (.unnameable e), written => written = .error e

namespace Writes

variable {names names' : ReplyText → Prop} {fault rest : Option Fault}
  {written : Except PyError Octets}

theorem mono (h : Writes names fault written) (hnames : ∀ text, names text → names' text) :
    Writes names' fault written := by
  match fault, h with
  | none, h => exact h
  | some .outOfRange, h => exact h
  | some .unsupported, ⟨text, hwritten, hname⟩ => exact ⟨text, hwritten, hnames text hname⟩
  | some (.unnameable e), h => exact h

/-- A writer after another writes where that one has written. -/
theorem bind {k : Octets → Except PyError Octets} (h : Writes names fault written)
    (hk : ∀ octets, written = .ok octets → Writes names rest (k octets)) :
    Writes names (fault.or rest) (written >>= k) := by
  match fault, h with
  | none, ⟨octets, hwritten⟩ =>
      have hrest := hk octets hwritten
      rw [hwritten, ok_bind, Option.none_or]
      exact hrest
  | some .outOfRange, ⟨e, hwritten, he⟩ =>
      rw [hwritten, error_bind, Option.some_or]
      exact ⟨e, rfl, he⟩
  | some .unsupported, ⟨text, hwritten, hname⟩ =>
      rw [hwritten, error_bind, Option.some_or]
      exact ⟨text, rfl, hname⟩
  | some (.unnameable e), hwritten =>
      rw [show written = .error e from hwritten, error_bind, Option.some_or]
      exact rfl

/-- A writer that ends in a pure step. -/
theorem map (h : Writes names fault written) (f : Octets → Octets) :
    Writes names fault (written >>= fun octets => pure (f octets)) := by
  have hbind := @bind names fault none written (fun octets => pure (f octets)) h
    fun octets _ => ⟨f octets, rfl⟩
  rwa [Option.or_none] at hbind

theorem of_range {p : Prop} [Decidable p] (hok : p → ∃ octets, written = .ok octets)
    (herror : ¬ p → ∃ e, written = .error e ∧ e.isPacking = true) :
    Writes names (faultUnless p) written := by
  unfold faultUnless
  split
  next hp => exact hok hp
  next hp => exact herror hp

end Writes

section Writers

variable {names : ReplyText → Prop}

theorem writeSized_outcome {width : Nat} (data : Octets) :
    Writes names (faultUnless (data.length < 256 ^ width)) (writeSized width data) := by
  apply Writes.of_range
  · exact fun hfits => ⟨_, writeSized_ok width hfits⟩
  · intro hlong
    have hcast : ¬ (data.length : Int) < 256 ^ width := by exact_mod_cast hlong
    exact ⟨.structError, by simp [writeSized, pack, hcast], rfl⟩

/-- Octets behind a length of four octets. -/
theorem writeLong_outcome (data : Octets) :
    Writes names (faultUnless (data.length < 2 ^ 32)) (writeSized 4 data) := by
  have hword : (2 : Nat) ^ 32 = 256 ^ 4 := by norm_num
  rw [hword]
  exact writeSized_outcome data

theorem packSigned_outcome {width : Nat} {i : Int} :
    Writes names (faultUnless (-(256 ^ width) ≤ 2 * i ∧ 2 * i < 256 ^ width))
      (packSigned width i) := by
  apply Writes.of_range
  · exact fun hrange => ⟨_, if_pos hrange⟩
  · exact fun hrange => ⟨.structError, if_neg hrange, rfl⟩

theorem writeInt_outcome (i : Int) : Writes names (Value.int i).fault (writeItem (.int i)) := by
  by_cases hlong : i > 2147483647 ∨ i < -2147483647
  · have hrange : (-2 ^ 63 ≤ i ∧ i < 2 ^ 63) = (-(256 ^ 8) ≤ 2 * i ∧ 2 * i < 256 ^ 8) := by
      apply propext
      norm_num
      omega
    simp only [writeItem, if_pos hlong, Value.fault, hrange]
    exact packSigned_outcome.map (code 'L' :: ·)
  · have hshort : ∃ word, packSigned 4 i = .ok word := ⟨_, if_pos (by norm_num; omega)⟩
    obtain ⟨word, hword⟩ := hshort
    simp only [writeItem, if_neg hlong, hword, ok_bind]
    exact Writes.of_range (fun _ => ⟨_, rfl⟩) fun hrange => absurd (by omega) hrange

theorem writeDecimal_outcome (d : Decimal) :
    Writes names (Value.decimal d).fault (writeItem (.decimal d)) := by
  cases d with
  | infinite negative | nan negative signaling payload =>
      simp only [Value.fault, writeItem, Decimal.asTuple]
      exact ⟨.typeError, rfl, rfl⟩
  | finite negative coefficient exponent =>
      have hwrite : writeItem (.decimal (.finite negative coefficient exponent)) = (do
          let places ← pack 1 (-exponent)
          let word ← packSigned 4 (Decimal.signed negative coefficient)
          return code 'D' :: (places ++ word)) := by
        simp only [writeItem, Decimal.asTuple, Decimal.foldl_digits]
      rw [hwrite]
      apply Writes.of_range
      · rintro ⟨hplaces, hexponent, hlow, hhigh⟩
        rw [pack, if_pos (by omega), ok_bind, packSigned, if_pos (by norm_num; omega), ok_bind]
        exact ⟨_, rfl⟩
      · intro hpacks
        by_cases hplaces : 0 ≤ -exponent ∧ -exponent < 256 ^ 1
        · rw [pack, if_pos hplaces, ok_bind, packSigned, if_neg, error_bind]
          · exact ⟨_, rfl, rfl⟩
          · intro hrange
            norm_num at hrange
            exact hpacks ⟨by omega, by omega, by omega, by omega⟩
        · rw [pack, if_neg hplaces, error_bind]
          exact ⟨_, rfl, rfl⟩

theorem writeDatetime_outcome (t : DateTime) :
    Writes names (Value.datetime t).fault (writeItem (.datetime t)) := by
  simp only [writeItem]
  apply Writes.of_range
  · rintro ⟨hlow, hhigh⟩
    rw [DateTime.timegm, if_pos (by omega), ok_bind, pack, if_pos (by omega), ok_bind]
    exact ⟨_, rfl⟩
  · intro hpacks
    by_cases hyears : -62135596800000000 ≤ t.utcMicros ∧ t.utcMicros < 253402300800000000
    · have hnegative : ¬ (0 ≤ t.utcMicros / 1000000 ∧ t.utcMicros / 1000000 < 256 ^ 8) := by
        intro hrange
        exact hpacks ⟨by omega, hyears.2⟩
      rw [DateTime.timegm, if_pos hyears, ok_bind, pack, if_neg hnegative, error_bind]
      exact ⟨_, rfl, rfl⟩
    · rw [DateTime.timegm, if_neg hyears, error_bind]
      exact ⟨_, rfl, rfl⟩

/-- What has no fault can be shown, and what has an object first whose `repr` raises raises that. -/
structure Shown (fault : Option Fault) (repr : Except PyError PyStr) : Prop where
  text : fault = none → ∃ text, repr = .ok text
  error : ∀ e, fault = some (.unnameable e) → repr = .error e

namespace Shown

variable {fault rest : Option Fault} {repr repr' : Except PyError PyStr}

theorem unfailing (text : PyStr) : Shown none (.ok text) := ⟨fun _ => ⟨text, rfl⟩, by simp⟩

theorem of_range (p : Prop) [Decidable p] (text : PyStr) : Shown (faultUnless p) (.ok text) := by
  refine ⟨fun _ => ⟨text, rfl⟩, fun e hfault => ?_⟩
  unfold faultUnless at hfault
  split at hfault <;> cases hfault

theorem or (h : Shown fault repr) (hrest : fault = none → Shown rest repr') :
    Shown (fault.or rest) (repr >>= fun _ => repr') := by
  match fault, h, hrest with
  | none, h, hrest =>
      obtain ⟨text, hrepr⟩ := h.text rfl
      rw [Option.none_or, hrepr, ok_bind]
      exact hrest rfl
  | some .unsupported, h, hrest => exact ⟨by simp, by simp⟩
  | some .outOfRange, h, hrest => exact ⟨by simp, by simp⟩
  | some (.unnameable e), h, hrest =>
      rw [Option.some_or, h.error e rfl, error_bind]
      refine ⟨by simp, fun e' he => ?_⟩
      obtain rfl : e = e' := by simpa using he
      rfl

/-- A range that is looked at before, or after, has no part in it. -/
theorem range_or (h : Shown fault repr) (p : Prop) [Decidable p] :
    Shown ((faultUnless p).or fault) repr := by
  have hor : Shown _ (Except.ok [] >>= fun _ => repr) := (of_range p []).or fun _ => h
  rwa [ok_bind] at hor

theorem or_range (h : Shown fault repr) (p : Prop) [Decidable p] :
    Shown (fault.or (faultUnless p)) repr := by
  match fault, h with
  | none, h =>
      obtain ⟨text, hrepr⟩ := h.text rfl
      rw [Option.none_or, hrepr]
      exact of_range p text
  | some cause, h =>
      rw [Option.some_or]
      exact h

end Shown

theorem reprItems_shown {items : List Value} (h : ∀ v ∈ items, Shown v.fault v.repr) :
    Shown (itemsFault items) (Value.reprItems items) := by
  induction items with
  | nil =>
      rw [itemsFault, Value.reprItems]
      exact .unfailing []
  | cons value rest ih =>
      rw [itemsFault, Value.reprItems]
      apply Shown.or (h value List.mem_cons_self)
      exact fun _ => ih fun v hv => h v (List.mem_cons_of_mem _ hv)

theorem reprEntries_shown {entries : List (PyStr × Value)}
    (h : ∀ entry ∈ entries, Shown entry.2.fault entry.2.repr) :
    Shown (entriesFault entries) (Value.reprEntries entries) := by
  induction entries with
  | nil =>
      rw [entriesFault, Value.reprEntries]
      exact .unfailing []
  | cons entry rest ih =>
      obtain ⟨key, value⟩ := entry
      rw [entriesFault, Value.reprEntries]
      apply Shown.range_or
      apply Shown.or (h (key, value) List.mem_cons_self)
      exact fun _ => ih fun entry hentry => h entry (List.mem_cons_of_mem _ hentry)

theorem repr_shown (v : Value) : Shown v.fault v.repr := by
  induction v using Value.inductionOn with
  | h v ih =>
    cases v with
    | none | bool | float =>
        simp only [Value.fault, Value.repr]
        exact .unfailing []
    | str | bytes | int | decimal | datetime =>
        simp only [Value.fault, Value.repr]
        apply Shown.of_range
    | dict entries =>
        simp only [Value.fault, Value.repr]
        apply Shown.or_range
        apply reprEntries_shown
        exact fun entry hentry => ih _ (List.mem_map_of_mem hentry)
    | list items | tuple items =>
        simp only [Value.fault, Value.repr]
        apply Shown.or_range
        exact reprItems_shown ih
    | other cls repr =>
        cases repr with
        | ok text =>
            simp only [Value.fault, Value.repr]
            exact ⟨by simp, by simp⟩
        | error e =>
            simp only [Value.fault, Value.repr]
            refine ⟨by simp, fun e' he => ?_⟩
            obtain rfl : e = e' := by simpa using he
            rfl

/-- A handler that finds nothing to translate, or an object that it cannot name, leaves the
outcome as it is. -/
theorem orSyntaxError_outcome {fault : Option Fault} {written : Except PyError Octets}
    (h : Writes names fault written) {text : Except PyError ReplyText}
    (htext : ∀ e, fault = some (.unnameable e) → text = .error e) :
    Writes names fault (orSyntaxError text written) := by
  match fault, h with
  | none, ⟨octets, hwritten⟩ => exact ⟨octets, by rw [hwritten]; rfl⟩
  | some .outOfRange, ⟨e, hwritten, he⟩ =>
      have hvalue : e.isValueError = false := by
        cases e <;> first | rfl | simp [PyError.isPacking] at he
      exact ⟨e, by simp [hwritten, orSyntaxError, hvalue], he⟩
  | some .unsupported, ⟨text', hwritten, hname⟩ =>
      exact ⟨text', by rw [hwritten]; rfl, hname⟩
  | some (.unnameable e), hwritten =>
      rw [show written = .error e from hwritten, htext e rfl]
      show (if e.isValueError then _ else _) = _
      split <;> rfl

/-- A value that is written, or an object of an unknown class. -/
def WritesItem (v : Value) : Prop :=
  (∃ cls repr, v = .other cls repr) ∨ Writes (Names v) v.fault (writeItem v)

/-- A value in a table or an array whose handler has this text. -/
theorem writeValue_outcome {v : Value} (h : WritesItem v) {text : String → PyStr → ReplyText}
    (hother : ∀ cls repr, v = .other cls (.ok repr) → names (text cls repr))
    (hnested : ∀ text', Names v text' → names text') :
    Writes names v.fault (orSyntaxError (text v.typeName <$> v.repr) (writeItem v)) := by
  rcases h with ⟨cls, e | repr, rfl⟩ | h
  · simp only [Value.fault, Value.repr, writeItem]
    exact rfl
  · simp only [Value.fault, Value.repr, writeItem, Value.typeName]
    exact ⟨text cls repr, rfl, hother cls repr rfl⟩
  · apply orSyntaxError_outcome (h.mono hnested)
    intro e hfault
    rw [(repr_shown v).error e hfault]
    rfl

theorem writeEntries_outcome {entries : List (PyStr × Value)}
    (h : ∀ entry ∈ entries, WritesItem entry.2)
    (hnames : ∀ entry ∈ entries, (∀ cls repr, entry.2 = .other cls (.ok repr) →
      names (.illegalTableTypeWithKey cls (Utf8.encode entry.1) repr)) ∧
      ∀ text, Names entry.2 text → names text) :
    Writes names (entriesFault entries) (writeEntries entries) := by
  induction entries with
  | nil => exact ⟨[], rfl⟩
  | cons entry rest ih =>
      obtain ⟨key, value⟩ := entry
      have hkey : Writes names (faultUnless ((Utf8.encode key).length ≤ 255))
          (writeSized 1 (Utf8.encode key)) := by
        have hword : ((Utf8.encode key).length ≤ 255) = ((Utf8.encode key).length < 256 ^ 1) := by
          simp only [pow_one, Nat.lt_succ_iff]
        simp only [hword]
        exact writeSized_outcome _
      obtain ⟨hother, hnested⟩ := hnames (key, value) List.mem_cons_self
      have hvalue : Writes names value.fault
          (orSyntaxError (.illegalTableTypeWithKey value.typeName (Utf8.encode key) <$> value.repr)
            (writeItem value)) :=
        @writeValue_outcome names value (h (key, value) List.mem_cons_self)
          (fun cls repr => .illegalTableTypeWithKey cls (Utf8.encode key) repr) hother hnested
      have hrest := ih (fun entry hentry => h entry (List.mem_cons_of_mem _ hentry))
        fun entry hentry => hnames entry (List.mem_cons_of_mem _ hentry)
      exact hkey.bind fun sizedKey _ => hvalue.bind fun item _ => hrest.map (sizedKey ++ item ++ ·)

theorem writeElements_outcome {items : List Value} (h : ∀ v ∈ items, WritesItem v)
    (hnames : ∀ v ∈ items, (∀ cls repr, v = .other cls (.ok repr) →
      names (.illegalTableTypeWithValue cls repr)) ∧ ∀ text, Names v text → names text) :
    Writes names (itemsFault items) (writeElements items) := by
  induction items with
  | nil => exact ⟨[], rfl⟩
  | cons value rest ih =>
      obtain ⟨hother, hnested⟩ := hnames value List.mem_cons_self
      have hvalue : Writes names value.fault
          (orSyntaxError (.illegalTableTypeWithValue value.typeName <$> value.repr)
            (writeItem value)) :=
        @writeValue_outcome names value (h value List.mem_cons_self) .illegalTableTypeWithValue
          hother hnested
      have hrest := ih (fun v hv => h v (List.mem_cons_of_mem _ hv))
        fun v hv => hnames v (List.mem_cons_of_mem _ hv)
      exact hvalue.bind fun item _ => hrest.map (item ++ ·)

/-- What is in an array is written before its length. -/
theorem writeItems_outcome {items : List Value} (h : ∀ v ∈ items, WritesItem v)
    (hnames : ∀ v ∈ items, (∀ cls repr, v = .other cls (.ok repr) →
      names (.illegalTableTypeWithValue cls repr)) ∧ ∀ text, Names v text → names text) :
    Writes names ((itemsFault items).or (faultUnless (itemsSize items < 2 ^ 32))) (do
      let data ← writeElements items
      let sized ← writeSized 4 data
      return code 'A' :: sized) := by
  refine (writeElements_outcome h hnames).bind fun data hdata => ?_
  rw [← (writeElements_size hdata).1]
  exact (writeLong_outcome data).map (code 'A' :: ·)

end Writers

/-- What is in a table is written before its length. -/
theorem writeTable_outcome {entries : List (PyStr × Value)}
    (h : ∀ entry ∈ entries, WritesItem entry.2) :
    Writes (Names (.dict entries)) (Value.dict entries).fault (writeTable (.dict entries)) := by
  have hentries : Writes (Names (.dict entries)) (entriesFault entries)
      (writeEntries entries) := by
    refine writeEntries_outcome h fun entry hentry => ⟨fun cls repr hcls => ?_, fun text => ?_⟩
    · exact .entry (hcls ▸ hentry)
    · exact .nested (List.mem_map_of_mem hentry)
  refine hentries.bind fun data hdata => ?_
  rw [← (writeEntries_size hdata).1]
  exact writeLong_outcome data

theorem writeItem_outcome (v : Value) : WritesItem v := by
  induction v using Value.inductionOn with
  | h v ih =>
    cases v with
    | none | bool | float =>
        right
        simp only [Value.fault, writeItem]
        exact ⟨_, rfl⟩
    | other cls repr => exact Or.inl ⟨cls, repr, rfl⟩
    | int i => exact Or.inr (writeInt_outcome i)
    | decimal d => exact Or.inr (writeDecimal_outcome d)
    | datetime t => exact Or.inr (writeDatetime_outcome t)
    | str text => exact Or.inr ((writeLong_outcome (Utf8.encode text)).map (code 'S' :: ·))
    | bytes octets => exact Or.inr ((writeLong_outcome octets).map (code 'S' :: ·))
    | dict entries =>
        have htable := writeTable_outcome fun entry hentry =>
          ih entry.2 (List.mem_map_of_mem hentry)
        have hcoded := htable.map (code 'F' :: ·)
        right
        simpa only [writeTable, writeItem, bind_assoc] using hcoded
    | list items =>
        right
        exact writeItems_outcome ih fun v hv =>
          ⟨fun cls repr hcls => .element (hcls ▸ hv), fun text => .nested hv⟩
    | tuple items =>
        right
        exact writeItems_outcome ih fun v hv =>
          ⟨fun cls repr hcls => .component (hcls ▸ hv), fun text => .nested hv⟩

/-- There is no fault, or one that is named: the `repr` of the object can be had, or what it
raises names one itself. -/
def Named (names : ReplyText → Prop) : Option Fault → Prop
  | none | some .unsupported => True
  | some (.unnameable e) => ∃ text, e = syntaxError text ∧ names text
  | some .outOfRange => False

/-- Writing a table returns octets, or raises a `FrameSyntaxError` that names a value of it, if
and only if its first fault, where it has one, is an object of an unknown class that can be
named. -/
theorem dumps_table_iff (entries : List (PyStr × Value)) :
    ((∃ octets, dumps ['F'] [.dict entries] = .ok octets) ∨
      ∃ text, dumps ['F'] [.dict entries] = .error (syntaxError text) ∧
        Names (.dict entries) text) ↔
      Named (Names (.dict entries)) (Value.dict entries).fault := by
  have houtcome := writeTable_outcome fun entry (_ : entry ∈ entries) => writeItem_outcome entry.2
  rw [dumps_table]
  rcases hfault : (Value.dict entries).fault with _ | _ | e | _
  · rw [hfault] at houtcome
    exact iff_of_true (Or.inl houtcome) trivial
  · rw [hfault] at houtcome
    exact iff_of_true (Or.inr houtcome) trivial
  · rw [hfault] at houtcome
    rw [show writeTable (.dict entries) = .error e from houtcome]
    simp only [reduceCtorEq, exists_false, false_or, Except.error.injEq]
    exact Iff.rfl
  · rw [hfault] at houtcome
    obtain ⟨e, hwritten, he⟩ := houtcome
    refine iff_of_false ?_ id
    rintro (⟨octets, hok⟩ | ⟨text, herror, -⟩)
    · simp [hwritten] at hok
    · obtain rfl := Except.error.inj (hwritten.symm.trans herror)
      simp [syntaxError, PyError.isPacking] at he

/-- The integer 2 ** 63, and a NaN in an array. -/
theorem dumps_escapes :
    dumps ['F'] [.dict [([97], .int 9223372036854775808)]] = .error .structError ∧
      dumps ['F'] [.dict [([97], .list [.decimal (.nan false false 0)])]] = .error .typeError ∧
      ¬ ((∃ octets, dumps ['F'] [.dict [([97], .int 9223372036854775808)]] = .ok octets) ∨
        ∃ text, dumps ['F'] [.dict [([97], .int 9223372036854775808)]] =
          .error (syntaxError text) ∧ Names (.dict [([97], .int 9223372036854775808)]) text) := by
  have hint : dumps ['F'] [.dict [([97], .int 9223372036854775808)]] = .error .structError := by
    decide
  refine ⟨hint, by decide, ?_⟩
  rintro (⟨octets, hok⟩ | ⟨text, herror, -⟩)
  · simp [hint] at hok
  · simp [hint, syntaxError] at herror

/-- A set of a number that has too many digits to be shown. -/
example : dumps ['F'] [.dict [([97], .list [.other "set" (.error .valueError)])]] =
    .error .valueError := by
  decide

end PyAmqp
