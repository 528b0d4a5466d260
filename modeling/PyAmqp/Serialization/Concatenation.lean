import Mathlib.Data.List.Forall2
import Mathlib.Data.List.TakeWhile
import Mathlib.Tactic.IntervalCases
import PyAmqp.Serialization.Dumps

/-!
`dumps` of two formats one behind the other. A field that flushes the bits before it
leaves nothing that depends on them; the timestamp does not, so bits that are held back
are written behind the timestamps that follow, and share an octet with the bits after
these.
-/

namespace PyAmqp

/-! Fields -/

/-- `dumps` takes the value for the letter. -/
def Accepts (p : Char) (v : Value) : Prop := ∃ octets, dumpsField p v = .ok octets

/-- The letters that flush. -/
def flushing : List Char := ['o', 'B', 'l', 'L', 'f', 's', 'S', 'x', 'F', 'A']

/-- What a value adds to the output: a bit, octets past the bits that are held back, or
octets behind them. -/
inductive Field where
  | bit (b : Bool)
  | past (octets : Octets)
  | behind (octets : Octets)

/-- The field of a value that is accepted. -/
def fieldOf (p : Char) (v : Value) : Field :=
  let octets := (dumpsField p v).toOption.getD []
  if p = 'b' then .bit v.truthy
  else if p ∈ flushing then .behind octets
  else .past octets

def fieldsOf (format : List Char) (values : List Value) : List Field :=
  List.zipWith fieldOf format values

namespace Dumper

def addBit (b : Bool) (d : Dumper) : Dumper :=
  { d with
    bitcount := d.bitcount + 1
    bits := orLast (if d.bitcount % 8 = 0 then d.bits ++ [0] else d.bits)
      (UInt8.ofNat ((if b then 1 else 0) <<< (d.bitcount % 8))) }

def add (d : Dumper) : Field → Dumper
  | .bit b => d.addBit b
  | .past octets => d.write octets
  | .behind octets => d.flushbits.write octets

/-- The output with these fields and the last flush. -/
def finish (d : Dumper) (fields : List Field) : Octets := (fields.foldl add d).flushbits.out

end Dumper

section Fields

variable {p : Char} {v : Value} {octets : Octets}

theorem fieldOf_behind (hp : p ∈ flushing) (h : dumpsField p v = .ok octets) :
    fieldOf p v = .behind octets := by
  have hb : p ≠ 'b' := by
    rintro rfl
    exact absurd hp (by decide)
  simp only [fieldOf, h, Except.toOption, Option.getD_some, if_neg hb, if_pos hp]

theorem fieldOf_past (hb : p ≠ 'b') (hp : p ∉ flushing) (h : dumpsField p v = .ok octets) :
    fieldOf p v = .past octets := by
  simp only [fieldOf, h, Except.toOption, Option.getD_some, if_neg hb, if_neg hp]

/-- A letter `dumps` does not know writes nothing. -/
theorem dumpsField_unknown (hT : p ≠ 'T') (hp : p ∉ flushing) : dumpsField p v = .ok [] := by
  unfold dumpsField
  split
  case h_11 => exact absurd rfl hT
  case h_12 => rfl
  all_goals exact absurd (by decide) hp

theorem dumpsStep_accepts (h : Accepts p v) (d : Dumper) :
    dumpsStep p v d = .ok (d.add (fieldOf p v)) := by
  obtain ⟨octets, hoctets⟩ := h
  unfold dumpsStep
  split
  · rfl
  · rw [hoctets, fieldOf_past (by decide) (by decide) hoctets]
    rfl
  next hb hT =>
    split
    next hflushing =>
      rw [hoctets, fieldOf_behind hflushing hoctets]
      rfl
    next hother =>
      rw [fieldOf_past hb hother (dumpsField_unknown hT hother)]
      simp [Dumper.add, Dumper.write]

/-- `dumps` of values that are accepted. -/
theorem dumpsLoop_accepts {format : List Char} {values : List Value}
    (h : List.Forall₂ Accepts format values) (d : Dumper) :
    dumpsLoop format values d = .ok ((fieldsOf format values).foldl Dumper.add d) := by
  induction h generalizing d with
  | nil => rfl
  | cons hfirst _ ih =>
      rw [dumpsLoop, dumpsStep_accepts hfirst, ok_bind, ih]
      rfl

theorem dumps_accepts {format : List Char} {values : List Value}
    (h : List.Forall₂ Accepts format values) :
    dumps format values = .ok (({} : Dumper).finish (fieldsOf format values)) := by
  rw [dumps, dumpsLoop_accepts h]
  rfl

/-- What `dumps` goes on from it has accepted. -/
theorem dumpsStep_eq_ok {d d' : Dumper} (h : dumpsStep p v d = .ok d') : Accepts p v := by
  unfold dumpsStep at h
  split at h
  · exact ⟨_, dumpsField_unknown (by decide) (by decide)⟩
  · obtain ⟨octets, hoctets, -⟩ := bind_eq_ok h
    exact ⟨octets, hoctets⟩
  next hb hT =>
    split at h
    next hflushing =>
      obtain ⟨octets, hoctets, -⟩ := bind_eq_ok h
      exact ⟨octets, hoctets⟩
    next hother => exact ⟨_, dumpsField_unknown hT hother⟩

theorem dumpsLoop_eq_ok {format : List Char} {values : List Value} {d d' : Dumper}
    (hlength : format.length = values.length) (h : dumpsLoop format values d = .ok d') :
    List.Forall₂ Accepts format values := by
  induction format generalizing values d with
  | nil =>
      obtain rfl := List.eq_nil_of_length_eq_zero hlength.symm
      exact .nil
  | cons p format ih =>
      cases values with
      | nil => cases hlength
      | cons v values =>
          obtain ⟨next, hstep, hrest⟩ := bind_eq_ok h
          exact .cons (dumpsStep_eq_ok hstep) (ih (Nat.succ.inj hlength) hrest)

theorem accepts_of_dumps {format : List Char} {values : List Value}
    (hlength : format.length = values.length) (h : dumps format values = .ok octets) :
    List.Forall₂ Accepts format values := by
  obtain ⟨d, hloop, -⟩ := bind_eq_ok h
  exact dumpsLoop_eq_ok hlength hloop

end Fields

/-! Bits held back -/

theorem orLast_base (base : List UInt8) {bits : List UInt8} (h : bits ≠ []) (x : UInt8) :
    orLast (base ++ bits) x = base ++ orLast bits x := by
  induction bits using List.reverseRecOn with
  | nil => exact absurd rfl h
  | append_singleton bits last => rw [← List.append_assoc, orLast_append, orLast_append,
      List.append_assoc]

theorem orLast_lit (base more : List UInt8) {x : UInt8} (hx : x ≠ 0) (y : UInt8) :
    ∃ x' more', orLast (base ++ x :: more) y = base ++ x' :: more' ∧ x' ≠ 0 := by
  induction more using List.reverseRecOn with
  | nil => exact ⟨x ||| y, [], orLast_append base x y, by simp [hx]⟩
  | append_singleton more last =>
      refine ⟨x, more ++ [last ||| y], ?_, hx⟩
      rw [← List.cons_append, ← List.append_assoc, orLast_append, List.append_assoc,
        List.cons_append]

namespace Field

/-- The field does not flush. -/
def holds : Field → Bool
  | .behind _ => false
  | _ => true

/-- What goes past the bits. -/
def passes : Field → Octets
  | .past octets => octets
  | _ => []

def isBit : Field → Bool
  | .bit _ => true
  | _ => false

end Field

namespace Dumper

/-- Bits are held back in octets. -/
def Consistent (d : Dumper) : Prop := d.bits = [] ↔ d.bitcount = 0

theorem addBit_bits_ne (b : Bool) {d : Dumper} (h : d.Consistent) : (d.addBit b).bits ≠ [] := by
  apply orLast_ne_nil
  split
  · simp
  next hopen => exact fun hnil => hopen (by rw [h.mp hnil])

theorem Consistent.add {d : Dumper} (h : d.Consistent) (field : Field) :
    (d.add field).Consistent := by
  cases field with
  | bit b => exact iff_of_false (addBit_bits_ne b h) (Nat.succ_ne_zero _)
  | past octets => exact h
  | behind octets => exact iff_of_true rfl rfl

theorem Consistent.foldl {d : Dumper} (h : d.Consistent) (fields : List Field) :
    (fields.foldl Dumper.add d).Consistent :=
  List.foldlRecOn fields Dumper.add h fun _ h field _ => h.add field

theorem consistent_init : ({} : Dumper).Consistent := iff_of_true rfl rfl

/-- What is written already does not matter. -/
theorem foldl_out (out : Octets) (d : Dumper) (fields : List Field) :
    fields.foldl add { d with out := out ++ d.out } =
      { fields.foldl add d with out := out ++ (fields.foldl add d).out } := by
  induction fields generalizing d with
  | nil => rfl
  | cons field fields ih =>
      have hadd : ({ d with out := out ++ d.out } : Dumper).add field =
          { d.add field with out := out ++ (d.add field).out } := by
        cases field with
        | bit b => rfl
        | past octets => simp [add, write]
        | behind octets => simp [add, write, flushbits]
      rw [List.foldl_cons, hadd, ih, List.foldl_cons]

theorem finish_out (out : Octets) (fields : List Field) :
    finish { out } fields = out ++ finish {} fields := by
  have hout := foldl_out out {} fields
  simp only [List.append_nil] at hout
  simp [finish, hout, flushbits]

/-- Fields that do not flush write what goes past the bits. -/
theorem foldl_holds {fields : List Field} (h : ∀ field ∈ fields, field.holds = true)
    (d : Dumper) : (fields.foldl add d).out = d.out ++ fields.flatMap Field.passes := by
  induction fields generalizing d with
  | nil => simp
  | cons field fields ih =>
      rw [List.foldl_cons, ih fun field hfield => h field (List.mem_cons_of_mem _ hfield)]
      cases field with
      | bit b => simp [add, addBit, Field.passes]
      | past octets => simp [add, write, Field.passes]
      | behind octets => exact absurd (h _ List.mem_cons_self) Bool.false_ne_true

/-- Bits are written at the first field that flushes, and nothing depends on them after it. -/
theorem finish_append {lead rest : List Field} (hlead : ∀ field ∈ lead, field.holds = true)
    (hrest : ∀ field ∈ rest.head?, field.holds = false) (d : Dumper) :
    d.finish (lead ++ rest) =
      d.out ++ (lead.flatMap Field.passes ++ (lead.foldl add d).bits) ++ finish {} rest := by
  rw [finish, List.foldl_append]
  cases rest with
  | nil => simp [flushbits, foldl_holds hlead, finish]
  | cons field rest =>
      cases field with
      | bit b => exact absurd (hrest _ rfl) (by simp [Field.holds])
      | past octets => exact absurd (hrest _ rfl) (by simp [Field.holds])
      | behind octets =>
          have hbehind : ∀ d : Dumper, (Field.behind octets :: rest).foldl add d =
              rest.foldl add { out := d.out ++ d.bits ++ octets } := fun d => rfl
          have hfinish : ∀ d : Dumper, d.finish (.behind octets :: rest) =
              d.out ++ d.bits ++ octets ++ finish {} rest := fun d => by
            rw [finish, hbehind]
            exact finish_out _ rest
          rw [← finish, hfinish, hfinish, foldl_holds hlead]
          simp

/-- The law at the level of fields: the bits held back from before join those that follow. -/
theorem finish_append_iff {before lead rest : List Field}
    (hlead : ∀ field ∈ lead, field.holds = true)
    (hrest : ∀ field ∈ rest.head?, field.holds = false) :
    finish {} (before ++ (lead ++ rest)) = finish {} before ++ finish {} (lead ++ rest) ↔
      lead.flatMap Field.passes ++ (lead.foldl add (before.foldl add {})).bits =
        (before.foldl add {}).bits ++
          (lead.flatMap Field.passes ++ (lead.foldl add {}).bits) := by
  have hleft : finish {} (before ++ (lead ++ rest)) =
      (before.foldl add {}).finish (lead ++ rest) := by
    rw [finish, List.foldl_append, finish]
  rw [hleft, finish_append hlead hrest, finish_append hlead hrest]
  have hbefore : finish {} before = (before.foldl add {}).out ++ (before.foldl add {}).bits := rfl
  rw [hbefore]
  simp only [List.append_assoc, List.append_cancel_left_eq, List.nil_append]
  simp only [← List.append_assoc, List.append_cancel_right_eq]

/-! Bits that join -/

/-- On a whole number of octets, bits open their own. -/
theorem foldl_bits_base {fields : List Field} (h : ∀ field ∈ fields, field.holds = true)
    {base : List UInt8} {d e : Dumper} (hbits : d.bits = base ++ e.bits)
    (hcount : d.bitcount % 8 = e.bitcount % 8) (he : e.Consistent) :
    (fields.foldl add d).bits = base ++ (fields.foldl add e).bits := by
  induction fields generalizing d e with
  | nil => exact hbits
  | cons field fields ih =>
      have hrest := fun field hfield => h field (List.mem_cons_of_mem _ hfield)
      cases field with
      | bit b =>
          refine ih hrest ?_ ?_ (he.add (.bit b))
          · simp only [add, addBit, hcount]
            split
            · rw [hbits, List.append_assoc, orLast_base _ (by simp)]
            next hopen =>
              rw [hbits, orLast_base _ fun hnil => hopen (by rw [he.mp hnil])]
          · simp only [add, addBit]
            omega
      | past octets => exact ih hrest hbits hcount he
      | behind octets => exact absurd (h _ List.mem_cons_self) Bool.false_ne_true

/-- Fields without bits hold none back. -/
theorem foldl_bits_none {fields : List Field} (h : ∀ field ∈ fields, field.holds = true)
    (hbits : ∀ field ∈ fields, field.isBit = false) (d : Dumper) :
    (fields.foldl add d).bits = d.bits := by
  induction fields generalizing d with
  | nil => rfl
  | cons field fields ih =>
      rw [List.foldl_cons, ih (fun field hfield => h field (List.mem_cons_of_mem _ hfield))
        fun field hfield => hbits field (List.mem_cons_of_mem _ hfield)]
      cases field with
      | bit b => exact absurd (hbits _ List.mem_cons_self) (by simp [Field.isBit])
      | past octets => rfl
      | behind octets => exact absurd (h _ List.mem_cons_self) Bool.false_ne_true

/-- An octet that is not zero stays so, whatever bits follow. -/
theorem foldl_bits_lit {fields : List Field} (h : ∀ field ∈ fields, field.holds = true)
    {base more : List UInt8} {x : UInt8} (hx : x ≠ 0) {d : Dumper}
    (hbits : d.bits = base ++ x :: more) :
    ∃ x' more', (fields.foldl add d).bits = base ++ x' :: more' ∧ x' ≠ 0 := by
  induction fields generalizing d x more with
  | nil => exact ⟨x, more, hbits, hx⟩
  | cons field fields ih =>
      have hrest := fun field hfield => h field (List.mem_cons_of_mem _ hfield)
      cases field with
      | bit b =>
          obtain ⟨x', more', hbits', hx'⟩ : ∃ x' more',
              (d.addBit b).bits = base ++ x' :: more' ∧ x' ≠ 0 := by
            simp only [addBit, hbits]
            split
            · rw [List.append_assoc, List.cons_append]
              exact orLast_lit _ _ hx _
            · exact orLast_lit _ _ hx _
          exact ih hrest hx' hbits'
      | past octets => exact ih hrest hx hbits
      | behind octets => exact absurd (h _ List.mem_cons_self) Bool.false_ne_true

end Dumper

/-! Formats -/

/-- The number of bits held back after a format, with those before it. -/
def held (bits : Nat) : List Char → Nat
  | [] => bits
  | p :: format => held (if p = 'b' then bits + 1 else if p ∈ flushing then 0 else bits) format

/-- The letters up to the first that flushes. -/
def lead (format : List Char) : List Char := format.takeWhile (· ∉ flushing)

/-- No bits are held back when the second format starts, or no timestamp comes before its first
letter that flushes, and no bit either unless those held back fill their octets. -/
def Kept (format1 format2 : List Char) : Prop :=
  held 0 format1 = 0 ∨
    ('T' ∉ lead format2 ∧ ('b' ∉ lead format2 ∨ 8 ∣ held 0 format1))

/-- `dumps(f1 + f2, v1 + v2) = dumps(f1, v1) + dumps(f2, v2)` -/
def Appends (format1 : List Char) (values1 : List Value) (format2 : List Char)
    (values2 : List Value) : Prop :=
  ∃ octets1 octets2, dumps format1 values1 = .ok octets1 ∧ dumps format2 values2 = .ok octets2 ∧
    dumps (format1 ++ format2) (values1 ++ values2) = .ok (octets1 ++ octets2)

section Formats

variable {format format1 format2 : List Char} {values values1 values2 : List Value}

theorem fieldOf_holds (p : Char) (v : Value) : (fieldOf p v).holds = decide (p ∉ flushing) := by
  unfold fieldOf
  by_cases hb : p = 'b'
  · rw [if_pos hb, hb]
    rfl
  · rw [if_neg hb]
    by_cases hp : p ∈ flushing
    · rw [if_pos hp]
      simp [Field.holds, hp]
    · rw [if_neg hp]
      simp [Field.holds, hp]

theorem fieldOf_isBit (p : Char) (v : Value) : (fieldOf p v).isBit = decide (p = 'b') := by
  unfold fieldOf
  by_cases hb : p = 'b'
  · rw [if_pos hb]
    simp [Field.isBit, hb]
  · rw [if_neg hb]
    split
    · simp [Field.isBit, hb]
    · simp [Field.isBit, hb]

/-- Of the fields that do not flush only the timestamps write octets. -/
theorem fieldOf_passes {p : Char} (hT : p ≠ 'T') (v : Value) : (fieldOf p v).passes = [] := by
  unfold fieldOf
  by_cases hb : p = 'b'
  · rw [if_pos hb]
    rfl
  · rw [if_neg hb]
    by_cases hp : p ∈ flushing
    · rw [if_pos hp]
      rfl
    · rw [if_neg hp, dumpsField_unknown hT hp]
      rfl

theorem mem_fieldsOf {field : Field} (h : field ∈ fieldsOf format values) :
    ∃ p ∈ format, ∃ v, field = fieldOf p v := by
  induction format generalizing values with
  | nil => simp [fieldsOf] at h
  | cons p format ih =>
      cases values with
      | nil => simp [fieldsOf] at h
      | cons v values =>
          rcases List.mem_cons.mp h with rfl | hmem
          · exact ⟨p, List.mem_cons_self, v, rfl⟩
          · obtain ⟨q, hq, w, hfield⟩ := ih hmem
            exact ⟨q, List.mem_cons_of_mem _ hq, w, hfield⟩

theorem foldl_bitcount (h : List.Forall₂ Accepts format values) (d : Dumper) :
    ((fieldsOf format values).foldl Dumper.add d).bitcount = held d.bitcount format := by
  induction h generalizing d with
  | nil => rfl
  | @cons p v format values hfirst _ ih =>
      obtain ⟨octets, hoctets⟩ := hfirst
      have hcount : (d.add (fieldOf p v)).bitcount =
          if p = 'b' then d.bitcount + 1 else if p ∈ flushing then 0 else d.bitcount := by
        by_cases hb : p = 'b'
        · rw [if_pos hb, hb]
          rfl
        · rw [if_neg hb]
          by_cases hp : p ∈ flushing
          · rw [if_pos hp, fieldOf_behind hp hoctets]
            rfl
          · rw [if_neg hp, fieldOf_past hb hp hoctets]
            rfl
      rw [held, ← hcount]
      exact ih _

theorem fieldsOf_lead (format : List Char) (values : List Value) :
    (fieldsOf format values).takeWhile Field.holds = fieldsOf (lead format) values := by
  induction format generalizing values with
  | nil => rfl
  | cons p format ih =>
      cases values with
      | nil => simp [fieldsOf]
      | cons v values =>
          simp only [fieldsOf, lead, List.zipWith_cons_cons, List.takeWhile_cons, fieldOf_holds]
          split
          · exact congrArg (fieldOf p v :: ·) (ih values)
          · rfl

/-- The fields that do not flush before the first that does. -/
theorem lead_holds {field : Field} (h : field ∈ fieldsOf (lead format) values) :
    field.holds = true := by
  rw [← fieldsOf_lead] at h
  exact List.mem_takeWhile_imp h

/-- Without a timestamp nothing goes past the bits. -/
theorem lead_passes (hT : 'T' ∉ lead format) (values : List Value) :
    (fieldsOf (lead format) values).flatMap Field.passes = [] := by
  rw [List.flatMap_eq_nil_iff]
  intro field hfield
  obtain ⟨p, hp, v, rfl⟩ := mem_fieldsOf hfield
  exact fieldOf_passes (fun h => hT (h ▸ hp)) v

/-- The law for values that are accepted, in terms of the bits that are held back. -/
theorem appends_iff (h1 : List.Forall₂ Accepts format1 values1)
    (h2 : List.Forall₂ Accepts format2 values2) :
    Appends format1 values1 format2 values2 ↔
      let before := (fieldsOf format1 values1).foldl Dumper.add {}
      let fields := fieldsOf (lead format2) values2
      fields.flatMap Field.passes ++ (fields.foldl Dumper.add before).bits =
        before.bits ++ (fields.flatMap Field.passes ++ (fields.foldl Dumper.add {}).bits) := by
  have hsplit : fieldsOf format2 values2 =
      fieldsOf (lead format2) values2 ++ (fieldsOf format2 values2).dropWhile Field.holds := by
    rw [← fieldsOf_lead, List.takeWhile_append_dropWhile]
  have hrest : ∀ field ∈ ((fieldsOf format2 values2).dropWhile Field.holds).head?,
      field.holds = false := by
    intro field hfield
    have hhead := List.head?_dropWhile_not Field.holds (fieldsOf format2 values2)
    rwa [Option.mem_def.mp hfield] at hhead
  have hboth : dumps (format1 ++ format2) (values1 ++ values2) =
      .ok (Dumper.finish {} (fieldsOf format1 values1 ++ fieldsOf format2 values2)) := by
    rw [dumps_accepts (List.rel_append h1 h2), fieldsOf, List.zipWith_append h1.length_eq]
    rfl
  have hlaw := @Dumper.finish_append_iff (fieldsOf format1 values1)
    (fieldsOf (lead format2) values2) _ (fun field hfield => lead_holds hfield) hrest
  rw [← hsplit] at hlaw
  rw [← hlaw, Appends, dumps_accepts h1, dumps_accepts h2, hboth]
  constructor
  · rintro ⟨octets1, octets2, hoctets1, hoctets2, happend⟩
    rw [Except.ok.inj happend, Except.ok.inj hoctets1, Except.ok.inj hoctets2]
  · exact fun happend => ⟨_, _, rfl, rfl, by rw [happend]⟩

/-- Nothing depends on the values where the condition holds of the formats. -/
theorem Kept.appends (h : Kept format1 format2) (h1 : List.Forall₂ Accepts format1 values1)
    (h2 : List.Forall₂ Accepts format2 values2) : Appends format1 values1 format2 values2 := by
  rw [appends_iff h1 h2]
  have hheld : ((fieldsOf format1 values1).foldl Dumper.add {}).bitcount = held 0 format1 :=
    foldl_bitcount h1 {}
  have hconsistent := Dumper.consistent_init.foldl (fieldsOf format1 values1)
  generalize (fieldsOf format1 values1).foldl Dumper.add {} = before at hheld hconsistent ⊢
  dsimp only
  have hholds : ∀ field ∈ fieldsOf (lead format2) values2, field.holds = true :=
    fun field hfield => lead_holds hfield
  rcases h with hnone | ⟨hT, hbits⟩
  · have hempty : before.bits = [] := hconsistent.mpr (hheld.trans hnone)
    rw [hempty, @Dumper.foldl_bits_base _ hholds [] before {} (by rw [hempty]; rfl)
      (by rw [hheld, hnone]) Dumper.consistent_init]
    rfl
  · rw [lead_passes hT, List.nil_append, List.nil_append]
    rcases hbits with hb | hwhole
    · have hnone : ∀ field ∈ fieldsOf (lead format2) values2, field.isBit = false := by
        intro field hfield
        obtain ⟨p, hp, v, rfl⟩ := mem_fieldsOf hfield
        rw [fieldOf_isBit]
        exact decide_eq_false fun h => hb (h ▸ hp)
      rw [Dumper.foldl_bits_none hholds hnone, Dumper.foldl_bits_none hholds hnone]
      simp
    · exact Dumper.foldl_bits_base hholds (by simp)
        (by rw [hheld, Nat.mod_eq_zero_of_dvd hwhole]; rfl) Dumper.consistent_init

end Formats

/-! Values that show the difference -/

/-- 1970-01-01, without a time zone. -/
def epoch : DateTime where
  micros := 0
  utcoffset := none
  low := by decide
  high := by decide

/-- A value for each letter, with the given bit for a bit. -/
def sample (bit : Bool) : Char → Value
  | 'b' => .bool bit
  | 'T' => .datetime epoch
  | 'f' => .float 0x3FF0000000000000
  | 'o' | 'B' | 'l' | 'L' => .int 0
  | _ => .none

theorem packFloat_one :
    packFloat (.float 0x3FF0000000000000) = .ok (BigEndian.encode 4 0x3F800000) := by
  have hnarrow : Ieee754.narrow 0x3FF0000000000000 = some 0x3F800000 := by decide
  rw [packFloat, packSingle, hnarrow]
  rfl

theorem sample_accepted (bit : Bool) (p : Char) : Accepts p (sample bit p) := by
  unfold Accepts dumpsField
  split
  case h_5 => exact ⟨_, packFloat_one⟩
  all_goals exact ⟨_, rfl⟩

theorem samples_accepted (bit : Bool) (format : List Char) :
    List.Forall₂ Accepts format (format.map (sample bit)) := by
  induction format with
  | nil => exact .nil
  | cons p format ih => exact .cons (sample_accepted bit p) ih

/-- The samples' fields, in a format or at its front. -/
theorem mem_fieldsOf_samples {format format' : List Char} {bit : Bool} {field : Field}
    (hfront : format' <+: format)
    (h : field ∈ fieldsOf format' (format.map (sample bit))) :
    ∃ p ∈ format', field = fieldOf p (sample bit p) := by
  obtain ⟨rest, rfl⟩ := hfront
  rw [List.map_append] at h
  induction format' with
  | nil => simp [fieldsOf] at h
  | cons p format' ih =>
      rcases List.mem_cons.mp h with rfl | hmem
      · exact ⟨p, List.mem_cons_self, rfl⟩
      · obtain ⟨q, hq, hfield⟩ := ih hmem
        exact ⟨q, List.mem_cons_of_mem _ hq, hfield⟩

theorem fieldOf_mem_samples {format format' : List Char} (bit : Bool) {p : Char}
    (hfront : format' <+: format) (hp : p ∈ format') :
    fieldOf p (sample bit p) ∈ fieldsOf format' (format.map (sample bit)) := by
  obtain ⟨rest, rfl⟩ := hfront
  rw [List.map_append]
  induction format' with
  | nil => exact absurd hp List.not_mem_nil
  | cons q format' ih =>
      rcases List.mem_cons.mp hp with rfl | hmem
      · exact List.mem_cons_self
      · exact List.mem_cons_of_mem _ (ih hmem)

theorem sample_bit {p : Char} {b bit : Bool} (h : fieldOf p (sample bit p) = .bit b) :
    b = bit := by
  have hp : p = 'b' := by
    have hbit := fieldOf_isBit p (sample bit p)
    rw [h] at hbit
    exact of_decide_eq_true hbit.symm
  subst hp
  exact (Field.bit.inj h).symm

/-- A timestamp of zero writes zeros. -/
theorem sample_passes (bit : Bool) (p : Char) :
    (fieldOf p (sample bit p)).passes = if p = 'T' then List.replicate 8 0 else [] := by
  by_cases hT : p = 'T'
  · rw [if_pos hT, hT]
    rfl
  · rw [if_neg hT, fieldOf_passes hT]

namespace Dumper

/-- Zero bits leave only zeros. -/
theorem foldl_zeros {fields : List Field} (h : ∀ b, Field.bit b ∈ fields → b = false)
    {d : Dumper} (hd : ∀ x ∈ d.bits, x = 0) : ∀ x ∈ (fields.foldl add d).bits, x = 0 := by
  induction fields generalizing d with
  | nil => exact hd
  | cons field fields ih =>
      apply ih fun b hb => h b (List.mem_cons_of_mem _ hb)
      cases field with
      | bit b =>
          cases h b List.mem_cons_self
          simp only [add, addBit, Bool.false_eq_true, if_false, orLast_zero]
          split
          · intro x hx
            rcases List.mem_append.mp hx with hold | hnew
            · exact hd x hold
            · exact List.mem_singleton.mp hnew
          · exact hd
      | past octets => exact hd
      | behind octets => exact fun x hx => absurd hx List.not_mem_nil

/-- The first octet that is held back starts with its first bit. -/
theorem foldl_head {fields : List Field} (h : ∀ b, Field.bit b ∈ fields → b = true)
    {d : Dumper} (hconsistent : d.Consistent) (hd : ∀ x ∈ d.bits.head?, x ≠ 0) :
    ∀ x ∈ (fields.foldl add d).bits.head?, x ≠ 0 := by
  induction fields generalizing d with
  | nil => exact hd
  | cons field fields ih =>
      apply ih (fun b hb => h b (List.mem_cons_of_mem _ hb)) (hconsistent.add field)
      cases field with
      | bit b =>
          cases h b List.mem_cons_self
          cases hbits : d.bits with
          | nil =>
              have hnew : (d.addBit true).bits = [1] := by
                simp [addBit, hbits, hconsistent.mp hbits, orLast]
              simp [add, hnew]
          | cons x more =>
              have hx : x ≠ 0 := hd x (by rw [hbits]; rfl)
              obtain ⟨x', more', hbits', hx'⟩ :=
                @foldl_bits_lit [.bit true] (by simp [Field.holds]) [] more x hx d hbits
              rw [List.foldl_cons, List.foldl_nil] at hbits'
              rw [hbits']
              simpa using hx'
      | past octets => exact hd
      | behind octets => exact fun x hx => absurd hx (by simp [add, flushbits, write])

/-- A bit that is set joins the octet that is not full yet. -/
theorem foldl_joins {fields : List Field} (h : ∀ field ∈ fields, field.holds = true)
    (hbit : ∀ b, Field.bit b ∈ fields → b = true) (hmem : Field.bit true ∈ fields)
    {base : List UInt8} {d : Dumper} (hbits : d.bits = base ++ [0])
    (hopen : d.bitcount % 8 ≠ 0) :
    ∃ x more, (fields.foldl add d).bits = base ++ x :: more ∧ x ≠ 0 := by
  induction fields generalizing d with
  | nil => exact absurd hmem List.not_mem_nil
  | cons field fields ih =>
      have hrest := fun field hfield => h field (List.mem_cons_of_mem _ hfield)
      cases field with
      | bit b =>
          cases hbit b List.mem_cons_self
          have hset : (d.addBit true).bits =
              base ++ UInt8.ofNat (1 <<< (d.bitcount % 8)) :: [] := by
            simp [addBit, hopen, hbits, orLast]
          have hne : UInt8.ofNat (1 <<< (d.bitcount % 8)) ≠ 0 := by
            have hlt : d.bitcount % 8 < 8 := Nat.mod_lt _ (by decide)
            generalize d.bitcount % 8 = r at hlt
            interval_cases r <;> decide
          exact foldl_bits_lit hrest hne hset
      | past octets =>
          have hmem' : Field.bit true ∈ fields := (List.mem_cons.mp hmem).resolve_left (by simp)
          exact @ih hrest (fun b hb => hbit b (List.mem_cons_of_mem _ hb)) hmem'
            (d.write octets) hbits hopen
      | behind octets => exact absurd (h _ List.mem_cons_self) Bool.false_ne_true

end Dumper

section Differences

variable {format1 format2 : List Char}

theorem lead_front (format : List Char) : lead format <+: format := List.takeWhile_prefix _

/-- Bits that are set are written behind a timestamp of zero, not before it. -/
theorem overtaken (hheld : held 0 format1 ≠ 0) (hT : 'T' ∈ lead format2) :
    ¬ Appends format1 (format1.map (sample true)) format2 (format2.map (sample true)) := by
  rw [appends_iff (samples_accepted true format1) (samples_accepted true format2)]
  have hcount := foldl_bitcount (samples_accepted true format1) {}
  have hconsistent := Dumper.consistent_init.foldl (fieldsOf format1 (format1.map (sample true)))
  have hhead : ∀ x ∈ ((fieldsOf format1 (format1.map (sample true))).foldl
      Dumper.add {}).bits.head?, x ≠ 0 := by
    refine Dumper.foldl_head (fun b hb => ?_) Dumper.consistent_init (by simp)
    obtain ⟨p, -, hfield⟩ := mem_fieldsOf_samples (List.prefix_refl format1) hb
    exact sample_bit hfield.symm
  generalize (fieldsOf format1 (format1.map (sample true))).foldl Dumper.add {} = before
    at hcount hconsistent hhead ⊢
  dsimp only
  have hzeros : ∀ x ∈ (fieldsOf (lead format2) (format2.map (sample true))).flatMap
      Field.passes, x = 0 := by
    intro x hx
    obtain ⟨field, hfield, hmem⟩ := List.mem_flatMap.mp hx
    obtain ⟨p, -, rfl⟩ := mem_fieldsOf_samples (lead_front format2) hfield
    rw [sample_passes] at hmem
    split at hmem
    · exact List.eq_of_mem_replicate hmem
    · exact absurd hmem List.not_mem_nil
  have hsome : (0 : UInt8) ∈ (fieldsOf (lead format2) (format2.map (sample true))).flatMap
      Field.passes := by
    refine List.mem_flatMap.mpr ⟨_, fieldOf_mem_samples true (lead_front format2) hT, ?_⟩
    rw [sample_passes, if_pos rfl]
    exact List.mem_cons_self
  cases hpasses : (fieldsOf (lead format2) (format2.map (sample true))).flatMap
      Field.passes with
  | nil => exact absurd (hpasses ▸ hsome) List.not_mem_nil
  | cons first passes =>
      cases hbits : before.bits with
      | nil => exact absurd (hcount.symm.trans (hconsistent.mp hbits)) hheld
      | cons x more =>
          intro happend
          have hfirst : first = 0 := hzeros first (by rw [hpasses]; exact List.mem_cons_self)
          exact hhead x (by rw [hbits]; rfl) ((List.cons.inj happend).1.symm.trans hfirst)

/-- A bit shares the octet of bits that are held back. -/
theorem joined (hheld : ¬ 8 ∣ held 0 format1) (hT : 'T' ∉ lead format2)
    (hb : 'b' ∈ lead format2) :
    ¬ Appends format1 (format1.map (sample false)) format2 (format2.map (sample true)) := by
  rw [appends_iff (samples_accepted false format1) (samples_accepted true format2)]
  have hcount := foldl_bitcount (samples_accepted false format1) {}
  have hconsistent :=
    Dumper.consistent_init.foldl (fieldsOf format1 (format1.map (sample false)))
  have hzeros : ∀ x ∈ ((fieldsOf format1 (format1.map (sample false))).foldl
      Dumper.add {}).bits, x = 0 := by
    refine Dumper.foldl_zeros (fun b hb => ?_) (by simp)
    obtain ⟨p, -, hfield⟩ := mem_fieldsOf_samples (List.prefix_refl format1) hb
    exact sample_bit hfield.symm
  generalize (fieldsOf format1 (format1.map (sample false))).foldl Dumper.add {} = before
    at hcount hconsistent hzeros ⊢
  dsimp only
  rw [lead_passes hT, List.nil_append, List.nil_append]
  have hopen : before.bitcount % 8 ≠ 0 := by
    rw [hcount]
    exact fun h => hheld (Nat.dvd_of_mod_eq_zero h)
  induction hbits : before.bits using List.reverseRecOn with
  | nil => exact absurd (by rw [hconsistent.mp hbits]) hopen
  | append_singleton base last =>
      have hlast : last = 0 := hzeros last (by simp [hbits])
      subst hlast
      obtain ⟨x, more, hjoined, hx⟩ := Dumper.foldl_joins
        (fun field hfield => lead_holds hfield)
        (fun b hmem => by
          obtain ⟨p, -, hfield⟩ := mem_fieldsOf_samples (lead_front format2) hmem
          exact sample_bit hfield.symm)
        (fieldOf_mem_samples true (lead_front format2) hb) hbits hopen
      rw [hjoined, List.append_assoc]
      intro happend
      exact hx (List.cons.inj (List.append_cancel_left happend)).1

end Differences

/-- `dumps` of two formats is `dumps` of the first and then of the second, whatever the values,
where no timestamp and no bit of the second can meet bits of the first. -/
theorem dumps_append_iff (format1 format2 : List Char) :
    (∀ values1 values2, List.Forall₂ Accepts format1 values1 →
      List.Forall₂ Accepts format2 values2 → Appends format1 values1 format2 values2) ↔
      Kept format1 format2 := by
  constructor
  · intro h
    by_contra hkept
    simp only [Kept, not_or, not_and_or, not_not] at hkept
    obtain ⟨hheld, hT | ⟨hb, hwhole⟩⟩ := hkept
    · exact overtaken hheld hT (h _ _ (samples_accepted true _) (samples_accepted true _))
    · by_cases hT : 'T' ∈ lead format2
      · exact overtaken hheld hT (h _ _ (samples_accepted true _) (samples_accepted true _))
      · exact joined hwhole hT hb (h _ _ (samples_accepted false _) (samples_accepted true _))
  · exact fun h values1 values2 h1 h2 => h.appends h1 h2

/-- A bit and then a timestamp: the timestamp is written first. -/
theorem bit_overtaken :
    Accepts 'b' (.bool true) ∧ Accepts 'T' (.datetime epoch) ∧
      dumps ['b', 'T'] [.bool true, .datetime epoch] = .ok [0, 0, 0, 0, 0, 0, 0, 0, 1] ∧
      ¬ Appends ['b'] [.bool true] ['T'] [.datetime epoch] := by
  refine ⟨⟨_, rfl⟩, ⟨_, rfl⟩, by decide, ?_⟩
  rintro ⟨octets1, octets2, h1, h2, happend⟩
  have hbit : dumps ['b'] [.bool true] = .ok [1] := by decide
  have htime : dumps ['T'] [.datetime epoch] = .ok [0, 0, 0, 0, 0, 0, 0, 0] := by decide
  rw [← Except.ok.inj (hbit.symm.trans h1), ← Except.ok.inj (htime.symm.trans h2)] at happend
  exact absurd happend (by decide)

end PyAmqp
