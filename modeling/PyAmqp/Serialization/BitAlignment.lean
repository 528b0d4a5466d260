import PyAmqp.Serialization.Arguments

/-!
`loads` of two formats one behind the other. A field other than a bit drops what is left of
the octet of bits; the byte array does not, so bits that follow it come out of the octet
before it.
-/

namespace PyAmqp

open Cursor

/-- The letters `loads` knows. -/
def loadsLetters : List Char := ['b', 'o', 'B', 'l', 'L', 'f', 's', 'S', 'x', 'F', 'A', 'T']

/-- The bits left of the current octet after a format, `bits` being left before it. -/
def leftOver (bits : Nat) : List Char → Nat
  | [] => bits
  | p :: format =>
      leftOver (if p = 'b' then (if bits = 0 then 7 else bits - 1)
        else if p = 'x' then bits else 0) format

/-- The letters that leave the bits as they are, and the bits among them. -/
def bitRun (format : List Char) : List Char := format.takeWhile (· ∈ ['b', 'x'])

/-- No bits are left when the second format starts, or a letter that drops them comes before
its first bit. -/
def Separate (format1 format2 : List Char) : Prop :=
  leftOver 0 format1 = 0 ∨ 'b' ∉ bitRun format2

/-- `loads(f1 + f2)` returns what `loads(f1)` and then `loads(f2)` return. -/
def LoadsAppends (format1 format2 : List Char) (buf : Octets) (offset : Nat) : Prop :=
  ∀ values1 mid values2 stop, loads format1 buf offset = .ok (values1, mid) →
    loads format2 buf mid = .ok (values2, stop) →
      loads (format1 ++ format2) buf offset = .ok (values1 ++ values2, stop)

/-! The loop, with the bits it leaves -/

/-- `loadsLoop` with the bits that are left in the end. -/
def loadsKeeping : List Char → Bits → Reader (List Value × Bits)
  | [], b => return ([], b)
  | p :: format, b => do
      let (value, b) ← loadsStep p b
      let (values, b) ← loadsKeeping format b
      return (value :: values, b)

section Loop

variable {p : Char} {format format1 format2 : List Char} {b b' : Bits} {buf : Octets}
  {offset mid next stop : Nat} {values values1 values2 : List Value}

theorem loadsLoop_append (format1 format2 : List Char) (b : Bits) :
    loadsLoop (format1 ++ format2) b = (do
      let (values1, b) ← loadsKeeping format1 b
      let values2 ← loadsLoop format2 b
      return values1 ++ values2) := by
  induction format1 generalizing b with
  | nil => simp [loadsKeeping]
  | cons p format1 ih => simp [loadsLoop, loadsKeeping, ih]

theorem loadsLoop_keeping (format : List Char) (b : Bits) :
    loadsLoop format b = (do
      let (values, _) ← loadsKeeping format b
      return values) := by
  simpa [loadsLoop] using loadsLoop_append format [] b

/-- Letters other than bits and byte arrays do not look at the bits. -/
theorem loadsStep_drops (hb : p ≠ 'b') (hx : p ≠ 'x') (b : Bits) :
    loadsStep p b = loadsStep p {} := by
  unfold loadsStep
  split
  case h_1 => exact absurd rfl hb
  case h_9 => exact absurd rfl hx
  all_goals rfl

/-- Where no bits are left, or they are dropped before the next bit, the loop starts afresh. -/
theorem loadsLoop_afresh (h : b.bitcount = 0 ∨ 'b' ∉ bitRun format) :
    loadsLoop format b = loadsLoop format {} := by
  induction format generalizing b with
  | nil => rfl
  | cons p format ih =>
      by_cases hb : p = 'b'
      · subst hb
        have hnone : b.bitcount = 0 := h.resolve_right (by simp [bitRun])
        have hfirst : loadsStep 'b' b = loadsStep 'b' {} := by simp [loadsStep, hnone]
        rw [loadsLoop, hfirst, ← loadsLoop]
      · by_cases hx : p = 'x'
        · subst hx
          have hrest : b.bitcount = 0 ∨ 'b' ∉ bitRun format := by
            rcases h with hnone | hrun
            · exact Or.inl hnone
            · right
              intro hmem
              apply hrun
              simpa [bitRun] using hmem
          simp only [loadsLoop, loadsStep, bind_assoc, pure_bind, ih hrest]
        · rw [loadsLoop, loadsStep_drops hb hx, ← loadsLoop]

/-- How many bits are left depends on the letters only. -/
theorem loadsStep_bitcount (p : Char) (b : Bits) :
    Returns (fun out => out.2.bitcount = leftOver b.bitcount [p]) (loadsStep p b) := by
  unfold loadsStep
  split
  case h_1 =>
    by_cases hnone : b.bitcount = 0
    · have hleft : leftOver b.bitcount ['b'] = 7 := by rw [hnone]; rfl
      rw [hleft, if_pos hnone]
      refine .bind (.anything _) fun _ _ => .bind (.anything _) fun bits _ => ?_
      exact Returns.bind (P := fun b' => b' = ⟨8, bits⟩) (.pure rfl)
        fun b' hb => .pure (by rw [hb]; rfl)
    · have hleft : leftOver b.bitcount ['b'] = b.bitcount - 1 := by
        simp [leftOver, hnone]
      rw [hleft, if_neg hnone]
      exact Returns.bind (P := fun b' => b' = b) (.pure rfl) fun b' hb => .pure (by rw [hb])
  case h_12 =>
    exact .bind (.anything _) fun _ _ => .bind (.anything _) fun _ _ => .pure rfl
  case h_13 => exact .fail _
  all_goals exact .bind (.anything _) fun _ _ => .pure rfl

theorem loadsKeeping_bitcount (format : List Char) (b : Bits) :
    Returns (fun out => out.2.bitcount = leftOver b.bitcount format) (loadsKeeping format b) := by
  induction format generalizing b with
  | nil => exact .pure rfl
  | cons p format ih =>
      refine .bind (loadsStep_bitcount p b) fun out hout => ?_
      have hleft : leftOver b.bitcount (p :: format) = leftOver out.2.bitcount format := by
        rw [hout]
        rfl
      rw [hleft]
      exact .bind (ih out.2) fun _ hlast => .pure hlast

/-- The law where the second format starts afresh. -/
theorem Separate.appends (h : Separate format1 format2) (buf : Octets) (offset : Nat) :
    LoadsAppends format1 format2 buf offset := by
  intro values1 mid values2 stop h1 h2
  rw [loads, loadsLoop_keeping] at h1
  obtain ⟨⟨values, b⟩, next, hkeeping, hpure⟩ := Cursor.bind_eq_ok h1
  obtain ⟨rfl, rfl⟩ : values = values1 ∧ next = mid := Prod.mk.inj (Except.ok.inj hpure)
  have hcount : b.bitcount = leftOver 0 format1 :=
    loadsKeeping_bitcount format1 {} _ _ _ _ hkeeping
  have hafresh : loadsLoop format2 b = loadsLoop format2 {} :=
    loadsLoop_afresh (hcount ▸ h)
  rw [loads] at h2
  rw [loads, loadsLoop_append]
  simp only [Bind.bind, Cursor.bind, hkeeping, hafresh, h2]
  rfl

end Loop

/-! Octets that show the difference -/

/-- Of an octet `octet` the low bits are used up, if it is one of which bits are left. -/
def Bits.Of (octet : UInt8) (b : Bits) : Prop :=
  b.bitcount < 8 ∧ b.bits = octet.toNat >>> (8 - b.bitcount)

theorem Bits.Of.init (octet : UInt8) : Bits.Of octet {} := by
  refine ⟨by decide, ?_⟩
  have hlt := octet.toNat_lt
  simp only [Nat.shiftRight_eq_div_pow]
  exact (Nat.div_eq_of_lt hlt).symm

theorem Bits.Of.odd {b : Bits} (h : b.Of 255) (hleft : b.bitcount ≠ 0) : b.bits &&& 1 = 1 := by
  have hones : ∀ n < 8, n ≠ 0 → 255 >>> (8 - n) &&& 1 = 1 := by decide
  rw [h.2]
  exact hones b.bitcount h.1 hleft

section Samples

variable {p : Char}

/-- A field of zeros. -/
theorem reads_blank (hp : p ∈ loadsLetters) (hb : p ≠ 'b') (hx : p ≠ 'x') :
    ∃ enc value, ∀ b, Reads (loadsStep p b) enc (value, {}) := by
  have hword : ∀ width, Reads (unpackFrom width) (BigEndian.encode width 0) 0 :=
    fun width => reads_unpackFrom width (by positivity)
  have hnone : ∀ {α : Type} (body : α → Reader α) (init : α),
      Reads (Cursor.within .outOfFuel 0 body init) [] init := fun body init =>
    @Reads.within _ _ _ Empty .outOfFuel body Empty.elim (fun acc _ => acc) [] 0 init
      (by simp) (by simp) rfl
  simp only [loadsLetters, List.mem_cons, List.not_mem_nil, or_false] at hp
  rcases hp with rfl | rfl | rfl | rfl | rfl | rfl | rfl | rfl | rfl | rfl | rfl | rfl
  · exact absurd rfl hb
  · exact ⟨_, _, fun b => (hword 1).bind_pure fun n : Nat => (Value.int n, ({} : Bits))⟩
  · exact ⟨_, _, fun b => (hword 2).bind_pure fun n : Nat => (Value.int n, ({} : Bits))⟩
  · exact ⟨_, _, fun b => (hword 4).bind_pure fun n : Nat => (Value.int n, ({} : Bits))⟩
  · exact ⟨_, _, fun b => (hword 8).bind_pure fun n : Nat => (Value.int n, ({} : Bits))⟩
  · exact ⟨_, _, fun b => (hword 4).bind_pure fun n =>
      (Value.float (Ieee754.widen (UInt32.ofNat n)), ({} : Bits))⟩
  · exact ⟨_, _, fun b => (@reads_text 1 [] (by decide)).bind_pure fun text =>
      (Value.str text, ({} : Bits))⟩
  · exact ⟨_, _, fun b => (@reads_text 4 [] (by decide)).bind_pure fun text =>
      (Value.str text, ({} : Bits))⟩
  · exact absurd rfl hx
  · exact ⟨_, _, fun b => Reads.bind_pure (fun table => (Value.dict table, ({} : Bits)))
      ((hword 4).bind (hnone _ []))⟩
  · exact ⟨_, _, fun b => Reads.bind_pure (fun items => (Value.list items, ({} : Bits)))
      ((hword 4).bind (hnone _ []))⟩
  · have hepoch : DateTime.fromtimestamp 0 = .ok _ := rfl
    exact ⟨_, _, fun b => (hword 8).bind (Reads.bind_pure
      (fun t => (Value.datetime t, ({} : Bits))) (Reads.liftExcept hepoch))⟩

theorem reads_blank_bytes (b : Bits) :
    Reads (loadsStep 'x' b) (sized 4 []) (.bytes [], b) :=
  (@reads_sized 4 [] (by decide)).bind_pure fun octets => (Value.bytes octets, b)

/-- One field, of zeros or a bit of the octet. -/
theorem reads_sample (octet : UInt8) (hp : p ∈ loadsLetters) {b : Bits} (hb : b.Of octet) :
    ∃ enc value b', Reads (loadsStep p b) enc (value, b') ∧ b'.Of octet := by
  by_cases hbit : p = 'b'
  · subst hbit
    by_cases hnone : b.bitcount = 0
    · exact ⟨_, _, _, reads_bit_fetched hnone octet, Nat.lt_succ_self 7, rfl⟩
    · refine ⟨_, _, _, reads_bit_left hnone, ?_, ?_⟩
      · have hlt := hb.1
        simp only
        omega
      · have hshift : 8 - (b.bitcount - 1) = 8 - b.bitcount + 1 := by
          have hlt := hb.1
          omega
        simp only [hshift, Nat.shiftRight_add, ← hb.2]
  · by_cases hx : p = 'x'
    · subst hx
      exact ⟨_, _, _, reads_blank_bytes b, hb⟩
    · obtain ⟨enc, value, hread⟩ := reads_blank hp hbit hx
      exact ⟨enc, value, {}, hread b, .init octet⟩

/-- Octets for a format, with the same octet for its bits everywhere. -/
theorem reads_samples (octet : UInt8) {format : List Char} (h : ∀ p ∈ format, p ∈ loadsLetters)
    {b : Bits} (hb : b.Of octet) :
    ∃ enc values b', Reads (loadsKeeping format b) enc (values, b') ∧ b'.Of octet := by
  induction format generalizing b with
  | nil => exact ⟨[], [], b, Reads.pure _, hb⟩
  | cons p format ih =>
      obtain ⟨first, value, b1, hfirst, hb1⟩ := reads_sample octet (h p List.mem_cons_self) hb
      obtain ⟨rest, values, b2, hrest, hb2⟩ :=
        ih (fun q hq => h q (List.mem_cons_of_mem _ hq)) hb1
      exact ⟨_, _, b2, hfirst.bind (hrest.bind_pure fun out => (value :: out.1, out.2)), hb2⟩

theorem loadsLoop_reads {format : List Char} {b b' : Bits} {enc : Octets} {values : List Value}
    (h : Reads (loadsKeeping format b) enc (values, b')) :
    Reads (loadsLoop format b) enc values := by
  rw [loadsLoop_keeping]
  exact h.bind_pure Prod.fst

/-- A byte array leaves the bits as they are. -/
theorem loadsStep_bytes (b : Bits) : Returns (fun out => out.2 = b) (loadsStep 'x' b) :=
  .bind (.anything _) fun _ _ => .pure rfl

/-- A bit that is set and left over comes out where the next octet has a zero. -/
theorem loadsLoop_differs {format : List Char} (h : ∀ p ∈ format, p ∈ loadsLetters)
    (hbit : 'b' ∈ bitRun format) {b : Bits} (hleft : b.bitcount ≠ 0)
    (hodd : b.bits &&& 1 = 1) :
    ∃ enc values, Reads (loadsLoop format {}) enc values ∧
      ∀ buf offset stop, loadsLoop format b buf offset ≠ .ok (values, stop) := by
  induction format with
  | nil => exact absurd hbit List.not_mem_nil
  | cons p format ih =>
      have htail := fun q hq => h q (List.mem_cons_of_mem _ hq)
      by_cases hp : p = 'b'
      · subst hp
        obtain ⟨enc, values, b', hread, -⟩ := @reads_samples 0 format htail ⟨7, 0⟩ ⟨by decide, rfl⟩
        refine ⟨_, _, (reads_bit_fetched rfl 0).bind
          ((loadsLoop_reads hread).bind_pure fun values => _ :: values), ?_⟩
        intro buf offset stop hrun
        have hstep : loadsStep 'b' b = pure (.bool true, ⟨b.bitcount - 1, b.bits >>> 1⟩) := by
          simp only [loadsStep, if_neg hleft, pure_bind, hodd, decide_true]
        rw [loadsLoop, hstep, pure_bind] at hrun
        obtain ⟨values', mid, -, hpure⟩ := Cursor.bind_eq_ok hrun
        have hvalues := (Prod.mk.inj (Except.ok.inj hpure)).1
        exact absurd (Value.bool.inj (List.cons.inj hvalues).1) (by decide)
      · have hx : p = 'x' := by
          by_contra hx
          simp [bitRun, hp, hx] at hbit
        subst hx
        obtain ⟨enc, values, hread, hdiffers⟩ := ih htail (by simpa [bitRun] using hbit)
        refine ⟨_, _, (reads_blank_bytes {}).bind
          (hread.bind_pure fun values => _ :: values), ?_⟩
        intro buf offset stop hrun
        obtain ⟨⟨value, b'⟩, mid, hstep, hrest⟩ := Cursor.bind_eq_ok hrun
        obtain rfl : b' = b := loadsStep_bytes b _ _ _ _ hstep
        obtain ⟨values', next, hloop, hpure⟩ := Cursor.bind_eq_ok hrest
        have hvalues := (Prod.mk.inj (Except.ok.inj hpure)).1
        rw [(List.cons.inj hvalues).2] at hloop
        exact hdiffers buf mid next hloop

end Samples

/-- `loads` of two formats is `loads` of the first and then of the second, whatever the octets,
where no bit of the second can come out of an octet of the first. -/
theorem loads_append_iff {format1 format2 : List Char} (h1 : ∀ p ∈ format1, p ∈ loadsLetters)
    (h2 : ∀ p ∈ format2, p ∈ loadsLetters) :
    (∀ buf offset, LoadsAppends format1 format2 buf offset) ↔ Separate format1 format2 := by
  constructor
  · intro happends
    by_contra hseparate
    obtain ⟨hleft, hbit⟩ : leftOver 0 format1 ≠ 0 ∧ 'b' ∈ bitRun format2 := by
      simpa [Separate, not_or] using hseparate
    obtain ⟨enc1, values1, b, hread1, hb⟩ := reads_samples 255 h1 (.init 255)
    have hcount : b.bitcount = leftOver 0 format1 :=
      loadsKeeping_bitcount format1 {} _ _ _ _ (hread1 [] [])
    obtain ⟨enc2, values2, hread2, hdiffers⟩ :=
      loadsLoop_differs h2 hbit (hcount ▸ hleft) (hb.odd (hcount ▸ hleft))
    have hrun1 := loadsLoop_reads hread1 [] enc2
    have hrun2 := hread2 enc1 []
    simp only [List.nil_append, List.append_nil, List.length_nil, Nat.zero_add] at hrun1 hrun2
    have hrun := happends (enc1 ++ enc2) 0 values1 _ values2 _ hrun1 hrun2
    rw [loads, loadsLoop_append] at hrun
    obtain ⟨⟨values, b'⟩, mid, hkeeping, hrest⟩ := Cursor.bind_eq_ok hrun
    have hfirst := hread1 [] enc2
    simp only [List.nil_append, List.length_nil] at hfirst
    obtain ⟨hout, rfl⟩ := Prod.mk.inj (Except.ok.inj (hfirst.symm.trans hkeeping))
    obtain ⟨rfl, rfl⟩ := Prod.mk.inj hout
    obtain ⟨values', next, hloop, hpure⟩ := Cursor.bind_eq_ok hrest
    have hvalues := (Prod.mk.inj (Except.ok.inj hpure)).1
    rw [List.append_cancel_left hvalues] at hloop
    exact hdiffers _ _ _ hloop
  · exact fun h buf offset => h.appends buf offset

/-- A byte array that a bit follows. -/
theorem loads_append_bytes :
    (∀ buf offset, LoadsAppends ['b', 'x'] ['b'] buf offset) ↔ Separate ['b', 'x'] ['b'] :=
  loads_append_iff (by simp [loadsLetters]) (by simp [loadsLetters])

/-- The bit behind the byte array is the second bit of the octet before it. -/
theorem bit_left_over :
    loads ['b', 'x', 'b'] [2, 0, 0, 0, 0, 0] 0 =
        .ok ([.bool false, .bytes [], .bool true], 5) ∧
      ¬ LoadsAppends ['b', 'x'] ['b'] [2, 0, 0, 0, 0, 0] 0 := by
  have hboth : loads ['b', 'x', 'b'] [2, 0, 0, 0, 0, 0] 0 =
      .ok ([.bool false, .bytes [], .bool true], 5) := rfl
  refine ⟨hboth, fun happends => ?_⟩
  have hrun := happends [.bool false, .bytes []] 5 [.bool false] 6 rfl rfl
  have hvalues := (Prod.mk.inj (Except.ok.inj (hboth.symm.trans hrun))).1
  simp at hvalues

end PyAmqp
