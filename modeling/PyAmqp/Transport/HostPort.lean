import Mathlib.Data.List.TakeWhile
import PyAmqp.Serialization.Value

/-!
`to_host_port` of `amqp/transport.py`: a literal in brackets is taken apart by
`IPV6_LITERAL`, anything else at its last colon. What is written for a host and a port is
taken apart into them, but for literals with capital letters.
-/

namespace PyAmqp

namespace Transport

/-! Text -/

/-- `int(text)` -/
def int (text : PyStr) : Except PyError Int := (Value.str text).toInt

/-- `str(n)` -/
def str (n : Nat) : PyStr := (Decimal.digits n).map fun digit => Utf8.point (48 + digit)

def openBracket : Utf8.CodePoint := Utf8.point 0x5B
def closeBracket : Utf8.CodePoint := Utf8.point 0x5D
def colon : Utf8.CodePoint := Utf8.point 0x3A

/-- `text.rsplit(':', 1)` of a text with a colon -/
def rsplit (text : PyStr) : PyStr × PyStr :=
  (((text.reverse.dropWhile (· ≠ colon)).drop 1).reverse,
    (text.reverse.takeWhile (· ≠ colon)).reverse)

/-! The regular expression -/

/-- `[\.0-9a-f:]` -/
def literalChar (c : Utf8.CodePoint) : Bool :=
  c.val = 0x2E ∨ (0x30 ≤ c.val ∧ c.val ≤ 0x39) ∨ (0x61 ≤ c.val ∧ c.val ≤ 0x66) ∨ c = colon

/-- `\d` -/
def isDecimal (c : Utf8.CodePoint) : Bool := (Utf8.decimalValue? c.val).isSome

/-- The second group of `IPV6_LITERAL`, of `(?::(\d+))?` -/
def matchPort : PyStr → Option PyStr
  | c :: rest =>
      let digits := rest.takeWhile isDecimal
      if c = colon ∧ digits ≠ [] then some digits else none
  | [] => none

/-- The groups of `IPV6_LITERAL.match(host)`. No character of the literal is a bracket, so
the first bracket after it closes it or there is no match. -/
def matchLiteral : PyStr → Option (PyStr × Option PyStr)
  | bracket :: rest =>
      if bracket = openBracket then
        let literal := rest.takeWhile literalChar
        match rest.dropWhile literalChar with
        | c :: rest => if literal ≠ [] ∧ c = closeBracket then some (literal, matchPort rest) else none
        | [] => none
      else none
  | [] => none

/-- `AMQP_PORT` -/
def amqpPort : Int := 5672

/-- `to_host_port`, whose `default` is `AMQP_PORT` where none is given. -/
def toHostPort (host : PyStr) (default : Int) : Except PyError (PyStr × Int) :=
  match matchLiteral host with
  | some (literal, some digits) => do return (literal, ← int digits)
  | some (literal, none) => .ok (literal, default)
  | none =>
      if colon ∈ host then do
        let (host, port) := rsplit host
        return (host, ← int port)
      else .ok (host, default)

/-! Hosts -/

/-- A character of an address, in either case. -/
def addressChar (c : Utf8.CodePoint) : Bool := literalChar c ∨ (0x41 ≤ c.val ∧ c.val ≤ 0x46)

/-- A name or an IPv4 address, or the address of an IPv6 literal. -/
inductive Host where
  | name (text : PyStr) (plain : ∀ c ∈ text, c ≠ colon ∧ c ≠ openBracket ∧ c ≠ closeBracket)
  | literal (address : PyStr) (nonempty : address ≠ []) (chars : ∀ c ∈ address, addressChar c = true)

namespace Host

/-- Without brackets. -/
def bare : Host → PyStr
  | name text _ => text
  | literal address _ _ => address

/-- As it is written in front of a port. -/
def written : Host → PyStr
  | name text _ => text
  | literal address _ _ => openBracket :: address ++ [closeBracket]

/-- A literal has its letters in lower case. -/
def Lower : Host → Prop
  | name _ _ => True
  | literal address _ _ => ∀ c ∈ address, literalChar c = true

end Host

/-! Numbers -/

theorem decimalValue_digit {digit : Nat} (h : digit < 10) :
    Utf8.decimalValue? (48 + digit) = some digit := by
  rw [Utf8.decimalValue?, Utf8.decimalZeros, List.find?_cons_of_pos (by simp; omega)]
  simp

theorem point_digit_val {digit : Nat} (h : digit < 10) : (Utf8.point (48 + digit)).val = 48 + digit :=
  Nat.mod_eq_of_lt (by omega)

/-- What `str` writes are decimal digits, and no colons. -/
theorem str_decimal {n : Nat} {c : Utf8.CodePoint} (hc : c ∈ str n) :
    ∃ digit, digit < 10 ∧ c = Utf8.point (48 + digit) := by
  obtain ⟨digit, hdigit, rfl⟩ := List.mem_map.mp hc
  refine ⟨digit, ?_, rfl⟩
  unfold Decimal.digits at hdigit
  split at hdigit
  · have := List.mem_singleton.mp hdigit
    omega
  · exact Nat.digits_lt_base (by decide) (List.mem_reverse.mp hdigit)

theorem str_isDecimal {n : Nat} {c : Utf8.CodePoint} (hc : c ∈ str n) : isDecimal c = true := by
  obtain ⟨digit, hdigit, rfl⟩ := str_decimal hc
  rw [isDecimal, point_digit_val hdigit, decimalValue_digit hdigit]
  rfl

theorem str_ne_colon {n : Nat} {c : Utf8.CodePoint} (hc : c ∈ str n) : c ≠ colon := by
  obtain ⟨digit, hdigit, rfl⟩ := str_decimal hc
  intro hcolon
  have hval := congrArg Fin.val hcolon
  rw [point_digit_val hdigit] at hval
  have : colon.val = 58 := rfl
  omega

theorem str_ne_nil (n : Nat) : str n ≠ [] := by
  unfold str Decimal.digits
  split
  · simp
  next hn => simpa [Nat.digits_ne_nil_iff_ne_zero] using hn

theorem parseDigits_digits (digits : List Nat) (hdigits : ∀ digit ∈ digits, digit < 10) (n : Nat)
    (afterDigit : Bool) (h : digits ≠ [] ∨ afterDigit = true) :
    Value.parseDigits (digits.map (48 + ·)) n afterDigit =
      some (digits.foldl (fun v digit => v * 10 + digit) n) := by
  induction digits generalizing n afterDigit with
  | nil => simpa [Value.parseDigits] using h
  | cons digit digits ih =>
      have hdigit := hdigits digit (by simp)
      rw [List.map_cons, Value.parseDigits, if_pos (by omega),
        ih (fun d hd => hdigits d (by simp [hd])) _ _ (.inr rfl), Nat.add_sub_cancel_left]
      rfl

/-- Digits have no blanks or signs around them. -/
theorem parseInt_digits (digits : List Nat) (hdigits : ∀ digit ∈ digits, digit < 10)
    (h : digits ≠ []) :
    Value.parseInt (digits.map (48 + ·)) =
      .ok (Int.ofNat (digits.foldl (fun v digit => v * 10 + digit) 0)) := by
  have hkept : ∀ text : List Nat, (∀ digit ∈ text, digit < 10) →
      (text.map (48 + ·)).dropWhile (fun c => c = 32 ∨ (9 ≤ c ∧ c ≤ 13)) = text.map (48 + ·) := by
    intro text htext
    apply List.dropWhile_eq_self_iff.mpr
    intro hpos
    simp only [List.getElem_map, decide_eq_true_eq]
    omega
  have hparsed := parseDigits_digits digits hdigits 0 false (.inl h)
  unfold Value.parseInt
  simp only [hkept digits hdigits, ← List.map_reverse,
    hkept digits.reverse (fun d hd => hdigits d (List.mem_reverse.mp hd)), List.reverse_reverse]
  cases digits with
  | nil => exact absurd rfl h
  | cons digit digits =>
      simp only [List.map_cons] at hparsed ⊢
      have hsign : ∀ sign < 48, ∀ rest, (48 + digit) :: digits.map (48 + ·) ≠ sign :: rest := by
        intro sign hlt rest heq
        have hhead := (List.cons.inj heq).1
        omega
      split
      next i heq =>
        split at heq
        next hplus => exact absurd hplus (hsign 43 (by decide) _)
        next hminus => exact absurd hminus (hsign 45 (by decide) _)
        next =>
          rw [hparsed] at heq
          rw [← Option.some.inj heq]
      next heq =>
        split at heq
        next hplus => exact absurd hplus (hsign 43 (by decide) _)
        next hminus => exact absurd hminus (hsign 45 (by decide) _)
        next =>
          rw [hparsed] at heq
          cases heq

theorem int_str (n : Nat) : int (str n) = .ok (n : Int) := by
  have hdigits : ∀ digit ∈ Decimal.digits n, digit < 10 := by
    unfold Decimal.digits
    split
    · simp
    · exact fun digit hdigit => Nat.digits_lt_base (by decide) (List.mem_reverse.mp hdigit)
  have hne : Decimal.digits n ≠ [] := fun h => str_ne_nil n (by simp [str, h])
  have hascii : (str n).map (fun c => Utf8.toAscii c.val) = (Decimal.digits n).map (48 + ·) := by
    rw [str, List.map_map]
    apply List.map_congr_left
    intro digit hdigit
    have := hdigits digit hdigit
    rw [Function.comp_apply, point_digit_val this, Utf8.toAscii, if_pos (by omega)]
  rw [int, Value.toInt, hascii, parseInt_digits _ hdigits hne, Decimal.foldl_digits]
  rfl

/-! The two ways a host is read -/

theorem rsplit_colon (host port : PyStr) (hport : ∀ c ∈ port, c ≠ colon) :
    rsplit (host ++ colon :: port) = (host, port) := by
  have hreverse : (host ++ colon :: port).reverse = port.reverse ++ (colon :: host.reverse) := by
    simp
  have hall : ∀ c ∈ port.reverse, decide (c ≠ colon) = true := fun c hc =>
    decide_eq_true (hport c (List.mem_reverse.mp hc))
  rw [rsplit, hreverse, List.takeWhile_append_of_pos hall, List.dropWhile_append_of_pos hall,
    List.dropWhile_cons_of_neg (by simp), List.takeWhile_cons_of_neg (by simp)]
  simp

theorem matchPort_str (n : Nat) : matchPort (colon :: str n) = some (str n) := by
  have hall : (str n).takeWhile isDecimal = str n :=
    List.takeWhile_eq_self_iff.mpr fun _ hc => str_isDecimal hc
  rw [matchPort, hall, if_pos ⟨rfl, str_ne_nil n⟩]

theorem literalChar_ne_bracket {c : Utf8.CodePoint} (hc : addressChar c = true) :
    c ≠ openBracket ∧ c ≠ closeBracket := by
  have hopen : openBracket.val = 0x5B := rfl
  have hclose : closeBracket.val = 0x5D := rfl
  have hcolon : colon.val = 0x3A := rfl
  simp only [addressChar, literalChar, decide_eq_true_eq, Fin.ext_iff] at hc
  simp only [ne_eq, Fin.ext_iff]
  omega

theorem literalChar_address {c : Utf8.CodePoint} (hc : literalChar c = true) :
    addressChar c = true := by
  simp [addressChar, hc]

/-- A literal in lower case is matched up to its closing bracket. -/
theorem matchLiteral_lower {address rest : PyStr} (hne : address ≠ [])
    (hlower : ∀ c ∈ address, literalChar c = true) :
    matchLiteral (openBracket :: (address ++ closeBracket :: rest)) =
      some (address, matchPort rest) := by
  have hclose : ¬ literalChar closeBracket = true := fun h =>
    (literalChar_ne_bracket (literalChar_address h)).2 rfl
  rw [matchLiteral, if_pos rfl, List.takeWhile_append_of_pos hlower,
    List.dropWhile_append_of_pos hlower, List.dropWhile_cons_of_neg hclose,
    List.takeWhile_cons_of_neg hclose]
  simp [hne]

/-- A capital letter stands where the bracket would have to close. -/
theorem matchLiteral_capitals {address rest : PyStr} (hchars : ∀ c ∈ address, addressChar c = true)
    (hlower : ¬ ∀ c ∈ address, literalChar c = true) :
    matchLiteral (openBracket :: (address ++ rest)) = none := by
  cases hdrop : address.dropWhile literalChar with
  | nil => exact absurd (List.dropWhile_eq_nil_iff.mp hdrop) hlower
  | cons c after =>
      have hmem : c ∈ address := (List.dropWhile_sublist _).subset (by rw [hdrop]; simp)
      have hne := (literalChar_ne_bracket (hchars c hmem)).2
      rw [matchLiteral, if_pos rfl, List.dropWhile_append, hdrop]
      simp [hne]

theorem matchLiteral_name {text : PyStr} (h : text.head? ≠ some openBracket) :
    matchLiteral text = none := by
  cases text with
  | nil => rfl
  | cons c rest => rw [matchLiteral, if_neg (by simpa using h)]

/-- What the expression does not match is split at its last colon. -/
theorem toHostPort_split (host : PyStr) (n : Nat) (default : Int)
    (h : matchLiteral (host ++ colon :: str n) = none) :
    toHostPort (host ++ colon :: str n) default = .ok (host, (n : Int)) := by
  have hcolon : colon ∈ host ++ colon :: str n := by simp
  rw [toHostPort, h]
  simp only [if_pos hcolon, rsplit_colon host (str n) (fun c hc => str_ne_colon hc), int_str]
  rfl

theorem toHostPort_bracketed {address : PyStr} (hne : address ≠ [])
    (hlower : ∀ c ∈ address, literalChar c = true) (n : Nat) (default : Int) :
    toHostPort (openBracket :: (address ++ closeBracket :: colon :: str n)) default =
        .ok (address, (n : Int)) ∧
      toHostPort (openBracket :: (address ++ [closeBracket])) default = .ok (address, default) := by
  constructor
  · rw [toHostPort, matchLiteral_lower hne hlower, matchPort_str]
    simp only [int_str]
    rfl
  · rw [toHostPort, matchLiteral_lower hne hlower]
    rfl

theorem toHostPort_plain {text : PyStr}
    (plain : ∀ c ∈ text, c ≠ colon ∧ c ≠ openBracket ∧ c ≠ closeBracket) (n : Nat) (default : Int) :
    toHostPort (text ++ colon :: str n) default = .ok (text, (n : Int)) ∧
      toHostPort text default = .ok (text, default) := by
  have hhead : text.head? ≠ some openBracket := fun h =>
    (plain openBracket (List.mem_of_mem_head? h)).2.1 rfl
  constructor
  · apply toHostPort_split
    apply matchLiteral_name
    cases text with
    | nil => exact fun h => absurd (Option.some.inj h) (by decide)
    | cons c rest => exact hhead
  · rw [toHostPort, matchLiteral_name hhead]
    simp only [if_neg fun h => (plain colon h).1 rfl]

/-- Host and port come back out of what is written for them, and the host alone with the
default port, if and only if a literal has its letters in lower case. -/
theorem toHostPort_written (host : Host) (port : Fin 65536) (default : Int) :
    (toHostPort (host.written ++ colon :: str port) default = .ok (host.bare, (port.val : Int)) ∧
      toHostPort host.written default = .ok (host.bare, default)) ↔ host.Lower := by
  cases host with
  | name text plain => exact iff_of_true (toHostPort_plain plain port default) trivial
  | literal address nonempty chars =>
      simp only [Host.written, Host.bare, Host.Lower, List.cons_append, List.append_assoc,
        List.nil_append]
      constructor
      · intro hlaw
        by_contra hlower
        -- the brackets stay on the host
        have hnone : matchLiteral
            (openBracket :: (address ++ [closeBracket]) ++ colon :: str port) = none := by
          rw [List.cons_append, List.append_assoc]
          exact matchLiteral_capitals chars hlower
        have hsplit := toHostPort_split _ _ default hnone
        simp only [List.cons_append, List.append_assoc, List.nil_append] at hsplit
        have hsame := congrArg (List.length ∘ Prod.fst) (Except.ok.inj (hsplit.symm.trans hlaw.1))
        simp only [Function.comp_apply, List.length_cons, List.length_append, List.length_nil] at hsame
        omega
      · exact fun hlower => toHostPort_bracketed nonempty hlower port default

/-- `[FE80::1]` -/
def capitals : Host :=
  .literal (PyStr.ofString "FE80::1") (by decide) (List.all_eq_true.mp rfl)

/-- With a capital letter the brackets stay on the host, and without a port the end of the
address is taken for one. -/
theorem capitals_split :
    toHostPort (capitals.written ++ colon :: str 5672) amqpPort = .ok (capitals.written, 5672) ∧
      toHostPort capitals.written amqpPort = .error .valueError ∧
      ¬ ∀ (host : Host) (port : Fin 65536) (default : Int),
        toHostPort (host.written ++ colon :: str port) default =
            .ok (host.bare, (port.val : Int)) ∧
          toHostPort host.written default = .ok (host.bare, default) := by
  have halone : toHostPort capitals.written amqpPort = .error .valueError := rfl
  refine ⟨rfl, halone, fun hlaw => ?_⟩
  have hbare := (hlaw capitals 5672 amqpPort).2
  rw [halone] at hbare
  cases hbare

end Transport

end PyAmqp
