import PyAmqp.Connection.Machine
import PyAmqp.Serialization.Written

/-!
The mechanisms of `amqp/sasl.py` and what a server takes from their responses. `AMQPLAIN` sends
a table and `PLAIN` a text that NULs take apart, so a user name with a NUL is none of the second.
-/

namespace PyAmqp

open Cursor Connection

/-- `v.encode('utf-8')` -/
def Value.encode : Value → Except PyError Octets
  | .str text =>
      if ∀ c ∈ text, Utf8.Scalar c then .ok (Utf8.encode text) else .error .unicodeEncodeError
  | _ => .error .attributeError

/-- `v is None` -/
def Value.isNone : Value → Bool
  | .none => true
  | _ => false

namespace Sasl

/-- A literal such as `b'PLAIN'`. -/
def literal (name : String) : Octets := name.toList.map code

/-- `PLAIN` -/
def plain (username password : Value) : Mechanism where
  mechanism := some (literal "PLAIN")
  start :=
    if username.isNone || password.isNone then .ok none
    else do
      let username ← username.encode
      let password ← password.encode
      return some (0 :: username ++ 0 :: password)

/-- The table that `AMQPLAIN.start` writes. -/
def loginTable (username password : Value) : List (PyStr × Value) :=
  [(PyStr.ofString "LOGIN", username), (PyStr.ofString "PASSWORD", password)]

/-- `AMQPLAIN` -/
def amqplain (username password : Value) : Mechanism where
  mechanism := some (literal "AMQPLAIN")
  start :=
    if username.isNone || password.isNone then .ok none
    else do
      let table ← writeTable (.dict (loginTable username password))
      -- the length at the beginning is skipped
      return some (table.drop 4)

/-- `EXTERNAL` -/
def external : Mechanism where
  mechanism := some (literal "EXTERNAL")
  start := .ok (some [])

/-- `FakeGSSAPI` -/
def fakeGSSAPI : Mechanism where
  mechanism := none
  start := .ok none

/-- The mechanisms of a connection that was not given any, in the order they are tried;
`gssapi` is what there is for GSSAPI. -/
def defaultAuthentication (gssapi : Mechanism) (userid password : Value) : List Mechanism :=
  [gssapi, external, amqplain userid password, plain userid password]

/-! The server -/

/-- Who logs in, and as whom it wants to act when that is another. -/
structure Login where
  actsAs : Option PyStr := none
  username : PyStr
  password : PyStr
  deriving DecidableEq

/-- What stands before the first NUL and after it. -/
def atNul : Octets → Option (Octets × Octets)
  | [] => none
  | octet :: rest =>
      if octet = 0 then some ([], rest)
      else (atNul rest).map fun parts => (octet :: parts.1, parts.2)

/-- `1*SAFE` of RFC 4616: there is a character, and none is a NUL. -/
def Safe (text : PyStr) : Prop := text ≠ [] ∧ ∀ c ∈ text, c.val ≠ 0

instance (text : PyStr) : Decidable (Safe text) := inferInstanceAs (Decidable (_ ∧ _))

def readSafe (octets : Octets) : Option PyStr :=
  (Utf8.decodeScalars octets).filter fun text => Safe text

/-- A server reads a response of `PLAIN`, `[authzid] NUL authcid NUL passwd` in RFC 4616. -/
def readPlain (response : Octets) : Option Login := do
  let (authzid, rest) ← atNul response
  let (authcid, passwd) ← atNul rest
  let actsAs ← if authzid = [] then some none else (readSafe authzid).map some
  let username ← readSafe authcid
  let password ← readSafe passwd
  return { actsAs, username, password }

/-- A server reads a response of `AMQPLAIN`. -/
def readAmqplain (response : Octets) : Option Login :=
  match readTable readItem (sized 4 response) 0 with
  | .ok (table, _) =>
      match Assoc.get? table (PyStr.ofString "LOGIN"),
          Assoc.get? table (PyStr.ofString "PASSWORD") with
      | some (.str username), some (.str password) => some { username, password }
      | _, _ => none
  | .error _ => none

/-! NULs -/

theorem atNul_append {before : Octets} (h : 0 ∉ before) (after : Octets) :
    atNul (before ++ 0 :: after) = some (before, after) := by
  induction before with
  | nil => simp [atNul]
  | cons octet before ih =>
      simp only [List.mem_cons, not_or] at h
      rw [List.cons_append, atNul, if_neg (Ne.symm h.1), ih h.2]
      rfl

theorem ofNat_ne_zero {n : Nat} (hpos : 0 < n) (hlt : n < 256) : (0 : UInt8) ≠ UInt8.ofNat n := by
  intro h
  have hval := congrArg UInt8.toNat h
  simp only [UInt8.toNat_ofNat', Nat.reducePow, Nat.mod_eq_of_lt hlt] at hval
  simp only [UInt8.toNat_ofNat, Nat.reducePow, Nat.zero_mod] at hval
  omega

/-- Only U+0000 has a NUL among its octets. -/
theorem nul_encodePoint {c : Utf8.CodePoint} (hc : c.val ≠ 0) : 0 ∉ Utf8.encodePoint c := by
  have hpos : 0 < c.val := Nat.pos_of_ne_zero hc
  have hlt := c.isLt
  simp only [Utf8.encodePoint]
  split
  · have hone := ofNat_ne_zero hpos (by omega)
    simpa using hone
  · split
    · have hfirst := @ofNat_ne_zero (0xC0 + c.val / 64) (by omega) (by omega)
      have hlast := @ofNat_ne_zero (0x80 + c.val % 64) (by omega) (by omega)
      simp only [List.mem_cons, List.not_mem_nil, or_false, not_or]
      exact ⟨hfirst, hlast⟩
    · have hlast := @ofNat_ne_zero (0x80 + c.val % 64) (by omega) (by omega)
      have hsecond := @ofNat_ne_zero (0x80 + c.val / 64 % 64) (by omega) (by omega)
      split
      · have hfirst := @ofNat_ne_zero (0xE0 + c.val / 4096) (by omega) (by omega)
        simp only [List.mem_cons, List.not_mem_nil, or_false, not_or]
        exact ⟨hfirst, hsecond, hlast⟩
      · have hfirst := @ofNat_ne_zero (0xF0 + c.val / 262144) (by omega) (by omega)
        have hthird := @ofNat_ne_zero (0x80 + c.val / 4096 % 64) (by omega) (by omega)
        simp only [List.mem_cons, List.not_mem_nil, or_false, not_or]
        exact ⟨hfirst, hthird, hsecond, hlast⟩

theorem nul_encode {text : PyStr} : 0 ∈ Utf8.encode text ↔ ∃ c ∈ text, c.val = 0 := by
  unfold Utf8.encode
  rw [List.mem_flatMap]
  constructor
  · rintro ⟨c, hc, hnul⟩
    apply Exists.intro c
    apply And.intro hc
    by_contra hne
    exact nul_encodePoint hne hnul
  · rintro ⟨c, hc, hzero⟩
    apply Exists.intro c
    apply And.intro hc
    simp [Utf8.encodePoint, hzero]

/-! Responses -/

theorem encode_eq_ok {text : PyStr} {octets : Octets} (h : (Value.str text).encode = .ok octets) :
    (∀ c ∈ text, Utf8.Scalar c) ∧ octets = Utf8.encode text := by
  simp only [Value.encode] at h
  split at h
  next hscalars => exact ⟨hscalars, (Except.ok.inj h).symm⟩
  next => cases h

theorem plain_responds (username password : PyStr) :
    (plain (.str username) (.str password)).start ≠ .ok none := by
  intro h
  obtain ⟨user, -, h⟩ := bind_eq_ok h
  obtain ⟨pass, -, h⟩ := bind_eq_ok h
  cases h

theorem amqplain_responds (username password : PyStr) :
    (amqplain (.str username) (.str password)).start ≠ .ok none := by
  intro h
  obtain ⟨table, -, h⟩ := bind_eq_ok h
  cases h

/-- `PLAIN` has a response for text that strict UTF-8 has octets for. -/
theorem plain_start {username password : PyStr} {response : Octets}
    (h : (plain (.str username) (.str password)).start = .ok (some response)) :
    (∀ c ∈ username, Utf8.Scalar c) ∧ (∀ c ∈ password, Utf8.Scalar c) ∧
      response = 0 :: Utf8.encode username ++ 0 :: Utf8.encode password := by
  obtain ⟨user, huser, h⟩ := bind_eq_ok h
  obtain ⟨pass, hpass, h⟩ := bind_eq_ok h
  obtain rfl := Option.some.inj (Except.ok.inj h)
  obtain ⟨husername, rfl⟩ := encode_eq_ok huser
  obtain ⟨hpassword, rfl⟩ := encode_eq_ok hpass
  exact ⟨husername, hpassword, rfl⟩

theorem readSafe_encode {text : PyStr} (hscalars : ∀ c ∈ text, Utf8.Scalar c) :
    readSafe (Utf8.encode text) = if Safe text then some text else none := by
  rw [readSafe, Utf8.decodeScalars_encode hscalars, Option.filter_some]
  simp only [decide_eq_true_eq]

theorem readSafe_nul {octets : Octets} (hnul : 0 ∈ octets) : readSafe octets = none := by
  apply Option.filter_eq_none_iff.mpr
  intro text htext
  have hdecoded := (Option.filter_eq_some_iff.mp htext).1
  rw [← Utf8.encode_decode hdecoded] at hnul
  obtain ⟨c, hc, hzero⟩ := nul_encode.mp hnul
  simp only [decide_eq_true_eq]
  exact fun hsafe => hsafe.2 c hc hzero

/-- A response of `PLAIN` is read as it was meant, or it is not well formed. -/
theorem readPlain_eq {username password : PyStr} {response : Octets}
    (h : (plain (.str username) (.str password)).start = .ok (some response)) :
    readPlain response =
      if Safe username ∧ Safe password then some { username, password } else none := by
  obtain ⟨husername, hpassword, rfl⟩ := plain_start h
  have hidentity : atNul (0 :: Utf8.encode username ++ 0 :: Utf8.encode password) =
      some ([], Utf8.encode username ++ 0 :: Utf8.encode password) := by
    rw [List.cons_append, atNul, if_pos rfl]
  rw [readPlain, hidentity]
  by_cases hnul : 0 ∈ Utf8.encode username
  · -- the first NUL of the user name is taken for its end, the one behind it is in the password
    obtain ⟨before, after, hsplit, hbefore⟩ := List.eq_append_cons_of_mem hnul
    have hparts := atNul_append hbefore (after ++ 0 :: Utf8.encode password)
    have hrest : readSafe (after ++ 0 :: Utf8.encode password) = none := by
      apply readSafe_nul
      simp
    obtain ⟨c, hc, hzero⟩ := nul_encode.mp hnul
    have hunsafe : ¬(Safe username ∧ Safe password) := fun hsafe => hsafe.1.2 c hc hzero
    rw [if_neg hunsafe]
    simp only [Option.bind_eq_bind, Option.bind_some, hsplit, List.append_assoc, List.cons_append,
      hparts, hrest]
    cases readSafe before <;> rfl
  · have hparts := atNul_append hnul (Utf8.encode password)
    simp only [Option.bind_eq_bind, Option.bind_some, hparts, if_true,
      readSafe_encode husername, readSafe_encode hpassword]
    split
    next hname =>
      simp only [hname, true_and, Option.bind_some]
      split <;> rfl
    next hname =>
      rw [if_neg fun hsafe : Safe username ∧ Safe password => hname hsafe.1]
      rfl

/-- The server finds the two entries of a response of `AMQPLAIN`. -/
theorem readAmqplain_eq {username password : PyStr} {response : Octets}
    (h : (amqplain (.str username) (.str password)).start = .ok (some response)) :
    readAmqplain response = some { username, password } := by
  obtain ⟨table, htable, h⟩ := bind_eq_ok h
  obtain rfl := Option.some.inj (Except.ok.inj h)
  have hencodable := encodable_of_table (by rfl) htable
  obtain rfl := Except.ok.inj ((writeTable_ok hencodable).symm.trans htable)
  have hdrop : (tableOctets (loginTable (.str username) (.str password))).drop 4 =
      (loginTable (.str username) (.str password)).flatMap entryOctets := by
    simp [tableOctets, sized]
  have hreads := reads_tableOctets hencodable [] []
  rw [List.append_nil, List.nil_append, List.length_nil] at hreads
  rw [readAmqplain, hdrop]
  rw [tableOctets] at hreads
  rw [hreads]
  rfl

/-- A server that is told a user name and a password by `AMQPLAIN` finds both as they were given.
By `PLAIN` it does so if both have a character and neither has a NUL, and otherwise it finds
nothing. -/
theorem credentials_recovered (username password : PyStr) :
    (∀ response, (amqplain (.str username) (.str password)).start = .ok (some response) →
        readAmqplain response = some { username, password }) ∧
      (∀ response, (plain (.str username) (.str password)).start = .ok (some response) →
        readPlain response =
          if Safe username ∧ Safe password then some { username, password } else none) :=
  ⟨fun _ => readAmqplain_eq, fun _ => readPlain_eq⟩

end Sasl

end PyAmqp
