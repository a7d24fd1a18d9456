import ArbNautilus.Base.Bytes
import ArbNautilus.Mt5.BrokerText
import ArbNautilus.Mt5.Decoder

/-! The bytes an account and a journal are named by, as both ends build them. -/

namespace ArbNautilus.Mt5

open Base

namespace Ea

/-- The characters of a string; half of one is converted like a character of its own. -/
def characters (value : Wide) : Text :=
  (joinSurrogates (value.map UInt16.toNat)).map fun code =>
    if isHigh code ∨ isLow code then '\uFFFD' else Char.ofNat code

/-- `StringToCharArray` with `CP_UTF8`: the string up to its end, and the terminator. -/
def stringToCharArray (value : Wide) : List UInt8 :=
  utf8 (characters (value.takeWhile (· ≠ 0))) ++ [0]

/-- `ArrayResize`. New items are whatever was left there. -/
def arrayResize (left : ℕ → UInt8) (size : ℕ) : List UInt8 := (List.range size).map left

/-- What `Py000DeriveAccountId` hashes. -/
def accountCanonical (left : ℕ → UInt8) (brokerServer brokerLogin : Wide) : Option (List UInt8) :=
  let domain := stringToCharArray (ascii "py000.mt5/account-id/v1")
  let server := stringToCharArray brokerServer
  let login := stringToCharArray brokerLogin
  if domain.length ≤ 1 ∨ server.length ≤ 1 ∨ login.length ≤ 1 then none
  else do
    let serverBytes := server.length - 1
    let total := domain.length + 4 + serverBytes + 1 + login.length - 1
    let canonical : Buffer UInt8 := ⟨arrayResize left total, 0⟩
    let canonical ← canonical.putAll domain
    let canonical ← canonical.put (UInt8.ofNat ((serverBytes >>> 24) &&& 0xff))
    let canonical ← canonical.put (UInt8.ofNat ((serverBytes >>> 16) &&& 0xff))
    let canonical ← canonical.put (UInt8.ofNat ((serverBytes >>> 8) &&& 0xff))
    let canonical ← canonical.put (UInt8.ofNat (serverBytes &&& 0xff))
    let canonical ← canonical.putAll (server.take serverBytes)
    let canonical ← canonical.put 0
    let canonical ← canonical.putAll (login.take (login.length - 1))
    pure canonical.items

/-- What `Py000BuildNamespace` hashes. -/
def namespaceCanonical (left : ℕ → UInt8) (accountId symbol magic : Wide) : Option (List UInt8) :=
  if optionalBrokerText symbol 128 = false then none
  else
    let domain := stringToCharArray (ascii "py000.mt5/journal-namespace/v1")
    let account := stringToCharArray accountId
    let symbol := stringToCharArray symbol
    let magic := stringToCharArray magic
    if domain.length ≤ 1 ∨ account.length ≤ 1 ∨ symbol.length ≤ 1 ∨ magic.length ≤ 1 then none
    else do
      let total := domain.length + account.length + symbol.length + magic.length - 1
      let canonical : Buffer UInt8 := ⟨arrayResize left total, 0⟩
      let canonical ← canonical.putAll domain
      let canonical ← canonical.putAll account
      let canonical ← canonical.putAll symbol
      let canonical ← canonical.putAll (magic.take (magic.length - 1))
      pure canonical.items

end Ea

namespace Codec

def journalNamespaceDomain : Text := "py000.mt5/journal-namespace/v1".toList ++ ['\x00']

/-- What `normalized_account_id` hashes. -/
def accountCanonical (server login : Text) : List UInt8 :=
  utf8 accountIdDomain ++ bigEndian (utf8 server).length ++ utf8 server ++ [0] ++ utf8 login

/-- What `normalized_journal_namespace` hashes. -/
def namespaceCanonical (account symbol magic : Text) : List UInt8 :=
  utf8 journalNamespaceDomain ++ utf8 account ++ [0] ++ utf8 symbol ++ [0] ++ utf8 magic

/-- The arguments `normalized_account_id` takes. -/
def accountArguments (server login : Json ℚ) : List Check :=
  validatedText server "broker_server" 128 ++ [.uint64 login "broker_login" true]

/-- The arguments `normalized_journal_namespace` takes. -/
def namespaceArguments (account symbol magic : Json ℚ) : List Check :=
  validatedIdentifier account "account_id" maxIdentifierLength ++ validatedText symbol "symbol"
    128 ++
    [.uint64 magic "magic" false]

variable (sha256 : List UInt8 → Text)

/-- `normalized_journal_namespace`, over the hexadecimal SHA-256 of bytes. -/
def normalizedJournalNamespace (account symbol magic : Text) : Text :=
  "PY000_MT5_V1_".toList ++ sha256 (namespaceCanonical account symbol magic)

end Codec

/-- The string as the client names it. -/
def Wide.text (s : Wide) : Text := Codec.textOf (.str s.pyStr)

section Received

variable {s : Wide} {text : Text} {label : String} {maximum : ℕ}

theorem characters_of_text (received : s.pyStr = .text text) : Ea.characters s = text := by
  unfold Wide.pyStr PyStr.ofCodes at received
  split at received
  · cases received
  · rename_i whole
    rw [← PyStr.text.inj received, Ea.characters]
    refine List.map_congr_left fun code member => ?_
    rw [if_neg]
    simp only [List.any_eq_true, decide_eq_true_eq, not_exists, not_and] at whole
    exact whole code member

theorem mem_joinSurrogates {codes : List ℕ} {code : ℕ} (single : ¬(isHigh code ∨ isLow code))
    (member : code ∈ codes) : code ∈ joinSurrogates codes := by
  fun_induction joinSurrogates codes with
  | case1 => exact member
  | case2 => exact member
  | case3 a b rest halves ih =>
    simp only [List.mem_cons] at member
    rcases member with rfl | rfl | member
    · exact absurd (.inl halves.1) single
    · exact absurd (.inr halves.2) single
    · exact List.mem_cons_of_mem _ (ih member)
  | case4 a b rest _ ih =>
    rcases List.mem_cons.1 member with rfl | member
    · exact List.mem_cons_self
    · exact List.mem_cons_of_mem _ (ih member)

/-- A text the client accepts reaches the terminal's array whole. -/
theorem stringToCharArray_of_text (received : s.pyStr = .text text) (plain : '\x00' ∉ text) :
    Ea.stringToCharArray s = utf8 text ++ [0] := by
  have whole : ∀ unit ∈ s, unit ≠ 0 := by
    rintro unit member rfl
    have code : 0 ∈ joinSurrogates (s.map UInt16.toNat) :=
      mem_joinSurrogates (by decide) (List.mem_map.2 ⟨0, member, rfl⟩)
    have inside : '\x00' ∈ Ea.characters s := List.mem_map.2 ⟨0, code, rfl⟩
    rw [characters_of_text received] at inside
    exact plain inside
  have kept : s.takeWhile (· ≠ 0) = s := List.takeWhile_eq_self_iff.2 (by simpa using whole)
  rw [Ea.stringToCharArray, kept, characters_of_text received]

theorem validatedText_passes {value : PyStr}
    (passed : Codec.Passes (Codec.validatedText (.str value) label maximum)) :
    ∃ text, value = .text text ∧ text ≠ [] ∧ text.length ≤ maximum ∧ '\x00' ∉ text := by
  unfold Codec.validatedText at passed
  simp only [Codec.passes_append, Codec.passes_require, Bool.and_eq_true, Bool.not_eq_true',
    List.isEmpty_eq_false_iff, decide_eq_true_eq, List.all_eq_true] at passed
  obtain ⟨⟨-, ⟨some, -⟩, short⟩, plain⟩ := passed
  cases value with
  | broken codes => exact absurd rfl some
  | text text =>
    refine ⟨text, rfl, some, short, fun zero => ?_⟩
    have control := plain _ zero
    revert control
    decide

theorem uint64String_passes {value : PyStr} {positive : Bool}
    (passed : Codec.uint64String (.str value) label positive = .ok ()) :
    ∃ text, value = .text text ∧ Codec.isUint text = true := by
  unfold Codec.uint64String at passed
  split at passed
  · rename_i digits
    cases value with
    | broken codes => cases digits
    | text text => exact ⟨text, rfl, digits⟩
  · cases passed

end Received

section Agreement

/-- Writes that fill an array leave what was written. -/
theorem filled (room items : List UInt8) (fits : items.length = room.length) :
    (Buffer.putAll ⟨room, 0⟩ items >>= fun b => pure b.items) = some items := by
  rw [Buffer.putAll_full fits]
  rfl

variable {server login : Wide} {t u : Text}

/-- The four shifted bytes of a length. -/
theorem shifted_eq (n : ℕ) :
    [UInt8.ofNat ((n >>> 24) &&& 0xff), UInt8.ofNat ((n >>> 16) &&& 0xff),
      UInt8.ofNat ((n >>> 8) &&& 0xff),
      UInt8.ofNat (n &&& 0xff)] = bigEndian n := by
  have masked (m : ℕ) : UInt8.ofNat (m &&& 0xff) = UInt8.ofNat m := by
    rw [← UInt8.toNat_inj, UInt8.toNat_ofNat', UInt8.toNat_ofNat']
    change (m &&& (2 ^ 8 - 1)) % 256 = m % 256
    rw [Nat.and_two_pow_sub_one_eq_mod]
    omega
  simp only [masked, Nat.shiftRight_eq_div_pow, bigEndian]

theorem zero_not_mem_uint {text : Text} (digits : Codec.isUint text = true) : '\x00' ∉ text := by
  intro zero
  have digit := ((Codec.isUint_iff text).1 digits).2.1 _ zero
  revert digit
  decide

theorem account_bytes_agree (left : ℕ → UInt8) (server login : Wide)
    (passed : Codec.Passes (Codec.accountArguments (.str server.pyStr) (.str login.pyStr))) :
    Ea.accountCanonical left server login =
      some (Codec.accountCanonical server.text login.text) := by
  simp only [Codec.accountArguments, Codec.passes_append, Codec.passes_cons, Codec.passes_nil,
    and_true] at passed
  obtain ⟨t, received, some, -, plain⟩ := validatedText_passes passed.1
  obtain ⟨u, number, digits⟩ := uint64String_passes passed.2
  have first := stringToCharArray_of_text received plain
  have second := stringToCharArray_of_text number (zero_not_mem_uint digits)
  have domain : Ea.stringToCharArray (Ea.ascii "py000.mt5/account-id/v1") =
      utf8 Codec.accountIdDomain := by
    decide +kernel
  have long : (utf8 Codec.accountIdDomain).length = 24 := by decide +kernel
  have more : utf8 t ≠ [] := utf8_ne_nil some
  have figures : utf8 u ≠ [] := utf8_ne_nil ((Codec.isUint_iff u).1 digits).1
  rw [← List.length_pos_iff] at more figures
  have written := filled (Ea.arrayResize left (24 + 4 + (utf8 t).length + 1 + (utf8 u).length))
    (Codec.accountCanonical t u) (by
      simp only [Codec.accountCanonical, Ea.arrayResize, List.length_map, List.length_range,
        List.length_append, length_bigEndian, List.length_singleton, long])
  rw [Codec.accountCanonical, ← shifted_eq] at written
  simp only [Buffer.putAll_append, Buffer.putAll_cons, Buffer.putAll_nil, bind_assoc,
    pure_bind] at written
  rw [Ea.accountCanonical, first, second, domain, Wide.text, Wide.text, received, number]
  simp only [List.length_append, List.length_singleton, ← Nat.add_assoc, Nat.add_sub_cancel,
    List.take_left', long]
  rw [if_neg (by omega)]
  change _ = Option.some (Codec.accountCanonical t u)
  rw [Codec.accountCanonical, ← shifted_eq]
  exact written

theorem namespace_bytes_agree (left : ℕ → UInt8) (account symbol magic : Wide)
    (passed :
      Codec.Passes
      (Codec.namespaceArguments (.str account.pyStr) (.str symbol.pyStr) (.str magic.pyStr)))
    (valid : Ea.optionalBrokerText symbol 128 = true) :
    Ea.namespaceCanonical left account symbol magic =
      some (Codec.namespaceCanonical account.text symbol.text magic.text) := by
  simp only [Codec.namespaceArguments, Codec.validatedIdentifier, Codec.passes_append,
    Codec.passes_cons,
    Codec.passes_nil, and_true] at passed
  obtain ⟨t, received, someT, -, plainT⟩ := validatedText_passes passed.1.1.1
  obtain ⟨u, named, someU, -, plainU⟩ := validatedText_passes passed.1.2
  obtain ⟨v, number, digits⟩ := uint64String_passes passed.2
  have first := stringToCharArray_of_text received plainT
  have second := stringToCharArray_of_text named plainU
  have third := stringToCharArray_of_text number (zero_not_mem_uint digits)
  have domain : Ea.stringToCharArray (Ea.ascii "py000.mt5/journal-namespace/v1") =
      utf8 Codec.journalNamespaceDomain := by
    decide +kernel
  have long : (utf8 Codec.journalNamespaceDomain).length = 31 := by decide +kernel
  have moreT : utf8 t ≠ [] := utf8_ne_nil someT
  have moreU : utf8 u ≠ [] := utf8_ne_nil someU
  have figures : utf8 v ≠ [] := utf8_ne_nil ((Codec.isUint_iff v).1 digits).1
  rw [← List.length_pos_iff] at moreT moreU figures
  have written := filled
    (Ea.arrayResize left (31 + (utf8 t).length + 1 + (utf8 u).length + 1 + (utf8 v).length))
    (utf8 Codec.journalNamespaceDomain ++ (utf8 t ++ [0]) ++ (utf8 u ++ [0]) ++ utf8 v) (by
      simp only [Ea.arrayResize, List.length_map, List.length_range, List.length_append,
        List.length_singleton, long, ← Nat.add_assoc])
  simp only [Buffer.putAll_append _ _ (utf8 v), Buffer.putAll_append _ _ (utf8 u ++ [0]),
    Buffer.putAll_append _ _ (utf8 t ++ [0]), bind_assoc] at written
  rw [Ea.namespaceCanonical, first, second, third, domain, Wide.text, Wide.text, Wide.text,
    received, named, number]
  simp only [List.length_append, List.length_singleton, ← Nat.add_assoc, Nat.add_sub_cancel,
    List.take_left', long,
    valid, reduceCtorEq, if_false]
  rw [if_neg (by omega)]
  change _ = Option.some (Codec.namespaceCanonical t u v)
  rw [written, Codec.namespaceCanonical]
  simp only [List.append_assoc]

end Agreement

section Injective

/-- Two accounts of one encoding are one. -/
theorem accountCanonical_injective {server login server' login' : Text}
    (short : server.length ≤ 128)
    (short' : server'.length ≤ 128)
    (same : Codec.accountCanonical server login = Codec.accountCanonical server' login') :
    server = server' ∧ login = login' := by
  have size := length_utf8 server
  have size' := length_utf8 server'
  simp only [Codec.accountCanonical, List.append_assoc] at same
  obtain ⟨servers, rest⟩ := prefixed_injective (by omega) (by omega) (List.append_cancel_left same)
  exact ⟨utf8_injective servers, utf8_injective (List.append_cancel_left rest)⟩

/-- Two journals of one encoding are one. -/
theorem namespaceCanonical_injective {account symbol magic account' symbol' magic' : Text}
    (plain : '\x00' ∉ account ∧ '\x00' ∉ symbol) (plain' : '\x00' ∉ account' ∧ '\x00' ∉ symbol')
    (same : Codec.namespaceCanonical account symbol magic =
      Codec.namespaceCanonical account' symbol' magic') :
    account = account' ∧ symbol = symbol' ∧ magic = magic' := by
  simp only [Codec.namespaceCanonical, List.append_assoc] at same
  obtain ⟨accounts, rest⟩ :=
    terminated_injective (zero_not_mem_utf8 plain.1) (zero_not_mem_utf8 plain'.1)
    (List.append_cancel_left same)
  obtain ⟨symbols, magics⟩ :=
    terminated_injective (zero_not_mem_utf8 plain.2) (zero_not_mem_utf8 plain'.2) rest
  exact ⟨utf8_injective accounts, utf8_injective symbols, utf8_injective magics⟩

theorem text_of_passed {value : PyStr} {label : String} {maximum : ℕ}
    (passed : Codec.Passes (Codec.validatedText (.str value) label maximum)) :
    value = .text (Codec.textOf (.str value)) ∧ (Codec.textOf (.str value)).length ≤ maximum ∧
      '\x00' ∉ Codec.textOf (.str value) := by
  obtain ⟨t, rfl, -, short, plain⟩ := validatedText_passes passed
  exact ⟨rfl, short, plain⟩

theorem text_of_uint {value : PyStr} {label : String} {positive : Bool}
    (passed : Codec.uint64String (.str value) label positive = .ok ()) :
    value = .text (Codec.textOf (.str value)) := by
  obtain ⟨t, rfl, -⟩ := uint64String_passes passed
  rfl

theorem account_bytes_injective {server login server' login' : PyStr}
    (left : Codec.Passes (Codec.accountArguments (.str server) (.str login)))
    (right : Codec.Passes (Codec.accountArguments (.str server') (.str login')))
    (same : Codec.accountCanonical (Codec.textOf (.str server)) (Codec.textOf (.str login)) =
      Codec.accountCanonical (Codec.textOf (.str server')) (Codec.textOf (.str login'))) :
    server = server' ∧ login = login' := by
  simp only [Codec.accountArguments, Codec.passes_append, Codec.passes_cons, Codec.passes_nil,
    and_true] at left right
  obtain ⟨received, short, -⟩ := text_of_passed left.1
  obtain ⟨received', short', -⟩ := text_of_passed right.1
  obtain ⟨servers, logins⟩ := accountCanonical_injective short short' same
  rw [received, received', text_of_uint left.2, text_of_uint right.2, servers, logins]
  exact ⟨rfl, rfl⟩

theorem namespace_bytes_injective {account symbol magic account' symbol' magic' : PyStr}
    (left : Codec.Passes (Codec.namespaceArguments (.str account) (.str symbol) (.str magic)))
    (right : Codec.Passes (Codec.namespaceArguments (.str account') (.str symbol') (.str magic')))
    (same : Codec.namespaceCanonical (Codec.textOf (.str account)) (Codec.textOf (.str symbol))
        (Codec.textOf (.str magic)) =
      Codec.namespaceCanonical (Codec.textOf (.str account')) (Codec.textOf (.str symbol'))
        (Codec.textOf (.str magic'))) :
    account = account' ∧ symbol = symbol' ∧ magic = magic' := by
  simp only [Codec.namespaceArguments, Codec.validatedIdentifier, Codec.passes_append,
    Codec.passes_cons,
    Codec.passes_nil, and_true] at left right
  obtain ⟨received, -, plain⟩ := text_of_passed left.1.1.1
  obtain ⟨received', -, plain'⟩ := text_of_passed right.1.1.1
  obtain ⟨named, -, solid⟩ := text_of_passed left.1.2
  obtain ⟨named', -, solid'⟩ := text_of_passed right.1.2
  obtain ⟨accounts, symbols, magics⟩ :=
    namespaceCanonical_injective ⟨plain, solid⟩ ⟨plain', solid'⟩ same
  rw [received, received', named, named', text_of_uint left.2, text_of_uint right.2, accounts,
    symbols, magics]
  exact ⟨rfl, rfl, rfl⟩

end Injective

section Custody

/-- What a journal is kept for. -/
@[ext] structure CustodyTuple where
  server : Wide
  login : Wide
  symbol : Wide
  magic : Wide

namespace CustodyTuple

variable (sha256 : List UInt8 → Text) {c d : CustodyTuple}

def accountId (c : CustodyTuple) : Text :=
  Codec.normalizedAccountId sha256 c.server.text c.login.text

def journalNamespace (c : CustodyTuple) : Text :=
  Codec.normalizedJournalNamespace sha256 (c.accountId sha256) c.symbol.text c.magic.text

/-- What the account id of a tuple is the hash of. -/
def accountBytes (c : CustodyTuple) : List UInt8 :=
  Codec.accountCanonical c.server.text c.login.text

def journalBytes (c : CustodyTuple) : List UInt8 :=
  Codec.namespaceCanonical (c.accountId sha256) c.symbol.text c.magic.text

/-- Both derivations take the tuple. -/
structure Accepted (c : CustodyTuple) : Prop where
  account : Codec.Passes (Codec.accountArguments (.str c.server.pyStr) (.str c.login.pyStr))
  journal :
    Codec.Passes (Codec.namespaceArguments (Codec.str (c.accountId sha256)) (.str c.symbol.pyStr)
    (.str c.magic.pyStr))

/-- Two inputs of SHA-256 with one digest. -/
def Collide (x y : List UInt8) : Prop := x ≠ y ∧ sha256 x = sha256 y

variable {sha256}

/-- Accepted tuples of one journal are one tuple, or the bytes of their accounts collide, or those
of their journals do. -/
theorem journalNamespace_collides (left : c.Accepted sha256) (right : d.Accepted sha256)
    (same : c.journalNamespace sha256 = d.journalNamespace sha256) :
    c = d ∨ Collide sha256 c.accountBytes d.accountBytes ∨
      Collide sha256 (c.journalBytes sha256) (d.journalBytes sha256) := by
  have journals : sha256 (c.journalBytes sha256) = sha256 (d.journalBytes sha256) :=
    List.append_cancel_left same
  by_cases bytes : c.journalBytes sha256 = d.journalBytes sha256
  · obtain ⟨accounts, symbols, magics⟩ := namespace_bytes_injective left.journal right.journal bytes
    have hashes : sha256 c.accountBytes = sha256 d.accountBytes :=
      List.append_cancel_left (PyStr.text.inj accounts)
    by_cases bytes : c.accountBytes = d.accountBytes
    · obtain ⟨servers, logins⟩ := account_bytes_injective left.account right.account bytes
      exact .inl (CustodyTuple.ext (Wide.pyStr_injective servers) (Wide.pyStr_injective logins)
        (Wide.pyStr_injective symbols) (Wide.pyStr_injective magics))
    · exact .inr (.inl ⟨bytes, hashes⟩)
  · exact .inr (.inr ⟨bytes, journals⟩)

end CustodyTuple

/-- Both ends hash the same bytes for an account and for a journal, the bytes tell accounts and
journals apart, and so two custody tuples share a journal only where SHA-256 collides at their
canonical bytes. -/
theorem identity_derivations_agree (sha256 : List UInt8 → Text) (left : ℕ → UInt8) :
    (∀ server login : Wide,
      Codec.Passes (Codec.accountArguments (.str server.pyStr) (.str login.pyStr)) →
      Ea.accountCanonical left server login =
      some (Codec.accountCanonical server.text login.text)) ∧
    (∀ account symbol magic : Wide,
      Codec.Passes
        (Codec.namespaceArguments (.str account.pyStr) (.str symbol.pyStr) (.str magic.pyStr)) →
      Ea.optionalBrokerText symbol 128 = true →
      Ea.namespaceCanonical left account symbol magic =
        some (Codec.namespaceCanonical account.text symbol.text magic.text)) ∧
    (∀ server login server' login' : Wide,
      Codec.Passes (Codec.accountArguments (.str server.pyStr) (.str login.pyStr)) →
      Codec.Passes (Codec.accountArguments (.str server'.pyStr) (.str login'.pyStr)) →
      Codec.accountCanonical server.text login.text =
      Codec.accountCanonical server'.text login'.text →
      server = server' ∧ login = login') ∧
    (∀ account symbol magic account' symbol' magic' : Wide,
      Codec.Passes
        (Codec.namespaceArguments (.str account.pyStr) (.str symbol.pyStr) (.str magic.pyStr)) →
      Codec.Passes
        (Codec.namespaceArguments (.str account'.pyStr) (.str symbol'.pyStr) (.str magic'.pyStr)) →
      Codec.namespaceCanonical account.text symbol.text magic.text =
        Codec.namespaceCanonical account'.text symbol'.text magic'.text →
      account = account' ∧ symbol = symbol' ∧ magic = magic') ∧
    ∀ c d : CustodyTuple, c.Accepted sha256 → d.Accepted sha256 →
      c.journalNamespace sha256 = d.journalNamespace sha256 →
      c = d ∨ CustodyTuple.Collide sha256 c.accountBytes d.accountBytes ∨
        CustodyTuple.Collide sha256 (c.journalBytes sha256) (d.journalBytes sha256) := by
  refine ⟨account_bytes_agree left, namespace_bytes_agree left, ?_, ?_, ?_⟩
  · intro server login server' login' here there same
    obtain ⟨servers, logins⟩ := account_bytes_injective here there same
    exact ⟨Wide.pyStr_injective servers, Wide.pyStr_injective logins⟩
  · intro account symbol magic account' symbol' magic' here there same
    obtain ⟨accounts, symbols, magics⟩ := namespace_bytes_injective here there same
    exact ⟨Wide.pyStr_injective accounts, Wide.pyStr_injective symbols, Wide.pyStr_injective magics⟩
  · exact fun c d here there same => CustodyTuple.journalNamespace_collides here there same

def demoTuple (magic : String) : CustodyTuple :=
  ⟨Ea.ascii "Broker-Demo", Ea.ascii "123456", Ea.ascii "XAUUSD", Ea.ascii magic⟩

/-- A digest that every input has. -/
def demoDigest (_ : List UInt8) : Text := List.replicate 64 '0'

theorem identity_derivations_agree_demo :
    (Ea.accountCanonical (fun _ => 0) (Ea.ascii "Broker-Demo") (Ea.ascii "123456") =
      some (Codec.accountCanonical (Wide.text (Ea.ascii "Broker-Demo"))
        (Wide.text (Ea.ascii "123456")))) ∧
    (Ea.namespaceCanonical (fun _ => 0) (Ea.ascii "mt5-sha256-00") (Ea.ascii "XAUUSD")
        (Ea.ascii "77") =
      some (Codec.namespaceCanonical (Wide.text (Ea.ascii "mt5-sha256-00"))
        (Wide.text (Ea.ascii "XAUUSD")) (Wide.text (Ea.ascii "77")))) ∧
    (demoTuple "77" = demoTuple "78" ∨
      CustodyTuple.Collide demoDigest (demoTuple "77").accountBytes (demoTuple "78").accountBytes ∨
      CustodyTuple.Collide demoDigest ((demoTuple "77").journalBytes demoDigest)
        ((demoTuple "78").journalBytes demoDigest)) := by
  obtain ⟨accounts, journals, -, -, custody⟩ := identity_derivations_agree demoDigest fun _ => 0
  refine ⟨accounts _ _ (by rfl), journals _ _ _ (by rfl) (by decide +kernel), ?_⟩
  exact custody _ _ ⟨by rfl, by rfl⟩ ⟨by rfl, by rfl⟩ rfl

end Custody

end ArbNautilus.Mt5
