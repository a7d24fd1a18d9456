import ArbNautilus.Base.Lines
import ArbNautilus.Base.Text
import Mathlib.Data.List.Basic
import Mathlib.Data.Nat.Bitwise

/-! Bytes: how a text becomes them, how fields of them are told apart, how a loop writes them. -/

namespace ArbNautilus.Base

section Utf8

def utf8 (text : Text) : List UInt8 := text.flatMap String.utf8EncodeChar

theorem utf8_injective {a b : Text} (same : utf8 a = utf8 b) : a = b := by
  have encoded : a.utf8Encode = b.utf8Encode := congrArg List.toByteArray same
  rw [← String.toByteArray_ofList, ← String.toByteArray_ofList] at encoded
  exact String.ofList_injective (String.toByteArray_inj.1 encoded)

theorem utf8EncodeChar_zero {c : Char} (zero : 0 ∈ String.utf8EncodeChar c) : c = '\x00' := by
  apply Char.toNat_inj.1
  change c.val.toNat = 0
  have bound : c.val.toNat < 0x110000 := by
    have valid := c.valid
    unfold UInt32.isValidChar Nat.isValidChar at valid
    omega
  have byte {n : ℕ} : (0 : UInt8) = UInt8.ofNat n ↔ n % 256 = 0 := by
    rw [← UInt8.toNat_inj, UInt8.toNat_ofNat']
    exact eq_comm
  unfold String.utf8EncodeChar at zero
  dsimp only at zero
  split at zero
  · simp only [List.mem_singleton, byte] at zero
    omega
  split at zero
  · simp only [List.mem_cons, List.not_mem_nil, or_false, byte] at zero
    omega
  split at zero <;>
  · simp only [List.mem_cons, List.not_mem_nil, or_false, byte] at zero
    omega

theorem zero_not_mem_utf8 {text : Text} (plain : '\x00' ∉ text) : 0 ∉ utf8 text := by
  intro zero
  obtain ⟨c, member, inside⟩ := List.mem_flatMap.1 zero
  exact plain (utf8EncodeChar_zero inside ▸ member)

theorem length_utf8 (text : Text) : (utf8 text).length ≤ 4 * text.length := by
  induction text with
  | nil => rfl
  | cons c text ih =>
    have size := Char.utf8Size_le_four c
    rw [utf8, List.flatMap_cons, List.length_append, String.length_utf8EncodeChar, ← utf8,
      List.length_cons]
    omega

theorem utf8_ne_nil {text : Text} (more : text ≠ []) : utf8 text ≠ [] := by
  cases text with
  | nil => exact absurd rfl more
  | cons c text => simp [utf8]

/-- `bytes.decode("utf-8")`. -/
def decodeUtf8 (content : List UInt8) : Option Text :=
  content.toByteArray.utf8Decode?.map Array.toList

theorem decodeUtf8_utf8 (text : Text) : decodeUtf8 (utf8 text) = some text := by
  have decoded : text.utf8Encode.utf8Decode? = some text.toArray := List.utf8Decode?_utf8Encode
  change Option.map Array.toList text.utf8Encode.utf8Decode? = some text
  rw [decoded]
  rfl

/-- A text file as it is read: each end of a line is one `\n`. -/
def universalNewlines : Text → Text
  | [] => []
  | c :: rest =>
    if c = '\r' then
      if rest.head? = some '\n' then universalNewlines rest else '\n' :: universalNewlines rest
    else c :: universalNewlines rest

theorem universalNewlines_eq {text : Text} (plain : '\r' ∉ text) :
    universalNewlines text = text := by
  induction text with
  | nil => rfl
  | cons c text ih =>
    have other : c ≠ '\r' := fun same => plain (same ▸ List.mem_cons_self)
    rw [universalNewlines, if_neg other, ih fun member => plain (List.mem_cons_of_mem _ member)]

end Utf8

section Fields

/-- Fields that end at the first separator are told apart. -/
theorem terminated_injective {α : Type*} [DecidableEq α] {sep : α} {a b rest other : List α}
    (left : sep ∉ a) (right : sep ∉ b) (same : a ++ sep :: rest = b ++ sep :: other) :
    a = b ∧ rest = other := by
  have pieces := congrArg (splitAll sep) same
  rw [splitAll_append left, splitAll_append right] at pieces
  have first : a = b := (List.cons.inj pieces).1
  subst first
  exact ⟨rfl, (List.cons.inj (List.append_cancel_left same)).2⟩

/-- `n.to_bytes(4, "big")` of a number below `2 ^ 32`. -/
def bigEndian (n : ℕ) : List UInt8 :=
  [UInt8.ofNat (n / 2 ^ 24), UInt8.ofNat (n / 2 ^ 16), UInt8.ofNat (n / 2 ^ 8), UInt8.ofNat n]

@[simp] theorem length_bigEndian (n : ℕ) : (bigEndian n).length = 4 := rfl

theorem bigEndian_injective {m n : ℕ} (left : m < 2 ^ 32) (right : n < 2 ^ 32)
    (same : bigEndian m = bigEndian n) : m = n := by
  simp only [bigEndian, List.cons.injEq, ← UInt8.toNat_inj,
    UInt8.toNat_ofNat', and_true] at same
  omega

/-- A field after its length is told apart from what follows. -/
theorem prefixed_injective {a b rest other : List UInt8} (left : a.length < 2 ^ 32)
    (right : b.length < 2 ^ 32)
    (same : bigEndian a.length ++ (a ++ rest) = bigEndian b.length ++ (b ++ other)) :
    a = b ∧ rest = other := by
  have parts := List.append_inj same (by simp)
  exact List.append_inj parts.2 (bigEndian_injective left right parts.1)

end Fields

section Buffers

variable {α : Type*}

/-- An array and where the next write goes. -/
structure Buffer (α : Type*) where
  items : List α
  offset : ℕ

namespace Buffer

/-- `array[offset++] = item`; nothing is written outside the array. -/
def put (b : Buffer α) (item : α) : Option (Buffer α) :=
  if b.offset < b.items.length then some ⟨b.items.set b.offset item, b.offset + 1⟩ else none

/-- A loop of writes. -/
def putAll (b : Buffer α) (items : List α) : Option (Buffer α) := items.foldlM put b

theorem putAll_append (b : Buffer α) (first second : List α) :
    b.putAll (first ++ second) = b.putAll first >>= fun next => next.putAll second :=
  List.foldlM_append

theorem putAll_nil (b : Buffer α) : b.putAll [] = pure b := rfl

theorem putAll_cons (b : Buffer α) (item : α) (items : List α) :
    b.putAll (item :: items) = b.put item >>= fun next => next.putAll items :=
  List.foldlM_cons

/-- Writes into the room that is left keep what is done. -/
theorem putAll_eq (done : List α) {room items : List α} (fits : items.length ≤ room.length) :
    putAll ⟨done ++ room, done.length⟩ items =
      some ⟨done ++ items ++ room.drop items.length, done.length + items.length⟩ := by
  induction items generalizing done room with
  | nil => simp [putAll]
  | cons item items ih =>
    cases room with
    | nil => cases fits
    | cons old room =>
      have step : put ⟨done ++ old :: room, done.length⟩ item =
          some ⟨(done ++ [item]) ++ room, (done ++ [item]).length⟩ := by
        rw [put, if_pos (by simp)]
        simp
      have rest := ih (done ++ [item]) (Nat.le_of_succ_le_succ fits)
      rw [putAll, List.foldlM_cons, step]
      refine rest.trans ?_
      simp [Nat.add_assoc, Nat.add_comm 1]

/-- As many writes as there is room leave exactly what was written. -/
theorem putAll_full {room items : List α} (fits : items.length = room.length) :
    putAll ⟨room, 0⟩ items = some ⟨items, items.length⟩ := by
  have filled := putAll_eq [] (Nat.le_of_eq fits)
  rw [fits, List.drop_length] at filled
  simpa [fits] using filled

end Buffer

end Buffers

end ArbNautilus.Base
