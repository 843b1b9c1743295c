import Mathlib

/-!
# Texts as bytes

UTF-8, and the reading of bytes that need not be UTF-8: each byte that starts no character reads
as U+FFFD.
-/

namespace Bifurcation

abbrev Bytes := List UInt8

/-- The UTF-8 bytes of a list of characters. -/
def encodeRunes (cs : List Char) : Bytes := cs.flatMap String.utf8EncodeChar

def utf8 (text : String) : Bytes := encodeRunes text.toList

/-- Read at most `n` characters. -/
def decodeRunesFrom : ℕ → Bytes → List Char
  | 0, _ => []
  | _, [] => []
  | n + 1, b :: bs =>
    match (b :: bs).toByteArray.utf8DecodeChar? 0 with
    | some c => c :: decodeRunesFrom n ((b :: bs).drop c.utf8Size)
    | none => '\uFFFD' :: decodeRunesFrom n bs

def decodeRunes (bs : Bytes) : List Char := decodeRunesFrom bs.length bs

theorem length_utf8EncodeChar (c : Char) : (String.utf8EncodeChar c).length = c.utf8Size := by
  simp

theorem length_le_encodeRunes (cs : List Char) : cs.length ≤ (encodeRunes cs).length := by
  induction cs with
  | nil => simp
  | cons c cs ih =>
    have hcons : encodeRunes (c :: cs) = String.utf8EncodeChar c ++ encodeRunes cs := rfl
    have := c.utf8Size_pos
    rw [hcons, List.length_append, length_utf8EncodeChar, List.length_cons]
    omega

theorem encodeRunes_length_le (cs : List Char) : (encodeRunes cs).length ≤ 4 * cs.length := by
  induction cs with
  | nil => exact le_rfl
  | cons c cs ih =>
    have hchar := length_utf8EncodeChar c
    have hsize := Char.utf8Size_le_four c
    have hcons : encodeRunes (c :: cs) = String.utf8EncodeChar c ++ encodeRunes cs := rfl
    rw [hcons, List.length_append, List.length_cons]
    omega

theorem decodeRunesFrom_encodeRunes {n : ℕ} {cs : List Char} (h : cs.length ≤ n) :
    decodeRunesFrom n (encodeRunes cs) = cs := by
  induction cs generalizing n with
  | nil => cases n <;> rfl
  | cons c cs ih =>
    obtain ⟨n, rfl⟩ : ∃ m, n = m + 1 := ⟨n - 1, by simp at h; omega⟩
    have hcons : encodeRunes (c :: cs) = String.utf8EncodeChar c ++ encodeRunes cs := rfl
    have hdecode : (encodeRunes (c :: cs)).toByteArray.utf8DecodeChar? 0 = some c :=
      List.utf8DecodeChar?_utf8Encode_cons
    have hdrop : (encodeRunes (c :: cs)).drop c.utf8Size = encodeRunes cs := by
      rw [hcons, ← length_utf8EncodeChar, List.drop_left]
    obtain ⟨b, bs, hbs⟩ : ∃ b bs, encodeRunes (c :: cs) = b :: bs := by
      cases hb : encodeRunes (c :: cs) with
      | nil => have := length_le_encodeRunes (c :: cs); simp [hb] at this
      | cons b bs => exact ⟨b, bs, rfl⟩
    rw [hbs] at hdecode hdrop ⊢
    simp only [decodeRunesFrom, hdecode, hdrop]
    rw [ih (by simpa using h)]

/-- Texts are read back from their bytes. -/
theorem decodeRunes_encodeRunes (cs : List Char) : decodeRunes (encodeRunes cs) = cs :=
  decodeRunesFrom_encodeRunes (length_le_encodeRunes cs)

theorem encodeRunes_injective : Function.Injective encodeRunes := fun a b h => by
  rw [← decodeRunes_encodeRunes a, h, decodeRunes_encodeRunes]

example : decodeRunes [0xe4, 0xbd, 0xa0, 0xff, 0x41] = ['你', '\uFFFD', 'A'] := by decide

end Bifurcation
