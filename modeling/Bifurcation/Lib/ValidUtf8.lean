import Bifurcation.Lib.Utf8

/-!
# Bytes that need not be UTF-8

Go's strings are bytes, and `unicode/utf8` reads them one character or one stray byte at a time.
`validString` is `utf8.ValidString`, `toValidUtf8` is `strings.ToValidUTF8` with U+FFFD, and
`limitString` bounds a text: it replaces the stray bytes, cuts, and drops bytes from the end
until what is left is valid.

Main results: `validString_iff` (valid texts are the encodings of characters) and
`limitString_spec` (the bounded text is valid, within the limit and, where it was cut, less than
one character shorter than the limit).
-/

namespace Bifurcation

/-! ## Reading -/

/-- Read at most `n` times from the head: a character, or `none` for a byte that starts none. -/
def runesFrom : ℕ → Bytes → List (Option Char)
  | 0, _ => []
  | _, [] => []
  | n + 1, b :: bs =>
    match (b :: bs).toByteArray.utf8DecodeChar? 0 with
    | some c => some c :: runesFrom n ((b :: bs).drop c.utf8Size)
    | none => none :: runesFrom n bs

def runes (bs : Bytes) : List (Option Char) := runesFrom bs.length bs

/-- `utf8.ValidString`. -/
def validString (bs : Bytes) : Bool := (runes bs).all Option.isSome

/-- The loop of `strings.ToValidUTF8`: `invalid` says that the last byte was replaced. -/
def replaceRuns : Bool → List (Option Char) → List Char
  | _, [] => []
  | _, some c :: rs => c :: replaceRuns false rs
  | false, none :: rs => '\uFFFD' :: replaceRuns true rs
  | true, none :: rs => replaceRuns true rs

/-- `strings.ToValidUTF8`: each run of stray bytes becomes one U+FFFD. -/
def toValidUtf8 (bs : Bytes) : Bytes := encodeRunes (replaceRuns false (runes bs))

/-- Drop bytes from the end, at most `n`, until the text is valid. -/
def dropInvalid : ℕ → Bytes → Bytes
  | 0, bs => bs
  | n + 1, bs => if validString bs then bs else dropInvalid n bs.dropLast

/-- `LimitString`. The loop ends before it has dropped everything: the empty text is valid. -/
def limitString (value : Bytes) (limit : ℕ) : Bytes :=
  let value := toValidUtf8 value
  if value.length ≤ limit then value else dropInvalid limit (value.take limit)

/-- The text that some bytes spell. -/
def decodeText (bs : Bytes) : Option String :=
  if validString bs then some (String.ofList (decodeRunes bs)) else none

/-! ## Valid texts -/

theorem encodeRunes_cons (c : Char) (cs : List Char) :
    encodeRunes (c :: cs) = String.utf8EncodeChar c ++ encodeRunes cs := rfl

/-- A character that is read is there, in front of the bytes that are read next. -/
theorem eq_utf8EncodeChar_append {bs : Bytes} {c : Char}
    (h : bs.toByteArray.utf8DecodeChar? 0 = some c) :
    bs = String.utf8EncodeChar c ++ bs.drop c.utf8Size := by
  obtain ⟨rest, hrest⟩ := ByteArray.exists_of_utf8DecodeChar?_eq_some h
  have hdata := congrArg (fun b : ByteArray => b.data.toList) hrest
  simp only [ByteArray.data_append, Array.toList_append, List.data_toByteArray] at hdata
  have hbs : bs = String.utf8EncodeChar c ++ rest.data.toList := hdata
  rw [← length_utf8EncodeChar]
  conv_rhs => rw [hbs]
  rw [List.drop_left, ← hbs]

/-- Where every read finds a character, the bytes are what the characters encode to. -/
theorem runesFrom_valid {n : ℕ} {bs : Bytes} (hn : bs.length ≤ n)
    (h : (runesFrom n bs).all Option.isSome) : ∃ cs, bs = encodeRunes cs := by
  induction n generalizing bs with
  | zero => exact ⟨[], List.eq_nil_of_length_eq_zero (Nat.le_zero.1 hn)⟩
  | succ n ih =>
    cases bs with
    | nil => exact ⟨[], rfl⟩
    | cons b bs =>
      cases hread : (b :: bs).toByteArray.utf8DecodeChar? 0 with
      | none => simp [runesFrom, hread] at h
      | some c =>
        have hbytes := eq_utf8EncodeChar_append hread
        simp only [runesFrom, hread, List.all_cons, Option.isSome_some, Bool.true_and] at h
        have hlength : ((b :: bs).drop c.utf8Size).length ≤ n := by
          have := c.utf8Size_pos
          simp only [List.length_drop, List.length_cons] at hn ⊢
          omega
        obtain ⟨cs, hcs⟩ := ih hlength h
        refine ⟨c :: cs, ?_⟩
        rw [encodeRunes_cons, ← hcs]
        exact hbytes

theorem runesFrom_append {n : ℕ} {c : Char} {bs : Bytes} :
    runesFrom (n + 1) (String.utf8EncodeChar c ++ bs) = some c :: runesFrom n bs := by
  have hread : (String.utf8EncodeChar c ++ bs).toByteArray.utf8DecodeChar? 0 = some c := by
    rw [List.toByteArray_append]
    exact ByteArray.utf8DecodeChar?_utf8EncodeChar_append
  have hdrop : (String.utf8EncodeChar c ++ bs).drop c.utf8Size = bs := by
    rw [← length_utf8EncodeChar, List.drop_left]
  obtain ⟨b, rest, hrest⟩ : ∃ b rest, String.utf8EncodeChar c ++ bs = b :: rest := by
    cases hb : String.utf8EncodeChar c ++ bs with
    | nil =>
      have := congrArg List.length hb
      have hpos := c.utf8Size_pos
      simp only [List.length_append, length_utf8EncodeChar, List.length_nil] at this
      omega
    | cons b rest => exact ⟨b, rest, rfl⟩
  rw [hrest] at hread hdrop ⊢
  simp only [runesFrom, hread, hdrop]

/-- Reading does not depend on how often one may read. -/
theorem runesFrom_length {n : ℕ} {bs : Bytes} (h : bs.length ≤ n) : runesFrom n bs = runes bs := by
  suffices hall : ∀ n m : ℕ, ∀ bs : Bytes, bs.length ≤ n → bs.length ≤ m →
      runesFrom n bs = runesFrom m bs from hall _ _ _ h le_rfl
  intro n
  induction n with
  | zero =>
    intro m bs hn _
    rw [List.eq_nil_of_length_eq_zero (Nat.le_zero.1 hn)]
    cases m <;> rfl
  | succ n ih =>
    intro m bs hn hm
    cases bs with
    | nil => cases m <;> rfl
    | cons b bs =>
      cases m with
      | zero => simp at hm
      | succ m =>
        simp only [List.length_cons, Nat.add_le_add_iff_right] at hn hm
        cases hread : (b :: bs).toByteArray.utf8DecodeChar? 0 with
        | none =>
          simp only [runesFrom, hread]
          rw [ih m bs hn hm]
        | some c =>
          have hdrop : ((b :: bs).drop c.utf8Size).length ≤ bs.length := by
            have := c.utf8Size_pos
            simp only [List.length_drop, List.length_cons]
            omega
          simp only [runesFrom, hread]
          rw [ih m _ (hdrop.trans hn) (hdrop.trans hm)]

theorem runes_append (c : Char) (bs : Bytes) :
    runes (String.utf8EncodeChar c ++ bs) = some c :: runes bs := by
  have hlength : (String.utf8EncodeChar c ++ bs).length ≤ bs.length + c.utf8Size := by
    rw [List.length_append, length_utf8EncodeChar]
    omega
  have hpos := c.utf8Size_pos
  obtain ⟨k, hk⟩ : ∃ k, bs.length + c.utf8Size = k + 1 := ⟨bs.length + c.utf8Size - 1, by omega⟩
  rw [← runesFrom_length (hlength.trans hk.le), runesFrom_append, runesFrom_length (by omega)]

/-- Characters in front do not change whether the rest is valid. -/
theorem validString_append (c : Char) (bs : Bytes) :
    validString (String.utf8EncodeChar c ++ bs) = validString bs := by
  simp [validString, runes_append]

theorem validString_encodeRunes (cs : List Char) : validString (encodeRunes cs) = true := by
  induction cs with
  | nil => rfl
  | cons c cs ih => rw [encodeRunes_cons, validString_append, ih]

theorem validString_iff {bs : Bytes} : validString bs = true ↔ ∃ cs, bs = encodeRunes cs := by
  constructor
  · exact runesFrom_valid le_rfl
  · rintro ⟨cs, rfl⟩
    exact validString_encodeRunes cs

theorem validString_utf8 (text : String) : validString (utf8 text) = true :=
  validString_encodeRunes _

/-- Bytes that spell a text are its encoding. -/
theorem decodeText_eq_some {bs : Bytes} {text : String} (h : decodeText bs = some text) :
    utf8 text = bs := by
  unfold decodeText at h
  split_ifs at h with hvalid
  obtain ⟨cs, rfl⟩ := validString_iff.1 hvalid
  obtain rfl := Option.some.inj h
  rw [utf8, String.toList_ofList, decodeRunes_encodeRunes]

theorem decodeText_isSome {bs : Bytes} : (decodeText bs).isSome = validString bs := by
  unfold decodeText
  by_cases h : validString bs <;> simp [h]

/-! ## Bounded texts -/

theorem validString_toValidUtf8 (bs : Bytes) : validString (toValidUtf8 bs) = true :=
  validString_encodeRunes _

theorem dropInvalid_valid {n : ℕ} {bs : Bytes} (h : bs.length ≤ n) :
    validString (dropInvalid n bs) = true := by
  induction n generalizing bs with
  | zero =>
    rw [List.eq_nil_of_length_eq_zero (Nat.le_zero.1 h)]
    rfl
  | succ n ih =>
    by_cases hvalid : validString bs
    · simp [dropInvalid, hvalid]
    · simp only [dropInvalid, hvalid]
      apply ih
      rw [List.length_dropLast]
      omega

theorem dropInvalid_initial (n : ℕ) (bs : Bytes) : dropInvalid n bs <+: bs := by
  induction n generalizing bs with
  | zero => exact List.prefix_rfl
  | succ n ih =>
    unfold dropInvalid
    split_ifs
    · exact List.prefix_rfl
    · exact (ih _).trans (List.dropLast_prefix bs)

/-- The loop leaves a whole character in front alone. -/
theorem dropInvalid_append (c : Char) {n : ℕ} {bs : Bytes} (h : bs.length ≤ n) :
    dropInvalid n (String.utf8EncodeChar c ++ bs) =
      String.utf8EncodeChar c ++ dropInvalid n bs := by
  induction n generalizing bs with
  | zero => rfl
  | succ n ih =>
    simp only [dropInvalid, validString_append]
    by_cases hvalid : validString bs
    · simp only [hvalid, if_true]
    · have hne : bs ≠ [] := fun hnil => hvalid (by rw [hnil]; rfl)
      simp only [hvalid, Bool.false_eq_true, if_false]
      rw [List.dropLast_append_of_ne_nil hne]
      apply ih
      rw [List.length_dropLast]
      omega

/-- What the loop keeps of a valid text that was cut: all but a part of one character. -/
theorem dropInvalid_take (cs : List Char) {n limit : ℕ} (hn : limit ≤ n)
    (h : limit ≤ (encodeRunes cs).length) :
    limit < (dropInvalid n ((encodeRunes cs).take limit)).length + 4 := by
  induction cs generalizing limit with
  | nil =>
    have hzero : limit = 0 := Nat.le_zero.1 h
    omega
  | cons c cs ih =>
    have hfour := c.utf8Size_le_four
    by_cases hfits : c.utf8Size ≤ limit
    · have htake : (encodeRunes (c :: cs)).take limit =
          String.utf8EncodeChar c ++ (encodeRunes cs).take (limit - c.utf8Size) := by
        rw [encodeRunes_cons, List.take_append, length_utf8EncodeChar,
          List.take_of_length_le (by rw [length_utf8EncodeChar]; exact hfits)]
      rw [encodeRunes_cons, List.length_append, length_utf8EncodeChar] at h
      have hrest := @ih (limit - c.utf8Size) (by omega) (by omega)
      rw [htake, dropInvalid_append c (by rw [List.length_take]; omega), List.length_append,
        length_utf8EncodeChar]
      omega
    · omega

/-- The bounded text is valid and within the limit. Where it had to be cut, less than one
character is missing. -/
theorem limitString_spec (value : Bytes) (limit : ℕ) :
    validString (limitString value limit) = true ∧ (limitString value limit).length ≤ limit ∧
      (limit < (toValidUtf8 value).length → limit < (limitString value limit).length + 4) := by
  unfold limitString
  by_cases hfits : (toValidUtf8 value).length ≤ limit
  · simp only [hfits, if_true]
    exact ⟨validString_toValidUtf8 value, trivial, fun h => absurd h (by omega)⟩
  · simp only [hfits, if_false]
    refine ⟨dropInvalid_valid (List.length_take_le _ _), ?_, fun h => ?_⟩
    · exact (dropInvalid_initial _ _).length_le.trans (List.length_take_le _ _)
    · exact dropInvalid_take _ le_rfl h.le

/-- A cut in the middle of a character drops the whole character. -/
example : limitString (utf8 "a你") 3 = utf8 "a" := by decide +kernel

end Bifurcation
