import Bifurcation.Lib.Javascript
import Bifurcation.Lib.JsonRoundTrip
import Bifurcation.Lib.Text

/-!
# String literals of JavaScript

`JSON.parse` reads back what `JSON.stringify` wrote: a string literal ends at its own closing
quote, wherever it stands (`parseUnits_quoteUnits`). So a text that is put together from literals
can be taken apart in one way only (`quote_append_inj`).
-/

namespace Bifurcation.Javascript

/-! ## Characters below 128 -/

theorem utf16_append (s t : String) : utf16 (s ++ t) = utf16 s ++ utf16 t := by
  simp [utf16]

theorem ascii_hex4 (n : ℕ) : ascii ((Json.hex4 n).map unitOf) = Json.hex4 n := by
  have hdigit : ∀ d < 16, Char.ofNat (unitOf (Json.hexDigit d)).toNat = Json.hexDigit d := by
    decide
  simp only [Json.hex4, ascii, List.map_cons, List.map_nil]
  rw [hdigit _ (by omega), hdigit _ (by omega), hdigit _ (by omega), hdigit _ (by omega)]

/-- The four digits of a unit are read back. -/
theorem hexUnit_hex4 (u : UInt16) : hexUnit ((Json.hex4 u.toNat).map unitOf) = some u := by
  have hlt : u.toNat < 0x10000 := u.toNat_lt
  rw [hexUnit, ascii_hex4]
  simp only [Json.hex4, Json.hexUnit_hex4 hlt, Option.map_some]
  simp

/-- A text is read up to its first closing unit in one way only. -/
theorem append_cons_inj {u : UInt16} {s t xs ys : JsString} (hs : u ∉ s) (ht : u ∉ t)
    (h : s ++ u :: xs = t ++ u :: ys) : s = t ∧ xs = ys := by
  rcases List.append_eq_append_iff.1 h with ⟨r, hr, hrest⟩ | ⟨r, hr, hrest⟩
  all_goals
    cases r with
    | nil =>
      rw [List.append_nil] at hr
      rw [List.nil_append] at hrest
      exact ⟨by rw [hr], by simp [List.cons.inj hrest]⟩
    | cons v r =>
      obtain ⟨rfl, -⟩ := List.cons.inj hrest
      simp [hr] at hs ht

/-! ## Reading a literal -/

/-- A unit in front of what was read after it. -/
def consUnit (u : UInt16) (p : JsString × JsString) : JsString × JsString := (u :: p.1, p.2)

theorem parseUnits_plain {u : UInt16} (hquote : u ≠ 0x22) (hslash : u ≠ 0x5c) (hctl : ¬ u < 0x20)
    (rest : JsString) : parseUnits (u :: rest) = (parseUnits rest).map (consUnit u) := by
  rw [parseUnits.eq_5 u rest hquote (fun _ _ _ _ _ h _ => hslash h) (fun _ _ h _ => hslash h),
    if_neg (by simp [hctl, hslash])]
  cases parseUnits rest <;> rfl

theorem parseUnits_escape (u : UInt16) (rest : JsString) :
    parseUnits (0x5c :: 0x75 :: (Json.hex4 u.toNat).map unitOf ++ rest) =
      (parseUnits rest).map (consUnit u) := by
  have hunit := hexUnit_hex4 u
  simp only [Json.hex4, List.map_cons, List.map_nil, List.cons_append, List.nil_append] at hunit ⊢
  rw [parseUnits, hunit]
  cases parseUnits rest <;> rfl

/-- **A written unit is read as itself.** -/
theorem parseUnits_quoteUnit (u : UInt16) (rest : JsString) :
    parseUnits (quoteUnit u ++ rest) = (parseUnits rest).map (consUnit u) := by
  unfold quoteUnit
  cases hfind : Json.shortEscapes.find? fun e => unitOf e.1 = u with
  | some e =>
    have hu : unitOf e.1 = u := by simpa using List.find?_some hfind
    have hmem := List.mem_of_find?_eq_some hfind
    subst hu
    simp only [Json.shortEscapes, List.mem_cons, List.not_mem_nil, or_false] at hmem
    rcases hmem with rfl | rfl | rfl | rfl | rfl | rfl | rfl <;>
      (cases h : parseUnits rest with
        | none => simp [parseUnits, h, unitOf]
        | some p => simp [parseUnits, h, unitOf]; rfl)
  | none =>
    have hplain : ∀ e ∈ Json.shortEscapes, unitOf e.1 ≠ u := by simpa using hfind
    dsimp only
    split_ifs with hescape
    · exact parseUnits_escape u rest
    · have hquote : u ≠ 0x22 := (hplain ('"', '"') (by decide)).symm
      have hslash : u ≠ 0x5c := (hplain ('\\', '\\') (by decide)).symm
      exact parseUnits_plain hquote hslash (fun h => hescape (.inl h)) rest

/-- A surrogate is a plain unit of a literal. -/
theorem parseUnits_surrogate {u : UInt16} (h : isHigh u = true ∨ isLow u = true)
    (rest : JsString) : parseUnits (u :: rest) = (parseUnits rest).map (consUnit u) := by
  have hle : 0xD800 ≤ u.toNat := by
    simp only [isHigh, isLow, Bool.and_eq_true, decide_eq_true_eq, UInt16.le_iff_toNat_le] at h
    simp at h
    omega
  apply parseUnits_plain
  · rintro rfl
    exact absurd hle (by decide)
  · rintro rfl
    exact absurd hle (by decide)
  · rw [UInt16.lt_iff_toNat_lt]
    simp
    omega

/-- **A string literal is read back**, up to its closing quote. -/
theorem parseUnits_quoteUnits (s rest : JsString) :
    parseUnits (quoteUnits s ++ 0x22 :: rest) = some (s, rest) := by
  fun_induction quoteUnits s with
  | case1 => rfl
  | case2 u => rw [parseUnits_quoteUnit, parseUnits]; rfl
  | case3 h l s hpair ih =>
    rw [List.cons_append, List.cons_append, parseUnits_surrogate (.inl hpair.1),
      parseUnits_surrogate (.inr hpair.2), ih]
    rfl
  | case4 h l s hpair ih =>
    rw [List.append_assoc, parseUnits_quoteUnit, ih]
    rfl

/-- **A text that starts with a literal can be taken apart in one way only.** -/
theorem quote_append_inj {s t xs ys : JsString} (h : quote s ++ xs = quote t ++ ys) :
    s = t ∧ xs = ys := by
  simp only [quote, List.cons_append, List.append_assoc, List.nil_append,
    List.cons.injEq, true_and] at h
  have hs := parseUnits_quoteUnits s xs
  rw [h, parseUnits_quoteUnits t ys] at hs
  obtain ⟨rfl, rfl⟩ := Prod.mk.injEq _ _ _ _ ▸ Option.some.inj hs
  exact ⟨rfl, rfl⟩

/-! ## Texts -/

/-- A character is not a surrogate, and is in the range of Unicode. -/
theorem toNat_valid (c : Char) : (c.toNat < 0xD800 ∨ 0xDFFF < c.toNat) ∧ c.toNat < 0x110000 := by
  rcases c.valid with hlow | ⟨hhigh, hlast⟩
  · exact ⟨.inl hlow, Nat.lt_trans hlow (by decide)⟩
  · exact ⟨.inr hhigh, hlast⟩

theorem scalars_cons {u : UInt16} (hhigh : isHigh u = false) (hlow : isLow u = false)
    (s : JsString) : scalars (u :: s) = Char.ofNat u.toNat :: scalars s := by
  cases s with
  | nil => simp [scalars, hhigh, hlow]
  | cons l s => simp [scalars, hhigh, hlow]

theorem toNat_toUInt16 {n : ℕ} (h : n < 0x10000) : n.toUInt16.toNat = n :=
  Nat.mod_eq_of_lt h

/-- The units of a character are read as that character. -/
theorem scalars_unitsOf (c : Char) (s : JsString) : scalars (unitsOf c ++ s) = c :: scalars s := by
  have hvalid := toNat_valid c
  by_cases hsmall : c.toNat < 0x10000
  · have hunit := toNat_toUInt16 hsmall
    rw [unitsOf, if_pos hsmall, List.singleton_append, scalars_cons, hunit, Char.ofNat_toNat]
    · simp only [isHigh, UInt16.le_iff_toNat_le, UInt16.lt_iff_toNat_lt, hunit]
      simp
      omega
    · simp only [isLow, UInt16.le_iff_toNat_le, UInt16.lt_iff_toNat_lt, hunit]
      simp
      omega
  · -- A pair: both halves are in their ranges, and give the number of the character.
    have hhigh := toNat_toUInt16 (n := 0xD800 + (c.toNat - 0x10000) / 0x400) (by omega)
    have hlow := toNat_toUInt16 (n := 0xDC00 + (c.toNat - 0x10000) % 0x400) (by omega)
    rw [unitsOf, if_neg hsmall]
    generalize (0xD800 + (c.toNat - 0x10000) / 0x400).toUInt16 = h at hhigh ⊢
    generalize (0xDC00 + (c.toNat - 0x10000) % 0x400).toUInt16 = l at hlow ⊢
    have hnumber : 0x10000 + (h.toNat - 0xD800) * 0x400 + (l.toNat - 0xDC00) = c.toNat := by
      rw [hhigh, hlow]
      omega
    have hpair : isHigh h = true ∧ isLow l = true := by
      simp only [isHigh, isLow, UInt16.le_iff_toNat_le, UInt16.lt_iff_toNat_lt, hhigh, hlow]
      simp
      omega
    show scalars (h :: l :: s) = _
    rw [scalars, if_pos hpair, hnumber, Char.ofNat_toNat]

theorem scalars_utf16 (text : String) : scalars (utf16 text) = text.toList := by
  have hlist : ∀ cs : List Char, scalars (cs.flatMap unitsOf) = cs := by
    intro cs
    induction cs with
    | nil => rfl
    | cons c cs ih => rw [List.flatMap_cons, scalars_unitsOf, ih]
  exact hlist text.toList

/-- A unit that is no surrogate comes from its own character. -/
theorem mem_of_mem_utf16 {c : Char} (hc : c.toNat < 0xD800) {text : String}
    (h : c.toNat.toUInt16 ∈ utf16 text) : c ∈ text.toList := by
  have hunit := toNat_toUInt16 (n := c.toNat) (by omega)
  obtain ⟨d, hd, hmem⟩ := List.mem_flatMap.1 h
  have hvalid := toNat_valid d
  by_cases hsmall : d.toNat < 0x10000
  · rw [unitsOf, if_pos hsmall, List.mem_singleton] at hmem
    have heq : c.toNat = d.toNat := by
      rw [← hunit, hmem, toNat_toUInt16 hsmall]
    rwa [← Char.ofNat_toNat c, heq, Char.ofNat_toNat]
  · have hhigh := toNat_toUInt16 (n := 0xD800 + (d.toNat - 0x10000) / 0x400) (by omega)
    have hlow := toNat_toUInt16 (n := 0xDC00 + (d.toNat - 0x10000) % 0x400) (by omega)
    rw [unitsOf, if_neg hsmall, List.mem_cons, List.mem_singleton] at hmem
    exfalso
    rcases hmem with heq | heq
    · rw [heq] at hunit
      omega
    · rw [heq] at hunit
      omega

theorem utf16_injective : Function.Injective utf16 := fun s t h => by
  rw [← String.ofList_toList (s := s), ← scalars_utf16, h, scalars_utf16, String.ofList_toList]

/-! ## Well-formed texts -/

/-- Code units in which no surrogate stands alone. -/
def WellFormed (s : JsString) : Prop := ∃ text, s = utf16 text

theorem wellFormed_utf16 (text : String) : WellFormed (utf16 text) := ⟨text, rfl⟩

theorem WellFormed.append {s t : JsString} (hs : WellFormed s) (ht : WellFormed t) :
    WellFormed (s ++ t) := by
  obtain ⟨a, rfl⟩ := hs
  obtain ⟨b, rfl⟩ := ht
  exact ⟨a ++ b, (utf16_append a b).symm⟩

theorem wellFormed_join {texts : List JsString} (h : ∀ s ∈ texts, WellFormed s) :
    WellFormed (join texts) := by
  fun_induction join texts with
  | case1 => exact wellFormed_utf16 ""
  | case2 s => exact h s List.mem_cons_self
  | case3 s rest _ ih =>
    exact ((h s List.mem_cons_self).append (wellFormed_utf16 ",")).append
      (ih fun t ht => h t (List.mem_cons_of_mem s ht))

/-- A unit that is no surrogate is a text. -/
theorem wellFormed_unit {u : UInt16} (hhigh : isHigh u = false) (hlow : isLow u = false) :
    WellFormed [u] := by
  have hvalid : u.toNat.isValidChar := by
    have hlt : u.toNat < 0x10000 := u.toNat_lt
    simp only [isHigh, isLow, Bool.and_eq_false_iff, decide_eq_false_iff_not,
      UInt16.le_iff_toNat_le, UInt16.lt_iff_toNat_lt] at hhigh hlow
    simp only [UInt16.toNat_ofNat] at hhigh hlow
    simp only [Nat.isValidChar]
    omega
  refine ⟨String.singleton (Char.ofNat u.toNat), ?_⟩
  have htoNat : (Char.ofNat u.toNat).toNat = u.toNat := by
    rw [Char.toNat_ofNat, if_pos hvalid]
  rw [utf16, String.toList_singleton, List.flatMap_singleton, unitsOf, htoNat, if_pos u.toNat_lt]
  simp

/-- The halves of a pair are a text. -/
theorem wellFormed_pair {h l : UInt16} (hh : isHigh h = true) (hl : isLow l = true) :
    WellFormed [h, l] := by
  simp only [isHigh, isLow, Bool.and_eq_true, decide_eq_true_eq, UInt16.le_iff_toNat_le,
    UInt16.lt_iff_toNat_lt, UInt16.toNat_ofNat] at hh hl
  set n := 0x10000 + (h.toNat - 0xD800) * 0x400 + (l.toNat - 0xDC00) with hn
  have htoNat : (Char.ofNat n).toNat = n := by
    rw [Char.toNat_ofNat, if_pos]
    simp only [Nat.isValidChar]
    omega
  refine ⟨String.singleton (Char.ofNat n), ?_⟩
  have hfirst : 0xD800 + (n - 0x10000) / 0x400 = h.toNat := by omega
  have hsecond : 0xDC00 + (n - 0x10000) % 0x400 = l.toNat := by omega
  rw [utf16, String.toList_singleton, List.flatMap_singleton, unitsOf, htoNat,
    if_neg (by omega), hfirst, hsecond]
  simp

theorem wellFormed_quoteUnit (u : UInt16) : WellFormed (quoteUnit u) := by
  unfold quoteUnit
  cases hfind : Json.shortEscapes.find? fun e => unitOf e.1 = u with
  | some e =>
    have hshort : ∀ e ∈ Json.shortEscapes,
        [0x5c, unitOf e.2] = utf16 (String.ofList ['\\', e.2]) := by decide
    exact ⟨_, hshort e (List.mem_of_find?_eq_some hfind)⟩
  | none =>
    dsimp only
    split_ifs with hescape
    · refine ⟨String.ofList ('\\' :: 'u' :: Json.hex4 u.toNat), ?_⟩
      have hdigit : ∀ d < 16, unitsOf (Json.hexDigit d) = [unitOf (Json.hexDigit d)] := by decide
      simp only [utf16, String.toList_ofList, List.flatMap_cons, Json.hex4, List.flatMap_nil,
        List.map_cons, List.map_nil]
      rw [hdigit _ (by omega), hdigit _ (by omega), hdigit _ (by omega), hdigit _ (by omega)]
      rfl
    · simp only [not_or, Bool.not_eq_true] at hescape
      exact wellFormed_unit hescape.2.1 hescape.2.2

theorem wellFormed_quoteUnits (s : JsString) : WellFormed (quoteUnits s) := by
  fun_induction quoteUnits s with
  | case1 => exact wellFormed_utf16 ""
  | case2 u => exact wellFormed_quoteUnit u
  | case3 h l s hpair ih => exact (wellFormed_pair hpair.1 hpair.2).append ih
  | case4 h l s hpair ih => exact (wellFormed_quoteUnit h).append ih

/-- **A string literal is well formed**, whatever the string. -/
theorem wellFormed_quote (s : JsString) : WellFormed (quote s) := by
  have hquote : quote s = utf16 "\"" ++ (quoteUnits s ++ utf16 "\"") := rfl
  rw [hquote]
  exact (wellFormed_utf16 _).append ((wellFormed_quoteUnits s).append (wellFormed_utf16 _))

/-- A well-formed text is read back from its bytes. -/
theorem bufferFrom_injOn {s t : JsString} (hs : WellFormed s) (ht : WellFormed t)
    (h : bufferFrom s = bufferFrom t) : s = t := by
  obtain ⟨a, rfl⟩ := hs
  obtain ⟨b, rfl⟩ := ht
  have hchars := encodeRunes_injective h
  rw [scalars_utf16, scalars_utf16] at hchars
  rw [String.toList_inj.1 hchars]

end Bifurcation.Javascript
