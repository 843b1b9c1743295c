import Bifurcation.Lib.JsStrings
import Bifurcation.Lib.JsonMap

/-!
# Documents from JavaScript to Go

What `encoding/json` reads in the bytes `JSON.stringify(value, null, 2)` writes. The tree has the
members and items of the value in the same order (`wire`); strings are read as their characters,
a surrogate that stands alone as U+FFFD; numbers keep their texts.

**Strings.** The two languages escape different characters. A literal is read in the same parts
as it was written, one for each unit or pair (`pieces`), so no two escapes that stand alone are
joined to a character.

**Layout.** The reader skips the line breaks and the indentation: one lemma for white space in
front of a value, then the trees by the recursion of the printer.

Main result: `parse_stringify`.
-/

namespace Bifurcation.Javascript

open Json (Piece consPiece parsePieces joinPieces)

/-! ## Pieces in texts -/

theorem WellFormed.scalars_append {s : JsString} (h : WellFormed s) (t : JsString) :
    scalars (s ++ t) = scalars s ++ scalars t := by
  obtain ⟨text, rfl⟩ := h
  have hlist : ∀ cs : List Char, scalars (cs.flatMap unitsOf ++ t) = cs ++ scalars t := by
    intro cs
    induction cs with
    | nil => rfl
    | cons c cs ih => rw [List.flatMap_cons, List.append_assoc, scalars_unitsOf, ih]; rfl
  rw [scalars_utf16]
  exact hlist text.toList

/-! ## Strings -/

/-- The part a unit that stands alone is read as. -/
def unitPiece (u : UInt16) : Piece :=
  if (Json.shortEscapes.find? fun e => unitOf e.1 = u).isSome then .char (Char.ofNat u.toNat)
  else if u < 0x20 ∨ isHigh u ∨ isLow u then .unit u.toNat else .char (Char.ofNat u.toNat)

/-- The parts a literal is read in. -/
def pieces : JsString → List Piece
  | [] => []
  | [u] => [unitPiece u]
  | h :: l :: s =>
    if isHigh h ∧ isLow l then
      .char (Char.ofNat (0x10000 + (h.toNat - 0xD800) * 0x400 + (l.toNat - 0xDC00))) :: pieces s
    else unitPiece h :: pieces (l :: s)

theorem consPiece_char {c : Char} (hquote : c ≠ '"') (hslash : c ≠ '\\') (hctl : ¬ c.toNat < 0x20)
    (rest : List Char) :
    parsePieces (c :: rest) = consPiece (some (.char c)) (parsePieces rest) := by
  rw [parsePieces]
  · rw [if_neg (by simp [hctl, hslash])]
  · exact hquote
  · exact fun _ _ _ _ _ h _ => hslash h
  · exact fun _ _ h _ => hslash h

theorem ne_of_toNat {c d : Char} {n : ℕ} (hc : c.toNat = n) (hd : d.toNat ≠ n) : c ≠ d := by
  rintro rfl
  exact hd hc

/-- A unit of a literal is read as its part. -/
theorem parsePieces_quoteUnit (u : UInt16) (rest : List Char) :
    parsePieces (scalars (quoteUnit u) ++ rest) =
      consPiece (some (unitPiece u)) (parsePieces rest) := by
  unfold quoteUnit unitPiece
  cases hfind : Json.shortEscapes.find? fun e => unitOf e.1 = u with
  | some e =>
    have hu : unitOf e.1 = u := by simpa using List.find?_some hfind
    have hmem := List.mem_of_find?_eq_some hfind
    subst hu
    simp only [Json.shortEscapes, List.mem_cons, List.not_mem_nil, or_false] at hmem
    rcases hmem with rfl | rfl | rfl | rfl | rfl | rfl | rfl <;> rfl
  | none =>
    have hplain : ∀ e ∈ Json.shortEscapes, unitOf e.1 ≠ u := by simpa using hfind
    simp only [Option.isSome_none, Bool.false_eq_true, if_false]
    by_cases hescape : u < 0x20 ∨ isHigh u ∨ isLow u
    · have hlt : u.toNat < 0x10000 := u.toNat_lt
      have htext : scalars (0x5c :: 0x75 :: (Json.hex4 u.toNat).map unitOf) =
          '\\' :: 'u' :: Json.hex4 u.toNat := by
        have hdigit : ∀ d < 16, isHigh (unitOf (Json.hexDigit d)) = false ∧
            isLow (unitOf (Json.hexDigit d)) = false ∧
            Char.ofNat (unitOf (Json.hexDigit d)).toNat = Json.hexDigit d := by decide
        have hcons : ∀ d < 16, ∀ s, scalars (unitOf (Json.hexDigit d) :: s) =
            Json.hexDigit d :: scalars s := fun d hd s => by
          obtain ⟨hhigh, hlow, hchar⟩ := hdigit d hd
          rw [scalars_cons hhigh hlow, hchar]
        rw [scalars_cons (by decide) (by decide), scalars_cons (by decide) (by decide)]
        simp only [Json.hex4, List.map_cons, List.map_nil]
        rw [hcons _ (by omega), hcons _ (by omega), hcons _ (by omega), hcons _ (by omega)]
        rfl
      rw [if_pos hescape, if_pos hescape, htext]
      simp only [Json.hex4, List.cons_append, List.nil_append, parsePieces,
        Json.hexUnit_hex4 hlt, Option.map_some]
    · rw [if_neg hescape, if_neg hescape]
      simp only [not_or, Bool.not_eq_true] at hescape
      obtain ⟨hctl, hhigh, hlow⟩ := hescape
      have hvalid : u.toNat.isValidChar := by
        simp only [isHigh, isLow, Bool.and_eq_false_iff, decide_eq_false_iff_not,
          UInt16.le_iff_toNat_le, UInt16.lt_iff_toNat_lt, UInt16.toNat_ofNat] at hhigh hlow
        have hlt : u.toNat < 0x10000 := u.toNat_lt
        simp only [Nat.isValidChar]
        omega
      have htoNat : (Char.ofNat u.toNat).toNat = u.toNat := by rw [Char.toNat_ofNat, if_pos hvalid]
      have hne : ∀ c ∈ ['"', '\\'], Char.ofNat u.toNat ≠ c := by
        intro c hc
        apply ne_of_toNat htoNat
        intro heq
        have hunit : unitOf c = u := by
          rw [unitOf, heq]
          simp
        simp only [List.mem_cons, List.not_mem_nil, or_false] at hc
        rcases hc with rfl | rfl
        · exact hplain ('"', '"') (by decide) hunit
        · exact hplain ('\\', '\\') (by decide) hunit
      rw [scalars_cons hhigh hlow]
      apply consPiece_char (hne _ (by simp)) (hne _ (by simp))
      rw [htoNat]
      simpa [UInt16.lt_iff_toNat_lt] using hctl

/-- A surrogate pair is read as its character. -/
theorem scalars_pair {h l : UInt16} (hpair : isHigh h = true ∧ isLow l = true) (s : JsString) :
    scalars (h :: l :: s) =
      Char.ofNat (0x10000 + (h.toNat - 0xD800) * 0x400 + (l.toNat - 0xDC00)) :: scalars s := by
  rw [scalars, if_pos hpair]

/-- The character of a pair is not one that is escaped. -/
theorem toNat_pair {h l : UInt16} (hpair : isHigh h = true ∧ isLow l = true) :
    0x10000 ≤ (Char.ofNat (0x10000 + (h.toNat - 0xD800) * 0x400 + (l.toNat - 0xDC00))).toNat := by
  obtain ⟨hh, hl⟩ := hpair
  simp only [isHigh, isLow, Bool.and_eq_true, decide_eq_true_eq, UInt16.le_iff_toNat_le,
    UInt16.lt_iff_toNat_lt, UInt16.toNat_ofNat] at hh hl
  rw [Char.toNat_ofNat, if_pos]
  · omega
  · simp only [Nat.isValidChar]
    omega

/-- **A literal is read in its parts**, up to its closing quote. -/
theorem parsePieces_quoteUnits (s : JsString) (rest : List Char) :
    parsePieces (scalars (quoteUnits s) ++ '"' :: rest) = some (pieces s, rest) := by
  fun_induction quoteUnits s with
  | case1 => rfl
  | case2 u =>
    rw [parsePieces_quoteUnit, parsePieces]
    rfl
  | case3 h l s hpair ih =>
    have hlarge := toNat_pair hpair
    rw [scalars_pair hpair, List.cons_append, consPiece_char, ih, pieces, if_pos hpair]
    · rfl
    · rintro heq
      rw [heq] at hlarge
      exact absurd hlarge (by decide)
    · rintro heq
      rw [heq] at hlarge
      exact absurd hlarge (by decide)
    · omega
  | case4 h l s hpair ih =>
    rw [(wellFormed_quoteUnit h).scalars_append, List.append_assoc, parsePieces_quoteUnit, ih,
      pieces, if_neg hpair]
    rfl

/-- The character a unit that stands alone is read as. -/
def lone (u : UInt16) : Char := if isHigh u ∨ isLow u then '\uFFFD' else Char.ofNat u.toNat

theorem isSurrogate_iff (u : UInt16) :
    Json.isSurrogate u.toNat = true ↔ isHigh u = true ∨ isLow u = true := by
  simp only [Json.isSurrogate, isHigh, isLow, Bool.and_eq_true, decide_eq_true_eq,
    UInt16.le_iff_toNat_le, UInt16.lt_iff_toNat_lt, UInt16.toNat_ofNat]
  simp
  omega

/-- A part that stands alone gives its character, unless the next completes a pair. -/
theorem joinPieces_unitPiece {u : UInt16} {ps : List Piece}
    (h : ∀ m rest, ps = .unit m :: rest → Json.decodePair u.toNat m = none) :
    joinPieces (unitPiece u :: ps) = lone u :: joinPieces ps := by
  have hshort : (Json.shortEscapes.find? fun e => unitOf e.1 = u).isSome →
      ¬ (isHigh u ∨ isLow u) := by
    intro hsome
    obtain ⟨e, hfind⟩ := Option.isSome_iff_exists.1 hsome
    have hu : unitOf e.1 = u := by simpa using List.find?_some hfind
    have hall : ∀ e ∈ Json.shortEscapes, ¬ (isHigh (unitOf e.1) ∨ isLow (unitOf e.1)) := by decide
    rw [← hu]
    exact hall e (List.mem_of_find?_eq_some hfind)
  unfold unitPiece
  split_ifs with hsome hescape
  · rw [joinPieces, lone, if_neg (hshort hsome)]
  · by_cases hsurrogate : isHigh u ∨ isLow u
    · rw [joinPieces.eq_def]
      simp only [(isSurrogate_iff u).2 hsurrogate, if_true, lone, hsurrogate]
      split
      · next m rest =>
        rw [h m rest rfl]
      · rfl
    · have hnot : Json.isSurrogate u.toNat = false := by
        rw [← Bool.not_eq_true, isSurrogate_iff]
        exact hsurrogate
      rw [joinPieces.eq_def]
      simp only [hnot, Bool.false_eq_true, if_false, lone, hsurrogate]
  · rw [joinPieces, lone, if_neg fun hsurrogate => hescape (.inr hsurrogate)]

/-- The first part of a literal completes no pair that its first unit does not. -/
theorem decodePair_pieces {h l : UInt16} {s : JsString} (hpair : ¬ (isHigh h ∧ isLow l))
    {m : ℕ} {rest : List Piece} (hpieces : pieces (l :: s) = .unit m :: rest) :
    Json.decodePair h.toNat m = none := by
  have hunit : unitPiece l = .unit m → m = l.toNat := by
    unfold unitPiece
    split_ifs
    · intro heq
      cases heq
    · intro heq
      exact (Piece.unit.inj heq).symm
    · intro heq
      cases heq
  have hm : m = l.toNat := by
    cases s with
    | nil => exact hunit (List.cons.inj hpieces).1
    | cons l' s =>
      rw [pieces] at hpieces
      split_ifs at hpieces
      · cases (List.cons.inj hpieces).1
      · exact hunit (List.cons.inj hpieces).1
  rw [Json.decodePair, if_neg]
  rintro ⟨h₁, h₂, h₃, h₄⟩
  apply hpair
  simp only [isHigh, isLow, Bool.and_eq_true, decide_eq_true_eq, UInt16.le_iff_toNat_le,
    UInt16.lt_iff_toNat_lt, UInt16.toNat_ofNat]
  omega

/-- **The parts give the characters of the string.** -/
theorem joinPieces_pieces (s : JsString) : joinPieces (pieces s) = scalars s := by
  fun_induction pieces s with
  | case1 => rfl
  | case2 u => exact joinPieces_unitPiece fun m rest h => by cases h
  | case3 h l s hpair ih => rw [joinPieces, scalars_pair hpair, ih]
  | case4 h l s hpair ih =>
    rw [joinPieces_unitPiece fun m rest hpieces => decodePair_pieces hpair hpieces, ih, scalars,
      if_neg hpair, lone]

/-! ## Trees -/

variable {N : Type}

/-- A number is written as a literal of JSON, or as `null` when it is not finite. -/
def IsNumberText (s : JsString) : Prop :=
  s = utf16 "null" ∨ ∃ literal, s = utf16 literal ∧ Json.WF (.num literal)

/-- The engine writes JSON. -/
structure WritesJson (js : Runtime N) : Prop where
  numbers : ∀ n, IsNumberText (js.numberJson n)

/-- The characters of a string, as a string. -/
def textOf (s : JsString) : String := String.ofList (scalars s)

@[simp] theorem textOf_utf16 (text : String) : textOf (utf16 text) = text := by
  rw [textOf, scalars_utf16, String.ofList_toList]

def wireNumber (s : JsString) : Json := if s = utf16 "null" then .null else .num (textOf s)

mutual

/-- The tree that is read. -/
def wire (js : Runtime N) : JsValue N → Json
  | .null => .null
  | .bool b => .bool b
  | .num n => wireNumber (js.numberJson n)
  | .str s => .str (textOf s)
  | .arr items => .arr (wireItems js items)
  | .obj members => .obj (wireMembers js members)
termination_by structural v => v

def wireItems (js : Runtime N) : List (JsValue N) → List Json
  | [] => []
  | v :: vs => wire js v :: wireItems js vs
termination_by structural vs => vs

def wireMember (js : Runtime N) : JsString × JsValue N → String × Json
  | (k, v) => (textOf k, wire js v)
termination_by structural m => m

def wireMembers (js : Runtime N) : List (JsString × JsValue N) → List (String × Json)
  | [] => []
  | m :: ms => wireMember js m :: wireMembers js ms
termination_by structural ms => ms

end

theorem wireItems_eq_map (js : Runtime N) (items : List (JsValue N)) :
    wireItems js items = items.map (wire js) := by
  induction items with
  | nil => rfl
  | cons v vs ih => rw [wireItems, ih, List.map_cons]

theorem wireMembers_eq_map (js : Runtime N) (members : Members N) :
    wireMembers js members = members.map fun m => (textOf m.1, wire js m.2) := by
  induction members with
  | nil => rfl
  | cons m ms ih =>
    obtain ⟨k, v⟩ := m
    rw [wireMembers, wireMember, ih, List.map_cons]

theorem wf_wireNumber {s : JsString} (h : IsNumberText s) : Json.WF (wireNumber s) := by
  unfold wireNumber
  split_ifs with hnull
  · trivial
  · obtain rfl | ⟨literal, rfl, hwf⟩ := h
    · exact absurd rfl hnull
    · rwa [textOf_utf16]

mutual

theorem wf_wire {js : Runtime N} (hjs : WritesJson js) : (v : JsValue N) → Json.WF (wire js v)
  | .null => trivial
  | .bool _ => trivial
  | .num n => wf_wireNumber (hjs.numbers n)
  | .str _ => trivial
  | .arr items => wf_wireItems hjs items
  | .obj members => wf_wireMembers hjs members

theorem wf_wireItems {js : Runtime N} (hjs : WritesJson js) :
    (items : List (JsValue N)) → Json.WFItems (wireItems js items)
  | [] => trivial
  | v :: vs => ⟨wf_wire hjs v, wf_wireItems hjs vs⟩

theorem wf_wireMembers {js : Runtime N} (hjs : WritesJson js) :
    (members : List (JsString × JsValue N)) → Json.WFMembers (wireMembers js members)
  | [] => trivial
  | (_, v) :: ms => ⟨wf_wire hjs v, wf_wireMembers hjs ms⟩

end

/-! ## The texts of trees -/

theorem wellFormed_number {s : JsString} (h : IsNumberText s) : WellFormed s := by
  obtain rfl | ⟨literal, rfl, -⟩ := h
  · exact wellFormed_utf16 _
  · exact wellFormed_utf16 _

theorem wellFormed_newline (depth : ℕ) : WellFormed (newline depth) := by
  have hspaces : ∀ n, WellFormed (List.replicate n 0x20) := by
    intro n
    induction n with
    | zero => exact wellFormed_utf16 ""
    | succ n ih => exact (wellFormed_unit (by decide) (by decide)).append ih
  exact (wellFormed_unit (u := 0x0a) (by decide) (by decide)).append (hspaces _)

/-- A unit in front of a text. -/
theorem WellFormed.cons {u : UInt16} {s : JsString} (hs : WellFormed s)
    (hhigh : isHigh u = false) (hlow : isLow u = false) : WellFormed (u :: s) :=
  (wellFormed_unit hhigh hlow).append hs

mutual

theorem wellFormed_stringifyAt {js : Runtime N} (hjs : WritesJson js) :
    (depth : ℕ) → (v : JsValue N) → WellFormed (stringifyAt js depth v)
  | _, .null => wellFormed_utf16 _
  | _, .bool true => wellFormed_utf16 _
  | _, .bool false => wellFormed_utf16 _
  | _, .num n => wellFormed_number (hjs.numbers n)
  | _, .str s => wellFormed_quote s
  | _, .arr [] => wellFormed_utf16 "[]"
  | depth, .arr (v :: vs) => by
    have hv := wellFormed_stringifyAt hjs (depth + 1) v
    have hvs := wellFormed_stringifyItems hjs (depth + 1) vs
    exact ((((((wellFormed_newline (depth + 1)).cons (by decide) (by decide)).append hv).append
      hvs).append (wellFormed_newline depth)).append (wellFormed_utf16 "]"))
  | _, .obj [] => wellFormed_utf16 "\x7b\x7d"
  | depth, .obj (m :: ms) => by
    have hm := wellFormed_stringifyMember hjs (depth + 1) m
    have hms := wellFormed_stringifyMembers hjs (depth + 1) ms
    exact ((((((wellFormed_newline (depth + 1)).cons (by decide) (by decide)).append hm).append
      hms).append (wellFormed_newline depth)).append (wellFormed_utf16 "\x7d"))

theorem wellFormed_stringifyItems {js : Runtime N} (hjs : WritesJson js) :
    (depth : ℕ) → (vs : List (JsValue N)) → WellFormed (stringifyItems js depth vs)
  | _, [] => wellFormed_utf16 ""
  | depth, v :: vs =>
    (((wellFormed_newline depth).cons (by decide) (by decide)).append
      (wellFormed_stringifyAt hjs depth v)).append (wellFormed_stringifyItems hjs depth vs)

theorem wellFormed_stringifyMember {js : Runtime N} (hjs : WritesJson js) :
    (depth : ℕ) → (m : JsString × JsValue N) → WellFormed (stringifyMember js depth m)
  | depth, (k, v) => ((wellFormed_quote k).append (wellFormed_utf16 ": ")).append
      (wellFormed_stringifyAt hjs depth v)

theorem wellFormed_stringifyMembers {js : Runtime N} (hjs : WritesJson js) :
    (depth : ℕ) → (ms : List (JsString × JsValue N)) → WellFormed (stringifyMembers js depth ms)
  | _, [] => wellFormed_utf16 ""
  | depth, m :: ms =>
    (((wellFormed_newline depth).cons (by decide) (by decide)).append
      (wellFormed_stringifyMember hjs depth m)).append (wellFormed_stringifyMembers hjs depth ms)

end

/-- A line break and its indentation. -/
def indent (depth : ℕ) : List Char := scalars (newline depth)

theorem isSpace_of_mem_indent {depth : ℕ} {c : Char} (h : c ∈ indent depth) :
    Json.isSpace c = true := by
  have hspaces : ∀ n, ∀ c ∈ scalars (List.replicate n 0x20), Json.isSpace c = true := by
    intro n
    induction n with
    | zero => exact fun c hc => absurd hc List.not_mem_nil
    | succ n ih =>
      intro c hc
      rw [List.replicate_succ, scalars_cons (by decide) (by decide)] at hc
      rcases List.mem_cons.1 hc with rfl | hc
      · decide
      · exact ih c hc
  rw [indent, newline, scalars_cons (by decide) (by decide)] at h
  rcases List.mem_cons.1 h with rfl | h
  · decide
  · exact hspaces _ c h

/-! ## White space -/

theorem skipSpace_append {blank : List Char} (h : ∀ c ∈ blank, Json.isSpace c = true)
    (s : List Char) : Json.skipSpace (blank ++ s) = Json.skipSpace s :=
  List.dropWhile_append_of_pos h

theorem parseValue_blank {blank : List Char} (h : ∀ c ∈ blank, Json.isSpace c = true) (n : ℕ)
    (s : List Char) : Json.parseValue n (blank ++ s) = Json.parseValue n s := by
  cases n with
  | zero => rfl
  | succ n => rw [Json.parseValue, Json.parseValue, skipSpace_append h]

theorem parseValue_space (n : ℕ) (s : List Char) :
    Json.parseValue n (' ' :: s) = Json.parseValue n s :=
  @parseValue_blank [' '] (by simp [Json.isSpace]) n s

theorem parseItems_blank {blank : List Char} (h : ∀ c ∈ blank, Json.isSpace c = true) (n : ℕ)
    (s : List Char) : Json.parseItems n (blank ++ s) = Json.parseItems n s := by
  cases n with
  | zero => rfl
  | succ n => rw [Json.parseItems, Json.parseItems, parseValue_blank h]

theorem parseMembers_blank {blank : List Char} (h : ∀ c ∈ blank, Json.isSpace c = true) (n : ℕ)
    (s : List Char) : Json.parseMembers n (blank ++ s) = Json.parseMembers n s := by
  cases n with
  | zero => rfl
  | succ n => rw [Json.parseMembers, Json.parseMembers, skipSpace_append h]

/-! ## Reading trees -/

section Reading

variable {js : Runtime N} (hjs : WritesJson js)

/-- The characters a value is written in. -/
def written (js : Runtime N) (depth : ℕ) (v : JsValue N) : List Char :=
  scalars (stringifyAt js depth v)

def writtenItems (js : Runtime N) (depth : ℕ) (vs : List (JsValue N)) : List Char :=
  scalars (stringifyItems js depth vs)

def writtenMember (js : Runtime N) (depth : ℕ) (m : JsString × JsValue N) : List Char :=
  scalars (stringifyMember js depth m)

def writtenMembers (js : Runtime N) (depth : ℕ) (ms : List (JsString × JsValue N)) : List Char :=
  scalars (stringifyMembers js depth ms)

include hjs

theorem written_arr (depth : ℕ) (v : JsValue N) (vs : List (JsValue N)) (rest : List Char) :
    written js depth (.arr (v :: vs)) ++ rest =
      '[' :: (indent (depth + 1) ++ (written js (depth + 1) v ++
        (writtenItems js (depth + 1) vs ++ (indent depth ++ ']' :: rest)))) := by
  simp only [written, stringifyAt, List.cons_append, List.append_assoc]
  rw [scalars_cons (by decide) (by decide), (wellFormed_newline _).scalars_append,
    (wellFormed_stringifyAt hjs _ v).scalars_append,
    (wellFormed_stringifyItems hjs _ vs).scalars_append, (wellFormed_newline _).scalars_append]
  simp only [List.cons_append, List.append_assoc, indent, writtenItems]
  rfl

theorem writtenItems_cons (depth : ℕ) (v : JsValue N) (vs : List (JsValue N)) (rest : List Char) :
    writtenItems js depth (v :: vs) ++ rest =
      ',' :: (indent depth ++ (written js depth v ++ (writtenItems js depth vs ++ rest))) := by
  simp only [writtenItems, stringifyItems, List.cons_append, List.append_assoc]
  rw [scalars_cons (by decide) (by decide), (wellFormed_newline _).scalars_append,
    (wellFormed_stringifyAt hjs _ v).scalars_append]
  simp only [List.cons_append, List.append_assoc, indent, written]
  rfl

theorem written_obj (depth : ℕ) (m : JsString × JsValue N) (ms : List (JsString × JsValue N))
    (rest : List Char) :
    written js depth (.obj (m :: ms)) ++ rest =
      '{' :: (indent (depth + 1) ++ (writtenMember js (depth + 1) m ++
        (writtenMembers js (depth + 1) ms ++ (indent depth ++ '}' :: rest)))) := by
  simp only [written, stringifyAt, List.cons_append, List.append_assoc]
  rw [scalars_cons (by decide) (by decide), (wellFormed_newline _).scalars_append,
    (wellFormed_stringifyMember hjs _ m).scalars_append,
    (wellFormed_stringifyMembers hjs _ ms).scalars_append, (wellFormed_newline _).scalars_append]
  simp only [List.cons_append, List.append_assoc, indent, writtenMember, writtenMembers]
  rfl

theorem writtenMembers_cons (depth : ℕ) (m : JsString × JsValue N)
    (ms : List (JsString × JsValue N)) (rest : List Char) :
    writtenMembers js depth (m :: ms) ++ rest =
      ',' :: (indent depth ++
        (writtenMember js depth m ++ (writtenMembers js depth ms ++ rest))) := by
  simp only [writtenMembers, stringifyMembers, List.cons_append, List.append_assoc]
  rw [scalars_cons (by decide) (by decide), (wellFormed_newline _).scalars_append,
    (wellFormed_stringifyMember hjs _ m).scalars_append]
  simp only [List.cons_append, List.append_assoc, indent, writtenMember]
  rfl

omit hjs in
theorem writtenMember_eq (depth : ℕ) (k : JsString) (v : JsValue N) (rest : List Char) :
    writtenMember js depth (k, v) ++ rest =
      '"' :: (scalars (quoteUnits k) ++ '"' :: ':' :: ' ' :: (written js depth v ++ rest)) := by
  simp only [writtenMember, stringifyMember, quote, List.cons_append, List.append_assoc,
    List.nil_append]
  rw [scalars_cons (by decide) (by decide), (wellFormed_quoteUnits k).scalars_append,
    scalars_cons (by decide) (by decide), scalars_cons (by decide) (by decide),
    scalars_cons (by decide) (by decide)]
  simp only [List.cons_append, List.append_assoc, written]
  rfl

omit hjs in
/-- A number is read whole. -/
theorem parseValue_number {s : JsString} (h : IsNumberText s) {n : ℕ} {rest : List Char}
    (hrest : Json.Delimited rest) :
    Json.parseValue (n + 1) (scalars s ++ rest) = some (wireNumber s, rest) := by
  unfold wireNumber
  split_ifs with hnull
  · rw [hnull, scalars_utf16]
    rfl
  · obtain rfl | ⟨literal, rfl, hwf⟩ := h
    · exact absurd rfl hnull
    · rw [scalars_utf16, textOf_utf16]
      exact Json.parseValue_num hwf hrest

omit hjs in
theorem parseString_written (s : JsString) (rest : List Char) :
    Json.parseString (scalars (quoteUnits s) ++ '"' :: rest) = some (textOf s, rest) := by
  rw [Json.parseString, parsePieces_quoteUnits, Option.map_some, joinPieces_pieces]
  rfl

omit hjs in
theorem written_str (depth : ℕ) (s : JsString) (rest : List Char) :
    written js depth (.str s) ++ rest = '"' :: (scalars (quoteUnits s) ++ '"' :: rest) := by
  have hclose : WellFormed [(0x22 : UInt16)] := wellFormed_unit (by decide) (by decide)
  simp only [written, stringifyAt, quote]
  rw [scalars_cons (by decide) (by decide), (wellFormed_quoteUnits s).scalars_append,
    List.cons_append, List.append_assoc]
  rfl

/-- A value starts with neither white space nor a closing bracket. -/
theorem head_written (depth : ℕ) (v : JsValue N) :
    ∃ c cs, written js depth v = c :: cs ∧ Json.isSpace c = false ∧ c ≠ ']' ∧ c ≠ '}' := by
  cases v with
  | null => exact ⟨'n', _, rfl, by decide⟩
  | bool b => cases b <;> exact ⟨_, _, rfl, by decide⟩
  | num n =>
    have htext : ∀ literal : String, Json.WF (.num literal) → ∃ c cs, literal.toList = c :: cs ∧
        Json.isSpace c = false ∧ c ≠ ']' ∧ c ≠ '}' := fun literal hwf =>
      Json.head_printValue (j := .num literal) hwf
    show ∃ c cs, scalars (js.numberJson n) = c :: cs ∧ _
    obtain heq | ⟨literal, heq, hwf⟩ := hjs.numbers n
    · rw [heq, scalars_utf16]
      exact ⟨'n', _, rfl, by decide⟩
    · rw [heq, scalars_utf16]
      exact htext literal hwf
  | str s =>
    have hs := @written_str _ js depth s []
    rw [List.append_nil] at hs
    exact ⟨_, _, hs, by decide⟩
  | arr items =>
    cases items with
    | nil => exact ⟨'[', _, rfl, by decide⟩
    | cons v vs =>
      have hv := written_arr hjs depth v vs []
      rw [List.append_nil] at hv
      exact ⟨_, _, hv, by decide⟩
  | obj members =>
    cases members with
    | nil => exact ⟨'{', _, rfl, by decide⟩
    | cons m ms =>
      have hm := written_obj hjs depth m ms []
      rw [List.append_nil] at hm
      exact ⟨_, _, hm, by decide⟩

omit hjs in
theorem delimited_indent (depth : ℕ) (rest : List Char) :
    Json.Delimited (indent depth ++ rest) := by
  rw [indent, newline, scalars_cons (by decide) (by decide)]
  exact Json.delimited_cons (by decide)

theorem delimited_writtenItems (depth below : ℕ) (vs : List (JsValue N)) (rest : List Char) :
    Json.Delimited (writtenItems js depth vs ++ (indent below ++ rest)) := by
  cases vs with
  | nil => exact delimited_indent below rest
  | cons v vs =>
    rw [writtenItems_cons hjs]
    exact Json.delimited_cons (by decide)

theorem delimited_writtenMembers (depth below : ℕ) (ms : List (JsString × JsValue N))
    (rest : List Char) :
    Json.Delimited (writtenMembers js depth ms ++ (indent below ++ rest)) := by
  cases ms with
  | nil => exact delimited_indent below rest
  | cons m ms =>
    rw [writtenMembers_cons hjs]
    exact Json.delimited_cons (by decide)

end Reading

open Json (size sizeItems sizeMembers sizeMember Delimited)

mutual

theorem parseValue_written {js : Runtime N} (hjs : WritesJson js) :
    ∀ (v : JsValue N) (depth n : ℕ) (rest : List Char), size (wire js v) ≤ n → Delimited rest →
      Json.parseValue n (written js depth v ++ rest) = some (wire js v, rest)
  | v, depth, 0, rest, h, _ => by
    exfalso
    have hpos : 0 < size (wire js v) := by
      cases v with
      | num n =>
        simp only [wire, wireNumber]
        split_ifs <;> simp [size]
      | _ => simp [wire, size]; try omega
    omega
  | .null, depth, n + 1, rest, _, _ => rfl
  | .bool true, depth, n + 1, rest, _, _ => rfl
  | .bool false, depth, n + 1, rest, _, _ => rfl
  | .num m, depth, n + 1, rest, _, hrest => parseValue_number (hjs.numbers m) hrest
  | .str s, depth, n + 1, rest, _, _ => by
    rw [written_str]
    show (Json.parseString _).map _ = _
    rw [parseString_written]
    rfl
  | .arr [], depth, n + 1, rest, _, _ => rfl
  | .arr (v :: vs), depth, n + 1, rest, h, _ => by
    simp only [wire, wireItems, size, sizeItems] at h
    have hitems := parseItems_written hjs v vs (depth + 1) depth n rest
      (by simp only [sizeItems]; omega)
    obtain ⟨c, cs, hv, hspace, hbracket, -⟩ := head_written hjs (depth + 1) v
    rw [written_arr hjs, Json.parseValue, Json.skipSpace_of_not (by decide)]
    simp only [Char.reduceEq, if_false, if_true]
    rw [skipSpace_append (fun c => isSpace_of_mem_indent)]
    rw [hv, List.cons_append] at hitems ⊢
    rw [Json.skipSpace_of_not hspace]
    split
    · next heq => exact absurd (List.cons.inj heq).1 hbracket
    · rw [hitems]
      rfl
  | .obj [], depth, n + 1, rest, _, _ => rfl
  | .obj ((k, v) :: ms), depth, n + 1, rest, h, _ => by
    simp only [wire, wireMembers, wireMember, size, sizeMembers, sizeMember] at h
    have hmembers := parseMembers_written hjs k v ms (depth + 1) depth n rest
      (by simp only [wireMember, sizeMembers, sizeMember]; omega)
    rw [written_obj hjs, Json.parseValue, Json.skipSpace_of_not (by decide)]
    simp only [if_true]
    rw [skipSpace_append (fun c => isSpace_of_mem_indent)]
    rw [writtenMember_eq] at hmembers ⊢
    rw [Json.skipSpace_of_not (by decide)]
    show (Json.parseMembers n ('"' :: _)).map _ = _
    rw [hmembers]
    rfl
termination_by structural _ _ n => n

theorem parseItems_written {js : Runtime N} (hjs : WritesJson js) :
    ∀ (v : JsValue N) (vs : List (JsValue N)) (depth below n : ℕ) (rest : List Char),
      sizeItems (wire js v :: wireItems js vs) ≤ n →
      Json.parseItems n (written js depth v ++
        (writtenItems js depth vs ++ (indent below ++ ']' :: rest))) =
        some (wire js v :: wireItems js vs, rest)
  | v, vs, depth, below, 0, rest, h => by simp [sizeItems] at h
  | v, [], depth, below, n + 1, rest, h => by
    simp only [wireItems, sizeItems] at h
    have hvalue := parseValue_written hjs v depth n (indent below ++ ']' :: rest) (by omega)
      (delimited_indent _ _)
    have hnil : writtenItems js depth [] = [] := rfl
    simp only [hnil, List.nil_append, Json.parseItems, hvalue, Option.bind_eq_bind,
      Option.bind_some, skipSpace_append (fun c => isSpace_of_mem_indent),
      Json.skipSpace_of_not (show Json.isSpace ']' = false by decide), wireItems]
  | v, w :: vs, depth, below, n + 1, rest, h => by
    simp only [wireItems, sizeItems] at h
    have hvalue := parseValue_written hjs v depth n
      (writtenItems js depth (w :: vs) ++ (indent below ++ ']' :: rest)) (by omega)
      (delimited_writtenItems hjs _ _ _ _)
    have hmore := parseItems_written hjs w vs depth below n rest
      (by simp only [sizeItems]; omega)
    simp only [Json.parseItems, hvalue, Option.bind_eq_bind, Option.bind_some]
    rw [writtenItems_cons hjs, Json.skipSpace_of_not (by decide)]
    simp only [parseItems_blank (fun c => isSpace_of_mem_indent), hmore, Option.bind_some,
      wireItems]
termination_by structural _ _ _ _ n => n

theorem parseMembers_written {js : Runtime N} (hjs : WritesJson js) :
    ∀ (k : JsString) (v : JsValue N) (ms : List (JsString × JsValue N)) (depth below n : ℕ)
      (rest : List Char), sizeMembers (wireMember js (k, v) :: wireMembers js ms) ≤ n →
      Json.parseMembers n (writtenMember js depth (k, v) ++
        (writtenMembers js depth ms ++ (indent below ++ '}' :: rest))) =
        some (wireMember js (k, v) :: wireMembers js ms, rest)
  | k, v, ms, depth, below, 0, rest, h => by simp [wireMember, sizeMembers] at h
  | k, v, [], depth, below, n + 1, rest, h => by
    simp only [wireMember, wireMembers, sizeMembers, sizeMember] at h
    have hvalue := parseValue_written hjs v depth n (indent below ++ '}' :: rest) (by omega)
      (delimited_indent _ _)
    have hnil : writtenMembers js depth [] = [] := rfl
    rw [hnil, List.nil_append, writtenMember_eq, Json.parseMembers,
      Json.skipSpace_of_not (show Json.isSpace '"' = false by decide)]
    simp only [parseString_written, Option.bind_eq_bind, Option.bind_some,
      Json.skipSpace_of_not (show Json.isSpace ':' = false by decide)]
    simp only [parseValue_space, hvalue, Option.bind_some,
      skipSpace_append (fun c => isSpace_of_mem_indent),
      Json.skipSpace_of_not (show Json.isSpace '}' = false by decide), wireMember, wireMembers]
  | k, v, m :: ms, depth, below, n + 1, rest, h => by
    obtain ⟨k', v'⟩ := m
    simp only [wireMember, wireMembers, sizeMembers, sizeMember] at h
    have hvalue := parseValue_written hjs v depth n
      (writtenMembers js depth ((k', v') :: ms) ++ (indent below ++ '}' :: rest)) (by omega)
      (delimited_writtenMembers hjs _ _ _ _)
    have hmore := parseMembers_written hjs k' v' ms depth below n rest
      (by simp only [wireMember, sizeMembers, sizeMember]; omega)
    rw [writtenMember_eq, Json.parseMembers,
      Json.skipSpace_of_not (show Json.isSpace '"' = false by decide)]
    simp only [parseString_written, Option.bind_eq_bind, Option.bind_some,
      Json.skipSpace_of_not (show Json.isSpace ':' = false by decide), parseValue_space, hvalue]
    rw [writtenMembers_cons hjs, Json.skipSpace_of_not (by decide)]
    simp only [parseMembers_blank (fun c => isSpace_of_mem_indent), hmore, Option.bind_some,
      wireMember, wireMembers]
termination_by structural _ _ _ _ _ n => n

end

/-! ## Documents -/

mutual

theorem size_wire_le {js : Runtime N} (hjs : WritesJson js) :
    ∀ (depth : ℕ) (v : JsValue N), size (wire js v) ≤ 2 * (written js depth v).length
  | _, .null => (by decide : 1 ≤ 2 * 4)
  | _, .bool true => (by decide : 1 ≤ 2 * 4)
  | _, .bool false => (by decide : 1 ≤ 2 * 5)
  | depth, .num n => by
    obtain ⟨c, cs, hv, -⟩ := head_written hjs depth (.num n)
    have hsize : size (wire js (.num n)) = 1 := by
      simp only [wire, wireNumber]
      split_ifs <;> rfl
    rw [hv, hsize, List.length_cons]
    omega
  | depth, .str s => by
    have hs := congrArg List.length (@written_str _ js depth s [])
    simp only [List.append_nil, List.length_cons, List.length_append] at hs
    simp only [wire, size]
    omega
  | _, .arr [] => (by decide : 1 ≤ 2 * 2)
  | depth, .arr (v :: vs) => by
    have hv := size_wire_le hjs (depth + 1) v
    have hvs := sizeItems_wire_le hjs (depth + 1) vs
    have hlen := congrArg List.length (written_arr hjs depth v vs [])
    simp only [List.append_nil, List.length_cons, List.length_append] at hlen
    simp only [wire, wireItems, size, sizeItems]
    omega
  | _, .obj [] => (by decide : 1 ≤ 2 * 2)
  | depth, .obj (m :: ms) => by
    have hm := sizeMember_wire_le hjs (depth + 1) m
    have hms := sizeMembers_wire_le hjs (depth + 1) ms
    have hlen := congrArg List.length (written_obj hjs depth m ms [])
    simp only [List.append_nil, List.length_cons, List.length_append] at hlen
    simp only [wire, wireMembers, size, sizeMembers]
    omega

theorem sizeItems_wire_le {js : Runtime N} (hjs : WritesJson js) :
    ∀ (depth : ℕ) (vs : List (JsValue N)),
      sizeItems (wireItems js vs) ≤ 2 * (writtenItems js depth vs).length
  | _, [] => Nat.zero_le _
  | depth, v :: vs => by
    have hv := size_wire_le hjs depth v
    have hvs := sizeItems_wire_le hjs depth vs
    have hlen := congrArg List.length (writtenItems_cons hjs depth v vs [])
    simp only [List.append_nil, List.length_cons, List.length_append] at hlen
    simp only [wireItems, sizeItems]
    omega

theorem sizeMember_wire_le {js : Runtime N} (hjs : WritesJson js) :
    ∀ (depth : ℕ) (m : JsString × JsValue N),
      sizeMember (wireMember js m) ≤ 2 * (writtenMember js depth m).length
  | depth, (k, v) => by
    have hv := size_wire_le hjs depth v
    have hlen := congrArg List.length (@writtenMember_eq _ js depth k v [])
    simp only [List.append_nil, List.length_cons, List.length_append] at hlen
    simp only [wireMember, sizeMember]
    omega

theorem sizeMembers_wire_le {js : Runtime N} (hjs : WritesJson js) :
    ∀ (depth : ℕ) (ms : List (JsString × JsValue N)),
      sizeMembers (wireMembers js ms) ≤ 2 * (writtenMembers js depth ms).length
  | _, [] => Nat.zero_le _
  | depth, m :: ms => by
    have hm := sizeMember_wire_le hjs depth m
    have hms := sizeMembers_wire_le hjs depth ms
    have hlen := congrArg List.length (writtenMembers_cons hjs depth m ms [])
    simp only [List.append_nil, List.length_cons, List.length_append] at hlen
    simp only [wireMembers, sizeMembers]
    omega

end

/-- **What JavaScript writes, Go reads**, up to the nesting that Go accepts. White space may
follow the document. -/
theorem parse_stringify {js : Runtime N} (hjs : WritesJson js) (v : JsValue N) :
    Json.parse (bufferFrom (stringify js v ++ utf16 "\n")) =
      (some (wire js v)).filter fun j => j.depth ≤ Json.maxNesting := by
  have hchars : scalars (stringify js v ++ utf16 "\n") = written js 0 v ++ ['\n'] := by
    rw [stringify, (wellFormed_stringifyAt hjs 0 v).scalars_append, scalars_utf16]
    rfl
  have hsize := size_wire_le hjs 0 v
  have hvalue := parseValue_written hjs v 0 (2 * (written js 0 v ++ ['\n']).length + 2) ['\n']
    (by rw [List.length_append]; omega) (Json.delimited_cons (by decide))
  have htext : Json.parseText (bufferFrom (stringify js v ++ utf16 "\n")) = some (wire js v) := by
    rw [Json.parseText, bufferFrom, decodeRunes_encodeRunes, hchars]
    simp only [hvalue]
    rfl
  rw [Json.parse, htext]

/-! ## Names -/

/-- A string whose characters are all real is well formed. -/
theorem wellFormed_of_notMem {s : JsString} (h : '\uFFFD' ∉ scalars s) : WellFormed s := by
  fun_induction scalars s with
  | case1 => exact wellFormed_utf16 ""
  | case2 u =>
    have hlone : ¬ (isHigh u = true ∨ isLow u = true) := fun hlone => by
      rw [if_pos hlone] at h
      exact h (List.mem_singleton_self _)
    rw [not_or, Bool.not_eq_true, Bool.not_eq_true] at hlone
    exact wellFormed_unit hlone.1 hlone.2
  | case3 high low s hpair ih =>
    exact (wellFormed_pair hpair.1 hpair.2).append (ih fun hmem => h (List.mem_cons_of_mem _ hmem))
  | case4 u low s _ ih =>
    have hlone : ¬ (isHigh u = true ∨ isLow u = true) := fun hlone => by
      rw [if_pos hlone] at h
      exact h List.mem_cons_self
    rw [not_or, Bool.not_eq_true, Bool.not_eq_true] at hlone
    exact (ih fun hmem => h (List.mem_cons_of_mem _ hmem)).cons hlone.1 hlone.2

/-- Only the name itself is read as a name. -/
theorem eq_utf16_of_textOf {s : JsString} {name : String} (hname : '\uFFFD' ∉ name.toList)
    (h : textOf s = name) : s = utf16 name := by
  have hchars : scalars s = name.toList := by rw [← h, textOf, String.toList_ofList]
  obtain ⟨text, rfl⟩ := wellFormed_of_notMem (hchars ▸ hname)
  rw [← h, textOf_utf16]

end Bifurcation.Javascript
