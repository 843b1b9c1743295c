import Bifurcation.Lib.Json

/-!
# The reader inverts the printer

`parse_print`: a printed document is read back as the tree it was printed from. The proof follows
the printer: one lemma for a character of a string, then the strings, then the trees with enough
fuel, and last the fuel that `parse` supplies.
-/

namespace Bifurcation.Json

/-! ## Strings -/

theorem hexValue_hexDigit : ∀ d < 16, hexValue (hexDigit d) = some d := by decide

theorem hexUnit_hex4 {n : ℕ} (h : n < 0x10000) :
    hexUnit (hexDigit (n / 4096 % 16)) (hexDigit (n / 256 % 16)) (hexDigit (n / 16 % 16))
      (hexDigit (n % 16)) = some n := by
  have hn : ((n / 4096 % 16 * 16 + n / 256 % 16) * 16 + n / 16 % 16) * 16 + n % 16 = n := by omega
  rw [hexUnit, hexValue_hexDigit _ (by omega), hexValue_hexDigit _ (by omega),
    hexValue_hexDigit _ (by omega), hexValue_hexDigit _ (by omega)]
  simp only [hn]

/-- The part a printed character is read as. -/
def pieceOf (c : Char) : Piece :=
  if (shortEscapes.find? (·.1 = c)).isSome then .char c
  else if escaped c then .unit c.toNat else .char c

theorem toNat_lt_of_escaped {c : Char} (h : escaped c = true) : c.toNat < 0x10000 := by
  simp only [escaped, Bool.or_eq_true, decide_eq_true_eq] at h
  rcases h with ((((h | rfl) | rfl) | rfl) | h) | h
  · omega
  · decide
  · decide
  · decide
  · omega
  · omega

theorem not_isSurrogate_of_escaped {c : Char} (h : escaped c = true) :
    isSurrogate c.toNat = false := by
  have hlt : c.toNat < 0xD800 := by
    simp only [escaped, Bool.or_eq_true, decide_eq_true_eq] at h
    rcases h with ((((h | rfl) | rfl) | rfl) | h) | h
    · omega
    · decide
    · decide
    · decide
    · omega
    · omega
  simp only [isSurrogate, Bool.and_eq_false_iff, decide_eq_false_iff_not, not_le, not_lt]
  exact .inl hlt

/-- A printed character is read as one part. -/
theorem parsePieces_printChar (c : Char) (s : List Char) :
    parsePieces (printChar c ++ s) = consPiece (some (pieceOf c)) (parsePieces s) := by
  unfold printChar pieceOf
  cases hfind : shortEscapes.find? (·.1 = c) with
  | some ce =>
    obtain ⟨c', e⟩ := ce
    have hc : c' = c := by simpa using List.find?_some hfind
    have hmem := List.mem_of_find?_eq_some hfind
    subst hc
    simp only [shortEscapes, List.mem_cons, Prod.mk.injEq, List.not_mem_nil, or_false] at hmem
    rcases hmem with ⟨rfl, rfl⟩ | ⟨rfl, rfl⟩ | ⟨rfl, rfl⟩ | ⟨rfl, rfl⟩ | ⟨rfl, rfl⟩ | ⟨rfl, rfl⟩ |
      ⟨rfl, rfl⟩ <;> rfl
  | none =>
    have hplain : ∀ p ∈ shortEscapes, p.1 ≠ c := by simpa using hfind
    by_cases hesc : escaped c
    · simp only [hesc, if_true, Option.isSome_none, Bool.false_eq_true, if_false]
      rw [hex4]
      show consPiece ((hexUnit _ _ _ _).map .unit) _ = _
      rw [hexUnit_hex4 (toNat_lt_of_escaped hesc)]
      rfl
    · have hquote : c ≠ '"' := (hplain ('"', '"') (by decide)).symm
      have hslash : c ≠ '\\' := (hplain ('\\', '\\') (by decide)).symm
      have hctl : ¬ (c.toNat < 0x20 ∨ c = '\\') := by
        rintro (h | h)
        · exact hesc (by simp [escaped, h])
        · exact hslash h
      simp only [hesc, Option.isSome_none, Bool.false_eq_true, if_false]
      show parsePieces (c :: s) = _
      rw [parsePieces.eq_5 c s hquote (fun _ _ _ _ _ h _ => hslash h) (fun _ _ h _ => hslash h),
        if_neg hctl]

theorem parsePieces_printed (cs rest : List Char) :
    parsePieces (cs.flatMap printChar ++ '"' :: rest) = some (cs.map pieceOf, rest) := by
  induction cs with
  | nil => rfl
  | cons c cs ih =>
    rw [List.flatMap_cons, List.append_assoc, parsePieces_printChar, ih]
    rfl

theorem joinPieces_pieceOf (c : Char) (ps : List Piece) :
    joinPieces (pieceOf c :: ps) = c :: joinPieces ps := by
  unfold pieceOf
  split_ifs with hshort hesc
  · rw [joinPieces]
  · rw [joinPieces.eq_def]
    simp only [not_isSurrogate_of_escaped hesc, Bool.false_eq_true, if_false, Char.ofNat_toNat]
  · rw [joinPieces]

theorem joinPieces_map_pieceOf (cs : List Char) : joinPieces (cs.map pieceOf) = cs := by
  induction cs with
  | nil => rfl
  | cons c cs ih => rw [List.map_cons, joinPieces_pieceOf, ih]

theorem parseString_printString (s : String) (rest : List Char) :
    parseString (s.toList.flatMap printChar ++ '"' :: rest) = some (s, rest) := by
  rw [parseString, parsePieces_printed, Option.map_some, joinPieces_map_pieceOf,
    String.ofList_toList]

/-! ## Well-formed trees -/

mutual

/-- The numbers of the tree are number literals. -/
def WF : Json → Prop
  | null => True
  | bool _ => True
  | num literal => validNumber literal.toList = true ∧ ∀ c ∈ literal.toList, isNumChar c = true
  | str _ => True
  | arr items => WFItems items
  | obj members => WFMembers members
termination_by structural j => j

def WFItems : List Json → Prop
  | [] => True
  | v :: vs => WF v ∧ WFItems vs
termination_by structural l => l

def WFMember : String × Json → Prop
  | (_, v) => WF v
termination_by structural m => m

def WFMembers : List (String × Json) → Prop
  | [] => True
  | m :: ms => WFMember m ∧ WFMembers ms
termination_by structural l => l

end

theorem wfItems_iff {items : List Json} : WFItems items ↔ ∀ v ∈ items, WF v := by
  induction items with
  | nil => simp [WFItems]
  | cons v vs ih => simp [WFItems, ih]

theorem wfMembers_iff {members : List (String × Json)} :
    WFMembers members ↔ ∀ m ∈ members, WF m.2 := by
  induction members with
  | nil => simp [WFMembers]
  | cons m ms ih => obtain ⟨k, v⟩ := m; simp [WFMembers, WFMember, ih]

mutual

/-- The fuel a tree needs. -/
def size : Json → ℕ
  | arr items => 1 + sizeItems items
  | obj members => 1 + sizeMembers members
  | null => 1
  | bool _ => 1
  | num _ => 1
  | str _ => 1
termination_by structural j => j

def sizeItems : List Json → ℕ
  | [] => 0
  | v :: vs => 1 + size v + sizeItems vs
termination_by structural l => l

def sizeMember : String × Json → ℕ
  | (_, v) => size v
termination_by structural m => m

def sizeMembers : List (String × Json) → ℕ
  | [] => 0
  | m :: ms => 1 + sizeMember m + sizeMembers ms
termination_by structural l => l

end

/-- The text after a value starts with none of a number's characters. -/
def Delimited (rest : List Char) : Prop := ∀ c ∈ rest.head?, isNumChar c = false

theorem delimited_cons {c : Char} {rest : List Char} (h : isNumChar c = false) :
    Delimited (c :: rest) := by
  intro d hd
  obtain rfl : c = d := by simpa using hd
  exact h

/-! ## Numbers -/

theorem takeWhile_literal {literal rest : List Char} (h : ∀ c ∈ literal, isNumChar c = true)
    (hrest : Delimited rest) : (literal ++ rest).takeWhile isNumChar = literal := by
  rw [List.takeWhile_append_of_pos h]
  cases rest with
  | nil => simp
  | cons c rest => simp [hrest c rfl]

theorem dropWhile_literal {literal rest : List Char} (h : ∀ c ∈ literal, isNumChar c = true)
    (hrest : Delimited rest) : (literal ++ rest).dropWhile isNumChar = rest := by
  rw [List.dropWhile_append_of_pos h]
  cases rest with
  | nil => simp
  | cons c rest => simp [hrest c rfl]

theorem skipSpace_of_not {c : Char} {s : List Char} (h : isSpace c = false) :
    skipSpace (c :: s) = c :: s := by
  simp [skipSpace, h]

/-- A number literal is read whole. -/
theorem parseValue_num {literal : String} {n : ℕ} {rest : List Char} (hwf : WF (num literal))
    (hrest : Delimited rest) :
    parseValue (n + 1) (literal.toList ++ rest) = some (num literal, rest) := by
  obtain ⟨hvalid, hall⟩ := hwf
  cases hlit : literal.toList with
  | nil => rw [hlit] at hvalid; cases hvalid
  | cons c cs =>
    have hc : isNumChar c = true := hall c (by rw [hlit]; exact List.mem_cons_self)
    have hne (d : Char) (hd : isNumChar d = false) : c ≠ d := by
      rintro rfl
      rw [hc] at hd
      cases hd
    have hspace : isSpace c = false := by
      simp only [isSpace, hne ' ' (by decide), hne '\t' (by decide), hne '\r' (by decide),
        hne '\n' (by decide), decide_false, Bool.or_self]
    have htake := takeWhile_literal hall hrest
    have hdrop := dropWhile_literal hall hrest
    rw [hlit, List.cons_append] at htake hdrop
    have hback : String.ofList (c :: cs) = literal := by rw [← hlit, String.ofList_toList]
    rw [hlit] at hvalid
    rw [List.cons_append, parseValue, skipSpace_of_not hspace]
    simp only [hne '{' (by decide), hne '[' (by decide), hne '"' (by decide), hne 't' (by decide),
      hne 'f' (by decide), hne 'n' (by decide), if_false, htake, hdrop, hvalid, if_true, hback]

/-! ## Trees -/

/-- What a printed value starts with is neither white space nor a closing bracket. -/
theorem head_printValue {j : Json} (hwf : WF j) :
    ∃ c cs, printValue j = c :: cs ∧ isSpace c = false ∧ c ≠ ']' ∧ c ≠ '}' := by
  cases j with
  | null => exact ⟨_, _, rfl, by decide⟩
  | bool b => cases b <;> exact ⟨_, _, rfl, by decide⟩
  | str s => exact ⟨_, _, rfl, by decide⟩
  | arr items => exact ⟨_, _, rfl, by decide⟩
  | obj members => exact ⟨_, _, rfl, by decide⟩
  | num literal =>
    obtain ⟨hvalid, hall⟩ := hwf
    cases hlit : literal.toList with
    | nil => rw [hlit] at hvalid; cases hvalid
    | cons c cs =>
      have hc : isNumChar c = true := hall c (by rw [hlit]; exact List.mem_cons_self)
      refine ⟨c, cs, hlit, ?_, ?_, ?_⟩
      · simp only [isNumChar, Bool.or_eq_true, decide_eq_true_eq] at hc
        rcases hc with ((((h | rfl) | rfl) | rfl) | rfl) | rfl
        · simp only [isSpace, Bool.or_eq_false_iff, decide_eq_false_iff_not]
          refine ⟨⟨⟨?_, ?_⟩, ?_⟩, ?_⟩ <;> (rintro rfl; revert h; decide)
        all_goals decide
      · rintro rfl; revert hc; decide
      · rintro rfl; revert hc; decide

theorem skipSpace_printValue {j : Json} (hwf : WF j) (rest : List Char) :
    skipSpace (printValue j ++ rest) = printValue j ++ rest := by
  obtain ⟨c, cs, hj, hc, -⟩ := head_printValue hwf
  rw [hj]
  exact skipSpace_of_not hc

theorem delimited_printMoreItems (vs : List Json) (rest : List Char) :
    Delimited (printMoreItems vs ++ ']' :: rest) := by
  cases vs with
  | nil => exact delimited_cons (by decide)
  | cons v vs => exact delimited_cons (by decide)

theorem delimited_printMoreMembers (ms : List (String × Json)) (rest : List Char) :
    Delimited (printMoreMembers ms ++ '}' :: rest) := by
  cases ms with
  | nil => exact delimited_cons (by decide)
  | cons m ms => exact delimited_cons (by decide)

mutual

theorem parseValue_print : ∀ (j : Json) (n : ℕ) (rest : List Char), size j ≤ n → WF j →
    Delimited rest → parseValue n (printValue j ++ rest) = some (j, rest)
  | j, 0, rest, h, _, _ => by cases j <;> simp [size] at h
  | .null, n + 1, rest, _, _, _ => rfl
  | .bool true, n + 1, rest, _, _, _ => rfl
  | .bool false, n + 1, rest, _, _, _ => rfl
  | .num literal, n + 1, rest, _, hwf, hrest => parseValue_num hwf hrest
  | .str s, n + 1, rest, _, _, _ => by
    show (parseString ((s.toList.flatMap printChar ++ ['"']) ++ rest)).map _ = _
    rw [List.append_assoc, List.singleton_append, parseString_printString]
    rfl
  | .arr [], n + 1, rest, _, _, _ => rfl
  | .arr (v :: vs), n + 1, rest, h, hwf, _ => by
    simp only [size, sizeItems] at h
    simp only [WF, WFItems] at hwf
    have hitems := parseItems_print v vs n rest (by simp only [sizeItems]; omega) hwf.1 hwf.2
    obtain ⟨c, cs, hv, hspace, hbracket, -⟩ := head_printValue hwf.1
    have hskip := skipSpace_printValue hwf.1 (printMoreItems vs ++ ']' :: rest)
    have hprint : printValue (.arr (v :: vs)) ++ rest =
        '[' :: (printValue v ++ (printMoreItems vs ++ ']' :: rest)) := by
      simp [printValue, printItems]
    rw [hprint, parseValue, skipSpace_of_not (by decide)]
    simp only [Char.reduceEq, if_false, if_true, hskip]
    rw [hv, List.cons_append] at hitems ⊢
    split
    · next heq => exact absurd (List.cons.inj heq).1 hbracket
    · rw [hitems]; rfl
  | .obj [], n + 1, rest, _, _, _ => rfl
  | .obj ((k, v) :: ms), n + 1, rest, h, hwf, _ => by
    simp only [size, sizeMembers, sizeMember] at h
    simp only [WF, WFMembers, WFMember] at hwf
    have hmembers := parseMembers_print k v ms n rest (by simp only [sizeMembers, sizeMember]; omega)
      hwf.1 hwf.2
    have hprint : printValue (.obj ((k, v) :: ms)) ++ rest =
        '{' :: (printMember (k, v) ++ (printMoreMembers ms ++ '}' :: rest)) := by
      simp [printValue, printMembers]
    rw [hprint, parseValue, skipSpace_of_not (by decide)]
    have hquote : ∃ cs, printMember (k, v) ++ (printMoreMembers ms ++ '}' :: rest) = '"' :: cs :=
      ⟨_, rfl⟩
    obtain ⟨cs, hcs⟩ := hquote
    rw [hcs] at hmembers ⊢
    simp only [if_true, skipSpace_of_not (show isSpace '"' = false by decide)]
    show (parseMembers n ('"' :: cs)).map _ = _
    rw [hmembers]
    rfl

theorem parseItems_print : ∀ (v : Json) (vs : List Json) (n : ℕ) (rest : List Char),
    sizeItems (v :: vs) ≤ n → WF v → WFItems vs →
    parseItems n (printValue v ++ (printMoreItems vs ++ ']' :: rest)) = some (v :: vs, rest)
  | v, vs, 0, rest, h, _, _ => by simp [sizeItems] at h
  | v, [], n + 1, rest, h, hv, _ => by
    simp only [sizeItems] at h
    have hvalue := parseValue_print v n (']' :: rest) (by omega) hv (delimited_cons (by decide))
    simp only [printMoreItems, List.nil_append, parseItems, hvalue, Option.bind_eq_bind,
      Option.bind_some, skipSpace_of_not (show isSpace ']' = false by decide)]
  | v, w :: vs, n + 1, rest, h, hv, hvs => by
    simp only [sizeItems] at h
    have hvalue := parseValue_print v n (printMoreItems (w :: vs) ++ ']' :: rest) (by omega) hv
      (delimited_printMoreItems _ _)
    have hmore := parseItems_print w vs n rest (by simp only [sizeItems]; omega) hvs.1 hvs.2
    simp only [parseItems, hvalue, Option.bind_eq_bind, Option.bind_some]
    simp only [printMoreItems, List.cons_append, List.append_assoc,
      skipSpace_of_not (show isSpace ',' = false by decide), hmore, Option.bind_some]

theorem parseMembers_print : ∀ (k : String) (v : Json) (ms : List (String × Json)) (n : ℕ)
    (rest : List Char), sizeMembers ((k, v) :: ms) ≤ n → WF v → WFMembers ms →
    parseMembers n (printMember (k, v) ++ (printMoreMembers ms ++ '}' :: rest)) =
      some ((k, v) :: ms, rest)
  | k, v, ms, 0, rest, h, _, _ => by simp [sizeMembers] at h
  | k, v, [], n + 1, rest, h, hv, _ => by
    simp only [sizeMembers, sizeMember] at h
    have hvalue := parseValue_print v n ('}' :: rest) (by omega) hv (delimited_cons (by decide))
    have hprint : printMember (k, v) ++ (printMoreMembers [] ++ '}' :: rest) =
        '"' :: (k.toList.flatMap printChar ++ '"' :: ':' :: (printValue v ++ '}' :: rest)) := by
      simp [printMember, printString, printMoreMembers]
    rw [hprint, parseMembers, skipSpace_of_not (by decide)]
    simp only [parseString_printString, Option.bind_eq_bind, Option.bind_some, hvalue,
      skipSpace_of_not (show isSpace ':' = false by decide),
      skipSpace_of_not (show isSpace '}' = false by decide)]
  | k, v, (k', v') :: ms, n + 1, rest, h, hv, hms => by
    simp only [sizeMembers, sizeMember] at h
    have hvalue := parseValue_print v n (printMoreMembers ((k', v') :: ms) ++ '}' :: rest) (by omega)
      hv (delimited_printMoreMembers _ _)
    have hmore := parseMembers_print k' v' ms n rest
      (by simp only [sizeMembers, sizeMember]; omega) hms.1 hms.2
    have hprint : printMember (k, v) ++ (printMoreMembers ((k', v') :: ms) ++ '}' :: rest) =
        '"' :: (k.toList.flatMap printChar ++
          '"' :: ':' :: (printValue v ++ (printMoreMembers ((k', v') :: ms) ++ '}' :: rest))) := by
      simp [printMember, printString]
    rw [hprint, parseMembers, skipSpace_of_not (by decide)]
    simp only [parseString_printString, Option.bind_eq_bind, Option.bind_some, hvalue,
      skipSpace_of_not (show isSpace ':' = false by decide)]
    simp only [printMoreMembers, List.cons_append, List.append_assoc,
      skipSpace_of_not (show isSpace ',' = false by decide), hmore, Option.bind_some]

end

/-! ## Documents -/

mutual

theorem size_le_length : ∀ j : Json, WF j → size j ≤ 2 * (printValue j).length
  | .null, _ => by decide
  | .bool true, _ => by decide
  | .bool false, _ => by decide
  | .num literal, h => by
    obtain ⟨c, cs, hj, -⟩ := head_printValue h
    rw [hj, size, List.length_cons]
    omega
  | .str s, _ => by simp [size, printValue, printString]; omega
  | .arr [], _ => by decide
  | .arr (v :: vs), h => by
    have hv := size_le_length v h.1
    have hvs := sizeItems_le_length vs h.2
    simp only [size, sizeItems, printValue, printItems, List.length_cons, List.length_append,
      List.length_nil]
    omega
  | .obj [], _ => by decide
  | .obj ((k, v) :: ms), h => by
    have hv := size_le_length v h.1
    have hms := sizeMembers_le_length ms h.2
    simp only [size, sizeMembers, sizeMember, printValue, printMembers, printMember,
      List.length_cons, List.length_append, List.length_nil]
    omega

theorem sizeItems_le_length : ∀ vs : List Json, WFItems vs →
    sizeItems vs ≤ 2 * (printMoreItems vs).length
  | [], _ => by decide
  | v :: vs, h => by
    have hv := size_le_length v h.1
    have hvs := sizeItems_le_length vs h.2
    simp only [sizeItems, printMoreItems, List.length_cons, List.length_append]
    omega

theorem sizeMembers_le_length : ∀ ms : List (String × Json), WFMembers ms →
    sizeMembers ms ≤ 2 * (printMoreMembers ms).length
  | [], _ => by decide
  | (k, v) :: ms, h => by
    have hv := size_le_length v h.1
    have hms := sizeMembers_le_length ms h.2
    simp only [sizeMembers, sizeMember, printMoreMembers, printMember, List.length_cons,
      List.length_append]
    omega

end

/-- A printed text is read back as the tree it was printed from. -/
theorem parseText_print {j : Json} (h : WF j) : parseText (print j) = some j := by
  have hsize := size_le_length j h
  have hvalue := parseValue_print j (2 * (printValue j).length + 2) [] (by omega) h
    (fun c hc => by cases hc)
  rw [List.append_nil] at hvalue
  simp only [parseText, print, decodeRunes_encodeRunes, hvalue]
  rfl

theorem parse_print {j : Json} (h : WF j) (hdepth : j.depth ≤ maxNesting) :
    parse (print j) = some j := by
  rw [parse, parseText_print h, Option.filter_some, if_pos (decide_eq_true hdepth)]

theorem print_injective {j k : Json} (hj : WF j) (hk : WF k) (h : print j = print k) : j = k := by
  have hread := parseText_print hj
  rw [h, parseText_print hk] at hread
  exact (Option.some.inj hread).symm

/-! ## Natural numbers -/

/-- A number that is not zero is written without a leading zero. -/
theorem toDigits_eq_cons (n : ℕ) :
    ∃ c cs, Nat.toDigits 10 n = c :: cs ∧ (n ≠ 0 → c ≠ '0') := by
  induction n using Nat.strong_induction_on with
  | _ n ih =>
    by_cases hlt : n < 10
    · refine ⟨n.digitChar, [], Nat.toDigits_of_lt_base hlt, fun hn => ?_⟩
      interval_cases n <;> simp_all
    · obtain ⟨c, cs, hcs, hne⟩ := ih (n / 10) (by omega)
      refine ⟨c, cs ++ [(n % 10).digitChar], ?_, fun _ => hne (by omega)⟩
      rw [Nat.toDigits_of_base_le (by norm_num) (by omega), hcs, List.cons_append]

theorem wf_num_nat (n : ℕ) : WF (num (toString n)) := by
  have hdigits : ∀ c ∈ Nat.toDigits 10 n, c.isDigit = true := fun c hc =>
    Nat.isDigit_of_mem_toDigits (by norm_num) (by norm_num) hc
  have hchars : (toString n).toList = Nat.toDigits 10 n := by
    rw [Nat.toString_eq_repr, Nat.toList_repr]
  rw [WF, hchars]
  refine ⟨?_, fun c hc => by simp [isNumChar, hdigits c hc]⟩
  obtain ⟨c, cs, hcs, hne⟩ := toDigits_eq_cons n
  rw [hcs] at hdigits ⊢
  have hc : c.isDigit = true := hdigits c List.mem_cons_self
  have hall : cs.dropWhile Char.isDigit = [] :=
    List.dropWhile_eq_nil_iff.2 fun c hc => hdigits c (List.mem_cons_of_mem _ hc)
  have hminus : c ≠ '-' := by
    rintro rfl
    exact absurd hc (by decide)
  have hsign : validNumber (c :: cs) = validUnsigned (c :: cs) := by
    unfold validNumber
    split
    · simp_all
    · rfl
  rw [hsign]
  by_cases hzero : n = 0
  · subst hzero
    rw [Nat.toDigits_zero] at hcs
    obtain ⟨rfl, rfl⟩ := List.cons.inj hcs
    rfl
  · unfold validUnsigned
    split
    · simp_all
    · simp_all
    · rename_i c' cs' _ heq
      obtain ⟨rfl, rfl⟩ := List.cons.inj heq
      rw [hc, hall]
      rfl

end Bifurcation.Json
