import Bifurcation.Lib.Json

/-!
# JavaScript values

The values `JSON.parse` gives, with the operations of the language the panel uses on them:
property reads and writes, conversion to a string, `JSON.parse` and `JSON.stringify`. Strings are
lists of UTF-16 code units, so a surrogate may stand alone. An object lists its own properties in
the order of `Object.keys`.

Numbers are left open: a `Runtime` says what a literal means and how a number is written. Nothing
below depends on what it says.
-/

namespace Bifurcation

/-- A JavaScript string: its UTF-16 code units. -/
abbrev JsString := List UInt16

/-- The code units of a character. -/
def unitsOf (c : Char) : JsString :=
  if c.toNat < 0x10000 then [c.toNat.toUInt16]
  else [(0xD800 + (c.toNat - 0x10000) / 0x400).toUInt16,
    (0xDC00 + (c.toNat - 0x10000) % 0x400).toUInt16]

def utf16 (text : String) : JsString := text.toList.flatMap unitsOf

/-- A number as a string key or a part of a path. -/
def decimal (n : ℕ) : JsString := utf16 (toString n)

/-- The code units of a text are at most its bytes. -/
theorem length_utf16_le (s : String) : (utf16 s).length ≤ s.utf8ByteSize := by
  have hchar : ∀ c : Char, (unitsOf c).length ≤ c.utf8Size := by
    intro c
    have hpos := c.utf8Size_pos
    by_cases hsmall : c.toNat < 0x10000
    · rw [unitsOf, if_pos hsmall]
      exact hpos
    · have hfour : c.utf8Size = 4 := by
        have hval : ¬ c.val ≤ 0xFFFF := by
          rw [UInt32.le_iff_toNat_le]
          exact fun hle => hsmall (Nat.lt_succ_of_le hle)
        have htwo : (0x7FF : UInt32) ≤ 0xFFFF := by decide
        have hone : (0x7F : UInt32) ≤ 0xFFFF := by decide
        have hval' : ¬ c.val ≤ 0x7FF := fun hle => hval (UInt32.le_trans hle htwo)
        have hval'' : ¬ c.val ≤ 0x7F := fun hle => hval (UInt32.le_trans hle hone)
        show (if c.val ≤ 0x7F then 1 else if c.val ≤ 0x7FF then 2
          else if c.val ≤ 0xFFFF then 3 else 4) = 4
        rw [if_neg hval'', if_neg hval', if_neg hval]
      rw [unitsOf, if_neg hsmall, hfour]
      simp
  have hlist : ∀ l : List Char, (l.flatMap unitsOf).length ≤ (String.ofList l).utf8ByteSize := by
    intro l
    induction l with
    | nil => exact Nat.zero_le _
    | cons c l ih =>
      have hcons : String.ofList (c :: l) = String.singleton c ++ String.ofList l := by
        rw [← List.singleton_append, String.ofList_append]
        rfl
      rw [hcons, String.utf8ByteSize_append, String.utf8ByteSize_singleton, List.flatMap_cons,
        List.length_append]
      exact Nat.add_le_add (hchar c) ih
  have hs := hlist s.toList
  rwa [String.ofList_toList] at hs

inductive JsValue (N : Type) where
  | null
  | bool (b : Bool)
  | num (n : N)
  | str (s : JsString)
  | arr (items : List (JsValue N))
  | obj (members : List (JsString × JsValue N))

/-- The own properties of an object. -/
abbrev Members (N : Type) := List (JsString × JsValue N)

/-- What the engine says about numbers, the order of strings and its call stack. -/
structure Runtime (N : Type) where
  /-- The number a literal stands for. -/
  ofLiteral : JsString → N
  /-- A small integer. -/
  ofNat : ℕ → N
  /-- `String(n)`. -/
  numberText : N → JsString
  /-- `JSON.stringify(n)`. -/
  numberJson : N → JsString
  /-- `a.localeCompare(b) <= 0`. -/
  localeLE : JsString → JsString → Bool
  /-- How many calls of the recursive function of this name there is room for. -/
  callDepth : JsString → ℕ
  /-- There is room for a short recursion. -/
  leastDepth : ∀ name, 64 ≤ callDepth name

namespace Javascript

variable {N : Type}

/-! ## Properties -/

/-- The array index a property key stands for. -/
def arrayIndex (key : JsString) : Option ℕ :=
  let digits := key.map fun u => u.toNat - 48
  let value := digits.foldl (fun n d => 10 * n + d) 0
  if key ≠ [] ∧ key.all (fun u => 48 ≤ u && u ≤ 57) ∧ (key.head? ≠ some 48 ∨ key.length = 1) ∧
      value < 2 ^ 32 - 1 then some value
  else none

/-- Array indices come first, in ascending order, and other keys in the order of creation. -/
def keyBefore (key other : JsString) : Bool :=
  match arrayIndex key, arrayIndex other with
  | some i, some j => i < j
  | some _, none => true
  | none, _ => false

/-- `object[key]`. -/
def get (members : Members N) (key : JsString) : Option (JsValue N) := members.lookup key

/-- `object[key] = value`. -/
def set (key : JsString) (value : JsValue N) : Members N → Members N
  | [] => [(key, value)]
  | m :: ms =>
    if m.1 = key then (key, value) :: ms
    else if keyBefore key m.1 then (key, value) :: m :: ms
    else m :: set key value ms

theorem get_cons (m : JsString × JsValue N) (ms : Members N) (key : JsString) :
    get (m :: ms) key = if m.1 = key then some m.2 else get ms key := by
  obtain ⟨k, v⟩ := m
  simp only [get, List.lookup_cons]
  by_cases h : k = key
  · simp [h]
  · have hbeq : (key == k) = false := by simpa using fun h' => h h'.symm
    simp [h, hbeq]

theorem get_set (key key' : JsString) (value : JsValue N) (members : Members N) :
    get (set key value members) key' =
      if key = key' then some value else get members key' := by
  induction members with
  | nil => simp [set, get_cons]
  | cons m ms ih =>
    unfold set
    by_cases hkey : m.1 = key
    · rw [if_pos hkey, get_cons, get_cons]
      by_cases hk : key = key'
      · simp [hk]
      · simp [hk, hkey]
    · rw [if_neg hkey]
      by_cases hbefore : keyBefore key m.1
      · rw [if_pos hbefore, get_cons]
      · rw [if_neg hbefore, get_cons, get_cons, ih]
        by_cases hk : m.1 = key'
        · have hne : key ≠ key' := fun h => hkey (hk.trans h.symm)
          simp [hk, hne]
        · simp [hk]

theorem mem_set {key : JsString} {value : JsValue N} {members : Members N}
    {m : JsString × JsValue N} (h : m ∈ set key value members) : m = (key, value) ∨ m ∈ members := by
  induction members with
  | nil => exact .inl (List.mem_singleton.1 h)
  | cons m' ms ih =>
    unfold set at h
    split_ifs at h
    · rcases List.mem_cons.1 h with rfl | h
      · exact .inl rfl
      · exact .inr (List.mem_cons_of_mem _ h)
    · rcases List.mem_cons.1 h with rfl | h
      · exact .inl rfl
      · exact .inr h
    · rcases List.mem_cons.1 h with rfl | h
      · exact .inr List.mem_cons_self
      · exact (ih h).imp_right (List.mem_cons_of_mem _)

theorem mem_of_get {members : Members N} {key : JsString} {value : JsValue N}
    (h : get members key = some value) : (key, value) ∈ members := by
  induction members with
  | nil => cases h
  | cons m ms ih =>
    rw [get_cons] at h
    split_ifs at h with hkey
    · rw [← hkey, ← Option.some.inj h]
      exact List.mem_cons_self
    · exact List.mem_cons_of_mem _ (ih h)

theorem get_of_mem {members : Members N} (hnodup : (members.map Prod.fst).Nodup) {key : JsString}
    {value : JsValue N} (h : (key, value) ∈ members) : get members key = some value := by
  induction members with
  | nil => cases h
  | cons m ms ih =>
    rw [List.map_cons, List.nodup_cons] at hnodup
    rw [get_cons]
    rcases List.mem_cons.1 h with rfl | h
    · exact if_pos rfl
    · have hne : m.1 ≠ key := by
        rintro rfl
        exact hnodup.1 (List.mem_map.2 ⟨_, h, rfl⟩)
      rw [if_neg hne, ih hnodup.2 h]

theorem get_eq_none {members : Members N} {key : JsString} :
    get members key = none ↔ ∀ m ∈ members, m.1 ≠ key := by
  induction members with
  | nil => simp [get]
  | cons m ms ih =>
    rw [get_cons]
    by_cases hkey : m.1 = key
    · simp [hkey]
    · simp [hkey, ih]

/-! ## `String(value)` -/

/-- `Array.prototype.join(",")` of texts. -/
def join : List JsString → JsString
  | [] => []
  | [s] => s
  | s :: ss => s ++ utf16 "," ++ join ss

mutual

/-- `String(value)`, or nothing where it throws: an object with a property `toString` of its own
has no primitive value. -/
def text (js : Runtime N) : JsValue N → Option JsString
  | .null => some (utf16 "null")
  | .bool true => some (utf16 "true")
  | .bool false => some (utf16 "false")
  | .num n => some (js.numberText n)
  | .str s => some s
  | .arr items => (textItems js items).map join
  | .obj members =>
    if (get members (utf16 "toString")).isSome then none else some (utf16 "[object Object]")
termination_by structural v => v

def textItems (js : Runtime N) : List (JsValue N) → Option (List JsString)
  | [] => some []
  | .null :: items => (textItems js items).map ([] :: ·)
  | item :: items => do
    let s ← text js item
    let ss ← textItems js items
    some (s :: ss)
termination_by structural items => items

end

/-! ## `JSON.parse` -/

def unitOf (c : Char) : UInt16 := c.toNat.toUInt16

/-- The characters of an ASCII text. -/
def ascii (s : JsString) : List Char := s.map fun u => Char.ofNat u.toNat

def isSpace (u : UInt16) : Bool := u = 0x20 || u = 0x09 || u = 0x0a || u = 0x0d

def skipSpace (s : JsString) : JsString := s.dropWhile isSpace

/-- The number of a `\u` escape. -/
def hexUnit (s : JsString) : Option UInt16 :=
  match ascii s with
  | [h₁, h₂, h₃, h₄] => (Json.hexUnit h₁ h₂ h₃ h₄).map Nat.toUInt16
  | _ => none

/-- The unit a short escape stands for. -/
def unescape (u : UInt16) : Option UInt16 :=
  (Json.unescape (Char.ofNat u.toNat)).map unitOf

/-- The units of a string literal after its opening quote, and the text after its closing one. -/
def parseUnits : JsString → Option (JsString × JsString)
  | [] => none
  | 0x22 :: s => some ([], s)
  | 0x5c :: 0x75 :: h₁ :: h₂ :: h₃ :: h₄ :: s => do
    let u ← hexUnit [h₁, h₂, h₃, h₄]
    let (us, s) ← parseUnits s
    some (u :: us, s)
  | 0x5c :: e :: s => do
    let u ← unescape e
    let (us, s) ← parseUnits s
    some (u :: us, s)
  | u :: s => do
    if u < 0x20 ∨ u = 0x5c then none
    else
      let (us, s) ← parseUnits s
      some (u :: us, s)

def isNumUnit (u : UInt16) : Bool := Json.isNumChar (Char.ofNat u.toNat)

/-- The text after a fixed word. -/
def expect (word : String) (s : JsString) : Option JsString :=
  if (utf16 word).isPrefixOf s then some (s.drop (utf16 word).length) else none

mutual

/-- Read one value. The fuel bounds the nesting and the lengths. -/
def parseValue (js : Runtime N) : ℕ → JsString → Option (JsValue N × JsString)
  | 0, _ => none
  | n + 1, s =>
    match skipSpace s with
    | [] => none
    | u :: s =>
      if u = 0x7b then
        match skipSpace s with
        | 0x7d :: s => some (.obj [], s)
        | s => (parseMembers js n [] s).map fun p => (.obj p.1, p.2)
      else if u = 0x5b then
        match skipSpace s with
        | 0x5d :: s => some (.arr [], s)
        | s => (parseItems js n s).map fun p => (.arr p.1, p.2)
      else if u = 0x22 then (parseUnits s).map fun p => (.str p.1, p.2)
      else if u = 0x74 then (expect "rue" s).map fun s => (.bool true, s)
      else if u = 0x66 then (expect "alse" s).map fun s => (.bool false, s)
      else if u = 0x6e then (expect "ull" s).map fun s => (.null, s)
      else if Json.validNumber (ascii ((u :: s).takeWhile isNumUnit)) then
        some (.num (js.ofLiteral ((u :: s).takeWhile isNumUnit)), (u :: s).dropWhile isNumUnit)
      else none

def parseItems (js : Runtime N) : ℕ → JsString → Option (List (JsValue N) × JsString)
  | 0, _ => none
  | n + 1, s => do
    let (v, s) ← parseValue js n s
    match skipSpace s with
    | 0x2c :: s => do
      let (vs, s) ← parseItems js n s
      some (v :: vs, s)
    | 0x5d :: s => some ([v], s)
    | _ => none

/-- A repeated member replaces the earlier one in its place. -/
def parseMembers (js : Runtime N) : ℕ → Members N → JsString → Option (Members N × JsString)
  | 0, _, _ => none
  | n + 1, ms, s =>
    match skipSpace s with
    | 0x22 :: s => do
      let (k, s) ← parseUnits s
      match skipSpace s with
      | 0x3a :: s => do
        let (v, s) ← parseValue js n s
        match skipSpace s with
        | 0x2c :: s => parseMembers js n (set k v ms) s
        | 0x7d :: s => some (set k v ms, s)
        | _ => none
      | _ => none
    | _ => none

end

/-- `JSON.parse(text)`, or nothing where it throws. -/
def parse (js : Runtime N) (s : JsString) : Option (JsValue N) :=
  match parseValue js (2 * s.length + 2) s with
  | some (v, rest) => if skipSpace rest = [] then some v else none
  | none => none

/-! ## `JSON.stringify(value, null, 2)` -/

def isHigh (u : UInt16) : Bool := 0xD800 ≤ u && u < 0xDC00

def isLow (u : UInt16) : Bool := 0xDC00 ≤ u && u < 0xE000

/-- One unit of a string literal; a surrogate that stands alone is escaped. -/
def quoteUnit (u : UInt16) : JsString :=
  match Json.shortEscapes.find? fun e => unitOf e.1 = u with
  | some (_, e) => [0x5c, unitOf e]
  | none =>
    if u < 0x20 ∨ isHigh u ∨ isLow u then 0x5c :: 0x75 :: (Json.hex4 u.toNat).map unitOf else [u]

def quoteUnits : JsString → JsString
  | [] => []
  | [u] => quoteUnit u
  | h :: l :: s =>
    if isHigh h ∧ isLow l then h :: l :: quoteUnits s else quoteUnit h ++ quoteUnits (l :: s)

def quote (s : JsString) : JsString := 0x22 :: (quoteUnits s ++ [0x22])

/-- A line break and `depth` steps of indentation. -/
def newline (depth : ℕ) : JsString := 0x0a :: List.replicate (2 * depth) 0x20

mutual

def stringifyAt (js : Runtime N) : ℕ → JsValue N → JsString
  | _, .null => utf16 "null"
  | _, .bool true => utf16 "true"
  | _, .bool false => utf16 "false"
  | _, .num n => js.numberJson n
  | _, .str s => quote s
  | _, .arr [] => [0x5b, 0x5d]
  | depth, .arr (v :: vs) =>
    0x5b :: newline (depth + 1) ++ stringifyAt js (depth + 1) v ++
      stringifyItems js (depth + 1) vs ++ newline depth ++ [0x5d]
  | _, .obj [] => [0x7b, 0x7d]
  | depth, .obj (m :: ms) =>
    0x7b :: newline (depth + 1) ++ stringifyMember js (depth + 1) m ++
      stringifyMembers js (depth + 1) ms ++ newline depth ++ [0x7d]
termination_by structural _ v => v

def stringifyItems (js : Runtime N) : ℕ → List (JsValue N) → JsString
  | _, [] => []
  | depth, v :: vs =>
    0x2c :: newline depth ++ stringifyAt js depth v ++ stringifyItems js depth vs
termination_by structural _ vs => vs

def stringifyMember (js : Runtime N) : ℕ → JsString × JsValue N → JsString
  | depth, (k, v) => quote k ++ [0x3a, 0x20] ++ stringifyAt js depth v
termination_by structural _ m => m

def stringifyMembers (js : Runtime N) : ℕ → List (JsString × JsValue N) → JsString
  | _, [] => []
  | depth, m :: ms =>
    0x2c :: newline depth ++ stringifyMember js depth m ++ stringifyMembers js depth ms
termination_by structural _ ms => ms

end

/-- `JSON.stringify(value, null, 2)`. -/
def stringify (js : Runtime N) (v : JsValue N) : JsString := stringifyAt js 0 v

/-! ## Bytes -/

/-- The characters of a string; a surrogate that stands alone reads as U+FFFD. -/
def scalars : JsString → List Char
  | [] => []
  | [u] => [if isHigh u ∨ isLow u then '\uFFFD' else Char.ofNat u.toNat]
  | h :: l :: s =>
    if isHigh h ∧ isLow l then
      Char.ofNat (0x10000 + (h.toNat - 0xD800) * 0x400 + (l.toNat - 0xDC00)) :: scalars s
    else (if isHigh h ∨ isLow h then '\uFFFD' else Char.ofNat h.toNat) :: scalars (l :: s)

/-- `Buffer.from(text)`. -/
def bufferFrom (s : JsString) : Bytes := encodeRunes (scalars s)

end Javascript

end Bifurcation
