import Mathlib

/-!
# Separated items

Items written into one text with separators between them, and read back: the text is split at the
runs of separators, the items are trimmed, and empty ones are dropped. What is read is always
clean, and a list comes back exactly if all its items are clean (`items_join_iff`).
-/

namespace Bifurcation.Separated

variable {α : Type*} (sep white : α → Bool)

/-- Split at the runs of separators, which `inRun` says one was just in. -/
def splitFrom : Bool → List α → List α → List (List α)
  | _, piece, [] => [piece]
  | inRun, piece, a :: as =>
    if sep a then
      if inRun then splitFrom true piece as else piece :: splitFrom true [] as
    else splitFrom false (piece ++ [a]) as

def split (text : List α) : List (List α) := splitFrom sep false [] text

def trim (text : List α) : List α := (text.dropWhile white).rdropWhile white

/-- Trim the pieces and drop the empty ones. -/
def tidy (pieces : List (List α)) : List (List α) := (pieces.map (trim white)).filter (· ≠ [])

def items (text : List α) : List (List α) := tidy white (split sep text)

/-- An item that is read back as it is. -/
structure Clean (item : List α) : Prop where
  nonempty : item ≠ []
  trimmed : trim white item = item
  unseparated : ∀ a ∈ item, sep a = false

section Trim

variable {white}

theorem trim_sublist (text : List α) : List.Sublist (trim white text) text :=
  (List.rdropWhile_prefix _ _).sublist.trans (List.dropWhile_suffix _).sublist

theorem dropWhile_of_prefix {front text : List α} (h : front <+: text.dropWhile white) :
    front.dropWhile white = front := by
  cases front with
  | nil => rfl
  | cons a as =>
    obtain ⟨rest, hrest⟩ := h
    have hfirst := List.dropWhile_get_zero_not white text (by rw [← hrest]; simp)
    simp only [← hrest, List.cons_append, List.get_eq_getElem, List.getElem_cons_zero] at hfirst
    exact List.dropWhile_cons_of_neg hfirst

theorem trim_trim (text : List α) : trim white (trim white text) = trim white text := by
  have hfront : (trim white text).dropWhile white = trim white text :=
    dropWhile_of_prefix (List.rdropWhile_prefix white _)
  rw [trim, hfront]
  exact List.rdropWhile_idempotent _ _

theorem trim_cons {a : α} (h : white a = true) (text : List α) :
    trim white (a :: text) = trim white text := by
  rw [trim, List.dropWhile_cons_of_pos h, ← trim]

end Trim

/-! ## One step of the split -/

section Step

variable {sep} {a : α}

theorem splitFrom_sep (h : sep a = true) (piece as : List α) :
    splitFrom sep false piece (a :: as) = piece :: splitFrom sep true [] as := by
  simp [splitFrom, h]

theorem splitFrom_run (h : sep a = true) (piece as : List α) :
    splitFrom sep true piece (a :: as) = splitFrom sep true piece as := by
  simp [splitFrom, h]

theorem splitFrom_other (h : sep a = false) (inRun : Bool) (piece as : List α) :
    splitFrom sep inRun piece (a :: as) = splitFrom sep false (piece ++ [a]) as := by
  simp [splitFrom, h]

end Step

/-! ## Reading a joined text -/

theorem tidy_cons (piece : List α) (pieces : List (List α)) :
    tidy white (piece :: pieces) = tidy white [piece] ++ tidy white pieces := by
  rw [tidy, List.map_cons, ← List.singleton_append, List.filter_append]
  rfl

theorem tidy_nil_cons (pieces : List (List α)) :
    tidy white ([] :: pieces) = tidy white pieces := by
  rw [tidy_cons]
  rfl

/-- After a separator it does not matter whether more of them follow. -/
theorem tidy_splitFrom_true (text : List α) :
    tidy white (splitFrom sep true [] text) = tidy white (splitFrom sep false [] text) := by
  cases text with
  | nil => rfl
  | cons a as =>
    cases hsep : sep a with
    | true => rw [splitFrom_run hsep, splitFrom_sep hsep, tidy_nil_cons]
    | false => rw [splitFrom_other hsep, splitFrom_other hsep]

/-- A separator ends the items before it. -/
theorem tidy_splitFrom_append {c : α} (hc : sep c = true) (piece front back : List α) :
    tidy white (splitFrom sep false piece (front ++ c :: back)) =
      tidy white (splitFrom sep false piece front) ++ items sep white back := by
  induction front generalizing piece with
  | nil =>
    rw [List.nil_append, splitFrom_sep hc, tidy_cons, tidy_splitFrom_true]
    rfl
  | cons a as ih =>
    rw [List.cons_append]
    cases hsep : sep a with
    | true =>
      rw [splitFrom_sep hsep, splitFrom_sep hsep, tidy_cons, tidy_splitFrom_true, ih,
        tidy_cons _ piece (splitFrom sep true [] as), tidy_splitFrom_true, List.append_assoc]
    | false =>
      rw [splitFrom_other hsep, splitFrom_other hsep]
      exact ih _

/-- White space in front of a piece is trimmed. -/
theorem tidy_splitFrom_cons {w : α} (hw : white w = true) (piece text : List α) :
    tidy white (splitFrom sep false (w :: piece) text) =
      tidy white (splitFrom sep false piece text) := by
  induction text generalizing piece with
  | nil => simp only [splitFrom, tidy, List.map_cons, trim_cons hw]
  | cons a as ih =>
    cases hsep : sep a with
    | true =>
      rw [splitFrom_sep hsep, splitFrom_sep hsep]
      simp only [tidy, List.map_cons, trim_cons hw]
    | false =>
      rw [splitFrom_other hsep, splitFrom_other hsep]
      exact ih _

variable {sep white}

section Joined

variable {c w : α}

/-- A text is read item by item. -/
theorem items_join (hc : sep c = true) (hw : white w = true) (hw' : sep w = false)
    (texts : List (List α)) :
    items sep white ([c, w].intercalate texts) = texts.flatMap (items sep white) := by
  induction texts with
  | nil => rfl
  | cons text texts ih =>
    cases texts with
    | nil => simp
    | cons next texts =>
      rw [List.intercalate_cons_cons, List.flatMap_cons, ← ih, items, split, List.append_assoc]
      simp only [List.cons_append, List.nil_append]
      rw [tidy_splitFrom_append sep white hc, items, split, splitFrom_other hw', List.nil_append,
        tidy_splitFrom_cons sep white hw]
      rfl

end Joined

/-- Every piece is free of separators. -/
theorem unseparated_of_mem_splitFrom {inRun : Bool} {piece text item : List α}
    (hpiece : ∀ a ∈ piece, sep a = false) (h : item ∈ splitFrom sep inRun piece text) :
    ∀ a ∈ item, sep a = false := by
  induction text generalizing inRun piece with
  | nil =>
    rw [splitFrom, List.mem_singleton] at h
    rwa [h]
  | cons a as ih =>
    cases hsep : sep a with
    | true =>
      cases inRun with
      | true =>
        rw [splitFrom_run hsep] at h
        exact ih hpiece h
      | false =>
        rw [splitFrom_sep hsep] at h
        rcases List.mem_cons.1 h with rfl | h
        · exact hpiece
        · exact ih (fun _ ha => absurd ha List.not_mem_nil) h
    | false =>
      rw [splitFrom_other hsep] at h
      refine ih (fun b hb => ?_) h
      rcases List.mem_append.1 hb with hb | hb
      · exact hpiece b hb
      · rwa [List.mem_singleton.1 hb]

/-- **What is read is clean.** -/
theorem clean_of_mem_items {text item : List α} (h : item ∈ items sep white text) :
    Clean sep white item := by
  obtain ⟨hmem, hne⟩ := List.mem_filter.1 h
  obtain ⟨piece, hpiece, rfl⟩ := List.mem_map.1 hmem
  have hfree := unseparated_of_mem_splitFrom (fun _ ha => absurd ha List.not_mem_nil) hpiece
  exact ⟨by simpa using hne, trim_trim piece,
    fun a ha => hfree a ((trim_sublist piece).subset ha)⟩

theorem splitFrom_unseparated {piece text : List α} (h : ∀ a ∈ text, sep a = false) :
    splitFrom sep false piece text = [piece ++ text] := by
  induction text generalizing piece with
  | nil => rw [splitFrom, List.append_nil]
  | cons a as ih =>
    rw [splitFrom_other (h a List.mem_cons_self),
      ih fun b hb => h b (List.mem_cons_of_mem a hb), List.append_assoc, List.singleton_append]

theorem items_of_clean {item : List α} (h : Clean sep white item) :
    items sep white item = [item] := by
  rw [items, split, splitFrom_unseparated h.unseparated, List.nil_append, tidy, List.map_singleton,
    h.trimmed, List.filter_cons_of_pos (by simpa using h.nonempty), List.filter_nil]

/-- **A list is read back exactly if its items are clean.** -/
theorem items_join_iff {c w : α} (hc : sep c = true) (hw : white w = true) (hw' : sep w = false)
    (texts : List (List α)) :
    items sep white ([c, w].intercalate texts) = texts ↔ ∀ text ∈ texts, Clean sep white text := by
  constructor
  · intro h text htext
    rw [← h] at htext
    exact clean_of_mem_items htext
  · intro h
    rw [items_join hc hw hw']
    calc texts.flatMap (items sep white)
        = texts.flatMap fun text => [text] :=
          List.flatMap_congr fun text htext => items_of_clean (h text htext)
      _ = texts := List.flatMap_singleton' texts

end Bifurcation.Separated
