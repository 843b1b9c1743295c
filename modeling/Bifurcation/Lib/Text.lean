import Mathlib

/-!
# Text keys

Row keys are texts put together from parts. These lemmas read the parts back: a decimal number
ends at the first character that is not a digit, and a text of known length is a prefix.
-/

namespace Bifurcation

theorem isDigit_of_mem_toString {n : ℕ} {c : Char} (h : c ∈ (toString n).toList) :
    c.isDigit := by
  rw [Nat.toString_eq_repr, Nat.toList_repr] at h
  exact Nat.isDigit_of_mem_toDigits (by norm_num) (by norm_num) h

/-- A list is read up to the first character that is not a digit in one way only. -/
theorem digits_append_inj {ds es xs ys : List Char} {c : Char} (hc : c.isDigit = false)
    (hds : ∀ d ∈ ds, d.isDigit) (hes : ∀ d ∈ es, d.isDigit)
    (h : ds ++ c :: xs = es ++ c :: ys) : ds = es ∧ xs = ys := by
  induction ds generalizing es with
  | nil =>
    cases es with
    | nil => simpa using h
    | cons e es =>
      obtain ⟨rfl, -⟩ : c = e ∧ _ := by simpa using h
      simp [hc] at hes
  | cons d ds ih =>
    cases es with
    | nil =>
      obtain ⟨rfl, -⟩ : d = c ∧ _ := by simpa using h
      simp [hc] at hds
    | cons e es =>
      obtain ⟨hd, hrest⟩ : d = e ∧ ds ++ c :: xs = es ++ c :: ys := by simpa using h
      obtain ⟨hds', hxs⟩ := ih (fun x hx => hds x (List.mem_cons_of_mem d hx))
        (fun x hx => hes x (List.mem_cons_of_mem e hx)) hrest
      exact ⟨by rw [hd, hds'], hxs⟩

/-- Two strings of one length that start the same text are equal. -/
theorem append_inj_of_utf8ByteSize {s t u v : String} (hsize : s.utf8ByteSize = t.utf8ByteSize)
    (h : s ++ u = t ++ v) : s = t ∧ u = v := by
  have hbytes : s.toByteArray ++ u.toByteArray = t.toByteArray ++ v.toByteArray := by
    simpa using congrArg String.toByteArray h
  have hdata := congrArg (fun b : ByteArray => b.data.toList) hbytes
  simp only [ByteArray.data_append, Array.toList_append] at hdata
  obtain ⟨hs, hu⟩ := List.append_inj hdata (by simpa using hsize)
  constructor
  · exact String.toByteArray_inj.1 (ByteArray.ext (Array.toList_inj.1 hs))
  · exact String.toByteArray_inj.1 (ByteArray.ext (Array.toList_inj.1 hu))

end Bifurcation
