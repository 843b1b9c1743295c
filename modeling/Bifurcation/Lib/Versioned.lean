import Mathlib

/-!
# Versions that name contents

A state carries a content and a version of it. `Versioned` relates a state to a later one: the
version has not gone back, and where it is the same the content is too. The relation is a
preorder, so it is enough to check it for one step, and along a run equal versions name equal
contents however far apart they are.

A state without a version is below all others: versions in `WithBot`.
-/

namespace Bifurcation

variable {σ ι α : Type*} [PartialOrder ι]

/-- The version has not gone back, and an equal version means an equal content. -/
structure Versioned (version : σ → ι) (content : σ → α) (s s' : σ) : Prop where
  le : version s ≤ version s'
  same : version s = version s' → content s = content s'

namespace Versioned

variable {version : σ → ι} {content : σ → α} {s s' s'' : σ}

protected theorem refl (s : σ) : Versioned version content s s := ⟨le_rfl, fun _ => rfl⟩

protected theorem trans (h : Versioned version content s s')
    (h' : Versioned version content s' s'') : Versioned version content s s'' where
  le := h.le.trans h'.le
  same := fun heq => by
    -- The version in the middle lies between two equal ones.
    have hmid : version s = version s' := le_antisymm h.le (heq ▸ h'.le)
    exact (h.same hmid).trans (h'.same (hmid.symm.trans heq))

theorem of_eq (hversion : version s' = version s) (hcontent : content s' = content s) :
    Versioned version content s s' := ⟨hversion.ge, fun _ => hcontent.symm⟩

theorem of_lt (h : version s < version s') : Versioned version content s s' :=
  ⟨h.le, fun heq => absurd heq h.ne⟩

end Versioned

end Bifurcation
