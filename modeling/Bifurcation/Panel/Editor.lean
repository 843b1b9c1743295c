import Bifurcation.Lib.Separated
import Bifurcation.Panel.Template

/-!
# The editor's bindings

`split`, `bindingDraft`, `bindingInput` and `saveDraft` of `features/subscription/editor.tsx`. The
editor shows the six lists of a group binding as texts, with a comma between the items, and reads
the texts back when it saves. Both commas separate, an item is trimmed, and an empty one is no item.

**What does not survive.** The server stores any text of up to 160 units as an item. One with a
comma comes back as several items, and white space around an item is lost, although nothing was
edited.

Main results: `bindingInput_bindingDraft` (which bindings come back) and `saveDraft_iff` (which
drafts are saved unchanged).
-/

namespace Bifurcation.Panel

open Separated

/-! ## Texts -/

/-- The class `[,，]`. -/
def isComma (u : UInt16) : Bool := u = 0x2c || u = 0xff0c

/-- The function `split`. -/
def splitItems (value : JsString) : List JsString := items isComma isBlank value

/-- `join(", ")`. -/
def joinItems (texts : List JsString) : JsString := List.intercalate [0x2c, 0x20] texts

/-! ## Bindings -/

/-- The message of a group binding. -/
structure SubscriptionGroupBinding where
  groupTag : JsString
  regions : List JsString
  tags : List JsString
  protocols : List JsString
  machineIds : List JsString
  excludeMachineIds : List JsString
  staticMembers : List JsString
deriving DecidableEq

/-- The message of a stored binding. -/
def Binding.message (b : Binding) : SubscriptionGroupBinding where
  groupTag := b.groupTag
  regions := b.regions
  tags := b.tags
  protocols := b.protocols.map Protocol.text
  machineIds := b.machineIds
  excludeMachineIds := b.excludeMachineIds
  staticMembers := b.staticMembers

/-- The editor's copy of a binding. -/
structure BindingDraft where
  key : ℕ
  groupTag : JsString
  regions : JsString
  tags : JsString
  protocols : JsString
  staticMembers : JsString
  machineIds : JsString
  excludeMachineIds : JsString
deriving DecidableEq

def bindingDraft (binding : SubscriptionGroupBinding) (key : ℕ) : BindingDraft where
  key
  groupTag := binding.groupTag
  regions := joinItems binding.regions
  tags := joinItems binding.tags
  protocols := joinItems binding.protocols
  staticMembers := joinItems binding.staticMembers
  machineIds := joinItems binding.machineIds
  excludeMachineIds := joinItems binding.excludeMachineIds

def bindingInput (binding : BindingDraft) : SubscriptionGroupBinding where
  groupTag := binding.groupTag
  regions := splitItems binding.regions
  tags := splitItems binding.tags
  protocols := splitItems binding.protocols
  staticMembers := splitItems binding.staticMembers
  machineIds := splitItems binding.machineIds
  excludeMachineIds := splitItems binding.excludeMachineIds

/-- The bindings that an editor opens with. -/
def openBindings (bindings : List SubscriptionGroupBinding) : List BindingDraft :=
  bindings.mapIdx fun key binding => bindingDraft binding key

/-- The bindings that `saveDraft` sends. -/
def saveDraft (bindings : List BindingDraft) : List SubscriptionGroupBinding :=
  bindings.map bindingInput

/-! ## What comes back -/

/-- An item is read back as it is: it has no comma, and no white space around it. -/
abbrev Lossless (item : JsString) : Prop := Clean isComma isBlank item

/-- The items of a stored binding that may be any text. -/
def Binding.texts (b : Binding) : List JsString :=
  b.regions ++ b.tags ++ b.machineIds ++ b.excludeMachineIds ++ b.staticMembers

theorem splitItems_joinItems_iff (texts : List JsString) :
    splitItems (joinItems texts) = texts ↔ ∀ text ∈ texts, Lossless text :=
  items_join_iff (by decide) (by decide) (by decide) texts

theorem lossless_protocol (p : Protocol) : Lossless p.text := by
  have htrimmed : p.text ≠ [] ∧ Separated.trim isBlank p.text = p.text := by
    cases p <;> decide +kernel
  have hcommas : p.text.all (fun u => !isComma u) = true := by
    cases p <;> decide +kernel
  exact ⟨htrimmed.1, htrimmed.2, fun u hu => by simpa using List.all_eq_true.1 hcommas u hu⟩

theorem splitItems_protocols (ps : List Protocol) :
    splitItems (joinItems (ps.map Protocol.text)) = ps.map Protocol.text := by
  rw [splitItems_joinItems_iff]
  intro text htext
  obtain ⟨p, -, rfl⟩ := List.mem_map.1 htext
  exact lossless_protocol p

/-- A binding comes back if its five lists of free texts do. -/
theorem bindingInput_bindingDraft (b : Binding) (key : ℕ) :
    bindingInput (bindingDraft b.message key) = b.message ↔
      ∀ text ∈ b.texts, Lossless text := by
  simp only [bindingInput, bindingDraft, Binding.message, splitItems_protocols,
    SubscriptionGroupBinding.mk.injEq, splitItems_joinItems_iff, true_and, Binding.texts,
    List.mem_append]
  constructor
  · rintro ⟨hregions, htags, hmachines, hexcluded, hmembers⟩ text
      ((((hmem | hmem) | hmem) | hmem) | hmem)
    · exact hregions text hmem
    · exact htags text hmem
    · exact hmachines text hmem
    · exact hexcluded text hmem
    · exact hmembers text hmem
  · intro h
    exact ⟨fun text hmem => h text (by tauto), fun text hmem => h text (by tauto),
      fun text hmem => h text (by tauto), fun text hmem => h text (by tauto),
      fun text hmem => h text (by tauto)⟩

/-- Opening and saving goes binding by binding, whatever keys the bindings get. -/
theorem saveDraft_openBindings (bindings : List SubscriptionGroupBinding) :
    saveDraft (openBindings bindings) =
      bindings.map fun binding => bindingInput (bindingDraft binding 0) := by
  refine List.ext_getElem? fun i => ?_
  simp only [saveDraft, openBindings, List.getElem?_map, List.getElem?_mapIdx, Option.map_map]
  rfl

/-- **A draft that was not edited is saved unchanged exactly if all its items come back.** -/
theorem saveDraft_iff (bindings : List Binding) :
    saveDraft (openBindings (bindings.map Binding.message)) = bindings.map Binding.message ↔
      ∀ b ∈ bindings, ∀ text ∈ b.texts, Lossless text := by
  rw [saveDraft_openBindings, List.map_map, List.map_inj_left]
  simp only [Function.comp_apply, bindingInput_bindingDraft]

/-- **The codec loses nothing exactly where no item has a comma or white space around it**: for one
binding, and for the bindings of a draft that is opened and saved. -/
theorem editor_lossless_iff (b : Binding) (key : ℕ) (bindings : List Binding) :
    (bindingInput (bindingDraft b.message key) = b.message ↔ ∀ text ∈ b.texts, Lossless text) ∧
    (saveDraft (openBindings (bindings.map Binding.message)) = bindings.map Binding.message ↔
      ∀ b ∈ bindings, ∀ text ∈ b.texts, Lossless text) :=
  ⟨bindingInput_bindingDraft b key, saveDraft_iff bindings⟩

/-- The static member `HK, 01` becomes two members. -/
theorem comma_member_split :
    ¬ ∀ (b : Binding) (key : ℕ), b.accepted = true →
      bindingInput (bindingDraft b.message key) = b.message := by
  intro hlossless
  have h := hlossless ⟨utf16 "proxy", [], [], [], [], [], [utf16 "HK, 01"]⟩ 0 (by decide +kernel)
  exact absurd h (by decide +kernel)

end Bifurcation.Panel
