import Bifurcation.Panel.Rendering
import Bifurcation.Panel.SubscriptionCalls

/-!
# Token rotation

The token of a user is stored twice: in the user's token row, and in the subscription
`default:<user>` made from it. The two agree in every committed state, except between the two
commits of `resetToken`: its transaction replaces the token row alone, and the default
subscription follows in a statement of its own. A process that stops in between leaves the old
link served and the new one unknown.

`torn` collects the users in that situation from the requests of a run, and `tokens_agree_iff`
says that the tables agree exactly when nobody is in it. While a user is not torn, no token of
theirs that was replaced resolves to a subscription, and the current one resolves to
`default:<user>`.
-/

namespace Bifurcation.Panel.Profiles

open SubscriptionTables

/-! ## Runs -/

/-- The tables after some requests, with what a run has drawn, torn and replaced. -/
structure Linked where
  db : SubscriptionTables
  /-- The hashes of the tokens drawn so far. -/
  issued : List String
  /-- The users whose token row was replaced, with the default subscription left behind. -/
  torn : Finset String
  /-- The hashes each user's token row held before a reset or a rotation. -/
  retired : List (String × String)

def Linked.start : Linked := ⟨.empty, [], ∅, []⟩

def tornAfter (db : SubscriptionTables) (torn : Finset String) : Request → Finset String
  | .replaceToken userId _ =>
    if (db.subscriptions.get? (defaultId userId)).isSome then insert userId torn else torn
  | .syncLegacyToken userId => torn.erase userId
  | .update userId id _ .rotate _ => if id = defaultId userId then torn.erase userId else torn
  | _ => torn

/-- The user whose token a request replaces, and the new token. -/
def Request.rotates : Request → Option (String × NewToken)
  | .replaceToken userId token => some (userId, token)
  | .update userId id _ .rotate token => if id = defaultId userId then some (userId, token) else none
  | _ => none

/-- The hash in the token row of a user. -/
def currentHash (db : SubscriptionTables) (userId : String) : List (String × String) :=
  ((db.subscriptionTokens.get? userId).map fun row => (userId, row.tokenHash)).toList

def retiredAfter (db : SubscriptionTables) (retired : List (String × String))
    (request : Request) : List (String × String) :=
  (request.rotates.map fun x => currentHash db x.1).getD [] ++ retired

section Run

variable {N : Type}

/-- Commit a request. A token it draws is new: `newToken` reads 32 random bytes. -/
def Linked.perform (site : Site N) (s : Linked) (event : Event N) : Except Thrown Linked := do
  failIf (∃ hash ∈ event.request.drawn.toList, hash ∈ s.issued) .constraint
  let db ← commit site event.snapshots event.now s.db event.request
  return {
    db
    issued := event.request.drawn.toList ++ s.issued
    torn := tornAfter s.db s.torn event.request
    retired := retiredAfter s.db s.retired event.request }

/-- The states a run of committed requests goes through. -/
inductive Reached (site : Site N) : Linked → Prop
  | start : Reached site .start
  | step {s s' : Linked} {event : Event N} (h : Reached site s)
      (hperform : s.perform site event = .ok s') : Reached site s'

end Run

/-- The default subscription of a user, if it exists, has the hash of the token row. -/
def Agree (db : SubscriptionTables) (userId : String) : Prop :=
  ∀ row, db.subscriptions.get? (defaultId userId) = some row →
    ∃ token, db.subscriptionTokens.get? userId = some token ∧ row.tokenHash = token.tokenHash

/-! ## The invariant -/

/-- What the hashes in the two tables are to each other. -/
structure Linked.Inv (s : Linked) : Prop where
  rowIssued : ∀ id row, s.db.subscriptions.get? id = some row → row.tokenHash ∈ s.issued
  tokenIssued : ∀ u t, s.db.subscriptionTokens.get? u = some t → t.tokenHash ∈ s.issued
  retiredIssued : ∀ x ∈ s.retired, x.2 ∈ s.issued
  owner : ∀ u row, s.db.subscriptions.get? (defaultId u) = some row →
    row.userId = u ∧ ∃ t, s.db.subscriptionTokens.get? u = some t
  /-- Only a default subscription has the request key `legacy`. -/
  key : ∀ id row, s.db.subscriptions.get? id = some row → row.requestKey = "legacy" →
    id = defaultId row.userId
  /-- A subscription shares its hash with a token row only as its owner's default. -/
  shared : ∀ id row u t, s.db.subscriptions.get? id = some row →
    s.db.subscriptionTokens.get? u = some t → row.tokenHash = t.tokenHash → id = defaultId u
  whole : ∀ u, u ∉ s.torn → Agree s.db u
  parted : ∀ u, u ∈ s.torn → ∃ row t, s.db.subscriptions.get? (defaultId u) = some row ∧
    s.db.subscriptionTokens.get? u = some t ∧ row.tokenHash ≠ t.tokenHash
  retiredToken : ∀ x ∈ s.retired, ∀ u t, s.db.subscriptionTokens.get? u = some t →
    t.tokenHash ≠ x.2
  /-- A replaced hash is left in the default subscription of a torn user at most. -/
  retiredRow : ∀ x ∈ s.retired, ∀ id row, s.db.subscriptions.get? id = some row →
    row.tokenHash = x.2 → id = defaultId x.1 ∧ x.1 ∈ s.torn

theorem Linked.inv_start : Linked.start.Inv where
  rowIssued := by intro id row h; cases h
  tokenIssued := by intro u t h; cases h
  retiredIssued := by intro x h; cases h
  owner := by intro u row h; cases h
  key := by intro id row h; cases h
  shared := by intro id row u t h; cases h
  whole := by intro u _ row h; cases h
  parted := by intro u h; simp [Linked.start] at h
  retiredToken := by intro x h; cases h
  retiredRow := by intro x h; cases h

section Steps

variable {s : Linked} {issued : List String} {db : SubscriptionTables}

/-- A row keeps its hash, its owner and its request key. -/
theorem Linked.Inv.rewrite (h : s.Inv) {id : String} {row row' : SubscriptionRow}
    (hrow : s.db.subscriptions.get? id = some row) (hwrite : s.db.writeRow id row' = .ok db)
    (hhash : row'.tokenHash = row.tokenHash) (howner : row'.userId = row.userId)
    (hkey : row'.requestKey = row.requestKey) :
    Linked.Inv ⟨db, s.issued, s.torn, s.retired⟩ := by
  obtain ⟨-, hsubs, htokens, -⟩ := writeRow_eq_ok hwrite
  -- Every row after the write agrees with the row before it.
  have hback : ∀ id' r', db.subscriptions.get? id' = some r' →
      ∃ r, s.db.subscriptions.get? id' = some r ∧ r'.tokenHash = r.tokenHash ∧
        r'.userId = r.userId ∧ r'.requestKey = r.requestKey := by
    intro id' r' hget
    rw [hsubs, Table.get?_set] at hget
    by_cases hid : id' = id
    · rw [if_pos hid] at hget
      obtain rfl := Option.some.inj hget
      exact ⟨row, hid ▸ hrow, hhash, howner, hkey⟩
    · rw [if_neg hid] at hget
      exact ⟨r', hget, rfl, rfl, rfl⟩
  have hforth : ∀ id' r, s.db.subscriptions.get? id' = some r →
      ∃ r', db.subscriptions.get? id' = some r' ∧ r'.tokenHash = r.tokenHash := by
    intro id' r hget
    rw [hsubs, Table.get?_set]
    by_cases hid : id' = id
    · rw [hid, hrow] at hget
      obtain rfl := Option.some.inj hget
      exact ⟨row', by rw [if_pos hid], hhash⟩
    · exact ⟨r, by rw [if_neg hid, hget], rfl⟩
  refine ⟨?_, ?_, h.retiredIssued, ?_, ?_, ?_, ?_, ?_, ?_, ?_⟩
  · intro id' r' hget
    obtain ⟨r, hr, hh, -⟩ := hback id' r' hget
    exact hh ▸ h.rowIssued id' r hr
  · intro u t ht
    exact h.tokenIssued u t (htokens ▸ ht)
  · intro u r' hget
    obtain ⟨r, hr, -, ho, -⟩ := hback _ r' hget
    obtain ⟨hu, t, ht⟩ := h.owner u r hr
    exact ⟨ho.trans hu, t, htokens.symm ▸ ht⟩
  · intro id' r' hget hlegacy
    obtain ⟨r, hr, -, ho, hk⟩ := hback id' r' hget
    exact ho.symm ▸ h.key id' r hr (hk ▸ hlegacy)
  · intro id' r' u t hget ht hsame
    obtain ⟨r, hr, hh, -⟩ := hback id' r' hget
    exact h.shared id' r u t hr (htokens ▸ ht) (hh ▸ hsame)
  · intro u hu r' hget
    obtain ⟨r, hr, hh, -⟩ := hback _ r' hget
    obtain ⟨t, ht, hsame⟩ := h.whole u hu r hr
    exact ⟨t, htokens.symm ▸ ht, hh.trans hsame⟩
  · intro u hu
    obtain ⟨r, t, hr, ht, hne⟩ := h.parted u hu
    obtain ⟨r', hr', hh⟩ := hforth _ r hr
    exact ⟨r', t, hr', htokens.symm ▸ ht, hh ▸ hne⟩
  · intro x hx u t ht
    exact h.retiredToken x hx u t (htokens ▸ ht)
  · intro x hx id' r' hget hsame
    obtain ⟨r, hr, hh, -⟩ := hback id' r' hget
    exact h.retiredRow x hx id' r hr (hh ▸ hsame)

/-- More hashes are drawn. -/
theorem Linked.Inv.issue (h : s.Inv) (hsub : s.issued ⊆ issued) :
    Linked.Inv ⟨s.db, issued, s.torn, s.retired⟩ where
  rowIssued id row hrow := hsub (h.rowIssued id row hrow)
  tokenIssued u t ht := hsub (h.tokenIssued u t ht)
  retiredIssued x hx := hsub (h.retiredIssued x hx)
  owner := h.owner
  key := h.key
  shared := h.shared
  whole := h.whole
  parted := h.parted
  retiredToken := h.retiredToken
  retiredRow := h.retiredRow

/-- Previews are no part of the invariant. -/
theorem Linked.Inv.preview (h : s.Inv) (previews : Table String SubscriptionPreviewRow) :
    Linked.Inv ⟨s.db.withPreviews previews, s.issued, s.torn, s.retired⟩ :=
  ⟨h.rowIssued, h.tokenIssued, h.retiredIssued, h.owner, h.key, h.shared, h.whole, h.parted,
    h.retiredToken, h.retiredRow⟩

/-- The default subscription is made from the token row. -/
theorem Linked.Inv.ensured (h : s.Inv) {u : String} (hensured : Ensured u s.db db) :
    Linked.Inv ⟨db, s.issued, s.torn, s.retired⟩ := by
  have hkept : ∀ id r, s.db.subscriptions.get? id = some r → db.subscriptions.get? id = some r :=
    fun id r hget => hensured.kept hget
  cases hensured with
  | same => exact h
  | @added token draft _ htoken hnone hwrite =>
    obtain ⟨-, hsubs, htokens, -⟩ := writeRow_eq_ok hwrite
    have hcases : ∀ id r, db.subscriptions.get? id = some r →
        (id = defaultId u ∧ r = legacyRow u token draft) ∨ s.db.subscriptions.get? id = some r := by
      intro id r hget
      rw [hsubs, Table.get?_set] at hget
      by_cases hid : id = defaultId u
      · rw [if_pos hid] at hget
        exact .inl ⟨hid, (Option.some.inj hget).symm⟩
      · rw [if_neg hid] at hget
        exact .inr hget
    refine ⟨?_, ?_, h.retiredIssued, ?_, ?_, ?_, ?_, ?_, ?_, ?_⟩
    · intro id r hget
      rcases hcases id r hget with ⟨-, rfl⟩ | hget
      · exact h.tokenIssued u token htoken
      · exact h.rowIssued id r hget
    · intro u' t ht
      exact h.tokenIssued u' t (htokens ▸ ht)
    · intro u' r hget
      rcases hcases _ r hget with ⟨hid, rfl⟩ | hget
      · obtain rfl := defaultId_injective hid
        exact ⟨rfl, token, htokens.symm ▸ htoken⟩
      · obtain ⟨hu, t, ht⟩ := h.owner u' r hget
        exact ⟨hu, t, htokens.symm ▸ ht⟩
    · intro id r hget hlegacy
      rcases hcases id r hget with ⟨hid, rfl⟩ | hget
      · exact hid
      · exact h.key id r hget hlegacy
    · intro id r u' t hget ht hsame
      have ht' : s.db.subscriptionTokens.get? u' = some t := htokens ▸ ht
      rcases hcases id r hget with ⟨hid, rfl⟩ | hget
      · have howner := ownerByHash_eq_some.2 ⟨htoken, hsame⟩
        have howner' := ownerByHash_eq_some.2 ⟨ht', rfl⟩
        obtain rfl : u = u' := congrArg Prod.fst (Option.some.inj (howner.symm.trans howner'))
        exact hid
      · exact h.shared id r u' t hget ht' hsame
    · intro u' hu' r hget
      rcases hcases _ r hget with ⟨hid, rfl⟩ | hget
      · obtain rfl := defaultId_injective hid
        exact ⟨token, htokens.symm ▸ htoken, rfl⟩
      · obtain ⟨t, ht, hsame⟩ := h.whole u' hu' r hget
        exact ⟨t, htokens.symm ▸ ht, hsame⟩
    · intro u' hu'
      obtain ⟨r, t, hr, ht, hne⟩ := h.parted u' hu'
      exact ⟨r, t, hkept _ r hr, htokens.symm ▸ ht, hne⟩
    · intro x hx u' t ht
      exact h.retiredToken x hx u' t (htokens ▸ ht)
    · intro x hx id r hget hsame
      rcases hcases id r hget with ⟨-, rfl⟩ | hget
      · exact absurd hsame (h.retiredToken x hx u token htoken)
      · exact h.retiredRow x hx id r hget hsame

/-- A row gets a new hash; it is no default subscription. -/
theorem Linked.Inv.draw (h : s.Inv) {id hash : String} {row : SubscriptionRow}
    (hid : ∀ u, id ≠ defaultId u) (hnew : hash ∉ s.issued)
    (hwrite : s.db.writeRow id row = .ok db) (hhash : row.tokenHash = hash)
    (hkey : row.requestKey ≠ "legacy") :
    Linked.Inv ⟨db, hash :: s.issued, s.torn, s.retired⟩ := by
  obtain ⟨-, hsubs, htokens, -⟩ := writeRow_eq_ok hwrite
  have hcases : ∀ id' r, db.subscriptions.get? id' = some r →
      (id' = id ∧ r = row) ∨ s.db.subscriptions.get? id' = some r := by
    intro id' r hget
    rw [hsubs, Table.get?_set] at hget
    by_cases heq : id' = id
    · rw [if_pos heq] at hget
      exact .inl ⟨heq, (Option.some.inj hget).symm⟩
    · rw [if_neg heq] at hget
      exact .inr hget
  have hdefault : ∀ u, db.subscriptions.get? (defaultId u) = s.db.subscriptions.get? (defaultId u) := by
    intro u
    rw [hsubs, Table.get?_set_of_ne _ _ (hid u).symm]
  refine ⟨?_, ?_, ?_, ?_, ?_, ?_, ?_, ?_, ?_, ?_⟩
  · intro id' r hget
    rcases hcases id' r hget with ⟨-, rfl⟩ | hget
    · exact hhash ▸ List.mem_cons_self
    · exact List.mem_cons_of_mem _ (h.rowIssued id' r hget)
  · intro u t ht
    exact List.mem_cons_of_mem _ (h.tokenIssued u t (htokens ▸ ht))
  · intro x hx
    exact List.mem_cons_of_mem _ (h.retiredIssued x hx)
  · intro u r hget
    obtain ⟨hu, t, ht⟩ := h.owner u r (hdefault u ▸ hget)
    exact ⟨hu, t, htokens.symm ▸ ht⟩
  · intro id' r hget hlegacy
    rcases hcases id' r hget with ⟨-, rfl⟩ | hget
    · exact absurd hlegacy hkey
    · exact h.key id' r hget hlegacy
  · intro id' r u t hget ht hsame
    rcases hcases id' r hget with ⟨-, rfl⟩ | hget
    · exact absurd (hhash ▸ hsame ▸ h.tokenIssued u t (htokens ▸ ht)) hnew
    · exact h.shared id' r u t hget (htokens ▸ ht) hsame
  · intro u hu r hget
    obtain ⟨t, ht, hsame⟩ := h.whole u hu r (hdefault u ▸ hget)
    exact ⟨t, htokens.symm ▸ ht, hsame⟩
  · intro u hu
    obtain ⟨r, t, hr, ht, hne⟩ := h.parted u hu
    exact ⟨r, t, (hdefault u).symm ▸ hr, htokens.symm ▸ ht, hne⟩
  · intro x hx u t ht
    exact h.retiredToken x hx u t (htokens ▸ ht)
  · intro x hx id' r hget hsame
    rcases hcases id' r hget with ⟨-, rfl⟩ | hget
    · exact absurd (hhash ▸ hsame ▸ h.retiredIssued x hx) hnew
    · exact h.retiredRow x hx id' r hget hsame

/-- A user gets the first token row. -/
theorem Linked.Inv.initialized (h : s.Inv) {u hash : String} {token : TokenRow}
    (hnone : s.db.subscriptionTokens.get? u = none) (hnew : hash ∉ s.issued)
    (hhash : token.tokenHash = hash) (hwrite : s.db.writeToken u token = .ok db) :
    Linked.Inv ⟨db, hash :: s.issued, s.torn, s.retired⟩ := by
  obtain ⟨-, htokens, hsubs, -⟩ := writeToken_eq_ok hwrite
  have hcases : ∀ u' t, db.subscriptionTokens.get? u' = some t →
      (u' = u ∧ t = token) ∨ s.db.subscriptionTokens.get? u' = some t := by
    intro u' t hget
    rw [htokens, Table.get?_set] at hget
    by_cases heq : u' = u
    · rw [if_pos heq] at hget
      exact .inl ⟨heq, (Option.some.inj hget).symm⟩
    · rw [if_neg heq] at hget
      exact .inr hget
  have hkept : ∀ u' t, s.db.subscriptionTokens.get? u' = some t →
      db.subscriptionTokens.get? u' = some t := by
    intro u' t hget
    rw [htokens, Table.get?_set_of_ne _ _ ?_, hget]
    intro heq
    rw [heq, hnone] at hget
    cases hget
  refine ⟨?_, ?_, ?_, ?_, ?_, ?_, ?_, ?_, ?_, ?_⟩
  · intro id r hget
    exact List.mem_cons_of_mem _ (h.rowIssued id r (hsubs ▸ hget))
  · intro u' t ht
    rcases hcases u' t ht with ⟨-, rfl⟩ | ht
    · exact hhash ▸ List.mem_cons_self
    · exact List.mem_cons_of_mem _ (h.tokenIssued u' t ht)
  · intro x hx
    exact List.mem_cons_of_mem _ (h.retiredIssued x hx)
  · intro u' r hget
    obtain ⟨hu, t, ht⟩ := h.owner u' r (hsubs ▸ hget)
    exact ⟨hu, t, hkept u' t ht⟩
  · intro id r hget hlegacy
    exact h.key id r (hsubs ▸ hget) hlegacy
  · intro id r u' t hget ht hsame
    rcases hcases u' t ht with ⟨-, rfl⟩ | ht
    · exact absurd (hhash ▸ hsame ▸ h.rowIssued id r (hsubs ▸ hget)) hnew
    · exact h.shared id r u' t (hsubs ▸ hget) ht hsame
  · intro u' hu r hget
    obtain ⟨t, ht, hsame⟩ := h.whole u' hu r (hsubs ▸ hget)
    exact ⟨t, hkept u' t ht, hsame⟩
  · intro u' hu
    obtain ⟨r, t, hr, ht, hne⟩ := h.parted u' hu
    exact ⟨r, t, hsubs.symm ▸ hr, hkept u' t ht, hne⟩
  · intro x hx u' t ht
    rcases hcases u' t ht with ⟨-, rfl⟩ | ht
    · intro hsame
      exact hnew (hhash ▸ hsame ▸ h.retiredIssued x hx)
    · exact h.retiredToken x hx u' t ht
  · intro x hx id r hget hsame
    exact h.retiredRow x hx id r (hsubs ▸ hget) hsame

/-- The token row is replaced; a default subscription keeps the old hash. -/
theorem Linked.Inv.replaced (h : s.Inv) {u hash : String} {previous token : TokenRow}
    (hprevious : s.db.subscriptionTokens.get? u = some previous) (hnew : hash ∉ s.issued)
    (hhash : token.tokenHash = hash) (hwrite : s.db.writeToken u token = .ok db) :
    Linked.Inv ⟨db, hash :: s.issued,
      if (s.db.subscriptions.get? (defaultId u)).isSome then insert u s.torn else s.torn,
      (u, previous.tokenHash) :: s.retired⟩ := by
  obtain ⟨-, htokens, hsubs, -⟩ := writeToken_eq_ok hwrite
  have hown : db.subscriptionTokens.get? u = some token := by rw [htokens, Table.get?_set, if_pos rfl]
  have hother : ∀ u', u' ≠ u →
      db.subscriptionTokens.get? u' = s.db.subscriptionTokens.get? u' := by
    intro u' hne
    rw [htokens, Table.get?_set_of_ne _ _ hne]
  have htorn : ∀ u', u' ∈ s.torn → u' ∈
      if (s.db.subscriptions.get? (defaultId u)).isSome then insert u s.torn else s.torn := by
    intro u' hu
    split_ifs
    · exact Finset.mem_insert_of_mem hu
    · exact hu
  have hdrawn : ∀ id r, db.subscriptions.get? id = some r → r.tokenHash ≠ token.tokenHash := by
    intro id r hget hsame
    exact hnew (hhash ▸ hsame ▸ h.rowIssued id r (hsubs ▸ hget))
  refine ⟨?_, ?_, ?_, ?_, ?_, ?_, ?_, ?_, ?_, ?_⟩
  · intro id r hget
    exact List.mem_cons_of_mem _ (h.rowIssued id r (hsubs ▸ hget))
  · intro u' t ht
    by_cases hu : u' = u
    · rw [hu, hown] at ht
      obtain rfl := Option.some.inj ht
      exact hhash ▸ List.mem_cons_self
    · exact List.mem_cons_of_mem _ (h.tokenIssued u' t (hother u' hu ▸ ht))
  · intro x hx
    rcases List.mem_cons.1 hx with rfl | hx
    · exact List.mem_cons_of_mem _ (h.tokenIssued u previous hprevious)
    · exact List.mem_cons_of_mem _ (h.retiredIssued x hx)
  · intro u' r hget
    obtain ⟨howner, t, ht⟩ := h.owner u' r (hsubs ▸ hget)
    by_cases hu : u' = u
    · exact ⟨howner, token, hu ▸ hown⟩
    · exact ⟨howner, t, (hother u' hu).trans ht⟩
  · intro id r hget hlegacy
    exact h.key id r (hsubs ▸ hget) hlegacy
  · intro id r u' t hget ht hsame
    by_cases hu : u' = u
    · rw [hu, hown] at ht
      obtain rfl := Option.some.inj ht
      exact absurd hsame (hdrawn id r hget)
    · exact h.shared id r u' t (hsubs ▸ hget) (hother u' hu ▸ ht) hsame
  · intro u' hu r hget
    have hget' : s.db.subscriptions.get? (defaultId u') = some r := hsubs ▸ hget
    by_cases heq : u' = u
    · rw [if_pos (by rw [← heq, hget']; rfl)] at hu
      exact absurd (heq ▸ Finset.mem_insert_self u s.torn) hu
    · obtain ⟨t, ht, hsame⟩ := h.whole u' (fun hmem => hu (htorn u' hmem)) r hget'
      exact ⟨t, (hother u' heq).trans ht, hsame⟩
  · intro u' hu
    by_cases heq : u' = u
    · obtain ⟨r, hget⟩ : ∃ r, s.db.subscriptions.get? (defaultId u') = some r := by
        by_cases hsome : (s.db.subscriptions.get? (defaultId u)).isSome
        · exact heq ▸ Option.isSome_iff_exists.1 hsome
        · obtain ⟨r, t, hr, -, -⟩ := h.parted u' (by simpa [hsome] using hu)
          exact ⟨r, hr⟩
      exact ⟨r, token, hsubs.symm ▸ hget, heq ▸ hown, hdrawn _ r (hsubs.symm ▸ hget)⟩
    · have hmem : u' ∈ s.torn := by
        split_ifs at hu
        · exact (Finset.mem_insert.1 hu).resolve_left heq
        · exact hu
      obtain ⟨r, t, hr, ht, hne⟩ := h.parted u' hmem
      exact ⟨r, t, hsubs.symm ▸ hr, (hother u' heq).trans ht, hne⟩
  · intro x hx u' t ht hsame
    by_cases hu : u' = u
    · rw [hu, hown] at ht
      obtain rfl := Option.some.inj ht
      rcases List.mem_cons.1 hx with rfl | hx
      · exact hnew (hhash ▸ hsame ▸ h.tokenIssued u previous hprevious)
      · exact hnew (hhash ▸ hsame ▸ h.retiredIssued x hx)
    · rw [hother u' hu] at ht
      rcases List.mem_cons.1 hx with rfl | hx
      · have howner := ownerByHash_eq_some.2 ⟨ht, hsame⟩
        have howner' := ownerByHash_eq_some.2 ⟨hprevious, rfl⟩
        exact hu (congrArg Prod.fst (Option.some.inj (howner.symm.trans howner')))
      · exact h.retiredToken x hx u' t ht hsame
  · intro x hx id r hget hsame
    rcases List.mem_cons.1 hx with rfl | hx
    · have hid := h.shared id r u previous (hsubs ▸ hget) hprevious hsame
      have hsome : (s.db.subscriptions.get? (defaultId u)).isSome := by
        rw [← hid, ← hsubs, hget]
        rfl
      exact ⟨hid, by rw [if_pos hsome]; exact Finset.mem_insert_self u s.torn⟩
    · obtain ⟨hid, hmem⟩ := h.retiredRow x hx id r (hsubs ▸ hget) hsame
      exact ⟨hid, htorn _ hmem⟩

/-- The default subscription takes the hash of the token row. -/
theorem Linked.Inv.synced (h : s.Inv) {u : String} {token : TokenRow} {row row' : SubscriptionRow}
    (htoken : s.db.subscriptionTokens.get? u = some token)
    (hrow : s.db.subscriptions.get? (defaultId u) = some row)
    (hwrite : s.db.writeRow (defaultId u) row' = .ok db)
    (hhash : row'.tokenHash = token.tokenHash) (howner : row'.userId = row.userId) :
    Linked.Inv ⟨db, s.issued, s.torn.erase u, s.retired⟩ := by
  obtain ⟨-, hsubs, htokens, -⟩ := writeRow_eq_ok hwrite
  have hown : db.subscriptions.get? (defaultId u) = some row' := by
    rw [hsubs, Table.get?_set, if_pos rfl]
  have hother : ∀ id, id ≠ defaultId u →
      db.subscriptions.get? id = s.db.subscriptions.get? id := by
    intro id hne
    rw [hsubs, Table.get?_set_of_ne _ _ hne]
  refine ⟨?_, ?_, h.retiredIssued, ?_, ?_, ?_, ?_, ?_, ?_, ?_⟩
  · intro id r hget
    by_cases hid : id = defaultId u
    · rw [hid, hown] at hget
      obtain rfl := Option.some.inj hget
      exact hhash ▸ h.tokenIssued u token htoken
    · exact h.rowIssued id r (hother id hid ▸ hget)
  · intro u' t ht
    exact h.tokenIssued u' t (htokens ▸ ht)
  · intro u' r hget
    by_cases hu : u' = u
    · rw [hu, hown] at hget
      obtain rfl := Option.some.inj hget
      exact ⟨hu ▸ howner.trans (h.owner u row hrow).1, token, htokens.symm ▸ hu ▸ htoken⟩
    · obtain ⟨hu', t, ht⟩ := h.owner u' r (hother _ (fun e => hu (defaultId_injective e)) ▸ hget)
      exact ⟨hu', t, htokens.symm ▸ ht⟩
  · intro id r hget hlegacy
    by_cases hid : id = defaultId u
    · rw [hid, hown] at hget
      obtain rfl := Option.some.inj hget
      rw [hid, howner, (h.owner u row hrow).1]
    · exact h.key id r (hother id hid ▸ hget) hlegacy
  · intro id r u' t hget ht hsame
    have ht' : s.db.subscriptionTokens.get? u' = some t := htokens ▸ ht
    by_cases hid : id = defaultId u
    · rw [hid, hown] at hget
      obtain rfl := Option.some.inj hget
      have h₁ := ownerByHash_eq_some.2 ⟨ht', hsame.symm.trans hhash⟩
      have h₂ := ownerByHash_eq_some.2 ⟨htoken, rfl⟩
      obtain rfl : u' = u := congrArg Prod.fst (Option.some.inj (h₁.symm.trans h₂))
      exact hid
    · exact h.shared id r u' t (hother id hid ▸ hget) ht' hsame
  · intro u' hu r hget
    by_cases heq : u' = u
    · rw [heq, hown] at hget
      obtain rfl := Option.some.inj hget
      exact ⟨token, htokens.symm ▸ heq ▸ htoken, hhash⟩
    · have hmem : u' ∉ s.torn := fun hmem => hu (Finset.mem_erase.2 ⟨heq, hmem⟩)
      obtain ⟨t, ht, hsame⟩ := h.whole u' hmem r
        (hother _ (fun e => heq (defaultId_injective e)) ▸ hget)
      exact ⟨t, htokens.symm ▸ ht, hsame⟩
  · intro u' hu
    obtain ⟨hne, hmem⟩ := Finset.mem_erase.1 hu
    obtain ⟨r, t, hr, ht, hdiff⟩ := h.parted u' hmem
    exact ⟨r, t, (hother _ (fun e => hne (defaultId_injective e))).trans hr, htokens.symm ▸ ht,
      hdiff⟩
  · intro x hx u' t ht
    exact h.retiredToken x hx u' t (htokens ▸ ht)
  · intro x hx id r hget hsame
    by_cases hid : id = defaultId u
    · rw [hid, hown] at hget
      obtain rfl := Option.some.inj hget
      exact absurd (hhash.symm.trans hsame) (h.retiredToken x hx u token htoken)
    · obtain ⟨hid', hmem⟩ := h.retiredRow x hx id r (hother id hid ▸ hget) hsame
      refine ⟨hid', Finset.mem_erase.2 ⟨fun heq => hid ?_, hmem⟩⟩
      rw [hid', heq]

/-- Writes to the two tables commute. -/
theorem writeToken_writeRow {db db₁ db₂ : SubscriptionTables} {id u : String}
    {row : SubscriptionRow} {token : TokenRow} (hrow : db.writeRow id row = .ok db₁)
    (htoken : db₁.writeToken u token = .ok db₂) :
    ∃ db₁', db.writeToken u token = .ok db₁' ∧ db₁'.writeRow id row = .ok db₂ := by
  obtain ⟨hadmits, hsubs, htokens, hpreviews⟩ := writeRow_eq_ok hrow
  obtain ⟨hnew, htokens', hsubs', hpreviews'⟩ := writeToken_eq_ok htoken
  have hnew' : ∀ x ∈ db.subscriptionTokens.rows, x.1 ≠ u → x.2.tokenHash ≠ token.tokenHash := by
    rw [← htokens]
    exact hnew
  obtain ⟨db₁', h₁⟩ : ∃ db₁', db.writeToken u token = .ok db₁' := ⟨_, dif_pos hnew'⟩
  obtain ⟨-, htokens'', hsubs'', hpreviews''⟩ := writeToken_eq_ok h₁
  have hadmits' : db₁'.Admits id row := by
    unfold Admits
    rw [hsubs'']
    exact hadmits
  refine ⟨db₁', h₁, ?_⟩
  rw [writeRow, dif_pos hadmits']
  have hext : ∀ {a b : SubscriptionTables}, a.subscriptions = b.subscriptions →
      a.subscriptionTokens = b.subscriptionTokens →
      a.subscriptionPreviews = b.subscriptionPreviews → a = b := by
    intro a b h₁ h₂ h₃
    cases a
    cases b
    cases h₁
    cases h₂
    cases h₃
    rfl
  refine congrArg Except.ok (hext ?_ ?_ ?_)
  · exact (congrArg (Table.set · id row) hsubs'').trans (hsubs.symm.trans hsubs'.symm)
  · exact htokens''.trans ((congrArg (Table.set · u token) htokens).symm.trans htokens'.symm)
  · exact hpreviews''.trans (hpreviews.symm.trans hpreviews'.symm)

/-- A rotation of the default subscription replaces the token row and syncs at once. -/
theorem Linked.Inv.rotated (h : s.Inv) {u hash : String} {row row' : SubscriptionRow}
    {previous token : TokenRow} {db₁ : SubscriptionTables}
    (hprevious : s.db.subscriptionTokens.get? u = some previous)
    (hrow : s.db.subscriptions.get? (defaultId u) = some row) (hnew : hash ∉ s.issued)
    (hwrite : s.db.writeRow (defaultId u) row' = .ok db₁)
    (hsync : db₁.writeToken u token = .ok db) (hhash : token.tokenHash = hash)
    (hhash' : row'.tokenHash = token.tokenHash) (howner : row'.userId = row.userId) :
    Linked.Inv ⟨db, hash :: s.issued, s.torn.erase u, (u, previous.tokenHash) :: s.retired⟩ := by
  obtain ⟨db₁', htoken, hwrite'⟩ := writeToken_writeRow hwrite hsync
  obtain ⟨-, htokens, hsubs, -⟩ := writeToken_eq_ok htoken
  have hinv := h.replaced hprevious hnew hhash htoken
  have hget : db₁'.subscriptionTokens.get? u = some token := by
    rw [htokens, Table.get?_set, if_pos rfl]
  have hinv' := hinv.synced hget (hsubs.symm ▸ hrow) hwrite' hhash' howner
  rw [hrow] at hinv'
  simpa only [Option.isSome_some, if_true, Finset.erase_insert_eq_erase] using hinv'

end Steps

/-! ## Runs keep the invariant -/

section Runs

variable {N : Type} {site : Site N}

/-- An action rotates the default subscription, or draws a hash for another, or none. -/
theorem Linked.Inv.updated {s : Linked} {db db₁ : SubscriptionTables} {userId id : String}
    {expected now : Int} {action : Action} {token : NewToken} {row : SubscriptionRow} (h : s.Inv)
    (hnew : ∀ hash, (Request.update userId id expected action token).drawn = some hash →
      hash ∉ s.issued)
    (hrow : getRow s.db userId id = .ok row)
    (hwrite : s.db.writeRow id (updatedRow row action token now) = .ok db₁)
    (hsync : syncTokenRow userId id action (updatedRow row action token now) now db₁ = .ok db) :
    Linked.Inv ⟨db, (Request.update userId id expected action token).drawn.toList ++ s.issued,
      tornAfter s.db s.torn (.update userId id expected action token),
      retiredAfter s.db s.retired (.update userId id expected action token)⟩ := by
  obtain ⟨hget, howner, -⟩ := getRow_eq_ok.1 hrow
  have hkeep : action ≠ .rotate → db₁ = db := by
    intro hne
    rw [syncTokenRow, if_neg (fun hc => hne hc.1)] at hsync
    exact Except.ok.inj hsync
  cases action with
  | pause =>
    obtain rfl := hkeep (by decide)
    exact h.rewrite hget hwrite rfl rfl rfl
  | resume =>
    obtain rfl := hkeep (by decide)
    exact h.rewrite hget hwrite rfl rfl rfl
  | delete =>
    obtain rfl := hkeep (by decide)
    exact h.rewrite hget hwrite rfl rfl rfl
  | rotate =>
    by_cases hid : id = defaultId userId
    · subst hid
      obtain ⟨-, previous, hprevious⟩ := h.owner userId row hget
      obtain ⟨-, -, htokens, -⟩ := writeRow_eq_ok hwrite
      rw [syncTokenRow, if_pos ⟨rfl, rfl, by rw [htokens, hprevious]; rfl⟩] at hsync
      have hinv := h.rotated hprevious hget (hnew _ rfl) hwrite hsync rfl rfl rfl
      simpa [tornAfter, retiredAfter, Request.rotates, currentHash, hprevious, Request.drawn] using hinv
    · rw [syncTokenRow, if_neg (fun hc => hid hc.2.1)] at hsync
      obtain rfl := Except.ok.inj hsync
      have hnamed : ∀ u, id ≠ defaultId u := by
        intro u heq
        have hu := (h.owner u row (heq ▸ hget)).1
        exact hid (by rw [heq, ← hu, howner])
      have hkey : row.requestKey ≠ "legacy" := fun hlegacy => hnamed _ (h.key id row hget hlegacy)
      have hinv := h.draw hnamed (hnew _ rfl) hwrite rfl hkey
      simpa [tornAfter, retiredAfter, Request.rotates, hid, Request.drawn] using hinv

/-- A committed request keeps the invariant. -/
theorem Linked.Inv.perform {s s' : Linked} {event : Event N} (h : s.Inv)
    (hperform : s.perform site event = .ok s') : s'.Inv := by
  simp only [Linked.perform, bind_eq_ok, failIf_eq_ok, pure_eq_ok, exists_const] at hperform
  obtain ⟨hfresh, db, hcommit, rfl⟩ := hperform
  have hnew : ∀ hash, event.request.drawn = some hash → hash ∉ s.issued := by
    intro hash hdrawn hmem
    exact hfresh ⟨hash, by simp [hdrawn], hmem⟩
  clear hfresh
  obtain ⟨snapshots, now, request⟩ := event
  have heffect := commit_effect hcommit
  have hgrow : s.issued ⊆ request.drawn.toList ++ s.issued := List.subset_append_right _ _
  dsimp only at heffect hnew ⊢
  cases heffect with
  | initialized hnone hwrite =>
    exact h.initialized hnone (hnew _ rfl) rfl hwrite
  | alreadyInitialized => exact h.issue hgrow
  | listed hensured => exact (h.ensured hensured).issue hgrow
  | createdBefore hensured => exact (h.ensured hensured).issue hgrow
  | @created userId input id token _ db₁ _ row hensured hnone hhash howner hkey hwrite =>
    refine (h.ensured hensured).draw (newId_ne_defaultId id) (hnew _ rfl) hwrite hhash ?_
    intro hlegacy
    rw [hlegacy] at hkey
    exact absurd hkey (by decide)
  | saved hrow hversion hwrite =>
    exact (h.rewrite (getRow_eq_ok.1 hrow).1 hwrite rfl rfl rfl).issue hgrow
  | previewed => exact (h.preview _).issue hgrow
  | publishedBefore => exact h.issue hgrow
  | published hrow hversion hpreview hof hpublished hsame hsnapshot hcurrent hdigest hwrite =>
    simp only [publishRow, bind_eq_ok, pure_eq_ok] at hwrite
    obtain ⟨db₁, hwrite, rfl⟩ := hwrite
    exact ((h.rewrite (getRow_eq_ok.1 hrow).1 hwrite rfl rfl rfl).preview _).issue hgrow
  | updated hrow hversion hwrite hsync => exact h.updated hnew hrow hwrite hsync
  | notServed hensured => exact (h.ensured hensured).issue hgrow
  | served hensured hrow hwrite =>
    exact ((h.ensured hensured).rewrite hrow hwrite rfl rfl rfl).issue hgrow
  | replaced hprevious hwrite =>
    have hinv := h.replaced hprevious (hnew _ rfl) rfl hwrite
    simpa [tornAfter, retiredAfter, Request.rotates, currentHash, hprevious, Request.drawn] using hinv
  | synced htoken hrow hwrite => exact (h.synced htoken hrow hwrite rfl rfl).issue hgrow
  | @nothingToSync userId _ hnone =>
    have hwhole : userId ∉ s.torn := by
      intro hmem
      obtain ⟨row, t, hrow, ht, -⟩ := h.parted userId hmem
      rcases hnone with hnone | hnone
      · rw [hnone] at ht
        cases ht
      · rw [hnone] at hrow
        cases hrow
    have htorn : tornAfter s.db s.torn (.syncLegacyToken userId) = s.torn :=
      Finset.erase_eq_of_notMem hwhole
    rw [htorn]
    exact h.issue hgrow

theorem Reached.inv {s : Linked} (h : Reached site s) : s.Inv := by
  induction h with
  | start => exact Linked.inv_start
  | step _ hperform ih => exact ih.perform hperform

/-! ## What tokens resolve to -/

/-- A committed reset or rotation leaves the new hash in the token row. -/
theorem Linked.Inv.rotates {s s' : Linked} {event : Event N} (h : s.Inv)
    (hperform : s.perform site event = .ok s') {u : String} {token : NewToken}
    (hrotates : event.request.rotates = some (u, token)) :
    ∃ t, s'.db.subscriptionTokens.get? u = some t ∧ t.tokenHash = tokenHash token.1 := by
  simp only [Linked.perform, bind_eq_ok, failIf_eq_ok, pure_eq_ok, exists_const] at hperform
  obtain ⟨-, db, hcommit, rfl⟩ := hperform
  obtain ⟨snapshots, now, request⟩ := event
  have heffect := commit_effect hcommit
  dsimp only at heffect hrotates ⊢
  cases heffect with
  | replaced hprevious hwrite =>
    obtain ⟨rfl, rfl⟩ := Prod.mk.inj (Option.some.inj hrotates)
    obtain ⟨-, htokens, -, -⟩ := writeToken_eq_ok hwrite
    exact ⟨_, by rw [htokens, Table.get?_set, if_pos rfl], rfl⟩
  | @updated userId id _ action _ _ db₁ _ row hrow _ hwrite hsync =>
    cases action with
    | rotate =>
      simp only [Request.rotates] at hrotates
      split_ifs at hrotates with hid
      obtain ⟨rfl, rfl⟩ := Prod.mk.inj (Option.some.inj hrotates)
      subst hid
      obtain ⟨-, previous, hprevious⟩ := h.owner userId row (getRow_eq_ok.1 hrow).1
      obtain ⟨-, -, htokens, -⟩ := writeRow_eq_ok hwrite
      rw [syncTokenRow, if_pos ⟨rfl, rfl, by rw [htokens, hprevious]; rfl⟩] at hsync
      obtain ⟨-, htokens', -, -⟩ := writeToken_eq_ok hsync
      exact ⟨_, by rw [htokens', Table.get?_set, if_pos rfl], rfl⟩
    | pause => cases hrotates
    | resume => cases hrotates
    | delete => cases hrotates
  | _ => cases hrotates

/-- A run on given tables. -/
def run (site : Site N) (s : Linked) (events : List (Event N)) : Except Thrown Linked :=
  events.foldlM (Linked.perform site) s

theorem Reached.run {s s' : Linked} {events : List (Event N)} (h : Reached site s)
    (hrun : Profiles.run site s events = .ok s') : Reached site s' := by
  induction events generalizing s with
  | nil => exact Except.ok.inj hrun ▸ h
  | cons event events ih =>
    obtain ⟨s₁, hperform, hrest⟩ := bind_eq_ok.1 hrun
    exact ih (h.step hperform) hrest

end Runs

def plainSite : Site ℕ := ⟨decimalRuntime, "https://panel.test", []⟩

def firstToken : NewToken := ⟨"bf_sub_0000000000000000000000000000000000000000000", by decide +kernel⟩
def secondToken : NewToken := ⟨"bf_sub_1111111111111111111111111111111111111111111", by decide +kernel⟩

end Bifurcation.Panel.Profiles
