import DecisionBoard.Proofs.Store.Run
import Mathlib.Data.List.Forall2
import Mathlib.Data.List.Induction

/-!
# Ownership of saved sessions

Over any sequence of calls by any users, what a store answers is told by the saves that were
carried out: who saved a session first owns it for good, nobody else saves to it or loads it, and
an owner finds of every session what the last save to it left.
-/

namespace DecisionBoard

namespace Storage

/-! ## The past of a store -/

/-- The arguments of a call have the types that are declared for them: users and ids of saves are
texts or none, ids of loads are texts, limits are whole numbers. -/
def Call.Declared : Call → Prop
  | .save request _ =>
    (request.user = .null ∨ ∃ u, request.user = .str u) ∧
      (request.id = .null ∨ ∃ id, request.id = .str id)
  | .load user id => (user = .null ∨ ∃ u, user = .str u) ∧ ∃ s, id = .str s
  | .list user limit => (user = .null ∨ ∃ u, user = .str u) ∧ ∃ n, limit = .int n

/-- The name of the owner that a user counts as: none and the empty text are anonymous. -/
def ownerName (user : Json) : String := ((Store.ownerOf user).string?).getD Store.anonymous

/-- A save that was carried out. -/
structure Kept where
  id : String
  owner : String
  title : Json
  now : String
  record : Record

/-- The save that a call and its answer show. -/
def kept? : Call → Answer → Option Kept
  | .save request record, .saved (.ok (.str id)) =>
    some ⟨id, ownerName request.user, request.title, request.now, record⟩
  | _, _ => none

/-- The saves that were carried out among some calls, in order. -/
def history (storage : Storage) : List Call → List Kept
  | [] => []
  | call :: calls =>
    (kept? call (storage.answer call).1).toList ++ history (storage.answer call).2 calls

/-- The id that a save of a new session is given is not in use. -/
def Call.IsFresh (storage : Storage) : Call → Prop
  | .save request _ => request.id.truthy = false →
    Entries.has storage.store.sessions (.str request.freshId) = false
  | _ => True

/-- The same for some calls, one after the other. -/
def AreFresh (storage : Storage) : List Call → Prop
  | [] => True
  | call :: calls => call.IsFresh storage ∧ AreFresh (storage.answer call).2 calls

/-- The first save to an id. -/
def firstSave? (past : List Kept) (id : String) : Option Kept := past.find? (·.id = id)

/-- The last save to an id. -/
def lastSave? (past : List Kept) (id : String) : Option Kept := past.reverse.find? (·.id = id)

/-- The last save to every id, the most recent one first. -/
def latest (past : List Kept) : List Kept :=
  past.foldl (fun found k => k :: found.filter (·.id ≠ k.id)) []

/-- A session as a list shows it: the time of its first save, and the title and time of its
last. -/
def shown (past : List Kept) (last : Kept) : SessionSummary :=
  ⟨.str last.id, last.title, .str (((firstSave? past last.id).map Kept.now).getD last.now),
    .str last.now⟩

/-- The times of saves never decrease. -/
def InOrder (past : List Kept) : Prop := past.Pairwise fun a b => ¬ b.now < a.now

/-- How a store answers after some saves were carried out. -/
structure Owned (storage : Storage) (past : List Kept) : Prop where
  /-- The owner of a session never changes. -/
  one_owner : ∀ k ∈ past, ∀ k' ∈ past, k.id = k'.id → k.owner = k'.owner
  /-- A save to a session of someone else is refused and changes nothing. -/
  foreign_save : ∀ k ∈ past, ∀ request record, (Call.save request record).Declared →
    request.id = .str k.id → k.id ≠ "" → ownerName request.user ≠ k.owner →
    storage.answer (.save request record)
      = (.saved (.error (.ownedByAnother k.id)), storage)
  /-- Every other save is carried out, if its record can be copied. -/
  own_save : ∀ request record, (Call.save request record).Declared →
    (Call.save request record).IsFresh storage → record.isCopyable = true →
    (∀ k ∈ past, request.id = .str k.id → k.id ≠ "" → ownerName request.user = k.owner) →
    (storage.answer (.save request record)).1 = .saved (.ok (.str request.target))
  /-- A load finds no session under an id that was never saved to, what the last save left if the
  user owns the session, and nothing otherwise. -/
  load : ∀ user id, (Call.load user (.str id)).Declared →
    storage.answer (.load user (.str id)) = (.loaded (.ok (match lastSave? past id with
      | none => (.notFound, none)
      | some last => if last.owner = ownerName user then (.ok, some last.record.toJson)
        else (.accessDenied, none))), storage)
  /-- A list shows each session of the user once, cut short; the most recent first, if the times of
  saves never decrease. -/
  list : ∀ user n, (Call.list user (.int n)).Declared →
    ∃ full : List SessionSummary,
      storage.answer (.list user (.int n)) = (.listed (.ok (full.take n.toNat)), storage) ∧
      full.Perm (((latest past).filter (·.owner = ownerName user)).map (shown past)) ∧
      (InOrder past →
        full = ((latest past).filter (·.owner = ownerName user)).map (shown past))

/-! ## First and last saves -/

variable {past : List Kept}

theorem latest_append (past : List Kept) (k : Kept) :
    latest (past ++ [k]) = k :: (latest past).filter (·.id ≠ k.id) := by
  rw [latest, List.foldl_append]
  rfl

theorem firstSave?_append (past : List Kept) (k : Kept) (id : String) :
    firstSave? (past ++ [k]) id = (firstSave? past id).or (if k.id = id then some k else none) := by
  rw [firstSave?, List.find?_append, firstSave?]
  by_cases hid : k.id = id <;> simp [hid]

theorem lastSave?_append (past : List Kept) (k : Kept) (id : String) :
    lastSave? (past ++ [k]) id = if k.id = id then some k else lastSave? past id := by
  rw [lastSave?, List.reverse_append, List.reverse_singleton, List.singleton_append, List.find?_cons]
  by_cases hid : k.id = id <;> simp [hid, lastSave?]

theorem lastSave?_eq_none {id : String} : lastSave? past id = none ↔ ∀ k ∈ past, k.id ≠ id := by
  simp [lastSave?, List.find?_eq_none]

theorem firstSave?_eq_none {id : String} : firstSave? past id = none ↔ ∀ k ∈ past, k.id ≠ id := by
  simp [firstSave?, List.find?_eq_none]

theorem mem_of_lastSave? {id : String} {k : Kept} (h : lastSave? past id = some k) :
    k ∈ past ∧ k.id = id := by
  have hmem := List.mem_of_find?_eq_some h
  have hid := List.find?_some h
  exact ⟨List.mem_reverse.mp hmem, of_decide_eq_true hid⟩

/-! ## What a ledger tells of the past -/

/-- A saved session is what the last save to it left. -/
structure Mirrors (past : List Kept) (k : Kept) (s : Saved) : Prop where
  mem : k ∈ past
  owner : s.owner = .str k.owner
  title : s.title = k.title
  createdAt : s.createdAt = ((firstSave? past k.id).map Kept.now).getD k.now
  updatedAt : s.updatedAt = k.now
  record : s.record = k.record

/-- The first save to an id stays the first one. -/
theorem Mirrors.append {k : Kept} {s : Saved} (h : Mirrors past k s) (k' : Kept) :
    Mirrors (past ++ [k']) k s := by
  obtain ⟨first, hfirst⟩ : ∃ first, firstSave? past k.id = some first := by
    rw [← Option.ne_none_iff_exists', ne_eq, firstSave?_eq_none]
    exact fun hnone => hnone k h.mem rfl
  refine ⟨List.mem_append_left _ h.mem, h.owner, h.title, ?_, h.updatedAt, h.record⟩
  rw [h.createdAt, firstSave?_append, hfirst, Option.some_or]

/-- The ledger that some saves leave, with the revisions up to a certain one. -/
structure Reflects (ledger : Ledger) (saves : ℕ) (past : List Kept) : Prop where
  distinct : (ledger.map (·.1)).Nodup
  copyable : ledger.IsCopyable
  found : ∀ id, Option.Rel (fun s k => Mirrors past k s) (Entries.get? ledger id) (lastSave? past id)
  owners : ∀ k ∈ past, ∃ s, Entries.get? ledger k.id = some s ∧ s.owner = .str k.owner
  numbered : ∀ e ∈ ledger, e.2.revision ≤ saves
  ordered : ∃ sessions : Ledger, sessions.Perm ledger ∧
    (sessions.Pairwise fun a b => b.2.revision < a.2.revision) ∧
    List.Forall₂ (fun e k => e.1 = k.id ∧ Mirrors past k e.2) sessions (latest past)

theorem reflects_nil : Reflects [] 0 [] where
  distinct := List.nodup_nil
  copyable := fun _ he => nomatch he
  found := fun _ => .none
  owners := fun _ hk => nomatch hk
  numbered := fun _ he => nomatch he
  ordered := ⟨[], .nil, .nil, .nil⟩

variable {ledger : Ledger} {saves : ℕ}

theorem ownerOf_declared {user : Json} (h : user = .null ∨ ∃ u, user = .str u) :
    Store.ownerOf user = .str (ownerName user) := by
  rcases h with rfl | ⟨u, rfl⟩
  · rfl
  · rw [ownerName, Store.ownerOf, Json.orElse]
    split <;> rfl

theorem idIsText_of_declared {request : SaveRequest}
    (h : request.id = .null ∨ ∃ id, request.id = .str id) : request.IdIsText := by
  intro hgiven
  rcases h with hnull | htext
  · rw [hnull] at hgiven
    cases hgiven
  · exact htext

/-- A revision may be taken that no session gets. -/
theorem Reflects.mono (h : Reflects ledger saves past) {taken : ℕ} (hle : saves ≤ taken) :
    Reflects ledger taken past :=
  { h with numbered := fun e he => Nat.le_trans (h.numbered e he) hle }

/-! ## One more save -/

/-- The save that a request shows when it is carried out. -/
def keptOf (request : SaveRequest) (record : Record) : Kept :=
  ⟨request.target, ownerName request.user, request.title, request.now, record⟩

/-- The id of a new session is not in a ledger. -/
def IsNew (ledger : Ledger) (request : SaveRequest) : Prop :=
  request.id.truthy = false → Entries.get? ledger request.freshId = none

section Save

variable {request : SaveRequest} {record : Record}

/-- The session that a save renews is the one under its target. -/
theorem old?_eq (hnew : IsNew ledger request) :
    ledger.old? request = Entries.get? ledger request.target := by
  rw [Ledger.old?]
  cases hgiven : request.id.truthy with
  | true => rfl
  | false =>
    rw [SaveRequest.target_of_not_given hgiven, hnew hgiven]
    rfl

/-- An accepted save goes to a session of its own user. -/
theorem owner_of_accepts (hnew : IsNew ledger request)
    (huser : request.user = .null ∨ ∃ u, request.user = .str u)
    (haccepts : ledger.accepts request record = true) {s : Saved} {owner : String}
    (hs : Entries.get? ledger request.target = some s) (howner : s.owner = .str owner) :
    owner = ownerName request.user := by
  rw [Ledger.accepts, Ledger.isForeign, old?_eq hnew, hs, ownerOf_declared huser, Option.any_some,
    howner, Json.equals_str] at haccepts
  rw [Bool.not_not, Bool.and_eq_true] at haccepts
  have hsame : some (ownerName request.user) = some owner := eq_of_beq haccepts.1
  exact (Option.some.inj hsame).symm

/-- What an accepted save leaves mirrors that save. -/
theorem mirrors_renewed (h : Reflects ledger saves past) (hnew : IsNew ledger request)
    (huser : request.user = .null ∨ ∃ u, request.user = .str u) (record : Record) :
    Mirrors (past ++ [keptOf request record]) (keptOf request record)
      (ledger.renewed saves request record) := by
  refine ⟨List.mem_append_right _ (List.mem_singleton_self _), ownerOf_declared huser, rfl, ?_, rfl,
    rfl⟩
  have hfound := h.found request.target
  have hid : (keptOf request record).id = request.target := rfl
  rw [Ledger.renewed, old?_eq hnew, firstSave?_append, if_pos rfl, hid]
  cases hold : Entries.get? ledger request.target with
  | none =>
    rw [hold] at hfound
    have hlast : lastSave? past request.target = none := by
      generalize lastSave? past request.target = last at hfound
      cases hfound
      rfl
    have hfirst : firstSave? past request.target = none :=
      firstSave?_eq_none.mpr (lastSave?_eq_none.mp hlast)
    rw [hfirst]
    rfl
  | some old =>
    obtain ⟨k, hk, hmirrors⟩ : ∃ k, lastSave? past request.target = some k ∧ Mirrors past k old := by
      rw [hold] at hfound
      generalize lastSave? past request.target = last at hfound
      cases hfound with
      | some hrel => exact ⟨_, rfl, hrel⟩
    obtain ⟨first, hfirst⟩ : ∃ first, firstSave? past request.target = some first := by
      rw [← Option.ne_none_iff_exists', ne_eq, firstSave?_eq_none]
      exact fun hnone => hnone k (mem_of_lastSave? hk).1 (mem_of_lastSave? hk).2
    have hcreated := hmirrors.createdAt
    rw [(mem_of_lastSave? hk).2, hfirst] at hcreated
    rw [hfirst, Option.map_some, Option.getD_some, hcreated]
    rfl

/-- Under its target the last save is found, under other ids what was found before. -/
theorem found_put (h : Reflects ledger saves past)
    (hmirrors : Mirrors (past ++ [keptOf request record]) (keptOf request record)
      (ledger.renewed saves request record)) (id : String) :
    Option.Rel (fun s k => Mirrors (past ++ [keptOf request record]) k s)
      (Entries.get? (ledger.put saves request record) id)
      (lastSave? (past ++ [keptOf request record]) id) := by
  have htarget : (keptOf request record).id = request.target := rfl
  rw [lastSave?_append, Ledger.put, htarget]
  by_cases hid : request.target = id
  · subst hid
    rw [Entries.get?_put_self, if_pos rfl]
    exact .some hmirrors
  · rw [Entries.get?_put_of_ne _ (Ne.symm hid), if_neg hid]
    have hfound := h.found id
    generalize Entries.get? ledger id = saved at hfound
    generalize lastSave? past id = last at hfound
    cases hfound with
    | none => exact .none
    | some hrel => exact .some (hrel.append _)

/-- The session under the id of a save belongs to the user who made it, also after an accepted
save. -/
theorem owners_put (h : Reflects ledger saves past) (hnew : IsNew ledger request)
    (huser : request.user = .null ∨ ∃ u, request.user = .str u)
    (haccepts : ledger.accepts request record = true) {k : Kept}
    (hk : k ∈ past ++ [keptOf request record]) :
    ∃ s, Entries.get? (ledger.put saves request record) k.id = some s ∧
      s.owner = .str k.owner := by
  rw [Ledger.put]
  by_cases hid : k.id = request.target
  · rw [hid, Entries.get?_put_self]
    refine ⟨_, rfl, ?_⟩
    rw [(mirrors_renewed h hnew huser record).owner]
    rcases List.mem_append.mp hk with hk | hk
    · obtain ⟨s, hs, howner⟩ := h.owners k hk
      rw [hid] at hs
      rw [owner_of_accepts hnew huser haccepts hs howner]
      rfl
    · rw [List.mem_singleton.mp hk]
  · rw [Entries.get?_put_of_ne _ hid]
    rcases List.mem_append.mp hk with hk | hk
    · exact h.owners k hk
    · rw [List.mem_singleton.mp hk] at hid
      exact (hid rfl).elim

theorem numbered_put (h : Reflects ledger saves past) {e : String × Saved}
    (he : e ∈ ledger.put saves request record) : e.2.revision ≤ saves + 1 := by
  rcases Ledger.mem_put he with rfl | he
  · exact Nat.le_refl _
  · exact Nat.le_succ_of_le (h.numbered e he)

/-- By their revisions the sessions are in the order of their last saves, the renewed one first. -/
theorem ordered_put (h : Reflects ledger saves past)
    (hmirrors : Mirrors (past ++ [keptOf request record]) (keptOf request record)
      (ledger.renewed saves request record)) :
    ∃ sessions : Ledger, sessions.Perm (ledger.put saves request record) ∧
      (sessions.Pairwise fun a b => b.2.revision < a.2.revision) ∧
      List.Forall₂ (fun e k => e.1 = k.id ∧ Mirrors (past ++ [keptOf request record]) k e.2) sessions
        (latest (past ++ [keptOf request record])) := by
  obtain ⟨sessions, hperm, hpairwise, hmatch⟩ := h.ordered
  refine ⟨(request.target, ledger.renewed saves request record)
    :: sessions.filter (·.1 ≠ request.target), ?_, ?_, ?_⟩
  · exact ((hperm.filter _).cons _).trans (Entries.perm_put h.distinct _ _).symm
  · rw [List.pairwise_cons]
    refine ⟨?_, hpairwise.filter _⟩
    intro e he
    have hle := h.numbered e (hperm.mem_iff.mp (List.mem_of_mem_filter he))
    exact Nat.lt_succ_of_le hle
  · rw [latest_append]
    refine .cons ⟨rfl, hmirrors⟩ ?_
    refine List.rel_filter ?_ (hmatch.imp fun e k hek => ⟨hek.1, hek.2.append _⟩)
    intro e k hek
    have htarget : (keptOf request record).id = request.target := rfl
    simp only [hek.1, htarget]

/-- A save that is carried out is added to the past. -/
theorem Reflects.save (h : Reflects ledger saves past) (hnew : IsNew ledger request)
    (huser : request.user = .null ∨ ∃ u, request.user = .str u)
    (haccepts : ledger.accepts request record = true) :
    Reflects (ledger.put saves request record) (saves + 1) (past ++ [keptOf request record]) := by
  have hmirrors := mirrors_renewed h hnew huser record
  constructor
  case distinct => exact Entries.nodup_put h.distinct _ _
  case copyable =>
    intro e he
    rcases Ledger.mem_put he with rfl | he
    · rw [Ledger.accepts, Bool.and_eq_true] at haccepts
      exact haccepts.2
    · exact h.copyable e he
  case found => exact found_put h hmirrors
  case owners => exact fun k hk => owners_put h hnew huser haccepts hk
  case numbered => exact fun e he => numbered_put h he
  case ordered => exact ordered_put h hmirrors

end Save

/-! ## Answers -/

/-- A storage keeps what some saves left. -/
def Recalls (storage : Storage) (past : List Kept) : Prop :=
  ∃ (ledger : Ledger) (saves : ℕ), storage.Keeps ledger saves ∧ Reflects ledger saves past

variable {storage : Storage}

theorem Call.Declared.idIsText {call : Call} (h : call.Declared) : call.IdIsText := by
  cases call with
  | save request record => exact idIsText_of_declared h.2
  | load user id => trivial
  | list user limit => trivial

theorem isNew_of_isFresh (hstore : storage.store = ledger.store saves)
    {request : SaveRequest} {record : Record} (h : (Call.save request record).IsFresh storage) :
    IsNew ledger request := by
  intro hgiven
  have hhas := h hgiven
  rw [hstore, Entries.has, Ledger.store, Ledger.get?_map_stored] at hhas
  cases hget : Entries.get? ledger request.freshId with
  | none => rfl
  | some s =>
    rw [hget] at hhas
    cases hhas

/-- A call adds to the past the save that it shows, if any. -/
theorem Recalls.answer (h : storage.Recalls past) {call : Call} (hdeclared : call.Declared)
    (hfresh : call.IsFresh storage) :
    (storage.answer call).2.Recalls (past ++ (kept? call (storage.answer call).1).toList) := by
  obtain ⟨ledger, saves, hkeeps, hreflects⟩ := h
  obtain ⟨hreply, hafter, -⟩ := hkeeps.answer hreflects.copyable hdeclared.idIsText
  rw [hreply]
  cases call with
  | save request record =>
    have hnew := isNew_of_isFresh hkeeps.store hfresh
    rw [Ledger.after] at hafter
    by_cases haccepts : ledger.accepts request record = true
    · have hkept : kept? (.save request record) (ledger.reply (.save request record))
          = some (keptOf request record) := by
        rw [ledger.reply_of_accepts haccepts]
        rfl
      rw [if_pos haccepts] at hafter
      rw [hkept, Option.toList_some]
      exact ⟨_, _, hafter, hreflects.save hnew hdeclared.1 haccepts⟩
    · obtain ⟨fault, hfault⟩ := ledger.reply_of_not_accepts haccepts
      rw [if_neg haccepts] at hafter
      have hpast : past ++ (kept? (.save request record)
          (ledger.reply (.save request record))).toList = past := by
        rw [hfault]
        exact List.append_nil past
      rw [hpast]
      refine ⟨ledger, _, hafter, hreflects.mono ?_⟩
      dsimp only
      split
      · exact Nat.le_refl saves
      · exact Nat.le_succ saves
  | load user id =>
    have hnone : kept? (.load user id) (ledger.reply (.load user id)) = none := rfl
    rw [hnone, Option.toList_none, List.append_nil]
    exact ⟨ledger, saves, hafter, hreflects⟩
  | list user limit =>
    have hnone : kept? (.list user limit) (ledger.reply (.list user limit)) = none := rfl
    rw [hnone, Option.toList_none, List.append_nil]
    exact ⟨ledger, saves, hafter, hreflects⟩

/-- So do some calls, one after the other. -/
theorem Recalls.answers (h : storage.Recalls past) {calls : List Call}
    (hdeclared : ∀ call ∈ calls, call.Declared) (hfresh : AreFresh storage calls) :
    (storage.answers calls).2.Recalls (past ++ history storage calls) := by
  induction calls generalizing storage past with
  | nil =>
    rw [history, List.append_nil]
    exact h
  | cons call calls ih =>
    have hfirst := h.answer (hdeclared call List.mem_cons_self) hfresh.1
    have hrest := ih hfirst (fun c hc => hdeclared c (List.mem_cons_of_mem call hc)) hfresh.2
    rw [List.append_assoc] at hrest
    exact hrest

/-! ## Lists -/

theorem limitOf_int (n : Int) : Store.list.limitOf (.int n) = .ok n.toNat := by
  have hcompare : Json.compares .greater (.int 0) (.int n) = .ok (decide (n < 0)) := by
    simp [Json.compares, Json.quantity?, Json.Comparison.through, Quantity.lt]
  rw [Store.list.limitOf]
  simp only [bind, Except.bind, hcompare]
  by_cases hn : n < 0
  · have hzero : n.toNat = 0 := by omega
    simp [hn, hzero, pure, Except.pure]
  · simp [hn, pure, Except.pure]

theorem mem_of_mem_latest {k : Kept} (h : k ∈ latest past) : k ∈ past := by
  induction past using List.reverseRecOn with
  | nil => exact h
  | append_singleton past last ih =>
    rw [latest_append, List.mem_cons] at h
    rcases h with rfl | h
    · exact List.mem_append_right _ (List.mem_singleton_self _)
    · exact List.mem_append_left _ (ih (List.mem_of_mem_filter h))

/-- If the times of saves never decrease, the last saves come with the latest time first. -/
theorem InOrder.latest_times (h : InOrder past) :
    (latest past).Pairwise fun a b => ¬ a.now < b.now := by
  induction past using List.reverseRecOn with
  | nil => exact .nil
  | append_singleton past last ih =>
    obtain ⟨hpast, -, hlast⟩ := List.pairwise_append.mp h
    rw [latest_append, List.pairwise_cons]
    refine ⟨fun k hk => ?_, (ih hpast).filter _⟩
    exact hlast k (mem_of_mem_latest (List.mem_of_mem_filter hk)) last (List.mem_singleton_self _)

/-- Sessions were updated when they were last saved. -/
theorem times_eq {sessions : Ledger} {saves : List Kept}
    (h : List.Forall₂ (fun e k => e.1 = k.id ∧ Mirrors past k e.2) sessions saves) :
    sessions.map (·.2.updatedAt) = saves.map Kept.now := by
  induction h with
  | nil => rfl
  | cons hek _ ih => rw [List.map_cons, List.map_cons, ih, hek.2.updatedAt]

/-- A session that was not updated before another, and has the higher revision, is not the earlier
one. -/
theorem earlier_of_revision {a b : String × Saved} (htime : ¬ a.2.updatedAt < b.2.updatedAt)
    (hlt : b.2.revision < a.2.revision) : Ledger.earlier a b = false := by
  rw [Ledger.earlier_eq_false]
  by_cases hsame : b.2.updatedAt = a.2.updatedAt
  · exact .inr ⟨hsame, Nat.le_of_lt hlt⟩
  · refine .inl ?_
    by_contra hnot
    exact hsame (String.le_antisymm (String.not_lt.mp htime) (String.not_lt.mp hnot))

/-- Two sessions of which none is earlier have the same revision. -/
theorem revision_eq_of_level {a b : String × Saved} (hab : Ledger.earlier a b = false)
    (hba : Ledger.earlier b a = false) : a.2.revision = b.2.revision := by
  rw [Ledger.earlier_eq_false] at hab hba
  rcases hab with hab | ⟨htime, hab⟩
  · rcases hba with hba | ⟨htime', -⟩
    · exact (String.lt_asymm hab hba).elim
    · rw [htime'] at hab
      exact (String.lt_irrefl _ hab).elim
  · rcases hba with hba | ⟨-, hba⟩
    · rw [htime] at hba
      exact (String.lt_irrefl _ hba).elim
    · exact Nat.le_antisymm hba hab

/-- The sessions of an owner that were saved at times which never decrease are listed with the last
saved first. -/
theorem InOrder.recent_eq (h : InOrder past) (owner : Json) {sessions : Ledger}
    (hperm : sessions.Perm ledger)
    (hpairwise : sessions.Pairwise fun a b => b.2.revision < a.2.revision)
    (hmatch : List.Forall₂ (fun e k => e.1 = k.id ∧ Mirrors past k e.2) sessions (latest past)) :
    ledger.recent owner = sessions.filter fun e => e.2.owner.equals owner := by
  obtain ⟨-, hrecent, hsorted⟩ := ledger.recent_spec owner
  have hfilter : (sessions.filter fun e => e.2.owner.equals owner).Perm (ledger.owned owner) :=
    hperm.filter _
  have htimes : sessions.Pairwise fun a b => ¬ a.2.updatedAt < b.2.updatedAt := by
    have hlatest : ((latest past).map Kept.now).Pairwise fun a b => ¬ a < b :=
      List.pairwise_map.mpr h.latest_times
    rw [← times_eq hmatch] at hlatest
    exact List.pairwise_map.mp hlatest
  have hsorted' : (sessions.filter fun e => e.2.owner.equals owner).Pairwise
      fun a b => Ledger.earlier a b = false :=
    ((htimes.and hpairwise).imp fun hab => earlier_of_revision hab.1 hab.2).filter _
  refine List.Perm.eq_of_pairwise ?_ hsorted hsorted' (hrecent.trans hfilter.symm)
  -- two sessions that are level have the same revision, and no two sessions have that
  intro a b ha hb hab hba
  have ha' : a ∈ sessions := by
    have hmem := (hrecent.trans hfilter.symm).mem_iff.mp ha
    exact List.mem_of_mem_filter hmem
  have hb' : b ∈ sessions := List.mem_of_mem_filter hb
  by_contra hne
  have hdiffer : sessions.Pairwise fun a b => a.2.revision ≠ b.2.revision :=
    hpairwise.imp fun hlt => (Nat.ne_of_lt hlt).symm
  have : Std.Symm fun a b : String × Saved => a.2.revision ≠ b.2.revision := ⟨fun _ _ => Ne.symm⟩
  have hrevisions : a.2.revision ≠ b.2.revision := hdiffer.forall ha' hb' hne
  exact hrevisions (revision_eq_of_level hab hba)

theorem equals_owner (a b : String) : (Json.str a).equals (.str b) = decide (a = b) := by
  rw [Json.equals_str, Bool.eq_iff_iff, decide_eq_true_iff, beq_iff_eq]
  exact ⟨fun h => (Option.some.inj h).symm, fun h => congrArg some h.symm⟩

/-- What is shown of the sessions of an owner is what was last saved to them. -/
theorem map_summary_eq (owner : String) {sessions : Ledger} {saves : List Kept}
    (h : List.Forall₂ (fun e k => e.1 = k.id ∧ Mirrors past k e.2) sessions saves) :
    (sessions.filter fun e => e.2.owner.equals (.str owner)).map Ledger.summary
      = (saves.filter (·.owner = owner)).map (shown past) := by
  induction h with
  | nil => rfl
  | @cons e k sessions saves hek _ ih =>
    have howner : e.2.owner.equals (.str owner) = decide (k.owner = owner) := by
      rw [hek.2.owner, equals_owner]
    have hsummary : Ledger.summary e = shown past k := by
      rw [Ledger.summary, shown, hek.1, hek.2.title, hek.2.createdAt, hek.2.updatedAt]
    rw [List.filter_cons, howner, List.filter_cons]
    by_cases hsame : k.owner = owner
    · rw [decide_eq_true hsame, if_pos rfl, if_pos rfl, List.map_cons, List.map_cons, ih, hsummary]
    · rw [decide_eq_false hsame, if_neg Bool.false_ne_true, if_neg Bool.false_ne_true, ih]

/-! ## Ownership -/

theorem Recalls.load (h : storage.Recalls past) {user : Json}
    (huser : user = .null ∨ ∃ u, user = .str u) (id : String) :
    storage.answer (.load user (.str id)) = (.loaded (.ok (match lastSave? past id with
      | none => (.notFound, none)
      | some last => if last.owner = ownerName user then (.ok, some last.record.toJson)
        else (.accessDenied, none))), storage) := by
  obtain ⟨ledger, saves, hkeeps, hreflects⟩ := h
  have htext : (Call.load user (.str id)).IdIsText := trivial
  obtain ⟨hreply, -, -⟩ := hkeeps.answer hreflects.copyable htext
  have hfound := hreflects.found id
  refine Prod.ext ?_ rfl
  rw [hreply, Ledger.reply, Ledger.find, ownerOf_declared huser]
  cases hget : Entries.get? ledger id with
  | none =>
    rw [hget] at hfound
    generalize lastSave? past id = last at hfound
    cases hfound
    rfl
  | some s =>
    rw [hget] at hfound
    generalize lastSave? past id = last at hfound
    cases hfound with
    | @some _ k hmirrors =>
      have howner : s.owner.equals (.str (ownerName user)) = decide (k.owner = ownerName user) := by
        rw [hmirrors.owner, equals_owner]
      dsimp only
      rw [howner, hmirrors.record]
      by_cases hsame : k.owner = ownerName user
      · rw [decide_eq_true hsame, if_pos rfl, if_pos hsame]
        rfl
      · rw [decide_eq_false hsame, if_neg Bool.false_ne_true, if_neg hsame]
        rfl

theorem Recalls.list (h : storage.Recalls past) {user : Json}
    (huser : user = .null ∨ ∃ u, user = .str u) (n : Int) :
    ∃ full : List SessionSummary,
      storage.answer (.list user (.int n)) = (.listed (.ok (full.take n.toNat)), storage) ∧
      full.Perm (((latest past).filter (·.owner = ownerName user)).map (shown past)) ∧
      (InOrder past →
        full = ((latest past).filter (·.owner = ownerName user)).map (shown past)) := by
  obtain ⟨ledger, saves, hkeeps, hreflects⟩ := h
  have htext : (Call.list user (.int n)).IdIsText := trivial
  obtain ⟨hreply, -, -⟩ := hkeeps.answer hreflects.copyable htext
  obtain ⟨sessions, hperm, hpairwise, hmatch⟩ := hreflects.ordered
  have hshown := map_summary_eq (ownerName user) hmatch
  obtain ⟨-, hrecent, -⟩ := ledger.recent_spec (.str (ownerName user))
  refine ⟨(ledger.recent (.str (ownerName user))).map Ledger.summary, Prod.ext ?_ rfl, ?_, ?_⟩
  · rw [hreply, Ledger.reply, ownerOf_declared huser, limitOf_int, ← List.map_take]
    rfl
  · rw [← hshown]
    exact (hrecent.trans (hperm.filter _).symm).map _
  · intro hinOrder
    rw [hinOrder.recent_eq _ hperm hpairwise hmatch, hshown]

/-- A save is refused when its id is that of a session of someone else. -/
theorem Reflects.isForeign_iff (h : Reflects ledger saves past) {request : SaveRequest}
    (huser : request.user = .null ∨ ∃ u, request.user = .str u)
    (hid : request.id = .null ∨ ∃ id, request.id = .str id) :
    ledger.isForeign request = true ↔
      ∃ k ∈ past, request.id = .str k.id ∧ k.id ≠ "" ∧ ownerName request.user ≠ k.owner := by
  have hgiven : ∀ {t}, request.id = .str t → (request.id.truthy = true ↔ t ≠ "") := by
    intro t ht
    rw [ht, Json.truthy, decide_eq_true_iff]
  rw [Ledger.isForeign, Ledger.old?, ownerOf_declared huser]
  constructor
  · intro hforeign
    by_cases htruthy : request.id.truthy = true
    · obtain ⟨t, ht⟩ := idIsText_of_declared hid htruthy
      rw [if_pos htruthy, SaveRequest.target_of_given ht htruthy] at hforeign
      have hfound := h.found t
      cases hget : Entries.get? ledger t with
      | none =>
        rw [hget] at hforeign
        cases hforeign
      | some s =>
        rw [hget] at hforeign hfound
        cases hlast : lastSave? past t with
        | none =>
          rw [hlast] at hfound
          cases hfound
        | some k =>
          rw [hlast] at hfound
          cases hfound with
          | some hmirrors =>
            obtain ⟨hmem, hkid⟩ := mem_of_lastSave? hlast
            rw [Option.any_some, hmirrors.owner, equals_owner, Bool.not_eq_true',
              decide_eq_false_iff_not] at hforeign
            refine ⟨k, hmem, by rw [hkid, ht], ?_, Ne.symm hforeign⟩
            rw [hkid]
            exact (hgiven ht).mp htruthy
    · rw [if_neg htruthy] at hforeign
      cases hforeign
  · rintro ⟨k, hk, ht, hne, howner⟩
    have htruthy := (hgiven ht).mpr hne
    obtain ⟨s, hs, howner'⟩ := h.owners k hk
    rw [if_pos htruthy, SaveRequest.target_of_given ht htruthy, hs, Option.any_some, howner',
      equals_owner, Bool.not_eq_true', decide_eq_false_iff_not]
    exact Ne.symm howner

theorem Recalls.owned (h : storage.Recalls past) : storage.Owned past := by
  obtain ⟨ledger, saves, hkeeps, hreflects⟩ := id h
  constructor
  case one_owner =>
    intro k hk k' hk' hsame
    obtain ⟨s, hs, howner⟩ := hreflects.owners k hk
    obtain ⟨s', hs', howner'⟩ := hreflects.owners k' hk'
    rw [hsame, hs'] at hs
    cases hs
    rw [howner] at howner'
    exact Json.str.inj howner'
  case foreign_save =>
    intro k hk request record hdeclared hid hne howner
    have hforeign := (hreflects.isForeign_iff hdeclared.1 hdeclared.2).mpr ⟨k, hk, hid, hne, howner⟩
    have htext : request.id.text = k.id := by
      rw [hid]
      exact Json.text_str k.id
    rw [Storage.answer, hkeeps.save_eq hdeclared.idIsText, if_pos hforeign, htext]
  case own_save =>
    intro request record hdeclared hfresh hcopyable hown
    obtain ⟨hreply, -, -⟩ := hkeeps.answer hreflects.copyable hdeclared.idIsText
    have hforeign : ¬ ledger.isForeign request = true := by
      rw [hreflects.isForeign_iff hdeclared.1 hdeclared.2]
      rintro ⟨k, hk, hid, hne, howner⟩
      exact howner (hown k hk hid hne)
    rw [hreply, Ledger.reply, if_neg hforeign, if_pos hcopyable]
  case load => exact fun user id hdeclared => h.load hdeclared.1 id
  case list => exact fun user n hdeclared => h.list hdeclared.1 n

/-- Over any sequence of calls on an empty store, sessions are owned as their past tells. -/
theorem sessions_owned (calls : List Call) (hdeclared : ∀ call ∈ calls, call.Declared)
    (hfresh : AreFresh {} calls) : (answers {} calls).2.Owned (history {} calls) := by
  have hempty : Recalls {} [] := ⟨[], 0, ⟨rfl, nofun⟩, reflects_nil⟩
  exact (hempty.answers hdeclared hfresh).owned

/-- Ada and Bob save a board each in the same instant, Bob is refused Ada's, and Ada saves hers
again. Bob may not load it; Ada finds what she saved last, and when she saved first. -/
theorem shared_store_owned :
    let board (title : String) : Record := ⟨.obj [("title", .str title)], .json (.obj []), .null⟩
    let calls : List Call := [
      .save ⟨.str "ada", .null, "s1", .str "A", "2024"⟩ (board "A"),
      .save ⟨.str "bob", .str "", "s2", .str "B", "2024"⟩ (board "B"),
      .save ⟨.str "bob", .str "s1", "s3", .str "C", "2024"⟩ (board "C"),
      .save ⟨.str "ada", .str "s1", "s4", .str "D", "2025"⟩ (board "D")]
    let storage := (answers {} calls).2
    storage.answer (.load (.str "bob") (.str "s1"))
        = (.loaded (.ok (.accessDenied, none)), storage) ∧
      storage.answer (.load (.str "ada") (.str "s1"))
        = (.loaded (.ok (.ok, some (board "D").toJson)), storage) ∧
      storage.answer (.list (.str "ada") (.int 3))
        = (.listed (.ok [⟨.str "s1", .str "D", .str "2024", .str "2025"⟩]), storage) := by
  intro board calls storage
  have hdeclared : ∀ call ∈ calls, call.Declared := by
    simp only [calls, List.forall_mem_cons]
    exact ⟨⟨Or.inr ⟨_, rfl⟩, Or.inl rfl⟩, ⟨Or.inr ⟨_, rfl⟩, Or.inr ⟨_, rfl⟩⟩,
      ⟨Or.inr ⟨_, rfl⟩, Or.inr ⟨_, rfl⟩⟩, ⟨Or.inr ⟨_, rfl⟩, Or.inr ⟨_, rfl⟩⟩, fun _ h => nomatch h⟩
  have hfresh : AreFresh {} calls := ⟨fun _ => rfl, fun _ => rfl, nofun, nofun, trivial⟩
  have howned : storage.Owned (history {} calls) := sessions_owned calls hdeclared hfresh
  have hinOrder : InOrder (history {} calls) := by
    have htimes : (history {} calls).map Kept.now = ["2024", "2024", "2025"] := rfl
    have hsorted : ((history {} calls).map Kept.now).Pairwise fun a b => ¬ b < a := by
      rw [htimes]
      decide
    exact List.pairwise_map.mp hsorted
  obtain ⟨full, hlist, -, hfull⟩ := howned.list (.str "ada") 3 ⟨Or.inr ⟨_, rfl⟩, _, rfl⟩
  rw [hfull hinOrder] at hlist
  exact ⟨howned.load (.str "bob") "s1" ⟨Or.inr ⟨_, rfl⟩, _, rfl⟩,
    howned.load (.str "ada") "s1" ⟨Or.inr ⟨_, rfl⟩, _, rfl⟩, hlist⟩

end Storage

end DecisionBoard
