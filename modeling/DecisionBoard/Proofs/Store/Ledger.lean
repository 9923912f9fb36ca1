import DecisionBoard.Proofs.Copies
import DecisionBoard.Proofs.Entries
import DecisionBoard.Proofs.Sorting
import DecisionBoard.Store

/-!
# The ledger behind a store

A store keeps the parts of a session by name, as values of any type, because that is what a file
may hold. A store that was only ever saved to holds more than that: under every id, a text, stands
a session with all its parts, its times texts and its revision a number. Such a store is that of a
*ledger*, and saving, loading and listing are functions of the ledger.
-/

namespace DecisionBoard

/-! ## Sessions and ledgers -/

/-- One saved session. -/
structure Saved where
  owner : Json
  title : Json
  createdAt : String
  updatedAt : String
  revision : Nat
  record : Record

/-- The parts of a saved session by name. -/
def Saved.stored (s : Saved) : StoredSession := [
  ("owner", .json s.owner), ("title", .json s.title), ("created_at", .json (.str s.createdAt)),
  ("updated_at", .json (.str s.updatedAt)), ("revision", .json (.int s.revision)),
  ("spec", .json s.record.spec), ("widgetState", s.record.widgetState),
  ("verdict", .json s.record.verdict)]

/-- The saved sessions by id. -/
abbrev Ledger := Entries String Saved

namespace SaveRequest

/-- The id of a save is a text, or does not count as given. -/
def IdIsText (request : SaveRequest) : Prop :=
  request.id.truthy = true → ∃ s, request.id = .str s

/-- The id that a session is saved under. -/
def target (request : SaveRequest) : String :=
  (request.id.orElse (.str request.freshId)).string?.getD ""

theorem target_of_given {request : SaveRequest} {s : String} (h : request.id = .str s)
    (hgiven : request.id.truthy = true) : request.target = s := by
  rw [target, Json.orElse, if_pos hgiven, h]
  rfl

theorem target_of_not_given {request : SaveRequest} (h : request.id.truthy = false) :
    request.target = request.freshId := by
  rw [target, Json.orElse, h]
  rfl

theorem ofJson_target {request : SaveRequest} (h : request.IdIsText) :
    Key.ofJson (request.id.orElse (.str request.freshId)) = .ok (.str request.target) := by
  cases hgiven : request.id.truthy with
  | true =>
    obtain ⟨s, hs⟩ := h hgiven
    rw [target_of_given hs hgiven, Json.orElse, if_pos hgiven, hs]
    rfl
  | false =>
    rw [target_of_not_given hgiven, Json.orElse, hgiven]
    rfl

end SaveRequest

namespace Ledger

/-- The store of a ledger after a number of saves. -/
def store (ledger : Ledger) (saves : Nat) : Store :=
  ⟨ledger.map fun (id, s) => (.str id, s.stored), .whole (saves + 1)⟩

variable (ledger : Ledger) (saves : Nat)

theorem get?_map_stored (id : String) :
    Entries.get? (ledger.map fun (id, s) => (Key.str id, s.stored)) (.str id)
      = (Entries.get? ledger id).map Saved.stored :=
  Entries.get?_map Saved.stored Key.beq_of_str ledger id

theorem get?_map_stored_of_ne {k : Key} (h : ∀ id, k ≠ .str id) :
    Entries.get? (ledger.map fun (id, s) => (Key.str id, s.stored)) k = none := by
  induction ledger with
  | nil => rfl
  | cons e ledger ih =>
    obtain ⟨id', s⟩ := e
    have hne : (k == Key.str id') = false := by
      rw [Bool.eq_false_iff, ne_eq, Key.beq_str]
      exact h id'
    simp only [List.map_cons, Entries.get?, hne]
    exact ih

theorem put_map_stored (id : String) (s : Saved) :
    Entries.put (ledger.map fun (id, s) => (Key.str id, s.stored)) (.str id) s.stored
      = (Entries.put ledger id s).map fun (id, s) => (Key.str id, s.stored) :=
  Entries.put_map Saved.stored Key.beq_of_str ledger id s

/-! ## Saving -/

/-- The session that a save goes to, if it is there. -/
def old? (request : SaveRequest) : Option Saved :=
  if request.id.truthy then Entries.get? ledger request.target else none

/-- Whether a save goes to a session of someone else. -/
def isForeign (request : SaveRequest) : Bool :=
  (ledger.old? request).any fun old => !old.owner.equals (Store.ownerOf request.user)

/-- What a save puts in the place of the old session. -/
def renewed (request : SaveRequest) (record : Record) : Saved where
  owner := Store.ownerOf request.user
  title := request.title
  createdAt := ((ledger.old? request).map Saved.createdAt).getD request.now
  updatedAt := request.now
  revision := saves + 1
  record := record

/-- The ledger after a save. -/
def put (request : SaveRequest) (record : Record) : Ledger :=
  Entries.put ledger request.target (ledger.renewed saves request record)

theorem existing?_store {request : SaveRequest} (h : request.IdIsText) :
    (ledger.store saves).existing? request.id = .ok ((ledger.old? request).map Saved.stored) := by
  rw [Store.existing?, old?]
  cases hgiven : request.id.truthy with
  | true =>
    obtain ⟨s, hs⟩ := h hgiven
    rw [if_pos rfl, if_pos rfl, SaveRequest.target_of_given hs hgiven, hs]
    exact congrArg Except.ok (get?_map_stored ledger s)
  | false => rfl

/-- A save is granted unless it goes to a session of someone else. -/
theorem grant_store {request : SaveRequest} (h : request.IdIsText) :
    (ledger.store saves).grant request
      = if ledger.isForeign request then .error (.ownedByAnother request.id.text)
        else .ok (.str request.target,
          .str (((ledger.old? request).map Saved.createdAt).getD request.now)) := by
  rw [Store.grant, existing?_store ledger saves h, isForeign]
  simp only [bind, Except.bind, SaveRequest.ofJson_target h]
  cases hold : ledger.old? request with
  | none => rfl
  | some old =>
    have howner : Store.jsonPart old.stored "owner" = .ok old.owner := rfl
    have hcreated : Store.jsonPart old.stored "created_at" = .ok (.str old.createdAt) := rfl
    simp only [Option.map_some, howner, hcreated, Option.any_some]
    by_cases hforeign : (!old.owner.equals (Store.ownerOf request.user)) = true
    · rw [if_pos hforeign, if_pos hforeign]
      rfl
    · rw [if_neg hforeign, if_neg hforeign]
      rfl

/-- A save of a ledger's store: refused for a session of someone else, else the store of the ledger
with the session renewed. A record that cannot be copied is refused as well, but only after the
revision was taken. -/
theorem save_store {request : SaveRequest} (h : request.IdIsText) (record : Record) :
    (ledger.store saves).save request record
      = if ledger.isForeign request then
          (.error (.ownedByAnother request.id.text), ledger.store saves)
        else if record.isCopyable then
          (.ok (.str request.target), (ledger.put saves request record).store (saves + 1))
        else (.error .tooDeepToCopy, ledger.store (saves + 1)) := by
  have hput := put_map_stored ledger request.target (ledger.renewed saves request record)
  rw [Store.save, grant_store ledger saves h]
  by_cases hforeign : ledger.isForeign request = true
  · rw [if_pos hforeign, if_pos hforeign]
  · rw [if_neg hforeign, if_neg hforeign]
    dsimp only
    rw [record.copied_eq]
    cases record.isCopyable with
    | false => rfl
    | true =>
      exact congrArg (fun sessions => (Except.ok (Key.str request.target),
        (⟨sessions, .whole (saves + 1 + 1)⟩ : Store))) hput

/-! ## Loading -/

/-- What a load of an id finds for an owner. -/
def find (owner : Json) (id : String) : LoadStatus × Option Record :=
  match Entries.get? ledger id with
  | none => (.notFound, none)
  | some s => if s.owner.equals owner then (.ok, some s.record) else (.accessDenied, none)

/-- Nothing is kept that cannot be copied. -/
def IsCopyable : Prop := ∀ e ∈ ledger, e.2.record.isCopyable = true

theorem load_store (h : ledger.IsCopyable) (user : Json) (id : String) :
    (ledger.store saves).load user (.str id) = .ok (ledger.find (Store.ownerOf user) id) := by
  have hget : Entries.get? (ledger.store saves).sessions (.str id)
      = (Entries.get? ledger id).map Saved.stored := get?_map_stored ledger id
  rw [Store.load, find]
  simp only [bind, Except.bind, Key.ofJson, hget]
  cases hfound : Entries.get? ledger id with
  | none => rfl
  | some s =>
    have hcopy : Record.copied ⟨s.record.spec, s.record.widgetState, s.record.verdict⟩
        = .ok s.record := by
      rw [Record.copied_eq, if_pos (h (id, s) (Entries.mem_of_get? hfound))]
    have howner : Store.jsonPart s.stored "owner" = .ok s.owner := rfl
    have hspec : Store.jsonPart s.stored "spec" = .ok s.record.spec := rfl
    have hstate : Store.part s.stored "widgetState" = .ok s.record.widgetState := rfl
    have hverdict : Store.jsonPart s.stored "verdict" = .ok s.record.verdict := rfl
    simp only [Option.map_some, howner, hspec, hstate, hverdict, hcopy]
    cases s.owner.equals (Store.ownerOf user) <;> rfl

/-- What is no text is the id of no session. -/
theorem load_store_of_ne {id : Json} (h : ∀ s, id ≠ .str s) (user : Json) :
    (ledger.store saves).load user id = (Key.ofJson id).map fun _ => (.notFound, none) := by
  rw [Store.load]
  cases hkey : Key.ofJson id with
  | error fault => rfl
  | ok k =>
    have hne : ∀ s, k ≠ .str s := by
      rintro s rfl
      cases id <;> simp [Key.ofJson] at hkey
      exact h _ rfl
    have hget : Entries.get? (ledger.store saves).sessions k = none := get?_map_stored_of_ne ledger hne
    simp only [bind, Except.bind, hget]
    rfl

/-! ## Listing -/

/-- A session of a list with its id. -/
def summary (e : String × Saved) : SessionSummary :=
  ⟨.str e.1, e.2.title, .str e.2.createdAt, .str e.2.updatedAt⟩

/-- A session with the values that place it in a list. -/
def listed (e : String × Saved) : Store.Listed :=
  (.str e.1, e.2.stored, .str e.2.updatedAt, .int e.2.revision)

/-- Whether a session was updated before another; of those updated at the same time, the one with
the lower revision. -/
def earlier (a b : String × Saved) : Bool :=
  if a.2.updatedAt = b.2.updatedAt then a.2.revision < b.2.revision
  else a.2.updatedAt < b.2.updatedAt

theorem updatedBefore_listed (a b : String × Saved) :
    Store.updatedBefore (listed a) (listed b) = .ok (earlier a b) := by
  by_cases htime : a.2.updatedAt = b.2.updatedAt
  · by_cases hrevision : a.2.revision = b.2.revision
    · simp [Store.updatedBefore, listed, earlier, Json.comparesList, Json.agrees, Json.string?,
        Json.quantity?, Quantity.agrees, htime, hrevision]
    · have hrevision' : ¬ (a.2.revision : Int) = b.2.revision := Int.ofNat_inj.not.mpr hrevision
      simp [Store.updatedBefore, listed, earlier, Json.comparesList, Json.agrees, Json.string?,
        Json.quantity?, Quantity.agrees, Json.compares, Json.Comparison.through, Quantity.lt, htime,
        hrevision']
  · have htime' : ¬ b.2.updatedAt = a.2.updatedAt := fun h => htime h.symm
    simp [Store.updatedBefore, listed, earlier, Json.comparesList, Json.agrees, Json.string?,
      Json.compares, Json.Comparison.through, htime, htime']

theorem earlier_eq_false {a b : String × Saved} :
    earlier b a = false ↔ a.2.updatedAt < b.2.updatedAt ∨
      a.2.updatedAt = b.2.updatedAt ∧ a.2.revision ≤ b.2.revision := by
  by_cases htime : b.2.updatedAt = a.2.updatedAt
  · have hirrefl : ¬ a.2.updatedAt < b.2.updatedAt := by
      rw [htime]
      exact String.lt_irrefl _
    rw [earlier, if_pos htime, decide_eq_false_iff_not, Nat.not_lt]
    exact ⟨fun h => Or.inr ⟨htime.symm, h⟩, fun h => (h.resolve_left hirrefl).2⟩
  · rw [earlier, if_neg htime, decide_eq_false_iff_not, String.not_lt]
    constructor
    · intro hle
      refine Or.inl ?_
      by_contra hlt
      exact htime (String.le_antisymm (String.not_lt.mp hlt) hle)
    · rintro (hlt | ⟨heq, -⟩)
      · exact String.not_lt.mp (String.lt_asymm hlt)
      · exact absurd heq.symm htime

theorem isOrder_earlier : Sorting.IsOrder earlier where
  asymm := by
    intro a b hab
    simp only [earlier] at hab ⊢
    by_cases htime : a.2.updatedAt = b.2.updatedAt
    · rw [if_pos htime, decide_eq_true_iff] at hab
      rw [if_pos htime.symm, decide_eq_false_iff_not]
      omega
    · rw [if_neg htime, decide_eq_true_iff] at hab
      rw [if_neg (Ne.symm htime), decide_eq_false_iff_not]
      exact String.lt_asymm hab
  trans := by
    intro a b c hab hbc
    rw [earlier_eq_false] at hab hbc ⊢
    rcases hab with hab | ⟨hab, hrevisions⟩
    · rcases hbc with hbc | ⟨hbc, -⟩
      · exact Or.inl (String.lt_trans hab hbc)
      · exact Or.inl (hbc ▸ hab)
    · rcases hbc with hbc | ⟨hbc, hrevisions'⟩
      · exact Or.inl (hab ▸ hbc)
      · exact Or.inr ⟨hab.trans hbc, Nat.le_trans hrevisions hrevisions'⟩

/-- The sessions of an owner. -/
def owned (owner : Json) : Ledger := ledger.filter fun e => e.2.owner.equals owner

/-- The sessions of an owner, the last updated first. -/
def recent (owner : Json) : Ledger :=
  match Sorting.sortDescending (Sorting.ofOrder earlier) (ledger.owned owner) with
  | .ok sorted => sorted
  | .error _ => []

theorem recent_spec (owner : Json) :
    Sorting.sortDescending (Sorting.ofOrder earlier) (ledger.owned owner)
        = .ok (ledger.recent owner) ∧
      (ledger.recent owner).Perm (ledger.owned owner) ∧
      (ledger.recent owner).Pairwise fun a b => earlier a b = false := by
  obtain ⟨sorted, hsort, hperm, hsorted⟩ :=
    Sorting.sortDescending_spec isOrder_earlier (ledger.owned owner)
  have hrecent : ledger.recent owner = sorted := by rw [recent, hsort]
  rw [hrecent]
  exact ⟨hsort, hperm, hsorted⟩

/-- A list of a ledger's store: the sessions of the user, the last updated first, cut short. -/
theorem list_store (user limit : Json) :
    (ledger.store saves).list user limit
      = (Store.list.limitOf limit).map
          fun cut => ((ledger.recent (Store.ownerOf user)).take cut).map summary := by
  obtain ⟨hsort, -, -⟩ := ledger.recent_spec (Store.ownerOf user)
  generalize ledger.recent (Store.ownerOf user) = sorted at hsort
  have hthrough : Sorting.through listed Store.updatedBefore = Sorting.ofOrder earlier := by
    funext a b
    exact updatedBefore_listed a b
  have hlisted : Sorting.sortDescending Store.updatedBefore
      ((ledger.owned (Store.ownerOf user)).map listed) = .ok (sorted.map listed) := by
    rw [Sorting.sortDescending_map, hthrough, hsort]
    rfl
  rw [Store.list]
  refine bind_of_ok (filterM_map_ok (q := fun e => e.2.owner.equals (Store.ownerOf user))
    fun _ _ => rfl) ?_
  refine bind_of_ok (mapM_map_ok (g := listed) fun _ _ => rfl) ?_
  refine bind_of_ok hlisted ?_
  cases Store.list.limitOf limit with
  | error fault => rfl
  | ok cut =>
    refine bind_of_ok rfl ?_
    rw [← List.map_take]
    exact mapM_map_ok fun _ _ => rfl

end Ledger

end DecisionBoard
