import DecisionBoard.Proofs.Json.LineEnds
import DecisionBoard.Proofs.Store.Ledger

/-!
# A ledger's file

The file of a ledger's store holds all that the ledger holds: opening it gives the store of the
same ledger, in which copies of widget states have become the JSON objects that they are written
as. The next revision is counted from the greatest one in the file. Revisions that were taken after
it, by saves that were refused, are taken again.
-/

namespace DecisionBoard

/-! ## What a file can hold -/

/-- A value that comes back from a file: what a text can hold, not nested too deep. -/
structure Json.Storable (v : Json) : Prop where
  portable : v.isPortable = true
  shallow : v.depth ≤ Json.copyLimit

theorem Json.storable_str (s : String) : (Json.str s).Storable := ⟨rfl, Nat.zero_le _⟩

/-- An integer that comes back from a file: it has at most as many digits as are read. -/
theorem Json.storable_of_le {m n : Nat} (hmn : m ≤ n) (hn : (Json.int n).isPortable = true) :
    (Json.int m).Storable := by
  refine ⟨?_, Nat.zero_le _⟩
  rw [Json.isPortable, decide_eq_true_iff, Int.natAbs_natCast,
    Nat.length_toDigits_le_iff (by decide) (by decide)] at hn ⊢
  exact Nat.lt_of_le_of_lt hmn hn

namespace Record

/-- A record whose parts can be held by a text. -/
structure Portable (r : Record) : Prop where
  spec : r.spec.isPortable = true
  widgetState : r.widgetState.toJson.isPortable = true
  verdict : r.verdict.isPortable = true

/-- A record with its widget state as JSON. -/
def plain (r : Record) : Record := { r with widgetState := .json r.widgetState.toJson }

end Record

namespace Saved

/-- A session whose parts come back from a file. -/
structure Storable (s : Saved) : Prop where
  owner : s.owner.Storable
  title : s.title.Storable
  record : s.record.Portable
  copyable : s.record.isCopyable = true

/-- A session with its widget state as JSON. -/
def plain (s : Saved) : Saved := { s with record := s.record.plain }

/-- The parts of a session as an object's fields. -/
def fields (s : Saved) : Fields := s.stored.map fun (name, a) => (name, a.toJson)

theorem storable_part {s : Saved} (h : s.Storable) (hrevision : (Json.int s.revision).Storable) :
    ∀ f ∈ s.fields, f.2.Storable := by
  obtain ⟨hspec, hstate, hverdict⟩ := h.record
  obtain ⟨hspec', hstate', hverdict'⟩ := Record.isCopyable_iff.mp h.copyable
  rw [Json.isCopyable_iff] at hspec' hstate' hverdict'
  simp only [fields, stored, List.map_cons, List.map_nil, List.forall_mem_cons]
  exact ⟨h.owner, h.title, Json.storable_str _, Json.storable_str _, hrevision, ⟨hspec, hspec'⟩,
    ⟨hstate, hstate'⟩, ⟨hverdict, hverdict'⟩, fun _ hf => absurd hf List.not_mem_nil⟩

end Saved

namespace Ledger

/-- A ledger whose file can be read, with the revisions up to a certain one. -/
structure Regular (ledger : Ledger) (saves : Nat) : Prop where
  distinct : (ledger.map (·.1)).Nodup
  storable : ∀ e ∈ ledger, e.2.Storable
  numbered : ∀ e ∈ ledger, e.2.revision ≤ saves

/-- A ledger with its widget states as JSON. -/
def plain (ledger : Ledger) : Ledger := ledger.map fun (id, s) => (id, s.plain)

/-- The sessions of a ledger as an object's fields. -/
def fields (ledger : Ledger) : Fields := ledger.map fun (id, s) => (id, .obj s.fields)

/-- What the file of a ledger holds. -/
def toJson (ledger : Ledger) : Json := .obj [("sessions", .obj ledger.fields)]

variable (ledger : Ledger) (saves : Nat)

/-- The file does not tell the revision that the next save gets. -/
theorem toJson_store : (ledger.store saves).toJson = ledger.toJson := by
  rw [Store.toJson, store, List.map_map]
  rfl

theorem fileText_store : (ledger.store saves).fileText = ledger.toJson.writeIndented := by
  rw [Store.fileText, toJson_store]

theorem toJson_plain : ledger.plain.toJson = ledger.toJson := by
  rw [toJson, toJson, plain, fields, fields, List.map_map]
  rfl

/-! ## Reading the file -/

variable {ledger saves}

theorem storable_toJson (h : ledger.Regular saves) (hsaves : (Json.int saves).isPortable = true) :
    ledger.toJson.isPortable = true ∧ ledger.toJson.depth ≤ Json.nestingLimit := by
  have hpart : ∀ e ∈ ledger, ∀ f ∈ e.2.fields, f.2.Storable := fun e he =>
    Saved.storable_part (h.storable e he) (Json.storable_of_le (h.numbered e he) hsaves)
  have hsession : ∀ f ∈ ledger.fields, f.2.isPortable = true ∧ f.2.depth ≤ Json.copyLimit + 1 := by
    intro f hf
    obtain ⟨e, he, rfl⟩ := List.mem_map.mp hf
    have hnames : (e.2.fields.map (·.1)).Nodup := by
      have hlist : e.2.fields.map (·.1) = ["owner", "title", "created_at", "updated_at", "revision",
          "spec", "widgetState", "verdict"] := rfl
      rw [hlist]
      decide
    have hportable := Json.isPortable_obj.mpr ⟨fun f hf => (hpart e he f hf).portable, hnames⟩
    have hdepth := Json.depthFields_le.mpr fun f hf => (hpart e he f hf).shallow
    exact ⟨hportable, Nat.succ_le_succ hdepth⟩
  have hids : (ledger.fields.map (·.1)).Nodup := by
    have hmap : ledger.fields.map (·.1) = ledger.map (·.1) := by
      rw [fields, List.map_map]
      rfl
    rw [hmap]
    exact h.distinct
  have hportable : (Json.obj ledger.fields).isPortable = true :=
    Json.isPortable_obj.mpr ⟨fun f hf => (hsession f hf).1, hids⟩
  have hdepth : Json.depthFields ledger.fields ≤ Json.copyLimit + 1 :=
    Json.depthFields_le.mpr fun f hf => (hsession f hf).2
  constructor
  · rw [toJson, Json.isPortable_obj, List.forall_mem_singleton]
    exact ⟨hportable, List.pairwise_singleton _ _⟩
  · simp only [toJson, Json.depth, Json.depthFields, Json.nestingLimit, Json.copyLimit] at hdepth ⊢
    omega

theorem statedRevision_fields (s : Saved) :
    Store.statedRevision (.obj s.fields) = .ok (.int s.revision) := rfl

/-- The greater of two revisions is kept. -/
theorem greater_revision (best : Nat) (s : Saved) :
    (do
      let stated ← Store.statedRevision (.obj s.fields)
      return if ← Json.compares .greater stated (.int best) then stated else .int best)
      = (.ok (.int (max best s.revision : Nat)) : Checked Json) := by
  have hcompare : Json.compares .greater (.int s.revision) (.int best)
      = .ok (decide (best < s.revision)) := by
    simp [Json.compares, Json.quantity?, Json.Comparison.through, Quantity.lt]
  simp only [statedRevision_fields, bind, Except.bind, hcompare]
  by_cases hlt : best < s.revision
  · rw [Nat.max_eq_right (Nat.le_of_lt hlt)]
    simp [hlt, pure, Except.pure]
  · rw [Nat.max_eq_left (Nat.not_lt.mp hlt)]
    simp [hlt, pure, Except.pure]

theorem foldlM_revision (rest : Ledger) (best : Nat) :
    (rest.fields.map (·.2)).foldlM (fun best session => do
        let stated ← Store.statedRevision session
        return if ← Json.compares .greater stated best then stated else best) (Json.int best)
      = (.ok (.int (rest.foldl (fun best e => max best e.2.revision) best : Nat)) : Checked Json) := by
  induction rest generalizing best with
  | nil => rfl
  | cons e rest ih =>
    have hstep := greater_revision best e.2
    have hrest := ih (max best e.2.revision)
    have hcons : (fields (e :: rest)).map (·.2) = .obj e.2.fields :: (fields rest).map (·.2) := rfl
    rw [hcons, List.foldlM_cons, hstep, List.foldl_cons]
    exact hrest

/-- The greatest revision in a ledger, zero if it has none. -/
def greatest (ledger : Ledger) : Nat := ledger.foldl (fun best e => max best e.2.revision) 0

/-- A maximum over a list of revisions. -/
theorem foldl_max_le (ledger : Ledger) (best bound : Nat) :
    ledger.foldl (fun best e => max best e.2.revision) best ≤ bound ↔
      best ≤ bound ∧ ∀ e ∈ ledger, e.2.revision ≤ bound := by
  induction ledger generalizing best with
  | nil => simp
  | cons e ledger ih => rw [List.foldl_cons, ih, max_le_iff, List.forall_mem_cons, and_assoc]

theorem greatest_le {bound : Nat} :
    ledger.greatest ≤ bound ↔ ∀ e ∈ ledger, e.2.revision ≤ bound := by
  rw [greatest, foldl_max_le]
  exact and_iff_right (Nat.zero_le bound)

theorem le_greatest {e : String × Saved} (he : e ∈ ledger) : e.2.revision ≤ ledger.greatest :=
  greatest_le.mp le_rfl e he

/-- The greatest revision is found in the file. -/
theorem greatestRevision_fields (ledger : Ledger) :
    Store.greatestRevision (ledger.fields.map (·.2)) = .ok (.int ledger.greatest) := by
  cases ledger with
  | nil => rfl
  | cons e rest =>
    have hcons : (fields (e :: rest)).map (·.2) = .obj e.2.fields :: (fields rest).map (·.2) := rfl
    have hfold := foldlM_revision rest e.2.revision
    rw [hcons, Store.greatestRevision, statedRevision_fields, greatest, List.foldl_cons,
      Nat.zero_max]
    exact hfold

/-- The sessions of the file of a ledger. -/
theorem sessionsOf_toJson (ledger : Ledger) :
    Store.sessionsOf ledger.toJson = .ok (ledger.map fun e => (Key.str e.1, .obj e.2.fields)) := by
  have hsessions : Store.sessionsOf ledger.toJson
      = .ok (ledger.fields.map fun f => (Key.str f.1, f.2)) := by
    cases ledger with
    | nil => rfl
    | cons e rest => rfl
  rw [hsessions, fields, List.map_map]
  rfl

/-- Opening the file of a regular ledger gives its store again, with the revisions counted from the
greatest one that is kept. -/
theorem openFile_store (h : ledger.Regular saves) (hsaves : (Json.int saves).isPortable = true) :
    Store.openFile (some ledger.toJson.writeIndented)
      = .ok (ledger.plain.store ledger.greatest) := by
  obtain ⟨hportable, hdepth⟩ := storable_toJson h hsaves
  have hread : Json.read (Store.plainLineEnds ledger.toJson.writeIndented) = .ok ledger.toJson := by
    rw [Store.plainLineEnds_writeIndented]
    exact Json.read_writeIndented hportable hdepth
  have hgreatest : Store.greatestRevision
      ((ledger.map fun e => (Key.str e.1, Json.obj e.2.fields)).map (·.2))
        = .ok (.int ledger.greatest) := by
    rw [← greatestRevision_fields, fields, List.map_map, List.map_map]
    rfl
  have hsessions : (ledger.plain.store ledger.greatest).sessions
      = ledger.map fun e => (Key.str e.1, Arguments.ofFields e.2.fields) := by
    rw [store, plain, List.map_map]
    rfl
  rw [Store.openFile, hread]
  dsimp only
  rw [Store.ofJson]
  refine bind_of_ok (sessionsOf_toJson ledger) ?_
  refine bind_of_ok hgreatest ?_
  refine bind_of_ok rfl ?_
  refine bind_of_ok (mapM_map_ok (g := fun e => (Key.str e.1, Arguments.ofFields e.2.fields))
    fun _ _ => rfl) ?_
  rw [← hsessions]
  rfl

end Ledger

end DecisionBoard
