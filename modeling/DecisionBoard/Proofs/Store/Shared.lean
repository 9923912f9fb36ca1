import DecisionBoard.Proofs.Splits
import DecisionBoard.Proofs.Store.Ownership
import Mathlib.Data.List.Induction
import Mathlib.Logic.Function.Basic

/-!
# Stores that share a file

Several stores may be opened on one file. Each of them reads the file when it is opened, and writes
all of it from its own sessions after every save. So the file holds the saves that the store which
saved last knows of: those that it found in the file, and its own since. No save is lost just when
nobody saves without having opened the file since anyone else saved.
-/

namespace DecisionBoard

open Storage (Call Answer Kept kept? ownerName lastSave?)

/-- Stores that were opened on one file, by who uses them, and the text of the file. Those that were
not opened since were opened when there was no file. -/
structure Shared (ι : Type) where
  store : ι → Store := fun _ => {}
  file : Option String := none

namespace Shared

variable {ι : Type} [DecidableEq ι]

/-! ## What happens to the stores -/

/-- Something that happens to one of the stores. -/
inductive Event (ι : Type) where
  | opens (who : ι)
  | saves (who : ι) (request : SaveRequest) (record : Record)

/-- Something that was carried out. -/
inductive Act (ι : Type) where
  | opened (who : ι)
  | kept (who : ι) (save : Kept)

/-- One of the stores, with the file. -/
def storage (shared : Shared ι) (who : ι) : Storage :=
  { store := shared.store who, inFile := true, file := shared.file }

/-- The stores once one of them, or the file, has changed. -/
def put (shared : Shared ι) (who : ι) (storage : Storage) : Shared ι :=
  { store := Function.update shared.store who storage.store, file := storage.file }

/-- What is carried out of an event, and the stores after it. -/
def step (shared : Shared ι) : Event ι → Checked (List (Act ι) × Shared ι)
  | .opens who => do return ([.opened who], shared.put who (← (shared.storage who).reopen))
  | .saves who request record =>
    let (answer, storage) := (shared.storage who).answer (.save request record)
    .ok (((kept? (.save request record) answer).map (Act.kept who)).toList, shared.put who storage)

/-- The same for some events, one after the other. -/
def run (shared : Shared ι) : List (Event ι) → Checked (List (Act ι) × Shared ι)
  | [] => .ok ([], shared)
  | event :: events => do
    let (acts, shared) ← shared.step event
    let (rest, shared) ← run shared events
    return (acts ++ rest, shared)

@[simp] theorem store_put (shared : Shared ι) (who other : ι) (storage : Storage) :
    (shared.put who storage).store other
      = if other = who then storage.store else shared.store other :=
  Function.update_apply ..

theorem step_saves (shared : Shared ι) (who : ι) (request : SaveRequest) (record : Record) :
    shared.step (.saves who request record) =
      .ok (((kept? (.save request record) ((shared.storage who).answer (.save request record)).1).map
          (Act.kept who)).toList,
        shared.put who ((shared.storage who).answer (.save request record)).2) := rfl

theorem run_cons_of_ok {shared after : Shared ι} {event : Event ι} {acts : List (Act ι)}
    (h : shared.step event = .ok (acts, after)) (events : List (Event ι)) :
    shared.run (event :: events) = (after.run events).map fun r => (acts ++ r.1, r.2) := by
  rw [run, h]
  dsimp only [bind, Except.bind]
  cases after.run events <;> rfl

/-! ## What the stores know of -/

/-- The saves that each of the stores knows of, and those that the file tells of. -/
structure Known (ι : Type) where
  store : ι → List Kept := fun _ => []
  file : List Kept := []

/-- A store that is opened knows of what the file tells of. A store that saves knows of that save
too, and the file then tells of what the store knows of. -/
def Known.after (known : Known ι) : Act ι → Known ι
  | .opened who => { known with store := Function.update known.store who known.file }
  | .kept who save =>
    let saves := known.store who ++ [save]
    ⟨Function.update known.store who saves, saves⟩

namespace Known

variable (known : Known ι) (who other : ι) (save : Kept)

@[simp] theorem file_opened : (known.after (.opened who)).file = known.file := rfl

@[simp] theorem store_opened : (known.after (.opened who)).store other
    = if other = who then known.file else known.store other :=
  Function.update_apply ..

@[simp] theorem file_kept : (known.after (.kept who save)).file = known.store who ++ [save] := rfl

@[simp] theorem store_kept : (known.after (.kept who save)).store other
    = if other = who then known.store who ++ [save] else known.store other :=
  Function.update_apply ..

end Known

/-- What the stores know of after all that was carried out. -/
def known (log : List (Act ι)) : Known ι := log.foldl Known.after {}

/-- The saves that were carried out by any of the stores, in order. -/
def saves (log : List (Act ι)) : List Kept :=
  log.filterMap fun
    | .opened _ => none
    | .kept _ save => some save

/-- Since anyone else saved, the store has been opened. -/
def IsCurrent (who : ι) (log : List (Act ι)) : Prop :=
  ∀ before other save after, log = before ++ .kept other save :: after →
    other = who ∨ .opened who ∈ after

/-- Nobody has saved without having opened the file since anyone else saved. -/
def TakesTurns (log : List (Act ι)) : Prop :=
  ∀ before who save after, log = before ++ .kept who save :: after → IsCurrent who before

section
variable {log : List (Act ι)} {who : ι}

omit [DecidableEq ι] in
theorem saves_opened : saves (log ++ [.opened who]) = saves log := by
  simp [saves]

omit [DecidableEq ι] in
theorem saves_kept (save : Kept) : saves (log ++ [.kept who save]) = saves log ++ [save] := by
  simp [saves]

theorem known_concat (act : Act ι) : known (log ++ [act]) = (known log).after act := by
  rw [known, List.foldl_append]
  rfl

omit [DecidableEq ι] in
theorem isCurrent_opened {other : ι} :
    IsCurrent who (log ++ [.opened other]) ↔ other = who ∨ IsCurrent who log := by
  constructor
  · intro h
    by_cases hother : other = who
    · exact .inl hother
    · refine .inr fun before saver save after hsplit => ?_
      have hplace := h before saver save (after ++ [.opened other])
        (concat_eq_append_cons.mpr (.inr ⟨after, rfl, hsplit⟩))
      simpa [Ne.symm hother] using hplace
  · intro h before saver save after hsplit
    rcases concat_eq_append_cons.mp hsplit with ⟨-, hact, -⟩ | ⟨between, rfl, hbetween⟩
    · cases hact
    · rcases h with rfl | h
      · simp
      · rcases h before saver save between hbetween with hsame | hopened
        · exact .inl hsame
        · exact .inr (List.mem_append_left _ hopened)

omit [DecidableEq ι] in
theorem isCurrent_kept {other : ι} {save : Kept} :
    IsCurrent who (log ++ [.kept other save]) ↔ other = who ∧ IsCurrent who log := by
  constructor
  · intro h
    constructor
    · have hlast := h log other save [] rfl
      simpa using hlast
    · intro before saver save' after hsplit
      have hplace := h before saver save' (after ++ [.kept other save])
        (concat_eq_append_cons.mpr (.inr ⟨after, rfl, hsplit⟩))
      simpa using hplace
  · rintro ⟨rfl, h⟩ before saver save' after hsplit
    rcases concat_eq_append_cons.mp hsplit with ⟨-, hact, -⟩ | ⟨between, rfl, hbetween⟩
    · cases hact
      exact .inl rfl
    · rcases h before saver save' between hbetween with hsame | hopened
      · exact .inl hsame
      · exact .inr (List.mem_append_left _ hopened)

omit [DecidableEq ι] in
theorem takesTurns_opened : TakesTurns (log ++ [.opened who]) ↔ TakesTurns log := by
  constructor
  · intro h before saver save after hsplit
    exact h before saver save _ (concat_eq_append_cons.mpr (.inr ⟨after, rfl, hsplit⟩))
  · intro h before saver save after hsplit
    rcases concat_eq_append_cons.mp hsplit with ⟨-, hact, -⟩ | ⟨between, -, hbetween⟩
    · cases hact
    · exact h before saver save between hbetween

omit [DecidableEq ι] in
theorem takesTurns_kept {save : Kept} :
    TakesTurns (log ++ [.kept who save]) ↔ TakesTurns log ∧ IsCurrent who log := by
  constructor
  · intro h
    refine ⟨fun before saver save' after hsplit => ?_, h log who save [] rfl⟩
    exact h before saver save' _ (concat_eq_append_cons.mpr (.inr ⟨after, rfl, hsplit⟩))
  · rintro ⟨h, hcurrent⟩ before saver save' after hsplit
    rcases concat_eq_append_cons.mp hsplit with ⟨rfl, hact, -⟩ | ⟨between, -, hbetween⟩
    · cases hact
      exact hcurrent
    · exact h before saver save' between hbetween

end

/-! ## Which saves are lost -/

/-- Saves that are known of are all saves if something holds, and fewer if not. -/
structure Covers (p : Prop) (knows every : List Kept) : Prop where
  complete : p → knows = every
  short : ¬ p → knows.length < every.length

namespace Covers

variable {p q : Prop} {knows every : List Kept}

theorem congr (h : Covers p knows every) (hpq : q ↔ p) : Covers q knows every :=
  ⟨fun hq => h.complete (hpq.mp hq), fun hq => h.short fun hp => hq (hpq.mpr hp)⟩

theorem concat (h : Covers p knows every) (save : Kept) :
    Covers p (knows ++ [save]) (every ++ [save]) where
  complete hp := by rw [h.complete hp]
  short hp := by simpa using h.short hp

theorem length_le (h : Covers p knows every) : knows.length ≤ every.length := by
  by_cases hp : p
  · rw [h.complete hp]
  · exact Nat.le_of_lt (h.short hp)

/-- Saves that are known of are fewer once there is one more. -/
theorem outdated (h : Covers p knows every) (hq : ¬ q) (save : Kept) :
    Covers q knows (every ++ [save]) where
  complete hq' := (hq hq').elim
  short _ := by
    have hle := h.length_le
    rw [List.length_append, List.length_singleton]
    omega

end Covers

/-- The file tells of all saves while everyone takes turns, and of fewer from then on. So do the
stores, but for those that are not current. -/
theorem covers_known (log : List (Act ι)) :
    Covers (TakesTurns log) (known log).file (saves log) ∧
      ∀ who, Covers (TakesTurns log ∧ IsCurrent who log) ((known log).store who) (saves log) := by
  -- the last act decides: a store that is opened becomes as the file is, and the file becomes as
  -- the store is that saves; all others fall behind with that save
  induction log using List.reverseRecOn with
  | nil =>
    have hturns : TakesTurns ([] : List (Act ι)) := fun _ _ _ _ h => (nil_ne_append_cons h).elim
    have hcurrent : ∀ who : ι, IsCurrent who [] := fun _ _ _ _ _ h => (nil_ne_append_cons h).elim
    exact ⟨⟨fun _ => rfl, (absurd hturns ·)⟩,
      fun who => ⟨fun _ => rfl, (absurd ⟨hturns, hcurrent who⟩ ·)⟩⟩
  | append_singleton log act ih =>
    obtain ⟨hfile, hstore⟩ := ih
    cases act with
    | opened who =>
      rw [known_concat, saves_opened, takesTurns_opened]
      refine ⟨hfile, fun other => ?_⟩
      rw [isCurrent_opened, Known.store_opened]
      split
      · rename_i hother
        exact hfile.congr (by simp [hother])
      · rename_i hother
        exact (hstore other).congr (by simp [Ne.symm hother])
    | kept who save =>
      rw [known_concat, saves_kept, takesTurns_kept]
      refine ⟨(hstore who).concat save, fun other => ?_⟩
      rw [isCurrent_kept, Known.store_kept]
      split
      · rename_i hother
        exact ((hstore who).concat save).congr (by simp [hother])
      · rename_i hother
        exact (hstore other).outdated (fun h => hother h.2.1.symm) save

/-- The file tells of all saves just when everyone takes turns. -/
theorem known_file_eq_saves {log : List (Act ι)} :
    (known log).file = saves log ↔ TakesTurns log := by
  refine ⟨fun h => ?_, (covers_known log).1.complete⟩
  by_contra hturns
  have hshort := (covers_known log).1.short hturns
  rw [h] at hshort
  exact Nat.lt_irrefl _ hshort

/-! ## Stores and the saves that they know of -/

/-- A store holds what some saves leave: under every id what the last of them has saved. Of the
revisions that it has taken there are not more than a certain number. -/
def Holds (store : Store) (past : List Kept) (taken : ℕ) : Prop :=
  ∃ ledger : Ledger, ∃ saves ≤ taken, store = ledger.store saves ∧ ledger.Regular saves ∧
    ∀ id, (Entries.get? ledger id).map (fun s => (s.owner, s.record.toJson))
      = (lastSave? past id).map fun k => (.str k.owner, k.record.toJson)

theorem holds_empty : Holds {} [] 0 :=
  ⟨[], 0, Nat.le_refl 0, rfl, Ledger.regular_nil 0, fun _ => rfl⟩

section
variable {past : List Kept} {taken : ℕ} {storage : Storage} {request : SaveRequest}
  {record : Record}

theorem Holds.mono {store : Store} (h : Holds store past taken) {n : ℕ} (hle : taken ≤ n) :
    Holds store past n := by
  obtain ⟨ledger, saves, hsaves, hholds⟩ := h
  exact ⟨ledger, saves, Nat.le_trans hsaves hle, hholds⟩

/-- What a save that is carried out leaves in a ledger. -/
theorem held_put {ledger : Ledger} {saves : ℕ}
    (hheld : ∀ id, (Entries.get? ledger id).map (fun s => (s.owner, s.record.toJson))
      = (lastSave? past id).map fun k => (.str k.owner, k.record.toJson))
    (hdeclared : (Call.save request record).Declared) (id : String) :
    (Entries.get? (ledger.put saves request record) id).map (fun s => (s.owner, s.record.toJson))
      = (lastSave? (past ++ [Storage.keptOf request record]) id).map
          fun k => (.str k.owner, k.record.toJson) := by
  rw [Storage.lastSave?_append, Ledger.put]
  have htarget : (Storage.keptOf request record).id = request.target := rfl
  rw [htarget]
  by_cases hid : request.target = id
  · subst hid
    have howner := Storage.ownerOf_declared hdeclared.1
    rw [Entries.get?_put_self, if_pos rfl]
    exact congrArg (fun owner => some (owner, record.toJson)) howner
  · rw [Entries.get?_put_of_ne _ (Ne.symm hid), if_neg hid]
    exact hheld id

/-- A save by a store is refused, and what is held stays the same, or it is carried out, and the
file is written. Either may take a revision. -/
theorem Holds.save (h : Holds storage.store past taken) (hfile : storage.inFile = true)
    (hdeclared : (Call.save request record).Declared)
    (hstorable : (Call.save request record).Storable) :
    (kept? (.save request record) (storage.answer (.save request record)).1 = none ∧
      Holds (storage.answer (.save request record)).2.store past (taken + 1) ∧
      (storage.answer (.save request record)).2.file = storage.file) ∨
    ∃ save, kept? (.save request record) (storage.answer (.save request record)).1 = some save ∧
      Holds (storage.answer (.save request record)).2.store (past ++ [save]) (taken + 1) ∧
      (storage.answer (.save request record)).2.file
        = some (storage.answer (.save request record)).2.store.fileText := by
  obtain ⟨ledger, saves, hle, hstore, hregular, hheld⟩ := h
  have hsave := ledger.save_store saves hstorable.idIsText record
  have hafter := hregular.after hstorable
  rw [← hstore] at hsave
  rw [Ledger.after, Ledger.accepts] at hafter
  rw [Storage.answer, Storage.save, hsave, hfile]
  cases hforeign : ledger.isForeign request with
  | true =>
    exact .inl ⟨rfl, ⟨ledger, saves, Nat.le_succ_of_le hle, hstore, hregular, hheld⟩, rfl⟩
  | false =>
    rw [hforeign] at hafter
    cases hcopyable : record.isCopyable with
    | true =>
      rw [hcopyable] at hafter
      exact .inr ⟨_, rfl, ⟨_, saves + 1, Nat.succ_le_succ hle, rfl, hafter,
        held_put hheld hdeclared⟩, rfl⟩
    | false =>
      rw [hcopyable] at hafter
      exact .inl ⟨rfl, ⟨ledger, saves + 1, Nat.succ_le_succ hle, rfl, hafter, hheld⟩, rfl⟩

/-- A store that is opened on the file of another one holds the same. -/
theorem Holds.openFile {store : Store} (h : Holds store past taken)
    (hcount : (Json.int taken).isPortable = true) :
    ∃ opened, Store.openFile (some store.fileText) = .ok opened ∧ Holds opened past taken := by
  obtain ⟨ledger, saves, hle, rfl, hregular, hheld⟩ := h
  have hsaves := (Json.storable_of_le hle hcount).portable
  have hgreatest := Ledger.greatest_le.mpr hregular.numbered
  rw [Ledger.fileText_store]
  refine ⟨_, Ledger.openFile_store hregular hsaves, ledger.plain, ledger.greatest,
    Nat.le_trans hgreatest hle, rfl, hregular.opened, fun id => ?_⟩
  rw [Ledger.plain_eq, Ledger.get?_retold, Option.map_map, ← hheld id]
  rfl

/-- What a store that holds some saves answers to a load: what the last save to the id has saved,
to its owner. -/
theorem Holds.load (h : Holds storage.store past taken) {user : Json}
    (huser : user = .null ∨ ∃ u, user = .str u) (id : String) :
    (storage.answer (.load user (.str id))).1 = .loaded (.ok (match lastSave? past id with
      | none => (.notFound, none)
      | some last => if last.owner = ownerName user then (.ok, some last.record.toJson)
        else (.accessDenied, none))) := by
  obtain ⟨ledger, saves, -, hstore, hregular, hheld⟩ := h
  have hload := ledger.load_store saves hregular.isCopyable user id
  have hfound := hheld id
  rw [Storage.answer, hstore, hload, Ledger.find]
  cases hget : Entries.get? ledger id with
  | none =>
    rw [hget] at hfound
    rw [Option.map_eq_none_iff.mp hfound.symm]
    rfl
  | some s =>
    rw [hget] at hfound
    obtain ⟨last, hlast, hsame⟩ := Option.map_eq_some_iff.mp hfound.symm
    obtain ⟨howner, hrecord⟩ := Prod.mk.inj hsame
    rw [hlast]
    dsimp only
    rw [← howner, Storage.ownerOf_declared huser, Storage.equals_owner]
    by_cases hown : last.owner = ownerName user
    · rw [decide_eq_true hown, if_pos rfl, if_pos hown, hrecord]
      rfl
    · rw [decide_eq_false hown, if_neg Bool.false_ne_true, if_neg hown]
      rfl

end

/-! ## Runs -/

/-- The stores and the file hold the saves that they know of. -/
structure Agrees (shared : Shared ι) (known : Known ι) (taken : ℕ) : Prop where
  store : ∀ who, Holds (shared.store who) (known.store who) taken
  file : (shared.file = none ∧ known.file = []) ∨
    ∃ store : Store, shared.file = some store.fileText ∧ Holds store known.file taken

omit [DecidableEq ι] in
theorem Agrees.file_mono {shared : Shared ι} {known : Known ι} {taken : ℕ}
    (h : shared.Agrees known taken) {n : ℕ} (hle : taken ≤ n) :
    (shared.file = none ∧ known.file = []) ∨
      ∃ store : Store, shared.file = some store.fileText ∧ Holds store known.file n :=
  h.file.imp_right fun ⟨store, hfile, hholds⟩ => ⟨store, hfile, hholds.mono hle⟩

/-- The arguments of a save have the types that are declared for them, and a file can hold what is
saved. -/
def Event.Declared : Event ι → Prop
  | .opens _ => True
  | .saves _ request record =>
    (Call.save request record).Declared ∧ (Call.save request record).Storable

def Event.isSave : Event ι → Bool
  | .opens _ => false
  | .saves .. => true

section
variable {shared : Shared ι} {taken : ℕ}

omit [DecidableEq ι] in
/-- The file can be opened, and the store that is found holds what the file tells of. -/
theorem Agrees.reopen {known : Known ι} (h : shared.Agrees known taken)
    (hcount : (Json.int taken).isPortable = true) (store : Store) :
    ∃ storage : Storage,
      Storage.reopen { store, inFile := true, file := shared.file } = .ok storage ∧
        storage.file = shared.file ∧ Holds storage.store known.file taken := by
  rw [Storage.reopen_of_inFile rfl]
  rcases h.file with ⟨hnone, hnew⟩ | ⟨written, hwritten, hholds⟩
  · rw [hnone, hnew]
    exact ⟨_, rfl, rfl, holds_empty.mono (Nat.zero_le taken)⟩
  · obtain ⟨opened, hopened, hsame⟩ := hholds.openFile hcount
    rw [hwritten, hopened]
    exact ⟨_, rfl, rfl, hsame⟩

/-- A store that was changed holds what is said of it, and the others hold what they held. -/
theorem holds_put_store {known : Known ι} (h : shared.Agrees known taken) {who : ι}
    {storage : Storage} {past : List Kept} {n : ℕ} (hle : taken ≤ n)
    (hstorage : Holds storage.store past n) (other : ι) :
    Holds ((shared.put who storage).store other)
      (if other = who then past else known.store other) n := by
  rw [store_put]
  split
  · exact hstorage
  · exact (h.store other).mono hle

/-- What an event leaves holds what is known of after it. -/
theorem Agrees.step {log : List (Act ι)} (h : shared.Agrees (known log) taken) {event : Event ι}
    (hevent : event.Declared) (hcount : (Json.int taken).isPortable = true) :
    ∃ acts after, shared.step event = .ok (acts, after) ∧
      after.Agrees (known (log ++ acts)) (taken + [event].countP Event.isSave) := by
  cases event with
  | opens who =>
    obtain ⟨storage, hopened, hfile, hholds⟩ := h.reopen hcount (shared.store who)
    refine ⟨[.opened who], shared.put who storage, ?_, ?_⟩
    · have hreopen : (shared.storage who).reopen = .ok storage := hopened
      rw [Shared.step, hreopen]
      rfl
    · rw [known_concat]
      refine ⟨fun other => ?_, ?_⟩
      · rw [Known.store_opened]
        exact holds_put_store h (Nat.le_refl taken) hholds other
      · rw [Known.file_opened, put, hfile]
        exact h.file
  | saves who request record =>
    have hstore : Holds (shared.storage who).store ((known log).store who) taken := h.store who
    refine ⟨_, _, shared.step_saves who request record, ?_⟩
    rcases hstore.save rfl hevent.1 hevent.2 with
      ⟨hnone, hholds, hfile⟩ | ⟨save, hkept, hholds, hfile⟩
    · -- a save that is refused leaves no trace in the log
      rw [hnone, Option.map_none, Option.toList_none, List.append_nil]
      refine ⟨fun other => ?_, ?_⟩
      · have hsame : (if other = who then (known log).store who else (known log).store other)
            = (known log).store other := by
          split
          · rename_i hother
            rw [hother]
          · rfl
        rw [← hsame]
        exact holds_put_store h (Nat.le_succ taken) hholds other
      · rw [put, hfile]
        exact h.file_mono (Nat.le_succ taken)
    · rw [hkept, Option.map_some, Option.toList_some, known_concat]
      refine ⟨fun other => ?_, .inr ⟨_, hfile, hholds⟩⟩
      rw [Known.store_kept]
      exact holds_put_store h (Nat.le_succ taken) hholds other

/-- What some events leave holds what is known of after them. -/
theorem Agrees.run {log : List (Act ι)} (h : shared.Agrees (known log) taken)
    {events : List (Event ι)} (hevents : ∀ event ∈ events, event.Declared)
    (hcount : (Json.int (taken + events.countP Event.isSave : Nat)).isPortable = true) :
    ∃ acts after, shared.run events = .ok (acts, after) ∧
      after.Agrees (known (log ++ acts)) (taken + events.countP Event.isSave) := by
  -- the log grows with the events, and every save takes at most one revision, which keeps the
  -- revisions writable
  induction events generalizing shared log taken with
  | nil =>
    rw [← List.append_nil log] at h
    exact ⟨[], shared, rfl, h⟩
  | cons event events ih =>
    have hfirst := (Json.storable_of_le (Nat.le_add_right taken _) hcount).portable
    have hsplit : taken + (event :: events).countP Event.isSave
        = taken + [event].countP Event.isSave + events.countP Event.isSave := by
      rw [← List.singleton_append, List.countP_append, Nat.add_assoc]
    obtain ⟨acts, between, hstep, hbetween⟩ := h.step (hevents event List.mem_cons_self) hfirst
    rw [hsplit] at hcount ⊢
    obtain ⟨rest, after, hrun, hafter⟩ := ih hbetween
      (fun e he => hevents e (List.mem_cons_of_mem event he)) hcount
    refine ⟨acts ++ rest, after, ?_, ?_⟩
    · rw [run_cons_of_ok hstep, hrun]
      rfl
    · rw [← List.append_assoc]
      exact hafter

end

/-- However stores over one file are opened and save, a store that is opened on it afterwards holds,
for every id, the last save to it among those that the store which saved last knows of: those that
it found in the file and its own since. These are all saves just when nobody has saved without
having opened the file since anyone else saved. What is saved must be such that a text can hold it,
and so must the number of saves, from which the revisions are taken. -/
theorem shared_file_holds (events : List (Event ι)) (hevents : ∀ event ∈ events, event.Declared)
    (hcount : (Json.int (events.countP Event.isSave : Nat)).isPortable = true) :
    ∃ log shared, run {} events = .ok (log, shared) ∧
      (∃ storage : Storage,
        Storage.reopen { inFile := true, file := shared.file } = .ok storage ∧
        ∀ user id, (Call.load user (.str id)).Declared →
          (storage.answer (.load user (.str id))).1 =
            .loaded (.ok (match lastSave? (known log).file id with
              | none => (.notFound, none)
              | some last =>
                if last.owner = ownerName user then (.ok, some last.record.toJson)
                else (.accessDenied, none)))) ∧
      ((known log).file = saves log ↔ TakesTurns log) := by
  have hnew : Agrees ({} : Shared ι) (known []) 0 := ⟨fun _ => holds_empty, .inl ⟨rfl, rfl⟩⟩
  rw [← Nat.zero_add (events.countP Event.isSave)] at hcount
  obtain ⟨log, shared, hrun, hagrees⟩ := hnew.run hevents hcount
  rw [List.nil_append] at hagrees
  obtain ⟨storage, hopened, -, hholds⟩ := hagrees.reopen hcount {}
  refine ⟨log, shared, hrun, ⟨storage, hopened, fun user id hdeclared => ?_⟩, known_file_eq_saves⟩
  exact hholds.load hdeclared.1 id

/-! Two stores that were opened when there was no file -/

/-- A board with a title. -/
def titled (title : String) : Record := ⟨.obj [("title", .str title)], .json (.obj []), .null⟩

/-- A save of such a board to an id. -/
def saveOf (who : Bool) (user : String) (id : Json) (title : String) : Event Bool :=
  .saves who ⟨.str user, id, "fresh", .str title, "2024"⟩ (titled title)

theorem declared_saveOf (who : Bool) (user id title : String) :
    (saveOf who user (.str id) title).Declared :=
  ⟨⟨.inr ⟨user, rfl⟩, .inr ⟨id, rfl⟩⟩, fun _ => ⟨id, rfl⟩, Json.storable_str user,
    Json.storable_str title, rfl, rfl, rfl⟩

/-- What the first save of Ada's board leaves. -/
def adasBoard : Saved := ⟨.str "ada", .str "A", "2024", "2024", 1, titled "A"⟩

theorem regular_adasBoard (id : String) : Ledger.Regular [(id, adasBoard)] 1 where
  distinct := List.pairwise_singleton _ id
  storable := List.forall_mem_singleton.mpr
    ⟨Json.storable_str "ada", Json.storable_str "A", ⟨rfl, rfl, rfl⟩, rfl⟩
  numbered := List.forall_mem_singleton.mpr (Nat.le_refl 1)

/-- Ada saves, and Bob after he has opened the file. Both find what they have saved. -/
theorem turns_found :
    let events := [saveOf false "ada" (.str "s1") "A", .opens true,
      saveOf true "bob" (.str "s2") "B"]
    ∃ log shared, run {} events = .ok (log, shared) ∧ (∃ storage : Storage,
      Storage.reopen { inFile := true, file := shared.file } = .ok storage ∧
      (storage.answer (.load (.str "ada") (.str "s1"))).1
        = .loaded (.ok (.ok, some (titled "A").toJson)) ∧
      (storage.answer (.load (.str "bob") (.str "s2"))).1
        = .loaded (.ok (.ok, some (titled "B").toJson))) ∧ TakesTurns log := by
  intro events
  have hevents : ∀ event ∈ events, event.Declared := by
    simp only [events, List.forall_mem_cons]
    exact ⟨declared_saveOf _ _ _ _, trivial, declared_saveOf _ _ _ _, fun _ h => nomatch h⟩
  obtain ⟨log, shared, hrun, ⟨storage, hopened, hload⟩, hturns⟩ :=
    shared_file_holds events hevents (by decide)
  have hlog : (run {} events).toOption.map (·.1) = some [
      .kept false ⟨"s1", "ada", .str "A", "2024", titled "A"⟩, .opened true,
      .kept true ⟨"s2", "bob", .str "B", "2024", titled "B"⟩] := by
    let first : Shared Bool := put {} false
      ((Shared.storage {} false).answer (.save ⟨.str "ada", .str "s1", "fresh", .str "A", "2024"⟩
        (titled "A"))).2
    have hread : (first.storage true).reopen
        = .ok { first.storage true with store := Ledger.store [("s1", adasBoard)] 1 } :=
      Storage.reopen_written (regular_adasBoard "s1") (by decide) rfl rfl
    have hopens : first.step (.opens true) = .ok ([.opened true], first.put true
        { first.storage true with store := Ledger.store [("s1", adasBoard)] 1 }) := by
      rw [step, hread]
      rfl
    have hfirst : Shared.step {} (saveOf false "ada" (.str "s1") "A")
        = .ok ([.kept false ⟨"s1", "ada", .str "A", "2024", titled "A"⟩], first) := rfl
    rw [run_cons_of_ok hfirst, run_cons_of_ok hopens]
    rfl
  rw [hrun] at hlog
  cases hlog
  exact ⟨_, shared, hrun, ⟨storage, hopened, hload _ "s1" ⟨.inr ⟨_, rfl⟩, _, rfl⟩,
    hload _ "s2" ⟨.inr ⟨_, rfl⟩, _, rfl⟩⟩, hturns.mp rfl⟩

/-- A save that Bob's store has not read is lost when Bob saves; and a session with a number for its
id is not found under the number. -/
theorem saves_lost :
    (let events := [saveOf false "ada" (.str "s1") "A", saveOf true "bob" (.str "s2") "B"]
      ∃ log shared, run {} events = .ok (log, shared) ∧
        lastSave? (saves log) "s1" = some ⟨"s1", "ada", .str "A", "2024", titled "A"⟩ ∧
        ∃ storage : Storage,
          Storage.reopen { inFile := true, file := shared.file } = .ok storage ∧
          (storage.answer (.load (.str "ada") (.str "s1"))).1
            = .loaded (.ok (.notFound, none))) ∧
    (let saved := (storage {} false).answer
        (.save ⟨.str "ada", .int 5, "fresh", .str "A", "2024"⟩ (titled "A"));
      saved.1 = .saved (.ok (.int 5)) ∧ ∃ storage : Storage, saved.2.reopen = .ok storage ∧
        (storage.answer (.load (.str "ada") (.int 5))).1 = .loaded (.ok (.notFound, none))) := by
  constructor
  · intro events
    have hevents : ∀ event ∈ events, event.Declared := by
      simp only [events, List.forall_mem_cons]
      exact ⟨declared_saveOf _ _ _ _, declared_saveOf _ _ _ _, fun _ h => nomatch h⟩
    have hnew : Agrees ({} : Shared Bool) (known []) 0 :=
      ⟨fun _ => holds_empty, .inl ⟨rfl, rfl⟩⟩
    obtain ⟨log, shared, hrun, hagrees⟩ := hnew.run hevents (by decide)
    have hlog : (run {} events).toOption.map (·.1) = some [
        .kept false ⟨"s1", "ada", .str "A", "2024", titled "A"⟩,
        .kept true ⟨"s2", "bob", .str "B", "2024", titled "B"⟩] := rfl
    rw [hrun] at hlog
    cases hlog
    obtain ⟨storage, hopened, -, hholds⟩ := hagrees.reopen (by decide) {}
    exact ⟨_, shared, hrun, rfl, storage, hopened, hholds.load (.inr ⟨_, rfl⟩) "s1"⟩
  · intro saved
    -- the file names the session by a text, as it would if the id were one
    have hfile : saved.2.file = some (Ledger.toJson [("5", adasBoard)]).writeIndented := rfl
    exact ⟨rfl, _, Storage.reopen_written (regular_adasBoard "5") (by decide) rfl hfile, rfl⟩

end Shared
end DecisionBoard
