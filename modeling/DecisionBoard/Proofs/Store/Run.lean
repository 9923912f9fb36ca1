import DecisionBoard.Host.Basic
import DecisionBoard.Proofs.Store.File
import Mathlib.Order.Monotone.Basic

/-!
# Runs of a store

A store is called any number of times, and one that is kept in a file may be opened again between
the calls. Every answer is a function of the ledger behind the store, in which copies of widget
states may stand as JSON; so a store in a file, opened again at any points, answers like one that
lives in memory all the time. The revisions of the two come in the same order. They are the same
as long as the store is not opened when the last revision has gone to a save that was refused:
this revision is not in the file, and the store that is opened takes it again.
-/

namespace DecisionBoard

namespace Storage

/-! ## Calls -/

/-- A call of a store. -/
inductive Call where
  | save (request : SaveRequest) (record : Record)
  | load (user id : Json)
  | list (user limit : Json)

def Call.isSave : Call → Bool
  | .save .. => true
  | _ => false

/-- What a call answers; a loaded record is told by its JSON form. -/
inductive Answer where
  | saved (outcome : Checked Key)
  | loaded (outcome : Checked (LoadStatus × Option Json))
  | listed (outcome : Checked (List SessionSummary))

/-- One call: its answer and the storage after it. -/
def answer (storage : Storage) : Call → Answer × Storage
  | .save request record =>
    let (outcome, storage) := storage.save request record
    (.saved outcome, storage)
  | .load user id =>
    (.loaded ((storage.store.load user id).map fun (status, record) =>
      (status, record.map Record.toJson)), storage)
  | .list user limit => (.listed (storage.store.list user limit), storage)

/-- The answers of some calls, one after the other, and the storage after them. -/
def answers (storage : Storage) : List Call → List Answer × Storage
  | [] => ([], storage)
  | call :: calls =>
    let (first, storage) := storage.answer call
    let (rest, storage) := answers storage calls
    (first :: rest, storage)

/-- What happens to a store. -/
inductive Event where
  | call (call : Call)
  | reopen

/-- The calls among some events. -/
def calls (events : List Event) : List Call :=
  events.filterMap fun
    | .call call => some call
    | .reopen => none

/-- The answers of the calls among some events, and the storage after them. Opening a store again
may be refused. -/
def run (storage : Storage) : List Event → Checked (List Answer × Storage)
  | [] => .ok ([], storage)
  | .reopen :: events => do run (← storage.reopen) events
  | .call call :: events => do
    let (first, storage) := storage.answer call
    let (rest, storage) ← run storage events
    return (first :: rest, storage)

/-! ## Calls of a ledger -/

/-- The ids of saves are texts, or do not count as given. -/
def Call.IdIsText : Call → Prop
  | .save request _ => request.IdIsText
  | _ => True

end Storage

namespace Ledger

open Storage (Call Answer)

variable (ledger : Ledger) (saves : Nat)

/-- Whether a save is carried out. -/
def accepts (request : SaveRequest) (record : Record) : Bool :=
  !ledger.isForeign request && record.isCopyable

/-- What a call answers from a ledger. -/
def reply : Call → Answer
  | .save request record =>
    .saved (if ledger.isForeign request then .error (.ownedByAnother request.id.text)
      else if record.isCopyable then .ok (.str request.target) else .error .tooDeepToCopy)
  | .load user (.str id) =>
    let (status, record) := ledger.find (Store.ownerOf user) id
    .loaded (.ok (status, record.map Record.toJson))
  | .load _ id => .loaded ((Key.ofJson id).map fun _ => (.notFound, none))
  | .list user limit =>
    .listed ((Store.list.limitOf limit).map
      fun cut => ((ledger.recent (Store.ownerOf user)).take cut).map summary)

/-- The ledger and the number of revisions taken after a call. Of the saves that are refused, those
to a session of someone else take none. -/
def after : Call → Ledger × Nat
  | .save request record =>
    if ledger.accepts request record then (ledger.put saves request record, saves + 1)
    else (ledger, if ledger.isForeign request then saves else saves + 1)
  | _ => (ledger, saves)

variable {ledger saves}

theorem reply_of_accepts (ledger : Ledger) {request : SaveRequest} {record : Record}
    (h : ledger.accepts request record = true) :
    ledger.reply (.save request record) = .saved (.ok (.str request.target)) := by
  rw [accepts, Bool.and_eq_true, Bool.not_eq_true'] at h
  rw [reply, h.1, if_neg Bool.false_ne_true, if_pos h.2]

theorem reply_of_not_accepts (ledger : Ledger) {request : SaveRequest} {record : Record}
    (h : ¬ ledger.accepts request record = true) :
    ∃ fault, ledger.reply (.save request record) = .saved (.error fault) := by
  rw [reply]
  by_cases hforeign : ledger.isForeign request = true
  · exact ⟨_, by rw [if_pos hforeign]⟩
  · have hcopyable : ¬ record.isCopyable = true := by
      intro hcopyable
      exact h (by rw [accepts, Bool.eq_false_iff.mpr hforeign, hcopyable]; rfl)
    exact ⟨_, by rw [if_neg hforeign, if_neg hcopyable]⟩

theorem mem_put {request : SaveRequest} {record : Record} {e : String × Saved}
    (h : e ∈ ledger.put saves request record) :
    e = (request.target, ledger.renewed saves request record) ∨ e ∈ ledger :=
  Entries.mem_of_mem_put h

end Ledger

namespace Storage

/-- A storage keeps a ledger, in its file too if it has one. -/
structure Keeps (storage : Storage) (ledger : Ledger) (saves : Nat) : Prop where
  store : storage.store = ledger.store saves
  file : storage.inFile = true → storage.file = some ledger.toJson.writeIndented ∨
    storage.file = none ∧ ledger = []

/-- What a save leaves of a storage, and what it answers. -/
theorem Keeps.save_eq {storage : Storage} {ledger : Ledger} {saves : Nat}
    (h : storage.Keeps ledger saves) {request : SaveRequest} (hid : request.IdIsText)
    (record : Record) : storage.save request record =
      if ledger.isForeign request then (.error (.ownedByAnother request.id.text), storage)
      else if record.isCopyable then (.ok (.str request.target), { storage with
        store := (ledger.put saves request record).store (saves + 1)
        file := if storage.inFile then some (ledger.put saves request record).toJson.writeIndented
          else storage.file })
      else (.error .tooDeepToCopy, { storage with store := ledger.store (saves + 1) }) := by
  rw [Storage.save, h.store, ledger.save_store saves hid record]
  by_cases hforeign : ledger.isForeign request = true
  · rw [if_pos hforeign, if_pos hforeign, ← h.store]
  · rw [if_neg hforeign, if_neg hforeign]
    by_cases hcopyable : record.isCopyable = true
    · rw [if_pos hcopyable, if_pos hcopyable]
      dsimp only
      rw [Ledger.fileText_store]
    · rw [if_neg hcopyable, if_neg hcopyable]

/-- A save is answered like the ledger answers it, and the ledger after it is kept. -/
theorem Keeps.save {storage : Storage} {ledger : Ledger} {saves : Nat}
    (h : storage.Keeps ledger saves) {request : SaveRequest} (hid : request.IdIsText)
    (record : Record) :
    (storage.answer (.save request record)).1 = ledger.reply (.save request record) ∧
      (storage.answer (.save request record)).2.Keeps (ledger.after saves (.save request record)).1
        (ledger.after saves (.save request record)).2 ∧
      (storage.answer (.save request record)).2.inFile = storage.inFile := by
  rw [Storage.answer, h.save_eq hid, Ledger.reply, Ledger.after, Ledger.accepts]
  cases ledger.isForeign request with
  | true => exact ⟨rfl, h, rfl⟩
  | false =>
    cases record.isCopyable with
    | true => exact ⟨rfl, ⟨rfl, fun hfile => .inl (if_pos hfile)⟩, rfl⟩
    | false => exact ⟨rfl, ⟨rfl, h.file⟩, rfl⟩

/-- A save that is refused as nested too deep has taken a revision. -/
theorem Keeps.answer_of_deep {storage : Storage} {ledger : Ledger} {saves : Nat}
    (h : storage.Keeps ledger saves) {request : SaveRequest} (hid : request.IdIsText)
    (hforeign : ledger.isForeign request = false) {record : Record}
    (hdeep : record.isCopyable = false) : storage.answer (.save request record) =
      (.saved (.error .tooDeepToCopy), { storage with store := ledger.store (saves + 1) }) := by
  rw [Storage.answer, h.save_eq hid, hforeign, hdeep]
  rfl

/-- A load is answered like the ledger answers it. -/
theorem Keeps.load {storage : Storage} {ledger : Ledger} {saves : Nat}
    (h : storage.Keeps ledger saves) (hcopy : ledger.IsCopyable) (user id : Json) :
    (storage.answer (.load user id)).1 = ledger.reply (.load user id) := by
  by_cases htext : ∃ s, id = .str s
  · obtain ⟨s, rfl⟩ := htext
    have hload := ledger.load_store saves hcopy user s
    rw [Storage.answer, h.store, hload]
    rfl
  · have hother : ∀ s, id ≠ .str s := fun s heq => htext ⟨s, heq⟩
    have hload := ledger.load_store_of_ne saves hother user
    have hreply : ledger.reply (.load user id)
        = .loaded ((Key.ofJson id).map fun _ => (.notFound, none)) := by
      rw [Ledger.reply]
      exact fun s heq => hother s heq
    rw [Storage.answer, h.store, hload, hreply]
    cases Key.ofJson id <;> rfl

/-- One call: the answer is that of the ledger, and the ledger after the call is kept. -/
theorem Keeps.answer {storage : Storage} {ledger : Ledger} {saves : Nat}
    (h : storage.Keeps ledger saves) (hcopy : ledger.IsCopyable) {call : Call} (hid : call.IdIsText) :
    (storage.answer call).1 = ledger.reply call ∧
      (storage.answer call).2.Keeps (ledger.after saves call).1 (ledger.after saves call).2 ∧
      (storage.answer call).2.inFile = storage.inFile := by
  cases call with
  | save request record => exact h.save hid record
  | load user id => exact ⟨h.load hcopy user id, h, rfl⟩
  | list user limit =>
    have hlist := ledger.list_store saves user limit
    refine ⟨?_, h, rfl⟩
    rw [Storage.answer, h.store, hlist, Ledger.reply]

/-! ## Opening a store again -/

/-- A call that a file can follow: what it saves comes back from a file. -/
def Call.Storable : Call → Prop
  | .save request record =>
    request.IdIsText ∧ request.user.Storable ∧ request.title.Storable ∧ record.Portable
  | _ => True

theorem Call.Storable.idIsText {call : Call} (h : call.Storable) : call.IdIsText := by
  cases call with
  | save request record => exact h.1
  | load user id => trivial
  | list user limit => trivial

end Storage

namespace Ledger

open Storage (Call Answer)

variable {ledger : Ledger} {saves : Nat}

theorem storable_ownerOf {user : Json} (h : user.Storable) : (Store.ownerOf user).Storable := by
  rw [Store.ownerOf, Json.orElse]
  split
  · exact h
  · exact Json.storable_str Store.anonymous

/-- A ledger stays regular when more revisions are taken. -/
theorem Regular.mono (h : ledger.Regular saves) {taken : Nat} (hle : saves ≤ taken) :
    ledger.Regular taken :=
  ⟨h.distinct, h.storable, fun e he => Nat.le_trans (h.numbered e he) hle⟩

/-- A save that a file can follow leaves a ledger whose file can be read. -/
theorem Regular.after (h : ledger.Regular saves) {call : Call} (hcall : call.Storable) :
    (ledger.after saves call).1.Regular (ledger.after saves call).2 := by
  cases call with
  | save request record =>
    obtain ⟨-, huser, htitle, hrecord⟩ := hcall
    rw [Ledger.after]
    split
    · rename_i haccepts
      rw [accepts, Bool.and_eq_true] at haccepts
      have hrenewed : (ledger.renewed saves request record).Storable :=
        ⟨storable_ownerOf huser, htitle, hrecord, haccepts.2⟩
      constructor
      · exact Entries.nodup_put h.distinct _ _
      · intro e he
        rcases mem_put he with rfl | he
        · exact hrenewed
        · exact h.storable e he
      · intro e he
        rcases mem_put he with rfl | he
        · exact Nat.le_refl (saves + 1)
        · exact Nat.le_succ_of_le (h.numbered e he)
    · refine h.mono ?_
      split
      · exact Nat.le_refl saves
      · exact Nat.le_succ saves
  | load user id => exact h
  | list user limit => exact h

theorem Regular.isCopyable (h : ledger.Regular saves) : ledger.IsCopyable :=
  fun e he => (h.storable e he).copyable

theorem regular_nil (saves : Nat) : Regular [] saves where
  distinct := List.nodup_nil
  storable := fun _ he => nomatch he
  numbered := fun _ he => nomatch he

/-- What a store finds when it is opened is regular up to the greatest revision. -/
theorem Regular.opened (h : ledger.Regular saves) : ledger.plain.Regular ledger.greatest := by
  have hids : ledger.plain.map (·.1) = ledger.map (·.1) := by
    rw [Ledger.plain, List.map_map]
    rfl
  constructor
  · rw [hids]
    exact h.distinct
  · intro e he
    obtain ⟨e', he', rfl⟩ := List.mem_map.mp he
    have hstorable := h.storable e' he'
    exact ⟨hstorable.owner, hstorable.title, ⟨hstorable.record.spec, hstorable.record.widgetState,
      hstorable.record.verdict⟩, hstorable.copyable⟩
  · intro e he
    obtain ⟨e', he', rfl⟩ := List.mem_map.mp he
    exact le_greatest (e := e') he'

theorem after_le (ledger : Ledger) (saves : Nat) (call : Call) :
    (ledger.after saves call).2 ≤ saves + [call].countP Call.isSave := by
  cases call with
  | save request record =>
    have hcount : [Call.save request record].countP Call.isSave = 1 := rfl
    rw [after, hcount]
    split
    · exact Nat.le_refl _
    · dsimp only
      split <;> omega
  | load user id => exact Nat.le_refl _
  | list user limit => exact Nat.le_refl _

end Ledger

/-! ## Ledgers that tell the same -/

/-- A session as a file tells it, with its revision renumbered. -/
def Saved.retold (f : ℕ → ℕ) (s : Saved) : Saved := { s.plain with revision := f s.revision }

namespace Ledger

open Storage (Call Answer)

/-- A ledger as a file tells it, with its revisions renumbered. -/
def retold (f : ℕ → ℕ) (ledger : Ledger) : Ledger := ledger.map fun (id, s) => (id, s.retold f)

theorem plain_eq (ledger : Ledger) : ledger.plain = ledger.retold id := rfl

section
variable (f : ℕ → ℕ) (ledger : Ledger)

theorem retold_plain : ledger.plain.retold f = ledger.retold f := by
  rw [plain, retold, List.map_map]
  rfl

theorem plain_retold : (ledger.retold f).plain = ledger.retold f := by
  rw [plain, retold, List.map_map]
  rfl

variable {ledger} in
theorem retold_congr {f f' : ℕ → ℕ} (h : ∀ e ∈ ledger, f e.2.revision = f' e.2.revision) :
    ledger.retold f = ledger.retold f' := by
  refine List.map_congr_left fun e he => ?_
  have hrevision := h e he
  obtain ⟨id, s⟩ := e
  dsimp only at hrevision ⊢
  rw [Saved.retold, Saved.retold, hrevision]

theorem get?_retold (id : String) :
    Entries.get? (ledger.retold f) id = (Entries.get? ledger id).map (Saved.retold f) :=
  Entries.get?_map (Saved.retold f) (fun _ _ => rfl) ledger id

theorem old?_retold (request : SaveRequest) :
    (ledger.retold f).old? request = (ledger.old? request).map (Saved.retold f) := by
  rw [old?, old?]
  split
  · exact get?_retold f ledger request.target
  · rfl

theorem isForeign_retold (request : SaveRequest) :
    (ledger.retold f).isForeign request = ledger.isForeign request := by
  rw [isForeign, isForeign, old?_retold, Option.any_map]
  rfl

/-- A save to a ledger that is told gives what the save to the ledger itself does. -/
theorem put_retold {saves taken : ℕ} (hnext : f (saves + 1) = taken + 1) (request : SaveRequest)
    (record : Record) : ((ledger.retold f).put taken request record).plain
      = (ledger.put saves request record).retold f := by
  have hrenewed : ((ledger.retold f).renewed taken request record).plain
      = (ledger.renewed saves request record).retold f := by
    rw [renewed, old?_retold, Option.map_map, Saved.retold, renewed, Saved.plain, Saved.plain,
      hnext]
    rfl
  have hput : ∀ (l : Ledger) s, Ledger.plain (Entries.put l request.target s)
      = Entries.put l.plain request.target s.plain :=
    fun l s => (Entries.put_map Saved.plain (fun _ _ => rfl) l request.target s).symm
  have htold : ∀ (l : Ledger) s, Ledger.retold f (Entries.put l request.target s)
      = Entries.put (l.retold f) request.target (s.retold f) :=
    fun l s => (Entries.put_map (Saved.retold f) (fun _ _ => rfl) l request.target s).symm
  rw [put, put, hput, htold, plain_retold, hrenewed]

theorem find_retold (owner : Json) (id : String) :
    ((ledger.retold f).find owner id).map (fun status => status) (Option.map Record.toJson)
      = (ledger.find owner id).map (fun status => status) (Option.map Record.toJson) := by
  rw [find, find, get?_retold]
  cases Entries.get? ledger id with
  | none => rfl
  | some s =>
    have howner : (s.retold f).owner = s.owner := rfl
    dsimp only [Option.map_some]
    rw [howner]
    split <;> rfl

variable {f} (hf : StrictMono f)
include hf

/-- The order in which sessions are listed does not depend on how revisions are numbered. -/
theorem recent_retold (owner : Json) :
    (ledger.retold f).recent owner = (ledger.recent owner).retold f := by
  have howned : (ledger.retold f).owned owner = (ledger.owned owner).retold f := by
    rw [owned, retold, retold, List.filter_map]
    rfl
  have hearlier : ∀ a b : String × Saved,
      earlier (a.1, a.2.retold f) (b.1, b.2.retold f) = earlier a b := by
    intro a b
    have hrevision : decide (f a.2.revision < f b.2.revision)
        = decide (a.2.revision < b.2.revision) := decide_eq_decide.mpr hf.lt_iff_lt
    rw [earlier, earlier, ← hrevision]
    rfl
  have hthrough : Sorting.through (fun (e : String × Saved) => (e.1, e.2.retold f))
      (Sorting.ofOrder earlier) = Sorting.ofOrder earlier := by
    funext a b
    exact congrArg Except.ok (hearlier a b)
  have hsort := Sorting.sortDescending_map (fun (e : String × Saved) => (e.1, e.2.retold f))
    (Sorting.ofOrder earlier) (ledger.owned owner)
  rw [hthrough, (ledger.recent_spec owner).1] at hsort
  have htold := ((ledger.retold f).recent_spec owner).1
  rw [howned] at htold
  exact Except.ok.inj (htold.symm.trans hsort)

/-- An answer does not tell a widget state from the JSON that it is written as, nor how revisions
are numbered. -/
theorem reply_retold (call : Call) : (ledger.retold f).reply call = ledger.reply call := by
  cases call with
  | save request record => rw [reply, reply, isForeign_retold]
  | load user id =>
    by_cases htext : ∃ s, id = .str s
    · obtain ⟨s, rfl⟩ := htext
      have hfind := find_retold f ledger (Store.ownerOf user) s
      exact congrArg (fun found => Answer.loaded (.ok found)) hfind
    · have hother : ∀ s, id = .str s → False := fun s heq => htext ⟨s, heq⟩
      rw [reply, reply]
      · exact hother
      · exact hother
  | list user limit =>
    have hshown : ∀ cut, (((ledger.recent (Store.ownerOf user)).retold f).take cut).map summary
        = ((ledger.recent (Store.ownerOf user)).take cut).map summary := by
      intro cut
      rw [retold, ← List.map_take, List.map_map]
      rfl
    rw [reply, reply, recent_retold ledger hf]
    simp only [hshown]

end

/-! ## Revisions that run ahead -/

/-- A ledger tells the same as another one but for the revisions, of which more have been taken:
`f` gives for every revision of the other one that of the ledger. -/
structure Ahead (ledger : Ledger) (taken : ℕ) (other : Ledger) (saves : ℕ) (f : ℕ → ℕ) : Prop where
  strict : StrictMono f
  last_le : f saves ≤ taken
  told : ledger.plain = other.retold f

/-- How revisions are numbered once more of them are taken. -/
def numberedOn (f : ℕ → ℕ) (saves taken n : ℕ) : ℕ :=
  if n ≤ saves then f n else taken + (n - saves)

theorem strictMono_numberedOn {f : ℕ → ℕ} (hf : StrictMono f) {saves taken : ℕ}
    (hle : f saves ≤ taken) : StrictMono (numberedOn f saves taken) := by
  intro m n hlt
  unfold numberedOn
  split
  · rename_i hm
    split
    · exact hf hlt
    · have hbelow := hf.monotone hm
      omega
  · rw [if_neg (by omega)]
    omega

/-- A strictly increasing numbering that stays below its argument changes nothing up to there. -/
theorem eq_of_strictMono {f : ℕ → ℕ} (hf : StrictMono f) {n : ℕ} (hle : f n ≤ n) {m : ℕ}
    (hm : m ≤ n) : f m = m := by
  have habove := hf.le_apply (x := m)
  have hgap := hf.add_le_nat (n - m) m
  rw [Nat.sub_add_cancel hm] at hgap
  omega

namespace Ahead

variable {ledger other : Ledger} {taken saves : ℕ} {f : ℕ → ℕ}

theorem le (h : ledger.Ahead taken other saves f) : saves ≤ taken :=
  h.strict.le_apply.trans h.last_le

/-- What a file tells of a ledger that is not really ahead is the same. -/
theorem toJson_eq (h : ledger.Ahead taken other saves f) (hregular : other.Regular saves)
    (hsame : saves = taken) : ledger.toJson = other.toJson := by
  have hplain : ledger.plain = other.plain := by
    rw [h.told, plain_eq]
    refine retold_congr fun e he => ?_
    exact eq_of_strictMono h.strict (h.last_le.trans_eq hsame.symm) (hregular.numbered e he)
  rw [← ledger.toJson_plain, hplain, other.toJson_plain]

theorem reply (h : ledger.Ahead taken other saves f) (call : Call) :
    ledger.reply call = other.reply call := by
  rw [← reply_retold ledger strictMono_id, ← plain_eq, h.told, reply_retold other h.strict]

/-- A call keeps a ledger as far ahead as it is. -/
theorem after (h : ledger.Ahead taken other saves f) (hregular : other.Regular saves)
    (call : Call) : (∃ f', (ledger.after taken call).1.Ahead (ledger.after taken call).2
        (other.after saves call).1 (other.after saves call).2 f') ∧
      (ledger.after taken call).2 + saves = taken + (other.after saves call).2 := by
  cases call with
  | load user id => exact ⟨⟨f, h⟩, rfl⟩
  | list user limit => exact ⟨⟨f, h⟩, rfl⟩
  | save request record =>
    -- both take one more revision, so from here on the numbering goes on by the same steps
    have hnumbering := strictMono_numberedOn h.strict h.last_le
    have htold : ledger.plain = other.retold (numberedOn f saves taken) := by
      rw [h.told]
      exact retold_congr fun e he => (if_pos (hregular.numbered e he)).symm
    have hnext : numberedOn f saves taken (saves + 1) = taken + 1 := by
      rw [numberedOn, if_neg (by omega)]
      omega
    have hforeign : ledger.isForeign request = other.isForeign request := by
      rw [← isForeign_retold id ledger, ← plain_eq, h.told, isForeign_retold]
    have haccepts : ledger.accepts request record = other.accepts request record := by
      rw [accepts, accepts, hforeign]
    rw [Ledger.after, Ledger.after, haccepts, hforeign]
    cases other.accepts request record with
    | true =>
      refine ⟨⟨numberedOn f saves taken, hnumbering, hnext.le, ?_⟩, by simp only [if_pos]; omega⟩
      show (ledger.put taken request record).plain = (other.put saves request record).retold _
      rw [← put_retold _ other hnext, ← htold, plain_eq (ledger.put taken request record),
        ← put_retold id ledger rfl, ← plain_eq]
    | false =>
      cases other.isForeign request with
      | true => exact ⟨⟨f, h⟩, rfl⟩
      -- refused for its depth: the revision is taken, and nothing is kept under it
      | false =>
        refine ⟨⟨numberedOn f saves taken, hnumbering, hnext.le, htold⟩, ?_⟩
        show taken + 1 + saves = taken + (saves + 1)
        omega

/-- A ledger is ahead of what a store finds when it is opened. -/
theorem opened (h : ledger.Ahead taken other saves f) (hregular : other.Regular saves) :
    ledger.Ahead taken other.plain other.greatest f where
  strict := h.strict
  last_le := (h.strict.monotone (greatest_le.mpr hregular.numbered)).trans h.last_le
  told := by rw [retold_plain, h.told]

end Ahead
end Ledger

/-! ## Revisions that are wasted -/

namespace Storage

/-- Whether the last revision that was taken has gone to a save that was refused, after a call is
answered. -/
def Answer.wastes (wasted : Bool) : Answer → Bool
  | .saved (.ok _) => false
  | .saved (.error .tooDeepToCopy) => true
  | _ => wasted

/-- Whenever the store is opened again, the last revision that was taken is that of a session. -/
def NoneWasted (storage : Storage) (wasted : Bool) : List Event → Prop
  | [] => True
  | .reopen :: events => wasted = false ∧ NoneWasted storage false events
  | .call call :: events =>
    NoneWasted (storage.answer call).2 ((storage.answer call).1.wastes wasted) events

/-- The last revision is wasted while it is greater than all that are kept. -/
theorem wastes_reply {ledger : Ledger} {saves : ℕ} {wasted : Bool} (h : ledger.Regular saves)
    (hwasted : wasted = false ↔ ledger.greatest = saves) (call : Call) :
    (ledger.reply call).wastes wasted = false ↔
      (ledger.after saves call).1.greatest = (ledger.after saves call).2 := by
  cases call with
  | load user id =>
    unfold Ledger.reply
    split <;> first | exact hwasted | contradiction
  | list user limit => exact hwasted
  | save request record =>
    rw [Ledger.reply, Ledger.after, Ledger.accepts]
    cases ledger.isForeign request with
    | true => exact hwasted
    | false =>
      cases record.isCopyable with
      | true =>
        refine iff_of_true rfl (Nat.le_antisymm (Ledger.greatest_le.mpr fun e he => ?_) ?_)
        · rcases Ledger.mem_put he with rfl | he
          · exact Nat.le_refl _
          · exact Nat.le_succ_of_le (h.numbered e he)
        · exact Ledger.le_greatest (Entries.mem_put_self ledger request.target
            (ledger.renewed saves request record))
      | false =>
        have hle := Ledger.greatest_le.mpr h.numbered
        refine iff_of_false nofun ?_
        show ¬ ledger.greatest = saves + 1
        omega

/-! ## Runs -/

/-- A store in memory keeps what one in a file does, with its revisions ahead, unless the last one
is wasted, as far as the last one in the file. -/
structure Paired (memory file : Storage) (taken saves : ℕ) (wasted : Bool) : Prop where
  inMemory : memory.inFile = false
  inFile : file.inFile = true
  kept : ∃ (ledger ledger' : Ledger) (f : ℕ → ℕ), ledger.Ahead taken ledger' saves f ∧
    memory.Keeps ledger taken ∧ file.Keeps ledger' saves ∧ ledger.Regular taken ∧
    ledger'.Regular saves ∧ (wasted = false ↔ ledger'.greatest = saves)

variable {memory file : Storage} {taken saves : ℕ} {wasted : Bool}

/-- A call answers the same from both, and leaves them paired, as far apart as they are. -/
theorem Paired.answer (h : memory.Paired file taken saves wasted) {call : Call}
    (hcall : call.Storable) : (memory.answer call).1 = (file.answer call).1 ∧
      ∃ taken' saves', (memory.answer call).2.Paired (file.answer call).2 taken' saves'
          ((memory.answer call).1.wastes wasted) ∧
        saves' ≤ saves + [call].countP Call.isSave ∧ (saves' = taken' ↔ saves = taken) := by
  obtain ⟨ledger, ledger', f, hahead, hmemory, hfile, hregular, hregular', hwasted⟩ := h.kept
  obtain ⟨hreply, hkeeps, hin⟩ := hmemory.answer hregular.isCopyable hcall.idIsText
  obtain ⟨hreply', hkeeps', hin'⟩ := hfile.answer hregular'.isCopyable hcall.idIsText
  obtain ⟨⟨f', hafter⟩, hcount⟩ := hahead.after hregular' call
  have hsame := hahead.reply call
  refine ⟨by rw [hreply, hreply', hsame], _, _, ⟨hin.trans h.inMemory, hin'.trans h.inFile, _, _, f',
    hafter, hkeeps, hkeeps', hregular.after hcall, hregular'.after hcall, ?_⟩,
    ledger'.after_le saves call, by omega⟩
  rw [hreply, hsame]
  exact wastes_reply hregular' hwasted call

theorem reopen_of_inFile {storage : Storage} (h : storage.inFile = true) :
    storage.reopen = (Store.openFile storage.file).map fun store => { storage with store } := by
  rw [Storage.reopen, if_pos h]
  rfl

/-- What was written to a file is found when it is opened again. -/
theorem reopen_written {storage : Storage} {ledger : Ledger} {saves : Nat}
    (h : ledger.Regular saves) (hsaves : (Json.int saves).isPortable = true)
    (hfile : storage.inFile = true) (htext : storage.file = some ledger.toJson.writeIndented) :
    storage.reopen = .ok { storage with store := ledger.plain.store ledger.greatest } := by
  rw [reopen_of_inFile hfile, htext, Ledger.openFile_store h hsaves]
  rfl

/-- Opening the file again goes well, and leaves the two paired. They are further apart if a
revision was wasted. -/
theorem Paired.reopen (h : memory.Paired file taken saves wasted)
    (hsaves : (Json.int saves).isPortable = true) :
    ∃ file' saves', file.reopen = .ok file' ∧ memory.Paired file' taken saves' false ∧
      saves' ≤ saves ∧ (saves' = taken ↔ saves = taken ∧ wasted = false) := by
  obtain ⟨ledger, ledger', f, hahead, hmemory, hfile, hregular, hregular', hwasted⟩ := h.kept
  have hle := Ledger.greatest_le.mpr hregular'.numbered
  have hfar := hahead.le
  have hsettled : ledger'.plain.greatest = ledger'.greatest :=
    List.foldl_map
  have happart : ledger'.greatest = taken ↔ saves = taken ∧ wasted = false := by
    rw [hwasted]
    omega
  obtain ⟨file', hreopen, hin, hkeeps⟩ : ∃ file' : Storage, file.reopen = .ok file' ∧
      file'.inFile = true ∧ file'.Keeps ledger'.plain ledger'.greatest := by
    -- before the first save there is no file, and the store that is opened is empty
    rcases hfile.file h.inFile with htext | ⟨hnone, rfl⟩
    · refine ⟨_, reopen_written hregular' hsaves h.inFile htext, h.inFile, rfl, fun _ => .inl ?_⟩
      rw [ledger'.toJson_plain]
      exact htext
    · refine ⟨{ file with store := {} }, ?_, h.inFile, rfl, fun _ => .inr ⟨hnone, rfl⟩⟩
      rw [reopen_of_inFile h.inFile, hnone]
      rfl
  exact ⟨file', ledger'.greatest, hreopen, ⟨h.inMemory, hin, ledger, ledger'.plain, f,
    hahead.opened hregular', hmemory, hkeeps, hregular, hregular'.opened,
    iff_of_true rfl hsettled⟩, hle, happart⟩

theorem paired_empty : Paired {} { inFile := true } 0 0 false where
  inMemory := rfl
  inFile := rfl
  kept := ⟨[], [], id, ⟨strictMono_id, Nat.le_refl 0, rfl⟩, ⟨rfl, nofun⟩,
    ⟨rfl, fun _ => .inr ⟨rfl, rfl⟩⟩, Ledger.regular_nil 0, Ledger.regular_nil 0,
    iff_of_true rfl rfl⟩

/-- A run of the two: the same answers, however often the file is opened again. The revisions stay
the same unless one was wasted. -/
theorem Paired.run (h : memory.Paired file taken saves wasted) {events : List Event}
    (hcalls : ∀ call ∈ calls events, call.Storable)
    (hcount : (Json.int (saves + (calls events).countP Call.isSave : Nat)).isPortable = true) :
    ∃ file' taken' saves' wasted', file.run events = .ok ((memory.answers (calls events)).1, file') ∧
      (memory.answers (calls events)).2.Paired file' taken' saves' wasted' ∧
      (saves' = taken' ↔ saves = taken ∧ memory.NoneWasted wasted events) := by
  induction events generalizing memory file taken saves wasted with
  | nil => exact ⟨file, taken, saves, wasted, rfl, h, (and_iff_left trivial).symm⟩
  | cons event events ih =>
    cases event with
    | call call =>
      have hsplit : calls (.call call :: events) = call :: calls events := rfl
      rw [hsplit] at hcalls hcount ⊢
      obtain ⟨hsame, taken', saves', hpaired, hle, hapart⟩ :=
        h.answer (hcalls call List.mem_cons_self)
      have hsaves : saves' + (calls events).countP Call.isSave
          ≤ saves + (call :: calls events).countP Call.isSave := by
        rw [← List.singleton_append, List.countP_append]
        omega
      have hcount' := (Json.storable_of_le hsaves hcount).portable
      obtain ⟨file', last, last', wasted', hrun, hlast, hend⟩ := ih hpaired
        (fun c hc => hcalls c (List.mem_cons_of_mem call hc)) hcount'
      refine ⟨file', last, last', wasted', ?_, hlast, ?_⟩
      · simp only [Storage.run, Storage.answers, bind, Except.bind, hrun, hsame]
        rfl
      · rw [hend, hapart]
        rfl
    | reopen =>
      have hsplit : calls (.reopen :: events) = calls events := rfl
      rw [hsplit] at hcalls hcount ⊢
      have hsaves := (Json.storable_of_le (Nat.le_add_right saves _) hcount).portable
      obtain ⟨opened, saves', hreopen, hpaired, hle, hapart⟩ := h.reopen hsaves
      have hcount' := (Json.storable_of_le (Nat.add_le_add_right hle _) hcount).portable
      obtain ⟨file', last, last', wasted', hrun, hlast, hend⟩ := ih hpaired hcalls hcount'
      refine ⟨file', last, last', wasted', ?_, hlast, ?_⟩
      · rw [Storage.run, hreopen]
        exact hrun
      · rw [hend, hapart, and_assoc]
        rfl

/-- A store in a file that is not there at first, opened again at any points, answers every call
like a store in memory. In the end both hold the same sessions, with revisions in the same order,
and they have taken the same number of revisions, and hold the same ones, unless the store was
opened when the last revision had gone to a save that was refused as nested too deep. What is
saved must be such that a text can hold it, and so must the number of saves, which bounds the
revisions. -/
theorem file_answers_like_memory (events : List Event)
    (hcalls : ∀ call ∈ calls events, call.Storable)
    (hcount : (Json.int ((calls events).countP Call.isSave : Nat)).isPortable = true) :
    ∃ file : Storage,
      run { inFile := true } events = .ok ((answers {} (calls events)).1, file) ∧
      (∃ (ledger : Ledger) (f : ℕ → ℕ), StrictMono f ∧ file.store.toJson = ledger.toJson ∧
        (answers {} (calls events)).2.store.toJson = (ledger.retold f).toJson) ∧
      (file.store.nextRevision = (answers {} (calls events)).2.store.nextRevision ↔
        NoneWasted {} false events) ∧
      (NoneWasted {} false events →
        file.store.toJson = (answers {} (calls events)).2.store.toJson) := by
  rw [← Nat.zero_add ((calls events).countP Call.isSave)] at hcount
  obtain ⟨file, taken, saves, wasted, hrun, hpaired, hapart⟩ := paired_empty.run hcalls hcount
  obtain ⟨ledger, ledger', f, hahead, hmemory, hfile, -, hregular', -⟩ := hpaired.kept
  rw [eq_self, true_and] at hapart
  have hinFile : file.store.toJson = ledger'.toJson := by rw [hfile.store, Ledger.toJson_store]
  have hinMemory : (answers {} (calls events)).2.store.toJson = ledger.toJson := by
    rw [hmemory.store, Ledger.toJson_store]
  refine ⟨file, hrun, ⟨ledger', f, hahead.strict, hinFile, ?_⟩, ?_, fun hnone => ?_⟩
  · rw [hinMemory, ← ledger.toJson_plain, hahead.told]
  · rw [← hapart, hfile.store, hmemory.store, Ledger.store, Ledger.store]
    simp
  · rw [hinFile, hinMemory, hahead.toJson_eq hregular' (hapart.mpr hnone)]

/-- A user saves a board, the store is opened again, another user is refused, and the board is
loaded and listed as it was saved. -/
theorem reopened_board_found :
    let record : Record := ⟨.obj [("title", .str "é"), ("layout", .arr [])],
      .json (.obj [("scores.f1", .float 1)]), .null⟩
    let events : List Event := [
      .call (.save ⟨.str "ada", .null, "s1", .str "é", "2024"⟩ record), .reopen,
      .call (.save ⟨.null, .str "s1", "s2", .str "x", "2025"⟩ record), .reopen,
      .call (.load (.str "ada") (.str "s1")), .call (.list (.str "ada") (.int 5))]
    ∃ file : Storage, run { inFile := true } events = .ok (
      [.saved (.ok (.str "s1")), .saved (.error (.ownedByAnother "s1")),
        .loaded (.ok (.ok, some record.toJson)),
        .listed (.ok [⟨.str "s1", .str "é", .str "2024", .str "2024"⟩])], file) ∧
      file.store.nextRevision = .whole 2 := by
  intro record events
  have hrecord : record.Portable := ⟨rfl, rfl, rfl⟩
  have hada : (Json.str "ada").Storable := Json.storable_str "ada"
  have hnone : Json.null.Storable := ⟨rfl, Nat.zero_le _⟩
  have hcalls : ∀ call ∈ calls events, call.Storable := by
    simp only [events, calls, List.filterMap_cons, List.filterMap_nil, List.forall_mem_cons]
    exact ⟨⟨nofun, hada, Json.storable_str _, hrecord⟩,
      ⟨fun _ => ⟨"s1", rfl⟩, hnone, Json.storable_str _, hrecord⟩, trivial, trivial,
      fun _ h => nomatch h⟩
  obtain ⟨file, hrun, -, hcounts, -⟩ := file_answers_like_memory events hcalls (by decide)
  exact ⟨file, hrun, hcounts.mpr ⟨rfl, rfl, trivial⟩⟩

def plainBoard : Record := ⟨.obj [("title", .str "T")], .json (.obj []), .null⟩

theorem portable_plainBoard : plainBoard.Portable := ⟨rfl, rfl, rfl⟩

/-- A board with a part that is nested too deep. -/
def deepBoard : Record := { plainBoard with spec := .obj [("title", .str "T"), ("x", .nested 700)] }

theorem portable_deepBoard : deepBoard.Portable where
  spec := Json.isPortable_obj.mpr ⟨by simp [Json.isPortable, Json.isPortable_nested], by decide⟩
  widgetState := rfl
  verdict := rfl

theorem isCopyable_deepBoard : deepBoard.isCopyable = false := by
  have hspec : deepBoard.spec.isCopyable = false :=
    Json.isCopyable_eq_false_of_mem (List.mem_cons_of_mem _ (List.mem_singleton_self _))
      (by simp [Json.copyLimit])
  rw [Record.isCopyable, hspec]
  rfl

/-- A save by Ada to a session with an id. -/
def saveTo (id : String) (record : Record) : Call :=
  .save ⟨.str "ada", .str id, "s1", .str "T", "2024"⟩ record

theorem storable_saveTo (id : String) {record : Record} (h : record.Portable) :
    (saveTo id record).Storable :=
  ⟨fun _ => ⟨id, rfl⟩, Json.storable_str _, Json.storable_str _, h⟩

/-- What Ada's save of the board leaves. -/
def savedBoard (revision : ℕ) : Saved := ⟨.str "ada", .str "T", "2024", "2024", revision, plainBoard⟩

/-- After a save that was refused the file is opened again, and the next save gets another revision
than it does in memory. -/
theorem refused_save_shifts_revision :
    let events : List Event := [.call (saveTo "a" plainBoard), .call (saveTo "b" deepBoard), .reopen,
      .call (saveTo "c" plainBoard)]
    (∀ call ∈ calls events, call.Storable) ∧ ∃ file : Storage,
      run { inFile := true } events = .ok ((answers {} (calls events)).1, file) ∧
      (Entries.get? file.store.sessions (.str "c")).map Store.revision = some (.int 2) ∧
      (Entries.get? (answers {} (calls events)).2.store.sessions (.str "c")).map Store.revision
        = some (.int 3) := by
  intro events
  -- the ledger of both stores when the save is refused
  let ledger : Ledger := [("a", savedBoard 1)]
  let memory : Storage := (({} : Storage).answer (saveTo "a" plainBoard)).2
  let file : Storage := (({ inFile := true } : Storage).answer (saveTo "a" plainBoard)).2
  have hid : ∀ id, (saveTo id deepBoard).IdIsText := fun id _ => ⟨id, rfl⟩
  have hmemory : memory.Keeps ledger 1 := ⟨rfl, nofun⟩
  have hfile : file.Keeps ledger 1 := ⟨rfl, fun _ => .inl rfl⟩
  have hrefused : memory.answer (saveTo "b" deepBoard)
      = (.saved (.error .tooDeepToCopy), { memory with store := ledger.store 2 }) :=
    hmemory.answer_of_deep (hid "b") rfl isCopyable_deepBoard
  have hrefused' : file.answer (saveTo "b" deepBoard)
      = (.saved (.error .tooDeepToCopy), { file with store := ledger.store 2 }) :=
    hfile.answer_of_deep (hid "b") rfl isCopyable_deepBoard
  have hregular : ledger.Regular 1 :=
    { distinct := List.pairwise_singleton _ "a"
      storable := List.forall_mem_singleton.mpr
        ⟨Json.storable_str "ada", Json.storable_str "T", portable_plainBoard, rfl⟩
      numbered := List.forall_mem_singleton.mpr (Nat.le_refl 1) }
  have hopened : Storage.reopen { file with store := ledger.store 2 }
      = .ok { file with store := ledger.store 1 } :=
    reopen_written hregular (by decide) rfl rfl
  have hcalls : calls events
      = [saveTo "a" plainBoard, saveTo "b" deepBoard, saveTo "c" plainBoard] := rfl
  have hanswers : answers {} (calls events) = ([.saved (.ok (.str "a")),
      .saved (.error .tooDeepToCopy), .saved (.ok (.str "c"))],
      (Storage.answer { memory with store := ledger.store 2 } (saveTo "c" plainBoard)).2) := by
    have hfirst : ({} : Storage).answer (saveTo "a" plainBoard)
        = (.saved (.ok (.str "a")), memory) := rfl
    rw [hcalls, answers, hfirst]
    dsimp only
    rw [answers, hrefused]
    rfl
  have hrun : run { inFile := true } events = .ok ((answers {} (calls events)).1,
      (Storage.answer { file with store := ledger.store 1 } (saveTo "c" plainBoard)).2) := by
    have hfirst : ({ inFile := true } : Storage).answer (saveTo "a" plainBoard)
        = (.saved (.ok (.str "a")), file) := rfl
    rw [hanswers, run, hfirst]
    dsimp only
    rw [run, hrefused']
    dsimp only
    rw [run, hopened]
    rfl
  refine ⟨?_, _, hrun, rfl, ?_⟩
  · rw [hcalls, List.forall_mem_cons, List.forall_mem_cons, List.forall_mem_singleton]
    exact ⟨storable_saveTo "a" portable_plainBoard, storable_saveTo "b" portable_deepBoard,
      storable_saveTo "c" portable_plainBoard⟩
  · rw [hanswers]
    rfl

end Storage

end DecisionBoard
