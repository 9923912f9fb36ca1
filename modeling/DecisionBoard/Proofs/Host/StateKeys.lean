import DecisionBoard.Proofs.Host.Sessions
import DecisionBoard.Proofs.Session.Restored
import DecisionBoard.Proofs.Store.Ownership
import DecisionBoard.Proofs.WidgetState

/-!
# State keys are names

Dismissals and values that are set put keys into the state of a session, and a state comes back with
a session that was saved. As long as the inputs that are set have texts for state keys, all keys are
names: the state can be put into words and collected by groups, and it comes back from the file of a
store as it was. The state key of an input can be any JSON, however, and whether it is a text is not
looked at where it is used.
-/

namespace DecisionBoard

/-! ## Sessions -/

namespace WidgetState

theorem dismissedKey_ne_empty (id : String) : dismissedKey id ≠ "" := by
  intro h
  have hlength := congrArg String.length h
  rw [dismissedKey, String.length_append] at hlength
  exact absurd hlength (by have : dismissedMark.length = 10 := rfl; simp [this])

end WidgetState

namespace Session

/-- The state has names for keys, and spec, verdict and phase agree. -/
structure Tidy (s : Session) : Prop where
  named : s.state.Named
  coherent : Coherent s

theorem tidy_new : Tidy {} := ⟨WidgetState.named_nil, Coherent.new⟩

theorem tidy_lasts : Lasts Tidy where
  congr h hspec hstate hverdict hphase := by
    refine ⟨?_, h.coherent.congr hspec hverdict hphase⟩
    rw [hstate]
    exact h.named
  apply h payload source := by
    refine ⟨?_, h.coherent.apply payload source⟩
    rcases state_apply_cases _ payload source with hsame | hcleared
    · rw [hsame]
      exact h.named
    · rw [hcleared]
      exact WidgetState.named_nil
  dismiss h id :=
    ⟨h.named.put (WidgetState.dismissedKey_ne_empty id) _, h.coherent.dismiss id⟩
  flagDismissed h id := ⟨h.named.put (WidgetState.dismissedKey_ne_empty id) _,
    h.coherent.congr rfl rfl rfl⟩

/-- A record that makes a state with names for keys makes a tidy session. -/
theorem tidy_ofRecord {record : Record} {s : Session} (h : ofRecord record = .ok s)
    (hnamed : ∀ state, record.widgetState.toState = .ok state → state.Named) : Tidy s := by
  refine ⟨?_, Coherent.ofRecord h⟩
  obtain ⟨state, hstate, rfl | ⟨fields, verdict, -, -, rfl⟩⟩ := ofRecord_cases h
  · exact hnamed state hstate
  · exact hnamed state hstate

end Session

/-! ## Stores -/

namespace Entries

variable {κ α : Type} [BEq κ]

theorem exists_of_get? {es : Entries κ α} {k : κ} {v : α} (h : es.get? k = some v) :
    ∃ e ∈ es, e.2 = v := by
  induction es with
  | nil => cases h
  | cons e es ih =>
    obtain ⟨k', v'⟩ := e
    rw [get?] at h
    split at h
    · cases h
      exact ⟨_, List.mem_cons_self, rfl⟩
    · obtain ⟨e, he, hv⟩ := ih h
      exact ⟨e, List.mem_cons_of_mem _ he, hv⟩

theorem value_of_mem_put {es : Entries κ α} {k : κ} {v : α} {e : κ × α} (h : e ∈ es.put k v) :
    e.2 = v ∨ e ∈ es := by
  induction es with
  | nil => exact .inl (congrArg Prod.snd (List.mem_singleton.mp h))
  | cons e' es ih =>
    obtain ⟨k', v'⟩ := e'
    rw [put] at h
    split at h
    · rcases List.mem_cons.mp h with rfl | h
      · exact .inl rfl
      · exact .inr (List.mem_cons_of_mem _ h)
    · rcases List.mem_cons.mp h with rfl | h
      · exact .inr List.mem_cons_self
      · exact (ih h).imp_right (List.mem_cons_of_mem _)

end Entries

namespace Store

/-- Every stored widget state makes a state with names for keys. -/
def KeepsNames (store : Store) : Prop :=
  ∀ e ∈ store.sessions, ∀ widgetState, Entries.get? e.2 "widgetState" = some widgetState →
    ∀ state, widgetState.toState = .ok state → state.Named

theorem keepsNames_empty : KeepsNames {} := fun _ he => nomatch he

variable {store : Store}

theorem KeepsNames.load (h : store.KeepsNames) {user id : Json} {status : LoadStatus}
    {record : Record} (hload : store.load user id = .ok (status, some record)) {state : WidgetState}
    (hstate : record.widgetState.toState = .ok state) : state.Named := by
  obtain ⟨k, -, hload⟩ := Checked.bind_eq_ok hload
  split at hload
  · cases hload
  · rename_i stored hstored
    obtain ⟨owner, -, hload⟩ := Checked.bind_eq_ok hload
    split at hload
    · cases hload
    · obtain ⟨spec, -, hload⟩ := Checked.bind_eq_ok hload
      obtain ⟨widgetState, hpart, hload⟩ := Checked.bind_eq_ok hload
      obtain ⟨verdict, -, hload⟩ := Checked.bind_eq_ok hload
      obtain ⟨copied, hcopied, hload⟩ := Checked.bind_eq_ok hload
      cases hload
      rw [Record.copied_eq] at hcopied
      split at hcopied
      · cases hcopied
        obtain ⟨e, he, rfl⟩ := Entries.exists_of_get? hstored
        have hkept : Entries.get? e.2 "widgetState" = some widgetState := by
          rw [part] at hpart
          split at hpart
          · rename_i hget
            cases hpart
            exact hget
          · cases hpart
        exact h e he widgetState hkept state hstate
      · cases hcopied

theorem KeepsNames.save (h : store.KeepsNames) (request : SaveRequest) {record : Record}
    (hnamed : ∀ state, record.widgetState.toState = .ok state → state.Named) :
    (store.save request record).2.KeepsNames := by
  unfold Store.save
  cases store.grant request with
  | error fault => exact h
  | ok granted =>
    obtain ⟨id, createdAt⟩ := granted
    dsimp only
    rw [Record.copied_eq]
    cases record.isCopyable with
    | false => exact h
    | true =>
      intro e he widgetState hget state hstate
      rcases Entries.value_of_mem_put he with hnew | hold
      · rw [hnew] at hget
        cases hget
        exact hnamed state hstate
      · exact h e hold widgetState hget state hstate

end Store

theorem Storage.store_save (storage : Storage) (request : SaveRequest) (record : Record) :
    (storage.save request record).2.store = (storage.store.save request record).2 := by
  unfold Storage.save
  rcases storage.store.save request record with ⟨fault | id, store⟩ <;> rfl

/-! ## Sessions in files -/

/-- What a call that is declared saves can be stored, if its title and its record can. -/
theorem Storage.Call.Declared.storable {request : SaveRequest} {record : Record}
    (h : (Call.save request record).Declared) (htitle : request.title.Storable)
    (hrecord : record.Portable) : (Call.save request record).Storable := by
  refine ⟨h.idIsText, ?_, htitle, hrecord⟩
  rcases h.1 with hnone | ⟨user, huser⟩
  · rw [hnone]
    exact ⟨rfl, Nat.zero_le _⟩
  · rw [huser]
    exact Json.storable_str user

/-- What was put into a ledger is found by its owner when the ledger was read back. -/
theorem Ledger.find_plain_put (ledger : Ledger) (saves : Nat) {request : SaveRequest}
    (huser : request.user = .null ∨ ∃ user, request.user = .str user) (record : Record) :
    (ledger.put saves request record).plain.find (Store.ownerOf request.user) request.target
      = (.ok, some record.plain) := by
  have hput : Entries.get? (ledger.put saves request record) request.target
      = some (ledger.renewed saves request record) :=
    Entries.get?_put_self ledger request.target _
  rw [Ledger.find, Ledger.plain_eq, Ledger.get?_retold, hput]
  show (if (Store.ownerOf request.user).equals (Store.ownerOf request.user) then _ else _) = _
  rw [Storage.ownerOf_declared huser, Storage.equals_owner, decide_eq_true rfl]
  rfl

/-- A tidy session that can be copied is restored from what is read back of its record. -/
theorem Session.Tidy.ofRecord_plain {s : Session} (h : s.Tidy)
    (hcopyable : s.record.isCopyable = true) : ofRecord s.record.plain = .ok s.restored := by
  have hspec : s.record.plain.spec.isCopyable = true := (Record.isCopyable_iff.mp hcopyable).1
  have hplain : s.record.plain.widgetState.toState = .ok s.state := h.named.toState_toJson
  have hstate : s.record.widgetState.toState = .ok s.state := rfl
  rw [ofRecord_of_isCopyable hspec, ← h.coherent.ofParts_record, ofParts, ofParts, hplain, hstate]
  rfl

namespace Storage

/-- A session that is saved to a file comes back from it with the same state. -/
theorem Keeps.survives {storage : Storage} {ledger : Ledger} {saves : Nat} {s : Session}
    {request : SaveRequest} (h : storage.Keeps ledger saves) (hfile : storage.inFile = true)
    (hregular : ledger.Regular saves) (hsaves : (Json.int (saves + 1 : Nat)).isPortable = true)
    (htidy : s.Tidy) (hdeclared : (Call.save request s.record).Declared)
    (htitle : request.title.Storable) (hrecord : s.record.Portable)
    (haccepts : ledger.accepts request s.record = true) :
    s.toRecord = .ok s.record ∧
      ∃ id saved reopened record t, storage.save request s.record = (.ok id, saved) ∧
        saved.reopen = .ok reopened ∧
        reopened.store.load request.user id.toJson = .ok (.ok, some record) ∧
        Session.ofRecord record = .ok t ∧ t.state = s.state := by
  let after := ledger.put saves request s.record
  have hregular' : after.Regular (saves + 1) := by
    have hregular' := hregular.after (hdeclared.storable htitle hrecord)
    rw [Ledger.after, if_pos haccepts] at hregular'
    exact hregular'
  rw [Ledger.accepts, Bool.and_eq_true, Bool.not_eq_true'] at haccepts
  obtain ⟨hforeign, hcopyable⟩ := haccepts
  let saved : Storage := { storage with
    store := after.store (saves + 1), file := some after.toJson.writeIndented }
  have hsaved : storage.save request s.record = (.ok (.str request.target), saved) := by
    rw [h.save_eq hdeclared.idIsText, hforeign, hcopyable, if_neg Bool.false_ne_true, if_pos rfl,
      if_pos hfile]
  have hreopened : saved.reopen = .ok { saved with store := after.plain.store after.greatest } :=
    reopen_written hregular' hsaves hfile rfl
  have hloaded := after.plain.load_store after.greatest hregular'.opened.isCopyable request.user
    request.target
  rw [ledger.find_plain_put saves hdeclared.1 s.record] at hloaded
  exact ⟨Session.toRecord_eq_ok.mpr ⟨hcopyable, rfl⟩, .str request.target, saved, _,
    s.record.plain, s.restored, hsaved, hreopened, hloaded, htidy.ofRecord_plain hcopyable, rfl⟩

end Storage

/-! ## Hosts -/

namespace Host

/-- The session at hand is tidy, and so are the sessions that can be loaded. -/
structure KeepsNames (host : Host) : Prop where
  session : host.session.Tidy
  store : host.storage.store.KeepsNames

/-- A call of the tool that sets inputs: the input that it finds, if any, has a text for its state
key, or none that counts as given. -/
def SetsByName (host : Host) (args : Fields) : Prop :=
  ∀ target control, Entries.get? args "target" = some target →
    host.found target = .ok (some control) → control.stateKey.truthy = true →
      ∃ name, control.stateKey = .str name

section
variable {host : Host} {args : Fields}

/-- A value that is set is written under a name. -/
theorem tidy_written (h : host.session.Tidy) (hset : host.SetsByName args) {target : Json}
    (htarget : Entries.get? args "target" = some target) {session : Session}
    (hwritten : host.written target (args.get "value") = .ok session) : session.Tidy := by
  obtain ⟨⟨key, stored⟩, hplaced, hwritten⟩ := Checked.bind_eq_ok hwritten
  obtain ⟨control, hfound, hplaced⟩ := Checked.bind_eq_ok hplaced
  obtain ⟨hgiven, k, hk, rfl⟩ := Session.of_set_eq_ok hwritten
  -- a target that is no input is itself the key, and it was looked up in the layout as a text
  have hname : ∃ name, key = .str name := by
    rw [destination] at hplaced
    split at hplaced
    · rename_i input hinput
      obtain ⟨rfl, htruthy⟩ := Option.filter_eq_some_iff.mp hinput
      obtain ⟨value, -, hplaced⟩ := Checked.bind_eq_ok hplaced
      cases hplaced
      exact hset target input htarget hfound htruthy
    · obtain ⟨text, htext, hplaced⟩ := Checked.bind_eq_ok hplaced
      split at hplaced
      · cases hplaced
      · cases hplaced
        cases target with
        | str name => exact ⟨name, rfl⟩
        | _ => cases htext
  obtain ⟨name, rfl⟩ := hname
  cases hk
  refine ⟨h.named.put ?_ stored, h.coherent.congr rfl rfl rfl⟩
  rintro rfl
  cases hgiven

theorem KeepsNames.call (h : host.KeepsNames) {tool : Tool}
    (hset : tool = .setState → host.SetsByName args) :
    (host.step (.call tool.name args)).KeepsNames := by
  constructor
  · refine lasts_call Session.tidy_lasts h.session ?_ ?_
    · rintro target session rfl htarget hwritten
      exact tidy_written h.session (hset rfl) htarget hwritten
    · intro id session hloaded
      obtain ⟨-, record, hrecord, hsession⟩ := exists_record_of_loaded? hloaded
      exact Session.tidy_ofRecord hsession fun state hstate => h.store.load hrecord hstate
  · obtain ⟨between, hchange, htold⟩ := changed_call (ofName?_name tool) host args
    suffices hbetween : between.storage.store.KeepsNames by
      generalize host.step (.call tool.name args) = after at htold
      cases htold
      exact hbetween
    cases hchange with
    | save hsaved =>
      rename_i request id storage
      have hstore := host.storage.store_save request host.session.record
      rw [hsaved] at hstore
      show storage.store.KeepsNames
      rw [show storage.store = _ from hstore]
      refine h.store.save request fun state hstate => ?_
      cases hstate
      exact h.session.named
    | _ => exact h.store

end

/-! ## Runs -/

/-- In a run of moves, every input that is set has a text for its state key. -/
def AllSetByName (host : Host) (moves : List Move) : Prop :=
  ∀ before args after, moves = before ++ .call Tool.setState.name args :: after →
    (host.run before).SetsByName args

theorem KeepsNames.step {host : Host} (h : host.KeepsNames) {m : Move}
    (hset : ∀ args, m = .call Tool.setState.name args → host.SetsByName args)
    (hup : ∀ id, m ≠ .restart id) : (host.step m).KeepsNames := by
  cases m with
  | call name args =>
    cases htool : Tool.ofName? name with
    | none =>
      rw [step_of_unknown htool]
      exact h
    | some tool =>
      obtain rfl := name_of_ofName? htool
      refine h.call ?_
      rintro rfl
      exact hset args rfl
  | restart id => exact (hup id rfl).elim
  | wait now clock => exact ⟨h.session, h.store⟩
  | listen network => exact ⟨h.session, h.store⟩

theorem KeepsNames.run {host : Host} (h : host.KeepsNames) {moves : List Move}
    (hset : host.AllSetByName moves) (hup : StaysUp moves) : (host.run moves).KeepsNames := by
  induction moves generalizing host with
  | nil => exact h
  | cons m moves ih =>
    refine ih (h.step ?_ ?_) ?_ fun id hmem => hup id (List.mem_cons_of_mem m hmem)
    · rintro args rfl
      exact hset [] args moves rfl
    · rintro id rfl
      exact hup id List.mem_cons_self
    · rintro before args after rfl
      exact hset (m :: before) args after rfl

/-- On a new host whose stored states have names for keys, as long as the inputs that are set have
texts for state keys: every key of the state is a text that is not empty, so that the state can be
put into words, and collected by groups that are texts. Saved to a file with a board and a verdict
that the file can hold, and loaded by the same user once the file is opened again, the session has
the same state. -/
theorem state_keys_named (settings : Settings) (display : Display) {storage : Storage}
    (sessionId now : String) (clock : Quantity) (http : Remote.Http) (network : Remote.Network)
    {moves : List Move} (hstored : storage.store.KeepsNames) (hup : StaysUp moves)
    (hset : AllSetByName
      { settings, display, storage, sessionId, links := { http, network }, now, clock } moves) :
    let new : Host :=
      { settings, display, storage, sessionId, links := { http, network }, now, clock }
    let s := (new.run moves).session
    (∀ e ∈ s.state, ∃ name, e.1 = .str name ∧ name ≠ "") ∧
      (∃ text, s.state.summary = .ok text) ∧
      (∀ groups : List Json, (∀ g ∈ groups, g.truthy = true → ∃ name, g = .str name) →
        ∃ found, s.state.collect groups = .ok found) ∧
      ∀ (file : Storage) (ledger : Ledger) (saves : Nat) (request : SaveRequest),
        file.inFile = true → file.Keeps ledger saves → ledger.Regular saves →
        (Json.int (saves + 1 : Nat)).isPortable = true →
        (Storage.Call.save request s.record).Declared → request.title.Storable →
        s.record.Portable → ledger.accepts request s.record = true →
        s.toRecord = .ok s.record ∧
          ∃ id saved reopened record t, file.save request s.record = (.ok id, saved) ∧
            saved.reopen = .ok reopened ∧
            reopened.store.load request.user id.toJson = .ok (.ok, some record) ∧
            Session.ofRecord record = .ok t ∧ t.state = s.state := by
  intro new s
  have htidy : s.Tidy := (KeepsNames.run ⟨Session.tidy_new, hstored⟩ hset hup).session
  refine ⟨fun e he => htidy.named.exists_name he, htidy.named.exists_summary,
    fun groups hgroups => htidy.named.exists_collect hgroups, ?_⟩
  intro file ledger saves request hfile hkeeps hregular hsaves hdeclared htitle hrecord haccepts
  exact hkeeps.survives hfile hregular hsaves htidy hdeclared htitle hrecord haccepts

/-- A board with a text input is shown. -/
def showInput : Move := .call "forge_view" [("spec", .obj [("title", .str "T"), ("layout", .arr [
  .obj [("kind", .str "text_input"), ("stateKey", .str "note")]])])]

/-- A text is put into it. -/
def fillInput : Move := .call "forge_set_state" [("target", .str "note"), ("value", .str "x")]

theorem fillInput_named :
    Store.KeepsNames {} ∧ StaysUp [showInput, fillInput] ∧
      new.AllSetByName [showInput, fillInput] ∧
      ∃ text, (new.run [showInput, fillInput]).session.state.summary = .ok text := by
  have hup : StaysUp [showInput, fillInput] := by
    intro id hmem
    simp [showInput, fillInput] at hmem
  have hfound : (((new.run [showInput]).found (.str "note")).toOption.join.all
      fun control => control.stateKey.string?.isSome) = true := by
    decide +kernel
  have hset : new.AllSetByName [showInput, fillInput] := by
    intro before args after hsplit
    match before, hsplit with
    | [], hsplit =>
      have hname := (Move.call.inj (List.cons.inj hsplit).1).1
      exact absurd hname (by decide)
    | [first], hsplit =>
      obtain ⟨rfl, hrest⟩ := List.cons.inj hsplit
      obtain ⟨-, rfl⟩ := Move.call.inj (List.cons.inj hrest).1
      rintro target control htarget hcontrol -
      cases htarget
      rw [hcontrol] at hfound
      obtain ⟨name, hname⟩ := Option.isSome_iff_exists.mp hfound
      exact ⟨name, string?_eq_some_iff.mp hname⟩
    | _ :: _ :: before, hsplit =>
      have hlong := congrArg List.length hsplit
      simp at hlong
  obtain ⟨-, hsummary, -⟩ := state_keys_named {} .plain "s" "2024-01-01T00:00:00+00:00" (.whole 0)
    .utf8 {} Store.keepsNames_empty hup hset
  exact ⟨Store.keepsNames_empty, hup, hset, hsummary⟩

end Host
end DecisionBoard
