import Mathlib.Data.List.Induction
import DecisionBoard.Proofs.Checked
import DecisionBoard.Proofs.Entries
import DecisionBoard.Proofs.Key
import DecisionBoard.Proofs.Splits
import DecisionBoard.Snapshot

/-!
# What a comparison tells

A tracker compares each snapshot with the last one that was taken since it was new or was reset.
`Difference.Exact` says what the comparison has to tell, in terms of the two lists of elements
themselves: which keys only one of them has, and which properties of the others differ.
`take_exact` says that it tells that after every run.
-/

namespace DecisionBoard

/-! ## Elements with keys -/

namespace Snapshot

/-- An element can be part of a snapshot: it is an object, and a key that it has is a scalar. -/
def Fit (element : Json) : Prop :=
  ∃ fs : Fields, element = .obj fs ∧
    ((fs.get "key").truthy = true → ∃ key, Key.ofJson (fs.get "key") = .ok key)

/-- An element with its key, if it has one. -/
def keyed? (element : Json) : Option (Key × Fields) :=
  element.fields?.bind fun fs =>
    if (fs.get "key").truthy then (Key.ofJson (fs.get "key")).toOption.map fun key => (key, fs)
    else none

/-- The elements that have a key, in order. -/
def keyed (elements : List Json) : List (Key × Fields) := elements.filterMap keyed?

/-- The table of the elements that have a key. -/
def table (elements : List Json) : Snapshot := Entries.ofPairs (keyed elements)

/-- The keys of some elements, each one once and where it came first. -/
def keysOf (elements : List Json) : List Key := ((keyed elements).map (·.1)).eraseDups

/-- The last element with a key. -/
def lastOf (elements : List Json) (key : Key) : Fields :=
  (((keyed elements).reverse.find? fun e => key == e.1).map (·.2)).getD []

/-- The tracked properties that two elements do not have alike. -/
def differing (before after : Fields) : List String :=
  trackedProperties.filter fun property => !(before.get property).equals (after.get property)

/-- A key is in both lists, and some tracked property of its elements differs. -/
def isModified (before after : List Json) (key : Key) : Bool :=
  (keysOf before).contains key && !(differing (lastOf before key) (lastOf after key)).isEmpty

theorem elementKey?_obj (fs : Fields) : elementKey? (.obj fs) =
    if (fs.get "key").truthy then (Key.ofJson (fs.get "key")).map fun key => some (key, fs)
    else .ok none := by
  unfold elementKey?
  simp only [Json.members, bind, Except.bind]
  cases (fs.get "key").truthy with
  | false => rfl
  | true => cases Key.ofJson (fs.get "key") <;> rfl

theorem elementKey?_eq_ok (element : Json) (kept : Option (Key × Fields)) :
    elementKey? element = .ok kept ↔ Fit element ∧ kept = keyed? element := by
  cases element with
  | obj fs =>
    have hfit : Fit (.obj fs) ↔ ((Fields.get fs "key").truthy = true →
        ∃ key, Key.ofJson (Fields.get fs "key") = .ok key) := by
      refine ⟨?_, fun h => ⟨fs, rfl, h⟩⟩
      rintro ⟨own, heq, h⟩
      cases heq
      exact h
    rw [hfit, elementKey?_obj, keyed?, Json.fields?, Option.bind_some]
    cases (Fields.get fs "key").truthy with
    | false => simp [eq_comm]
    | true => cases Key.ofJson (Fields.get fs "key") <;> simp [Except.map, Except.toOption, eq_comm]
  | _ =>
    constructor
    · intro hok
      cases hok
    · rintro ⟨⟨fs, heq, -⟩, -⟩
      cases heq

/-- Elements make a snapshot if each of them fits, and it is the table of those with a key. -/
theorem ofElements_eq_ok {elements : List Json} {snapshot : Snapshot} :
    ofElements elements = .ok snapshot ↔
      (∀ element ∈ elements, Fit element) ∧ snapshot = table elements := by
  have hkept : ∀ {kept}, elements.mapM elementKey? = .ok kept ↔
      (∀ element ∈ elements, Fit element) ∧ kept = elements.map keyed? :=
    Checked.mapM_eq_ok elementKey?_eq_ok
  have hkeyed : (elements.map keyed?).filterMap id = keyed elements := by
    rw [List.filterMap_map]
    rfl
  constructor
  · intro h
    obtain ⟨kept, hok, hsnapshot⟩ := Checked.bind_eq_ok h
    obtain ⟨hfit, rfl⟩ := hkept.mp hok
    rw [hkeyed] at hsnapshot
    exact ⟨hfit, (Except.ok.inj hsnapshot).symm⟩
  · rintro ⟨hfit, rfl⟩
    rw [ofElements, hkept.mpr ⟨hfit, rfl⟩, table, ← hkeyed]
    rfl

end Snapshot

/-! ## Exact comparisons -/

open Snapshot (Fit keysOf lastOf differing isModified table)

/-- What a comparison of two lists of elements has to tell. -/
structure Difference.Exact (before after : List Json) (d : Difference) : Prop where
  appeared : d.appeared = (keysOf after).filter fun key => !(keysOf before).contains key
  disappeared : d.disappeared = (keysOf before).filter fun key => !(keysOf after).contains key
  modified : d.modified.map (·.1) = (keysOf after).filter (isModified before after)
  /-- For each of these, all properties that differ, with their values before and after. -/
  changes : ∀ key changes, (key, changes) ∈ d.modified → changes =
    (differing (lastOf before key) (lastOf after key)).map fun property =>
      ⟨property, (lastOf before key).get property, (lastOf after key).get property⟩
  /-- No key is told twice. -/
  once : ∀ keys ∈ [d.appeared, d.disappeared, d.modified.map (·.1)],
    keys.Pairwise fun key later => (later == key) = false

namespace Snapshot

theorem changes_eq (before after : Fields) : changes before after =
    (differing before after).map fun property =>
      ⟨property, before.get property, after.get property⟩ := by
  unfold changes differing
  induction trackedProperties with
  | nil => rfl
  | cons property properties ih =>
    cases h : (before.get property).equals (after.get property) with
    | true => simp [h, ih]
    | false => simp [h, ih]

theorem map_fst_table (elements : List Json) : (table elements).map (·.1) = keysOf elements :=
  Entries.map_fst_ofPairs (keyed elements)

theorem has_table (elements : List Json) (key : Key) :
    Entries.has (table elements) key = (keysOf elements).contains key := by
  rw [Entries.has_eq_contains, map_fst_table]

theorem get?_table (elements : List Json) (key : Key) : Entries.get? (table elements) key =
    if (keysOf elements).contains key then some (lastOf elements key) else none := by
  have hget : Entries.get? (table elements) key =
      ((keyed elements).reverse.find? fun e => key == e.1).map (·.2) := by
    rw [table, Entries.ofPairs, Entries.get?_overlay, Entries.get?_nil, Option.or_none]
  rw [← has_table, Entries.has, lastOf, ← hget]
  cases Entries.get? (table elements) key <;> rfl

theorem distinct_keysOf (elements : List Json) :
    (keysOf elements).Pairwise fun key later => (later == key) = false := by
  rw [← map_fst_table]
  exact Entries.distinct_ofPairs (keyed elements)

/-- The comparison goes through the later keys, and tells what changed under each. -/
theorem modified_difference (before after : List Json) :
    (difference (table before) (table after)).modified =
      ((keysOf after).filter (isModified before after)).map fun key =>
        (key, changes (lastOf before key) (lastOf after key)) := by
  have hmodified : (difference (table before) (table after)).modified =
      (table after).filterMap fun e => if isModified before after e.1 then
        some (e.1, changes (lastOf before e.1) (lastOf after e.1)) else none := by
    refine List.filterMap_congr ?_
    rintro ⟨key, new⟩ he
    have hnew : new = lastOf after key := by
      have hget := (Entries.distinct_ofPairs (keyed after)).get?_of_mem he
      have hlast := get?_table after key
      rw [table, hget] at hlast
      split at hlast
      · exact Option.some.inj hlast
      · cases hlast
    dsimp only
    rw [get?_table, hnew, isModified]
    cases (keysOf before).contains key with
    | false => rfl
    | true =>
      simp only [if_true, Option.bind_eq_bind, Option.bind_some, changes_eq]
      cases differing (lastOf before key) (lastOf after key) <;> rfl
  -- entries are chosen and told by their keys alone
  rw [hmodified, ← map_fst_table, ← List.filterMap_eq_filter, List.map_filterMap,
    List.filterMap_map]
  refine List.filterMap_congr fun e _ => ?_
  simp [Option.guard]

theorem exact_difference (before after : List Json) :
    (difference (table before) (table after)).Exact before after := by
  have hdropped : ∀ there other : List Json,
      (((table there).filter fun e => !Entries.has (table other) e.1).map (·.1))
        = (keysOf there).filter fun key => !(keysOf other).contains key := by
    intro there other
    rw [← map_fst_table there, List.filter_map]
    simp only [Function.comp_def, has_table]
  have happeared : (difference (table before) (table after)).appeared = _ := hdropped after before
  have hdisappeared : (difference (table before) (table after)).disappeared = _ :=
    hdropped before after
  have hmodified : (difference (table before) (table after)).modified.map (·.1)
      = (keysOf after).filter (isModified before after) := by
    rw [modified_difference, List.map_map]
    exact List.map_id _
  constructor
  · exact happeared
  · exact hdisappeared
  · exact hmodified
  · intro key changes hmem
    rw [modified_difference] at hmem
    obtain ⟨key', -, heq⟩ := List.mem_map.mp hmem
    cases heq
    exact changes_eq _ _
  · intro keys hkeys
    simp only [List.mem_cons, List.not_mem_nil, or_false] at hkeys
    rcases hkeys with rfl | rfl | rfl
    · rw [happeared]
      exact (distinct_keysOf after).filter _
    · rw [hdisappeared]
      exact (distinct_keysOf before).filter _
    · rw [hmodified]
      exact (distinct_keysOf after).filter _

end Snapshot

/-! ## Runs of a tracker -/

namespace Tracker

/-- Something that happens to a tracker: a snapshot is taken, or it is reset. -/
inductive Move where
  | take (elements : List Json)
  | reset

/-- The tracker after a move. Elements that make no snapshot leave it as it was. -/
def step (t : Tracker) : Move → Tracker
  | .take elements => ((t.take elements).toOption.map (·.2)).getD t
  | .reset => {}

/-- A new tracker after a run of moves. -/
def run (moves : List Move) : Tracker := moves.foldl step {}

/-- A snapshot can be taken of some elements. -/
def Takes (elements : List Json) : Prop := ∀ element ∈ elements, Fit element

/-- In a run of moves, the last snapshot since the last reset was taken of some elements. -/
def LastTaken (moves : List Move) (elements : List Json) : Prop :=
  Takes elements ∧ ∃ earlier later, moves = earlier ++ .take elements :: later ∧
    ∀ m ∈ later, ∃ refused, m = .take refused ∧ ¬ Takes refused

theorem run_concat (moves : List Move) (m : Move) :
    run (moves ++ [m]) = (run moves).step m := List.foldl_concat ..

/-- Taking a snapshot compares it with the last one and puts it in its place. -/
theorem take_of_takes (t : Tracker) {elements : List Json} (h : Takes elements) :
    t.take elements = .ok (t.last.map fun last => Snapshot.difference last (table elements),
      ⟨some (table elements)⟩) := by
  rw [take, Snapshot.ofElements_eq_ok.mpr ⟨h, rfl⟩]
  rfl

theorem take_of_not_takes (t : Tracker) {elements : List Json} (h : ¬ Takes elements) :
    ∃ fault, t.take elements = .error fault := by
  cases hsnapshot : Snapshot.ofElements elements with
  | ok snapshot => exact (h (Snapshot.ofElements_eq_ok.mp hsnapshot).1).elim
  | error fault =>
    refine ⟨fault, ?_⟩
    rw [take, hsnapshot]
    rfl

/-- After one more move the last snapshot is that of the move, or the one from before unless the
move is a reset. -/
theorem lastTaken_concat {moves : List Move} {m : Move} {elements : List Json} :
    LastTaken (moves ++ [m]) elements ↔ Takes elements ∧ m = .take elements ∨
      LastTaken moves elements ∧ ∃ refused, m = .take refused ∧ ¬ Takes refused := by
  constructor
  · rintro ⟨htakes, earlier, later, hsplit, hlater⟩
    rcases concat_eq_append_cons.mp hsplit with ⟨-, hm, -⟩ | ⟨between, rfl, hmoves⟩
    · exact .inl ⟨htakes, hm.symm⟩
    · have hbetween := fun m hm => hlater m (List.mem_append_left _ hm)
      exact .inr ⟨⟨htakes, earlier, between, hmoves, hbetween⟩,
        hlater m (List.mem_append_right _ List.mem_cons_self)⟩
  · rintro (⟨htakes, rfl⟩ | ⟨⟨htakes, earlier, between, rfl, hbetween⟩, hm⟩)
    · exact ⟨htakes, moves, [], rfl, nofun⟩
    · refine ⟨htakes, earlier, between ++ [m], by simp, fun m' hm' => ?_⟩
      rcases List.mem_append.mp hm' with hmem | hlast
      · exact hbetween m' hmem
      · rw [List.mem_singleton.mp hlast]
        exact hm

/-- There is one last snapshot at most. -/
theorem LastTaken.unique {moves : List Move} {elements other : List Json}
    (h : LastTaken moves elements) (hother : LastTaken moves other) : elements = other := by
  induction moves using List.reverseRecOn with
  | nil =>
    obtain ⟨-, earlier, later, hsplit, -⟩ := h
    exact (nil_ne_append_cons hsplit).elim
  | append_singleton moves m ih =>
    rcases lastTaken_concat.mp h with ⟨htakes, rfl⟩ | ⟨hearlier, refused, rfl, hno⟩
    · rcases lastTaken_concat.mp hother with ⟨-, heq⟩ | ⟨-, refused, heq, hno⟩
      · cases heq
        rfl
      · cases heq
        exact (hno htakes).elim
    · rcases lastTaken_concat.mp hother with ⟨htakes, heq⟩ | ⟨hearlier', -⟩
      · cases heq
        exact (hno htakes).elim
      · exact ih hearlier hearlier'

/-- A tracker holds the table of the last snapshot, or nothing if there is none. -/
theorem last_run (moves : List Move) :
    (∃ elements, LastTaken moves elements ∧ (run moves).last = some (table elements)) ∨
      (∀ elements, ¬ LastTaken moves elements) ∧ (run moves).last = none := by
  induction moves using List.reverseRecOn with
  | nil =>
    refine .inr ⟨?_, rfl⟩
    rintro elements ⟨-, earlier, later, hsplit, -⟩
    exact nil_ne_append_cons hsplit
  | append_singleton moves m ih =>
    rw [run_concat]
    simp only [lastTaken_concat]
    cases m with
    | take elements =>
      by_cases htakes : Takes elements
      · refine .inl ⟨elements, .inl ⟨htakes, rfl⟩, ?_⟩
        rw [step, take_of_takes _ htakes]
        rfl
      · obtain ⟨fault, hfault⟩ := take_of_not_takes (run moves) htakes
        have hsame : (run moves).step (.take elements) = run moves := by
          rw [step, hfault]
          rfl
        rw [hsame]
        refine ih.imp ?_ ?_
        · rintro ⟨last, hlast, htable⟩
          exact ⟨last, .inr ⟨hlast, elements, rfl, htakes⟩, htable⟩
        · rintro ⟨hnone, hempty⟩
          refine ⟨?_, hempty⟩
          rintro other (⟨hother, heq⟩ | ⟨hlast, -⟩)
          · cases heq
            exact htakes hother
          · exact hnone other hlast
    | reset =>
      refine .inr ⟨?_, rfl⟩
      rintro elements (⟨-, heq⟩ | ⟨-, refused, heq, -⟩)
      · cases heq
      · cases heq

/-- After any run of snapshots and resets, a snapshot is compared with the last one since the last
reset, and the comparison is exact. Without one there is nothing to compare with. Elements that
make no snapshot are refused and leave the tracker as it was. -/
theorem take_exact (moves : List Move) (elements : List Json) :
    (∀ last, LastTaken moves last → Takes elements → ∃ difference,
      (run moves).take elements = .ok (some difference, run (moves ++ [.take elements])) ∧
        difference.Exact last elements) ∧
    ((∀ last, ¬ LastTaken moves last) → Takes elements →
      (run moves).take elements = .ok (none, run (moves ++ [.take elements]))) ∧
    (¬ Takes elements → (∃ fault, (run moves).take elements = .error fault) ∧
      run (moves ++ [.take elements]) = run moves) := by
  have hafter : run (moves ++ [.take elements]) = (run moves).step (.take elements) :=
    run_concat moves _
  refine ⟨fun last hlast htakes => ?_, fun hnone htakes => ?_, fun hno => ?_⟩
  · rcases last_run moves with ⟨other, hother, htable⟩ | ⟨hnone, -⟩
    · cases hlast.unique hother
      refine ⟨_, ?_, Snapshot.exact_difference last elements⟩
      rw [hafter, step, take_of_takes _ htakes, htable]
      rfl
    · exact (hnone last hlast).elim
  · rcases last_run moves with ⟨other, hother, -⟩ | ⟨-, hempty⟩
    · exact (hnone other hother).elim
    · rw [hafter, step, take_of_takes _ htakes, hempty]
      rfl
  · obtain ⟨fault, hfault⟩ := take_of_not_takes (run moves) hno
    refine ⟨⟨fault, hfault⟩, ?_⟩
    rw [hafter, step, hfault]
    rfl

/-! ### A key that repeats -/

/-- An element with a key and a value. -/
def valued (key : String) (value : Int) : Json := .obj [("key", .str key), ("value", .int value)]

/-- A snapshot is forgotten; one is taken in which a key repeats; another is refused. -/
def repeating : List Move := [.take [valued "a" 1], .reset,
  .take [valued "a" 1, valued "b" 1, valued "a" 2], .take [.null]]

theorem take_exact_repeating : ∃ difference,
    (run repeating).take [valued "c" 1, valued "a" 3, valued "c" 2] = .ok (some difference,
      run (repeating ++ [.take [valued "c" 1, valued "a" 3, valued "c" 2]])) ∧
    difference.Exact [valued "a" 1, valued "b" 1, valued "a" 2]
      [valued "c" 1, valued "a" 3, valued "c" 2] ∧
    difference.appeared = [.str "c"] ∧ difference.disappeared = [.str "b"] ∧
    difference.modified = [(.str "a", [⟨"value", .int 2, .int 3⟩])] := by
  have htakes : ∀ entries : List (String × Int),
      Takes (entries.map fun (key, value) => valued key value) := by
    intro entries element helement
    obtain ⟨⟨key, value⟩, -, rfl⟩ := List.mem_map.mp helement
    exact ⟨_, rfl, fun _ => ⟨.str key, rfl⟩⟩
  have hrefused : ¬ Takes [.null] := by
    intro h
    obtain ⟨fs, heq, -⟩ := h .null List.mem_cons_self
    cases heq
  have hlast : LastTaken repeating [valued "a" 1, valued "b" 1, valued "a" 2] := by
    refine ⟨htakes [("a", 1), ("b", 1), ("a", 2)], [.take [valued "a" 1], .reset], _, rfl, ?_⟩
    intro m hm
    rw [List.mem_singleton.mp hm]
    exact ⟨_, rfl, hrefused⟩
  obtain ⟨difference, htaken, hexact⟩ := (take_exact repeating _).1 _ hlast
    (htakes [("c", 1), ("a", 3), ("c", 2)])
  refine ⟨difference, htaken, hexact, ?_⟩
  cases htaken
  exact ⟨rfl, rfl, rfl⟩

end Tracker
end DecisionBoard
