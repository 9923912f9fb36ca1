import DecisionBoard.Proofs.Entries
import DecisionBoard.Proofs.Refs
import Mathlib.Data.List.Infix

/-!
# Keys and their positions

Through every run of assignments, rollbacks and resets a key and its position determine each other:
no key stands twice, the ref of a key tells where it stands, and what has been assigned since a mark
is taken back without a trace. The positions may as well be kept in a table beside the keys, as
`Indexed` does. Each rollback then finds in the table what it removes from the list, and the two
stay inverse to each other.
-/

namespace DecisionBoard
namespace Refs

/-! ## Runs -/

/-- Something that is done to refs. -/
inductive Move where
  | assign (key : String)
  | rollback (mark : Int)
  | reset

/-- The refs after a move. -/
def step (refs : Refs) : Move → Refs
  | .assign key => (refs.assign key).2
  | .rollback mark => refs.rollback mark
  | .reset => {}

/-- The refs after a run of moves. -/
def after (refs : Refs) (moves : List Move) : Refs := moves.foldl step refs

theorem after_concat (refs : Refs) (moves : List Move) (m : Move) :
    refs.after (moves ++ [m]) = (refs.after moves).step m := List.foldl_concat ..

/-- How many refs a mark keeps; a negative one counts from the end. -/
def kept (size : Nat) (mark : Int) : Nat :=
  if mark < 0 then (size + mark).toNat else mark.toNat

theorem rollback_eq (refs : Refs) (mark : Int) :
    refs.rollback mark = ⟨refs.keys.take (kept refs.size mark)⟩ := rfl

theorem nodup_step {refs : Refs} (h : refs.keys.Nodup) (m : Move) : (refs.step m).keys.Nodup := by
  cases m with
  | assign key =>
    show (refs.assign key).2.keys.Nodup
    rw [assign_eq]
    split
    · exact h
    · rename_i hnew
      rw [List.nodup_append]
      refine ⟨h, List.pairwise_singleton _ key, ?_⟩
      intro other hother key' hkey' heq
      rw [List.mem_singleton.mp hkey'] at heq
      exact hnew (heq ▸ hother)
  | rollback mark => exact h.sublist (List.take_sublist _ _)
  | reset => exact List.nodup_nil

theorem nodup_after (moves : List Move) : (({} : Refs).after moves).keys.Nodup := by
  induction moves using List.reverseRecOn with
  | nil => exact List.nodup_nil
  | append_singleton moves m ih =>
    rw [after_concat]
    exact nodup_step ih m

/-! ## Refs and positions -/

section
variable {refs : Refs} {key : String}

theorem name_injective : Function.Injective name := by
  intro m n h
  have hdigits : toString m = toString n := (String.append_right_inj sigil).mp h
  exact Numeral.toString_nat_injective hdigits

theorem length_name (n : Nat) : (name n).length = sigil.length + (Nat.toDigits 10 n).length := by
  have hsigil : sigil.length = 2 := rfl
  rw [← String.length_toList, toList_name, hsigil]
  simp only [List.length_cons]
  omega

/-- The ref of a key tells its position. -/
theorem lookup_eq_iff (hdistinct : refs.keys.Nodup) (i : Nat) :
    refs.lookup key = some (name (i + 1)) ↔ refs.keys[i]? = some key := by
  constructor
  · intro h
    by_cases hmem : key ∈ refs.keys
    · rw [lookup_of_mem hmem] at h
      have hnumber : refs.keys.idxOf key + 1 = i + 1 := name_injective (Option.some.inj h)
      have hposition : refs.keys.idxOf key = i := by omega
      rw [← hposition]
      exact List.getElem?_idxOf hmem
    · rw [lookup_of_not_mem hmem] at h
      cases h
  · intro h
    exact lookup_of_getElem? hdistinct h

/-- A key that has a ref has a position, and the ref is named for it. -/
theorem exists_position {ref : String} (h : refs.lookup key = some ref) :
    ∃ i, refs.keys[i]? = some key ∧ ref = name (i + 1) := by
  by_cases hmem : key ∈ refs.keys
  · rw [lookup_of_mem hmem] at h
    exact ⟨refs.keys.idxOf key, List.getElem?_idxOf hmem, (Option.some.inj h).symm⟩
  · rw [lookup_of_not_mem hmem] at h
    cases h

/-- The ref of a key stands for the key. -/
theorem resolve_of_lookup {ref : String} (h : refs.lookup key = some ref)
    (hdigits : ref.length ≤ sigil.length + Numeral.digitLimit) : refs.resolve ref = .ok key := by
  obtain ⟨i, hkey, rfl⟩ := exists_position h
  refine resolve_name_of_getElem? hkey ?_
  rw [length_name] at hdigits
  omega

/-- The refs in use are numbered from one to the number of keys. -/
theorem exists_lookup_iff (hdistinct : refs.keys.Nodup) {ref : String} :
    (∃ key, refs.lookup key = some ref) ↔ ∃ n, 1 ≤ n ∧ n ≤ refs.size ∧ ref = name n := by
  constructor
  · rintro ⟨key, h⟩
    obtain ⟨i, hkey, rfl⟩ := exists_position h
    have hi : i < refs.keys.length := (List.getElem?_eq_some_iff.mp hkey).1
    refine ⟨i + 1, ?_, hi, rfl⟩
    omega
  · rintro ⟨n, hlow, hhigh, rfl⟩
    obtain ⟨i, rfl⟩ : ∃ i, n = i + 1 := ⟨n - 1, by omega⟩
    exact ⟨_, lookup_of_getElem? hdistinct (List.getElem?_eq_getElem hhigh)⟩

/-- A key that has a ref is given the same one again. -/
theorem assign_of_lookup {ref : String} (h : refs.lookup key = some ref) :
    refs.assign key = (ref, refs) := by
  unfold assign
  rw [h]

end

/-! ## Positions in a table of their own -/

/-- Keys with a table in which the position of each is looked up. -/
structure Indexed where
  keys : List String := []
  positions : Entries String Nat := []

namespace Indexed

/-- The ref of a key. -/
def lookup (t : Indexed) (key : String) : Option String :=
  (t.positions.get? key).map fun position => name (position + 1)

/-- Gives a key a position, unless it has one. -/
def assign (t : Indexed) (key : String) : Indexed :=
  if t.positions.has key then t
  else ⟨t.keys ++ [key], t.positions.put key t.keys.length⟩

/-- Drops a key from the table, in which it must be. -/
def drop? (positions : Entries String Nat) (key : String) : Option (Entries String Nat) :=
  if positions.has key then some (positions.erase key) else none

/-- Drops the keys behind a mark from the table, and from the list. -/
def rollback? (t : Indexed) (mark : Int) : Option Indexed :=
  let n := kept t.keys.length mark
  ((t.keys.drop n).foldlM drop? t.positions).map fun positions => ⟨t.keys.take n, positions⟩

/-- What a move makes of keys and table, if the table has what is dropped from it. -/
def step? (t : Indexed) : Move → Option Indexed
  | .assign key => some (t.assign key)
  | .rollback mark => t.rollback? mark
  | .reset => some {}

def after? (t : Indexed) (moves : List Move) : Option Indexed := moves.foldlM step? t

end Indexed

/-- The keys with the table of their positions. -/
def indexed (refs : Refs) : Indexed := ⟨refs.keys, refs.keys.zipIdx⟩

theorem get?_zipIdx (keys : List String) (start : Nat) (key : String) :
    Entries.get? (keys.zipIdx start) key = (keys.idxOf? key).map (start + ·) := by
  induction keys generalizing start with
  | nil => rfl
  | cons k keys ih =>
    rw [List.zipIdx_cons, Entries.get?, List.idxOf?_cons, ih, BEq.comm (a := k)]
    cases h : key == k with
    | true => rfl
    | false =>
      simp only [Bool.false_eq_true, if_false, Option.map_map]
      congr 1
      funext i
      show start + 1 + i = start + (i + 1)
      omega

theorem get?_positions (refs : Refs) (key : String) :
    refs.indexed.positions.get? key = refs.keys.idxOf? key := by
  show Entries.get? (refs.keys.zipIdx 0) key = refs.keys.idxOf? key
  rw [get?_zipIdx]
  simp

/-- The table gives a key the ref that the list gives it. -/
theorem lookup_indexed (refs : Refs) (key : String) :
    refs.indexed.lookup key = refs.lookup key := by
  rw [Indexed.lookup, get?_positions, lookup, number?, Option.map_map]
  rfl

theorem has_positions (refs : Refs) (key : String) :
    refs.indexed.positions.has key = true ↔ key ∈ refs.keys := by
  rw [Entries.has, get?_positions, List.isSome_idxOf?]

theorem assign_indexed (refs : Refs) (key : String) :
    refs.indexed.assign key = (refs.assign key).2.indexed := by
  rw [assign_eq, Indexed.assign]
  by_cases hmem : key ∈ refs.keys
  · rw [if_pos ((has_positions refs key).mpr hmem), if_pos hmem]
  · have hnew : key ∉ refs.indexed.positions.map (·.1) := by
      rw [indexed, List.zipIdx_map_fst]
      exact hmem
    rw [if_neg (mt (has_positions refs key).mp hmem), if_neg hmem, Entries.put_of_not_mem hnew]
    show (⟨refs.keys ++ [key], refs.keys.zipIdx ++ [(key, refs.keys.length)]⟩ : Indexed) = _
    rw [indexed, List.zipIdx_append, Nat.zero_add]
    rfl

/-- Keys that stand behind the others in a table are dropped from it one by one. -/
theorem foldlM_drop? {front : Entries String Nat} {back : List String}
    (hdistinct : (front.map (·.1) ++ back).Nodup) (start : Nat) :
    back.foldlM Indexed.drop? (front ++ back.zipIdx start) = some front := by
  induction back generalizing start with
  | nil => exact congrArg some (List.append_nil front)
  | cons key back ih =>
    obtain ⟨hfront, hback, hapart⟩ := List.nodup_append.mp hdistinct
    obtain ⟨hlater, hback⟩ := List.nodup_cons.mp hback
    have hhas : Entries.has (front ++ (key :: back).zipIdx start) key = true := by
      rw [Entries.has_eq_contains, List.contains_iff_mem, List.map_append, List.zipIdx_map_fst]
      exact List.mem_append_right _ List.mem_cons_self
    -- no other entry has the key, so that nothing else is dropped with it
    have hfresh : key ∉ front.map (·.1) := fun hmem => hapart key hmem key List.mem_cons_self rfl
    have hbehind : key ∉ (back.zipIdx (start + 1)).map (·.1) := by
      rw [List.zipIdx_map_fst]
      exact hlater
    have hstep : Indexed.drop? (front ++ (key :: back).zipIdx start) key
        = some (front ++ back.zipIdx (start + 1)) := by
      rw [Indexed.drop?, if_pos hhas, List.zipIdx_cons,
        Entries.erase_append_cons hfresh hbehind]
    rw [List.foldlM_cons, hstep]
    refine ih ?_ (start + 1)
    rw [List.nodup_append]
    refine ⟨hfront, hback, ?_⟩
    intro a ha b hb
    exact hapart a ha b (List.mem_cons_of_mem key hb)

theorem rollback?_indexed {refs : Refs} (h : refs.keys.Nodup) (mark : Int) :
    refs.indexed.rollback? mark = some (refs.rollback mark).indexed := by
  rw [rollback_eq, Indexed.rollback?]
  show ((refs.keys.drop (kept refs.size mark)).foldlM Indexed.drop? refs.keys.zipIdx).map
    (fun positions => (⟨refs.keys.take (kept refs.size mark), positions⟩ : Indexed)) = _
  generalize kept refs.size mark = n
  have hpositions : refs.keys.zipIdx
      = (refs.keys.take n).zipIdx ++ (refs.keys.drop n).zipIdx (refs.keys.take n).length := by
    conv => lhs; rw [← List.take_append_drop n refs.keys]
    rw [List.zipIdx_append, Nat.zero_add]
  have hdistinct : (((refs.keys.take n).zipIdx).map (·.1) ++ refs.keys.drop n).Nodup := by
    rw [List.zipIdx_map_fst, List.take_append_drop]
    exact h
  rw [hpositions, foldlM_drop? hdistinct]
  rfl

/-- Each move finds in the table what it drops, and leaves the table of the keys that are left. -/
theorem step?_indexed {refs : Refs} (h : refs.keys.Nodup) (m : Move) :
    refs.indexed.step? m = some (refs.step m).indexed := by
  cases m with
  | assign key => exact congrArg some (assign_indexed refs key)
  | rollback mark => exact rollback?_indexed h mark
  | reset => rfl

theorem after?_indexed (moves : List Move) :
    ({} : Indexed).after? moves = some (({} : Refs).after moves).indexed := by
  induction moves using List.reverseRecOn with
  | nil => rfl
  | append_singleton moves m ih =>
    rw [Indexed.after?] at ih
    rw [Indexed.after?, List.foldlM_append, ih, after_concat]
    show (((({} : Refs).after moves).indexed.step? m).bind fun t => some t) = _
    rw [step?_indexed (nodup_after moves)]
    rfl

/-! ## Marks -/

/-- What may be done between a mark and the return to it: keys are assigned, and of these some are
taken back, by a return to a mark that was set in between. -/
inductive Attempt (refs : Refs) : List Move → Prop where
  | start : Attempt refs []
  | assign {moves : List Move} (h : Attempt refs moves) (key : String) :
      Attempt refs (moves ++ [.assign key])
  | rollback {earlier later : List Move} (h : Attempt refs (earlier ++ later)) :
      Attempt refs (earlier ++ later ++ [.rollback (refs.after earlier).size])

namespace Attempt

variable {refs : Refs} {moves : List Move}

/-- The refs from before the attempt are in front at every moment of it. -/
theorem prefix_after (h : Attempt refs moves) :
    ∀ earlier, earlier <+: moves → refs.keys <+: (refs.after earlier).keys := by
  induction h with
  | start =>
    intro earlier hearlier
    rw [List.prefix_nil.mp hearlier]
    exact List.prefix_rfl
  | @assign moves h key ih =>
    intro earlier hearlier
    rcases List.prefix_concat_iff.mp hearlier with rfl | hbefore
    · have hold := ih moves List.prefix_rfl
      rw [after_concat, step, assign_eq]
      split
      · exact hold
      · exact hold.trans (List.prefix_append _ _)
    · exact ih earlier hbefore
  | @rollback before later h ih =>
    intro earlier hearlier
    rcases List.prefix_concat_iff.mp hearlier with rfl | hbefore
    · -- the mark was set when the refs from before the attempt were there
      have hmark : refs.keys.length ≤ (refs.after before).size :=
        (ih before (List.prefix_append _ _)).length_le
      have hkept : ∀ size, kept size ((refs.after before).size : Int) = (refs.after before).size := by
        intro size
        rw [kept, if_neg (by omega), Int.toNat_natCast]
      rw [after_concat, step, rollback_eq, hkept]
      exact List.prefix_take_iff.mpr ⟨ih _ List.prefix_rfl, hmark⟩
    · exact ih earlier hbefore

/-- An attempt is taken back exactly. -/
theorem rollback_after (h : Attempt refs moves) :
    (refs.after moves).rollback refs.size = refs := by
  obtain ⟨more, hmore⟩ := h.prefix_after moves List.prefix_rfl
  have hafter : refs.after moves = ⟨refs.keys ++ more⟩ := by rw [hmore]
  rw [hafter, rollback_append]

end Attempt

/-! ## Every run -/

/-- After any run of assignments, rollbacks and resets, keys and refs correspond one to one: the
keys are distinct, a key has the ref with the number `i + 1` if and only if its position is `i`, its
ref stands for it, and the refs in use are those from one to the number of keys. To assign a key
that has a ref changes nothing, and a return to a mark restores the refs as they were when it was
set. A table of positions that is kept beside the keys stays inverse to them, and every rollback
finds in it what it drops.

The length of a ref is bounded where it is resolved, as a number with more digits than a numeral may
have is not read. -/
theorem positions_bijective (moves : List Move) :
    let refs := ({} : Refs).after moves
    refs.keys.Nodup ∧
    (∀ key i, refs.lookup key = some (name (i + 1)) ↔ refs.keys[i]? = some key) ∧
    (∀ key ∈ refs.keys, ∃ ref, refs.lookup key = some ref ∧
      (ref.length ≤ sigil.length + Numeral.digitLimit → refs.resolve ref = .ok key)) ∧
    (∀ ref, (∃ key, refs.lookup key = some ref) ↔ ∃ n, 1 ≤ n ∧ n ≤ refs.size ∧ ref = name n) ∧
    (∀ key ref, refs.lookup key = some ref → refs.assign key = (ref, refs)) ∧
    (∀ more, refs.Attempt more → (refs.after more).rollback refs.size = refs) ∧
    ({} : Indexed).after? moves = some refs.indexed ∧
    (∀ key i, refs.indexed.positions.get? key = some i ↔ refs.keys[i]? = some key) ∧
    ∀ key, refs.indexed.lookup key = refs.lookup key := by
  intro refs
  have hdistinct : refs.keys.Nodup := nodup_after moves
  refine ⟨hdistinct, fun key => lookup_eq_iff hdistinct, ?_, fun ref => exists_lookup_iff hdistinct,
    fun key ref => assign_of_lookup, fun more h => h.rollback_after, after?_indexed moves, ?_,
    lookup_indexed refs⟩
  · intro key hkey
    have hlookup := lookup_of_mem hkey
    exact ⟨_, hlookup, resolve_of_lookup hlookup⟩
  · intro key i
    rw [← lookup_eq_iff hdistinct, ← lookup_indexed, Indexed.lookup, Option.map_eq_some_iff]
    constructor
    · intro h
      exact ⟨i, h, rfl⟩
    · rintro ⟨j, hj, hname⟩
      have hji : j + 1 = i + 1 := name_injective hname
      obtain rfl : j = i := by omega
      exact hj

/-- Two keys are assigned, the last one is dropped, and of two more the second has a ref. -/
def reassigned : List Move :=
  [.assign "a", .assign "b", .rollback (-1), .assign "c", .assign "a"]

/-- Two keys are assigned after these, and the second is taken back to a mark between them. -/
def attempted : List Move := [.assign "d", .assign "e", .rollback 3, .assign "c"]

theorem positions_bijective_reassigned :
    let refs := ({} : Refs).after reassigned
    refs.keys = ["a", "c"] ∧ refs.lookup "b" = none ∧ refs.assign "c" = (name 2, refs) ∧
    refs.resolve (name 2) = .ok "c" ∧ refs.Attempt attempted ∧
    (refs.after attempted).keys = ["a", "c", "d"] ∧
    (refs.after attempted).rollback refs.size = refs ∧
    ({} : Indexed).after? reassigned = some ⟨["a", "c"], [("a", 0), ("c", 1)]⟩ := by
  intro refs
  obtain ⟨-, hlookup, hresolve, -, hassign, hback, hindexed, -⟩ := positions_bijective reassigned
  have href : refs.lookup "c" = some (name 2) := (hlookup "c" 1).mpr (by decide)
  have hattempt : refs.Attempt attempted :=
    .assign (@Attempt.rollback refs [.assign "d"] [.assign "e"]
      (.assign (.assign .start "d") "e")) "c"
  obtain ⟨ref, href', hread⟩ := hresolve "c" (by decide)
  obtain rfl : name 2 = ref := Option.some.inj (href.symm.trans href')
  refine ⟨by decide, by decide, hassign "c" _ href, hread (by decide), hattempt, by decide,
    hback attempted hattempt, hindexed⟩

end Refs
end DecisionBoard
