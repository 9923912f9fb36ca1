import DecisionBoard.Proofs.WidgetState
import Mathlib.Data.List.Nodup

/-!
# Entries by group

Entries of a state are asked for by groups: a group asks for the name that it is, and for all names
that go on from it with a dot. `Collected` says, of the entries and the groups themselves, what is
collected: which entries, each one once, and in which order. `collect_ofFields` and
`collected_gathered` say that the loop over the groups comes to that, however they overlap.
-/

namespace DecisionBoard
namespace WidgetState

/-! ## What is asked for -/

/-- A group asks for a name: it is not empty, and the name is the group or goes on from it with a
dot. -/
def Asks (group name : String) : Prop :=
  group ≠ "" ∧ (name = group ∨ ∃ rest, name = group ++ "." ++ rest)

theorem startsWith_iff (s start : String) :
    startsWith s start = true ↔ ∃ rest, s = start ++ rest := by
  rw [startsWith, List.isPrefixOf_iff_prefix]
  constructor
  · rintro ⟨cs, h⟩
    refine ⟨String.ofList cs, String.toList_inj.mp ?_⟩
    rw [String.toList_append, String.toList_ofList, h]
  · rintro ⟨rest, rfl⟩
    rw [String.toList_append]
    exact List.prefix_append _ _

theorem asks_iff {group name : String} (hgroup : group ≠ "") :
    Asks group name ↔ (name == group || startsWith name (group ++ ".")) = true := by
  rw [Asks, Bool.or_eq_true, startsWith_iff, beq_iff_eq]
  exact and_iff_right hgroup

instance (group name : String) : Decidable (Asks group name) :=
  if hgroup : group = "" then isFalse fun h => h.1 hgroup
  else decidable_of_iff _ (asks_iff hgroup).symm

/-- What is asked for by a group that is itself asked for, the wider group asks for as well. -/
theorem Asks.trans {wide group name : String} (hwide : Asks wide group) (h : Asks group name) :
    Asks wide name := by
  obtain ⟨-, rfl | ⟨rest, rfl⟩⟩ := h
  · exact hwide
  · obtain ⟨hne, rfl | ⟨between, rfl⟩⟩ := hwide
    · exact ⟨hne, .inr ⟨rest, rfl⟩⟩
    · refine ⟨hne, .inr ⟨between ++ "." ++ rest, ?_⟩⟩
      simp only [String.append_assoc]

/-- The place of the first group that asks for a name; there are as many groups if none does. -/
def firstAsking (groups : List String) (name : String) : Nat :=
  groups.findIdx fun group => Asks group name

section
variable {groups : List String} {group name : String}

theorem firstAsking_lt (h : ∃ g ∈ groups, Asks g name) :
    firstAsking groups name < groups.length := by
  obtain ⟨g, hg, hasks⟩ := h
  exact List.findIdx_lt_length.mpr ⟨g, hg, decide_eq_true hasks⟩

/-- One more group behind the others does not come first where another asks already. -/
theorem firstAsking_concat (h : ∃ g ∈ groups, Asks g name) (group : String) :
    firstAsking (groups ++ [group]) name = firstAsking groups name := by
  have hlt := firstAsking_lt h
  rw [firstAsking] at hlt
  rw [firstAsking, firstAsking, List.findIdx_append, if_pos hlt]

theorem firstAsking_concat_self (hnone : ¬ ∃ g ∈ groups, Asks g name) (h : Asks group name) :
    firstAsking (groups ++ [group]) name = groups.length := by
  have hge : ¬ groups.findIdx (fun g => decide (Asks g name)) < groups.length := by
    intro hlt
    obtain ⟨g, hg, hasks⟩ := List.findIdx_lt_length.mp hlt
    exact hnone ⟨g, hg, of_decide_eq_true hasks⟩
  have hself : [group].findIdx (fun g => decide (Asks g name)) = 0 := by
    simp [List.findIdx_cons, h]
  rw [firstAsking, List.findIdx_append, if_neg hge, hself, Nat.zero_add]

end

/-- What is collected from fields by groups: the fields that some group asks for, with their values,
and no name twice. Those that an earlier group asks for first come first, and those that one group
asks for first come in the order of the fields. -/
structure Collected (fs : Fields) (groups : List String) (found : Fields) : Prop where
  mem (f : String × Json) : f ∈ found ↔ f ∈ fs ∧ ∃ group ∈ groups, Asks group f.1
  once : (found.map (·.1)).Nodup
  ordered : found.Pairwise fun f g =>
    firstAsking groups f.1 < firstAsking groups g.1 ∨
      firstAsking groups f.1 = firstAsking groups g.1 ∧ [f, g].Sublist fs

/-! ## What the loop comes to -/

/-- The fields that one group asks for. -/
def asked (fs : Fields) (group : String) : Fields := fs.filter fun f => Asks group f.1

/-- The fields that are found by going through groups one after the other. -/
def gathered (fs : Fields) (groups : List String) : Fields :=
  groups.foldl (fun found group => Entries.overlay found (asked fs group)) []

theorem asked_empty (fs : Fields) : asked fs "" = [] := by
  rw [asked, List.filter_eq_nil_iff]
  intro f _ hasks
  exact (of_decide_eq_true hasks).1 rfl

theorem under_asked (fs : Fields) {group : String} (hgroup : group ≠ "") :
    under (ofFields fs) (.str group) = .ok (ofFields (asked fs group)) := by
  rw [under_ofFields, asked]
  congr 3
  funext f
  rw [Bool.eq_iff_iff, ← asks_iff hgroup, decide_eq_true_iff]

/-- Groups that are texts are collected from entries with names for keys. -/
theorem collect_ofFields (fs : Fields) (groups : List String) :
    collect (ofFields fs) (groups.map .str) = .ok (ofFields (gathered fs groups)) := by
  -- the induction is on the groups that are left, whatever has been found by then
  have hloop : ∀ found : Fields,
      ((groups.map Json.str).filter Json.truthy).foldlM
        (fun found group => return Entries.overlay found (← under (ofFields fs) group))
        (ofFields found) = (.ok (ofFields (groups.foldl
          (fun found group => Entries.overlay found (asked fs group)) found)) :
            Checked WidgetState) := by
    induction groups with
    | nil => exact fun _ => rfl
    | cons group groups ih =>
      intro found
      rw [List.map_cons, List.foldl_cons]
      by_cases hgroup : group = ""
      · subst hgroup
        rw [List.filter_cons_of_neg (by decide), asked_empty]
        exact ih found
      · have hgiven : (Json.str group).truthy = true := by simp [Json.truthy, hgroup]
        rw [List.filter_cons_of_pos hgiven, List.foldlM_cons, under_asked fs hgroup,
          ← ih, ← overlay_ofFields]
        rfl
  exact hloop []

theorem gathered_concat (fs : Fields) (groups : List String) (group : String) :
    gathered fs (groups ++ [group]) = Entries.overlay (gathered fs groups) (asked fs group) :=
  List.foldl_concat ..

theorem nodup_gathered (fs : Fields) (groups : List String) :
    ((gathered fs groups).map (·.1)).Nodup := by
  induction groups using List.reverseRecOn with
  | nil => exact List.nodup_nil
  | append_singleton groups group ih =>
    rw [gathered_concat]
    exact Entries.nodup_overlay ih _

theorem mem_of_mem_gathered {fs : Fields} {groups : List String} {f : String × Json}
    (h : f ∈ gathered fs groups) : f ∈ fs := by
  induction groups using List.reverseRecOn with
  | nil => cases h
  | append_singleton groups group ih =>
    rw [gathered_concat] at h
    rcases Entries.mem_of_mem_overlay h with hold | hnew
    · exact ih hold
    · exact List.mem_of_mem_filter hnew

section
variable {fs : Fields} (hdistinct : (fs.map (·.1)).Nodup)
include hdistinct

/-- A field whose name has been gathered has been gathered itself. -/
theorem mem_gathered_of_name {groups : List String} {f : String × Json} (hf : f ∈ fs)
    (hname : f.1 ∈ (gathered fs groups).map (·.1)) : f ∈ gathered fs groups := by
  obtain ⟨g, hg, hsame⟩ := List.mem_map.mp hname
  have heq : g = f := List.inj_on_of_nodup_map hdistinct (mem_of_mem_gathered hg) hf hsame
  rw [← heq]
  exact hg

/-- One more group adds what it asks for and what is not there yet. -/
theorem gathered_concat_eq (groups : List String) (group : String) :
    gathered fs (groups ++ [group]) = gathered fs groups ++
      (asked fs group).filter fun f => f.1 ∉ (gathered fs groups).map (·.1) := by
  have hasked : ((asked fs group).map (·.1)).Nodup :=
    hdistinct.sublist (List.filter_sublist.map _)
  rw [gathered_concat]
  refine Entries.overlay_of_agree (nodup_gathered fs groups) hasked ?_
  intro f hf hname
  exact mem_gathered_of_name hdistinct (List.mem_of_mem_filter hf) hname

theorem mem_gathered (groups : List String) (f : String × Json) :
    f ∈ gathered fs groups ↔ f ∈ fs ∧ ∃ group ∈ groups, Asks group f.1 := by
  induction groups using List.reverseRecOn with
  | nil => simp [gathered]
  | append_singleton groups group ih =>
    rw [gathered_concat_eq hdistinct, List.mem_append]
    constructor
    · rintro (hold | hnew)
      · obtain ⟨hmem, g, hg, hasks⟩ := ih.mp hold
        exact ⟨hmem, g, List.mem_append_left _ hg, hasks⟩
      · obtain ⟨hmem, hasks⟩ := List.mem_filter.mp (List.mem_of_mem_filter hnew)
        exact ⟨hmem, group, List.mem_append_right _ List.mem_cons_self, of_decide_eq_true hasks⟩
    · rintro ⟨hmem, g, hg, hasks⟩
      by_cases hname : f.1 ∈ (gathered fs groups).map (·.1)
      · exact .inl (mem_gathered_of_name hdistinct hmem hname)
      · rcases List.mem_append.mp hg with hbefore | hlast
        · exact .inl (ih.mpr ⟨hmem, g, hbefore, hasks⟩)
        · rw [List.mem_singleton.mp hlast] at hasks
          have hasked : f ∈ asked fs group := List.mem_filter.mpr ⟨hmem, decide_eq_true hasks⟩
          exact .inr (List.mem_filter.mpr ⟨hasked, decide_eq_true hname⟩)

/-- What a further group adds, it is the first to ask for. -/
theorem firstAsking_added {groups : List String} {group : String} {f : String × Json}
    (hf : f ∈ (asked fs group).filter fun f => f.1 ∉ (gathered fs groups).map (·.1)) :
    firstAsking (groups ++ [group]) f.1 = groups.length := by
  obtain ⟨hasked, hnew⟩ := List.mem_filter.mp hf
  obtain ⟨hmem, hasks⟩ := List.mem_filter.mp hasked
  refine firstAsking_concat_self ?_ (of_decide_eq_true hasks)
  intro hbefore
  have hfound := (mem_gathered hdistinct groups f).mpr ⟨hmem, hbefore⟩
  exact of_decide_eq_true hnew (List.mem_map_of_mem hfound)

theorem ordered_gathered (groups : List String) : (gathered fs groups).Pairwise fun f g =>
    firstAsking groups f.1 < firstAsking groups g.1 ∨
      firstAsking groups f.1 = firstAsking groups g.1 ∧ [f, g].Sublist fs := by
  induction groups using List.reverseRecOn with
  | nil => exact List.Pairwise.nil
  | append_singleton groups group ih =>
    have hfirst : ∀ f ∈ gathered fs groups, ∃ g ∈ groups, Asks g f.1 :=
      fun f hf => ((mem_gathered hdistinct groups f).mp hf).2
    rw [gathered_concat_eq hdistinct, List.pairwise_append]
    refine ⟨?_, ?_, ?_⟩
    · -- what was there keeps its place
      refine ih.imp_of_mem ?_
      intro f g hf hg hfg
      rw [firstAsking_concat (hfirst f hf), firstAsking_concat (hfirst g hg)]
      exact hfg
    · -- what is added comes in the order of the fields
      rw [List.pairwise_iff_forall_sublist]
      intro f g hfg
      have hf := firstAsking_added hdistinct (hfg.subset List.mem_cons_self)
      have hg := firstAsking_added hdistinct
        (hfg.subset (List.mem_cons_of_mem f List.mem_cons_self))
      right
      exact ⟨hf.trans hg.symm, hfg.trans (List.filter_sublist.trans List.filter_sublist)⟩
    · intro f hf g hg
      left
      rw [firstAsking_concat (hfirst f hf), firstAsking_added hdistinct hg]
      exact firstAsking_lt (hfirst f hf)

/-- What is gathered is what is to be collected. -/
theorem collected_gathered (groups : List String) : Collected fs groups (gathered fs groups) where
  mem := mem_gathered hdistinct groups
  once := nodup_gathered fs groups
  ordered := ordered_gathered hdistinct groups

/-- A group that another one asks for, or that is named already, adds nothing. -/
theorem mem_gathered_insert {before after : List String} {group : String}
    (h : group ∈ before ++ after ∨ ∃ wide ∈ before ++ after, Asks wide group)
    (f : String × Json) :
    f ∈ gathered fs (before ++ group :: after) ↔ f ∈ gathered fs (before ++ after) := by
  have hwidened : Asks group f.1 → ∃ g ∈ before ++ after, Asks g f.1 := by
    intro hasks
    rcases h with hmem | ⟨wide, hmem, hwide⟩
    · exact ⟨group, hmem, hasks⟩
    · exact ⟨wide, hmem, hwide.trans hasks⟩
  rw [mem_gathered hdistinct, mem_gathered hdistinct]
  refine and_congr_right fun _ => ?_
  constructor
  · rintro ⟨g, hg, hasks⟩
    rcases List.mem_append.mp hg with hbefore | hrest
    · exact ⟨g, List.mem_append_left _ hbefore, hasks⟩
    · rcases List.mem_cons.mp hrest with rfl | hafter
      · exact hwidened hasks
      · exact ⟨g, List.mem_append_right _ hafter, hasks⟩
  · rintro ⟨g, hg, hasks⟩
    refine ⟨g, ?_, hasks⟩
    rcases List.mem_append.mp hg with hbefore | hafter
    · exact List.mem_append_left _ hbefore
    · exact List.mem_append_right _ (List.mem_cons_of_mem group hafter)

end

/-- What further groups find is laid over what was found before them. -/
theorem gathered_append (fs : Fields) (groups more : List String) :
    gathered fs (groups ++ more) = Entries.overlay (gathered fs groups) (gathered fs more) := by
  induction more using List.reverseRecOn with
  | nil => rw [List.append_nil]; rfl
  | append_singleton more group ih =>
    rw [← List.append_assoc, gathered_concat, gathered_concat, ih,
      Entries.overlay_assoc (nodup_gathered fs more)]

end WidgetState
end DecisionBoard
