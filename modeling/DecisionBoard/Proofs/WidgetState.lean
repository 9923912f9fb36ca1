import DecisionBoard.Attachment
import DecisionBoard.Proofs.Checked
import DecisionBoard.Proofs.Entries

/-!
# States whose keys are names

The summary of a state, the collection of groups and the file of a store take keys to be texts.
`Named` are the states for which this is so; values are put into them under names only.
-/

namespace DecisionBoard
namespace WidgetState

/-! ## States made of fields -/

theorem put_ofFields (fs : Fields) (name : String) (v : Json) :
    Entries.put (ofFields fs) (.str name) v = ofFields (Entries.put fs name v) :=
  Entries.put_map id Key.beq_of_str fs name v

theorem overlay_ofFields (fs top : Fields) :
    Entries.overlay (ofFields fs) (ofFields top) = ofFields (Entries.overlay fs top) := by
  induction top generalizing fs with
  | nil => rfl
  | cons f top ih =>
    obtain ⟨name, v⟩ := f
    show Entries.overlay (Entries.put (ofFields fs) (.str name) v) (ofFields top) = _
    rw [put_ofFields, ih]
    rfl

/-- Whether a name lies under a group that is a text. -/
theorem isUnder_str (name group : String) : isUnder (.str name) (.str group) =
    .ok (name == group || startsWith name (group ++ ".")) := by
  have hsame : (Key.str name).toJson.equals (.str group) = (name == group) := by
    show (Json.str name).equals (.str group) = (name == group)
    rw [Json.equals_str, Json.string?, BEq.comm]
    rfl
  rw [isUnder, hsame]
  cases name == group <;> rfl

theorem under_ofFields (fs : Fields) (group : String) : under (ofFields fs) (.str group) =
    .ok (ofFields (fs.filter fun f => f.1 == group || startsWith f.1 (group ++ "."))) :=
  filterM_map_ok fun f _ => isUnder_str f.1 group

/-! ## States with names for keys -/

/-- Every key is a text that is not empty, and no key stands twice. -/
inductive Named : WidgetState → Prop where
  | intro {fs : Fields} (hnames : ∀ f ∈ fs, f.1 ≠ "") (hdistinct : (fs.map (·.1)).Nodup) :
      Named (ofFields fs)

theorem named_nil : Named [] := by
  have hnil : Named (ofFields []) := .intro (fun _ hf => (List.not_mem_nil hf).elim) List.nodup_nil
  exact hnil

namespace Named

variable {state : WidgetState} (h : Named state)
include h

theorem exists_name {e : Key × Json} (he : e ∈ state) : ∃ name, e.1 = .str name ∧ name ≠ "" := by
  obtain ⟨hnames, -⟩ := h
  obtain ⟨f, hf, rfl⟩ := List.mem_map.mp he
  exact ⟨f.1, rfl, hnames f hf⟩

theorem put {name : String} (hname : name ≠ "") (v : Json) :
    Named (Entries.put state (.str name) v) := by
  obtain ⟨hnames, hdistinct⟩ := h
  rename_i fs
  rw [put_ofFields]
  refine .intro (fun f hf => ?_) (Entries.nodup_put hdistinct name v)
  rcases Entries.mem_of_mem_put hf with rfl | hold
  · exact hname
  · exact hnames f hold

/-! ### What reads a state -/

/-- A state can be put into words. -/
theorem exists_summary : ∃ text, state.summary = .ok text := by
  obtain ⟨-, -⟩ := h
  rename_i fs
  have hentry : ∀ f ∈ fs, summaryEntry? (.str f.1, f.2) = .ok
      (if startsWith f.1 dismissedMark || f.2.isNull || f.2.string? == some "" then none
        else some (pathText f.1 ++ ": " ++ valueText f.2)) := by
    intro f _
    rw [ summaryEntry?]
    split <;> rfl
  have hentries := mapM_map_ok (f := fun f : String × Json => (Key.str f.1, f.2)) hentry
  exact ⟨_, bind_of_ok hentries rfl⟩

/-- Groups that are texts can be collected. -/
theorem exists_collect {groups : List Json}
    (hgroups : ∀ g ∈ groups, g.truthy = true → ∃ name, g = .str name) :
    ∃ found, state.collect groups = .ok found := by
  obtain ⟨-, -⟩ := h
  rename_i fs
  refine exists_foldlM (fun found group hgroup => ?_) []
  obtain ⟨hmem, hgiven⟩ := List.mem_filter.mp hgroup
  obtain ⟨name, rfl⟩ := hgroups group hmem hgiven
  exact ⟨_, bind_of_ok (under_ofFields fs name) rfl⟩

/-- A state that is written as an object is read from it. -/
theorem toState_toJson : (Attachment.json state.toJson).toState = .ok state := by
  obtain ⟨-, -⟩ := h
  rename_i fs
  have hwritten : (ofFields fs).toJson = .obj fs := by
    rw [toJson, ofFields, List.map_map]
    exact congrArg Json.obj (List.map_id fs)
  rw [hwritten]
  cases fs <;> rfl

end Named
end WidgetState
end DecisionBoard
