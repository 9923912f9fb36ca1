import Mathlib.Algebra.Order.Floor.Div
import Mathlib.Data.List.Nodup
import DecisionBoard.Proofs.Board.Registered
import DecisionBoard.Proofs.Board.Slot

/-!
# Tabs and their children

`sharedOut_tabChunks` says how tabs share their children out: none is lost or shown twice, whatever
the numbers of children and of labels are. Which tab is open is read off the view; if there is no
such tab it is the first. Tabs are then drawn with the label of that tab in brackets, and with its
children under the paths that they have on any tab.
-/

namespace DecisionBoard
namespace Container

/-! ## Sharing out -/

section
variable {α : Type}

/-- Items are shared out over tabs: there is a chunk for each, the chunks are the items in order,
none is larger than it has to be, and the empty ones come last. -/
structure SharedOut (items : List α) (labels : Nat) (chunks : List (List α)) : Prop where
  count : chunks.length = labels
  all : chunks.flatten = items
  size : ∀ chunk ∈ chunks, chunk.length ≤ items.length ⌈/⌉ labels
  emptyLast : chunks.Pairwise fun chunk later => chunk = [] → later = []

theorem tabSize_eq (children : Nat) {labels : Nat} (h : 0 < labels) :
    tabSize children labels = children ⌈/⌉ labels := by
  rw [tabSize, Nat.ceilDiv_eq_add_pred_div, ← Nat.add_sub_assoc h]

/-- With that many children on each tab there is room for all. -/
theorem le_labels_mul_tabSize (children : Nat) {labels : Nat} (h : 0 < labels) :
    children ≤ labels * tabSize children labels := by
  rw [tabSize_eq children h]
  exact le_smul_ceilDiv h

/-- Runs of one length, one after the other, are as much of a list as there are runs. -/
theorem flatten_runs (items : List α) (size count : Nat) :
    ((List.range count).map fun i => (items.drop (i * size)).take size).flatten
      = items.take (count * size) := by
  induction count with
  | zero => simp
  | succ count ih =>
    rw [List.range_succ, List.map_append, List.flatten_append, ih, Nat.succ_mul, List.take_add]
    simp

theorem tabChunks_eq (items : List α) {labels : Nat} (h : 0 < labels) :
    tabChunks items labels = (List.range labels).map fun i =>
      (items.drop (i * tabSize items.length labels)).take (tabSize items.length labels) := by
  rw [tabChunks, Nat.max_eq_left h]

theorem sharedOut_tabChunks (items : List α) {labels : Nat} (h : 0 < labels) :
    SharedOut items labels (tabChunks items labels) := by
  have hroom := le_labels_mul_tabSize items.length h
  rw [tabChunks_eq items h]
  constructor
  · rw [List.length_map, List.length_range]
  · rw [flatten_runs, List.take_of_length_le hroom]
  · intro chunk hchunk
    obtain ⟨i, -, rfl⟩ := List.mem_map.mp hchunk
    rw [← tabSize_eq _ h]
    exact List.length_take_le _ _
  · rw [List.pairwise_map]
    refine List.pairwise_lt_range.imp fun {i j} hij hempty => ?_
    -- a run is empty if runs have no length, or if the items end before it
    rw [List.take_eq_nil_iff, List.drop_eq_nil_iff] at hempty ⊢
    refine hempty.imp_right fun hend => hend.trans ?_
    exact Nat.mul_le_mul_right _ hij.le

/-- What is shared out is on one tab, and on no other, unless it was there twice. -/
theorem SharedOut.existsUnique {items : List α} {labels : Nat} {chunks : List (List α)}
    (h : SharedOut items labels chunks) (hnodup : items.Nodup) {item : α} (hitem : item ∈ items) :
    ∃! tab : Nat, item ∈ chunks[tab]?.getD [] := by
  rw [← h.all, List.nodup_flatten] at hnodup
  rw [← h.all] at hitem
  obtain ⟨chunk, hchunk, hmem⟩ := List.mem_flatten.mp hitem
  obtain ⟨tab, htab, rfl⟩ := List.mem_iff_getElem.mp hchunk
  refine ⟨tab, ?_, fun other hother => ?_⟩
  · show item ∈ chunks[tab]?.getD []
    rwa [List.getElem?_eq_getElem htab]
  · dsimp only at hother
    by_cases hlt : other < chunks.length
    · rw [List.getElem?_eq_getElem hlt] at hother
      have hapart := List.pairwise_iff_getElem.mp hnodup.2
      rcases Nat.lt_trichotomy other tab with hbefore | hsame | hafter
      · exact (hapart other tab hlt htab hbefore hother hmem).elim
      · exact hsame
      · exact (hapart tab other htab hlt hafter hmem hother).elim
    · rw [List.getElem?_eq_none (Nat.not_lt.mp hlt)] at hother
      cases hother

end

/-! ## The tab that is open -/

/-- Tabs that have labels. Those without are drawn as a stack. -/
structure Labelled (node : Fields) : Prop where
  isTabs : Node.container? (.obj node) = some .tabs
  labels : tabLabels node ≠ []

theorem Labelled.count_pos {node : Fields} (h : Labelled node) : 0 < (tabLabels node).length :=
  List.length_pos_iff.mpr h.labels

/-- The children on each tab, with their places among all children. -/
def chunks (node : Fields) : List (List (Fields × Nat)) :=
  tabChunks (Node.children (.obj node)).zipIdx (tabLabels node).length

/-- The children on one tab. -/
def chunk (node : Fields) (tab : Nat) : List (Fields × Nat) := (chunks node)[tab]?.getD []

/-- The tab that is open: the one that was selected, or the first if there is no such tab. -/
def openTab (session : Session) (key : String) (count : Nat) : Nat :=
  match Entries.get? session.view.selectedTabs key with
  | some (.int n) => if 0 ≤ n ∧ n < count then n.toNat else 0
  | _ => 0

variable {session : Session} {key : String} {count : Nat}

theorem openTab_lt (h : 0 < count) : openTab session key count < count := by
  unfold openTab
  split
  · split
    · omega
    · exact h
  · exact h

theorem selectedTab_eq (h : session.view.Indexed) :
    selectedTab session key count = .ok (.int (openTab session key count)) := by
  have hfirst : selectedTab session key count =
      (isTabIndex ((Entries.get? session.view.selectedTabs key).getD (.int 0)) count).map
        fun there =>
          if there then (Entries.get? session.view.selectedTabs key).getD (.int 0) else .int 0 := by
    rw [selectedTab]
    cases isTabIndex ((Entries.get? session.view.selectedTabs key).getD (.int 0)) count <;> rfl
  rw [hfirst, openTab]
  cases hget : Entries.get? session.view.selectedTabs key with
  | none => simp [isTabIndex, Json.quantity?, Except.map]
  | some index =>
    obtain ⟨n, rfl⟩ := h key index hget
    by_cases hin : 0 ≤ n ∧ n < count
    · simp [isTabIndex, Json.quantity?, Except.map, hin]
    · have hout : (decide (0 ≤ n) && decide (n < count)) = false := by
        simpa using fun hn => Int.not_lt.mp fun hlt => hin ⟨hn, hlt⟩
      simp only [Option.getD_some, isTabIndex, Json.quantity?, Except.map, hout, if_neg hin]
      rfl

/-- Exactly one label is in brackets. -/
theorem tabLine_int (labels : List String) (tab : Nat) :
    tabLine labels (.int tab) = " | ".intercalate (labels.modify tab fun l => "[" ++ l ++ "]") := by
  have hequals : ∀ i : Nat, (Json.int i).equals (.int tab) = decide (tab = i) := by
    intro i
    rw [Bool.eq_iff_iff, decide_eq_true_iff]
    simp [Json.equals, Json.agrees, Json.quantity?, Quantity.agrees, eq_comm]
  rw [tabLine]
  congr 1
  refine List.ext_getElem? fun i => ?_
  rw [List.getElem?_map, List.getElem?_zipIdx, List.getElem?_modify]
  cases labels[i]? with
  | none => rfl
  | some label => simp [hequals]

end Container

/-! ## Drawing tabs -/

namespace Drawing

/-- Tabs with one of them open: its label stands in brackets, and its children below. -/
def drawOpen (session : Session) (node : Fields) (index tab : Nat) : Draw (List String) := do
  let labels := Container.tabLabels node
  let lead ← Draw.addControl {
    key := Container.key node index, kind := "tabs", label := " | ".intercalate labels, node
    value := .int tab }
  let lines ← drawChildren session index (Container.chunk node tab)
  let line := " | ".intercalate (labels.modify tab fun label => "[" ++ label ++ "]")
  return (lead ++ "tabs: " ++ line) :: lines.map ("  " ++ ·)

variable {session : Session} {node : Fields}

/-- Tabs with labels are drawn with one of them open. -/
theorem drawNode_tabs (hindexed : session.view.Indexed) (htabs : Container.Labelled node)
    (index : Nat) : drawNode session (.obj node) index = drawOpen session node index
      (Container.openTab session (Container.key node index)
        (Container.tabLabels node).length) := by
  have hheader : ∀ key, Container.header session .tabs node key = do
      let selected ← Draw.check (Container.selectedTab session key (Container.tabLabels node).length)
      let lead ← Draw.addControl {
        key, kind := "tabs", label := " | ".intercalate (Container.tabLabels node), node
        value := selected }
      return lead ++ "tabs: " ++ Container.tabLine (Container.tabLabels node) selected := by
    intro key
    unfold Container.header
    cases hcase : Container.tabLabels node with
    | nil => exact (htabs.labels hcase).elim
    | cons label labels => rfl
  have hvisible : ∀ key, Container.visibleChildren session .tabs node key
      = Container.selectedTab session key (Container.tabLabels node).length
        >>= Container.chunkAt (Container.chunks node) := by
    intro key
    unfold Container.visibleChildren Container.chunks
    cases hcase : Container.tabLabels node with
    | nil => exact (htabs.labels hcase).elim
    | cons label labels => rfl
  rw [drawNode, htabs.isTabs]
  dsimp only
  rw [drawContainer_eq, hheader, hvisible, Container.selectedTab_eq hindexed, drawOpen]
  simp only [bind_assoc, Draw.check_ok, pure_bind, Container.tabLine_int]
  rfl

end Drawing
end DecisionBoard
