import DecisionBoard.Proofs.Json.Scalars
import DecisionBoard.Proofs.Layout
import Mathlib.Data.List.Induction

/-!
# Patches entry by entry

A patch list is put together into one table of changes by id before it is laid over a layout. What
comes out is what the entries would make of each node one after the other: every entry that counts
and has the id of the node lays its changes over it. Roots come first and then the children that
they hold by then. This is so for any list; only an entry with the empty id, which no node has,
reaches the nodes without one.
-/

namespace DecisionBoard

/-! ## The empty id -/

theorem Double.toText_ne_empty (x : Double) : x.toText ≠ "" := by
  cases x with
  | nan => decide
  | infinite negative => cases negative <;> decide
  | finite negative units hfits =>
    obtain ⟨s, hproper, htext, -⟩ := Double.toText_spelled negative hfits
    intro hempty
    rw [hempty, Decimal.Spelling.text] at htext
    have hwhole : s.whole = [] :=
      (List.append_eq_nil_iff.mp (List.append_eq_nil_iff.mp htext.symm).2).1
    exact hproper.whole.ne_nil hwhole

theorem Json.toString_int_ne_empty (n : Int) : toString n ≠ "" := by
  intro hempty
  have htext := Json.toList_toString_int n
  rw [hempty] at htext
  exact Nat.toDigits_ne_nil (List.append_eq_nil_iff.mp htext.symm).2

/-- Only the empty string reads like it. -/
theorem Json.text_eq_empty {v : Json} (h : v.text = "") : v = .str "" := by
  cases v with
  | null => exact absurd h (by decide)
  | bool b => cases b <;> exact absurd h (by decide)
  | int n => exact absurd h (Json.toString_int_ne_empty n)
  | float x => exact absurd h (Double.toText_ne_empty x)
  | str s => exact congrArg Json.str h
  | arr xs =>
    -- a list is shown in brackets
    have hsize := congrArg String.length h
    simp [Json.text, Json.quoted, String.length_append] at hsize
  | obj fs =>
    have hsize := congrArg String.length h
    simp [Json.text, Json.quoted, String.length_append] at hsize

theorem Json.exists_obj_of_isObj {v : Json} (h : v.isObj = true) : ∃ fs, v = .obj fs := by
  cases v with
  | obj fs => exact ⟨fs, rfl⟩
  | _ => cases h

namespace Layout

/-! ## One entry at a time -/

/-- An object after one patch entry: if the entry counts and is for the given id, its changes are
laid over the fields. -/
def layEntry (id : Option String) (fs : Fields) (entry : Json) : Fields :=
  match patchEntry? entry with
  | some (target, new) => if id = some target then Entries.overlay fs new else fs
  | none => fs

/-- An object after all entries, one by one. -/
def layEntries (id : Option String) (patches : List Json) (fs : Fields) : Fields :=
  patches.foldl (layEntry id) fs

/-- A value after the entries for its id, one by one. -/
def overlaid (patches : List Json) : Json → Json
  | .obj fs => .obj (layEntries (Node.idOf fs) patches fs)
  | v => v

/-- A root node after the entries for its id, and its children, if it is a container by then,
after those for theirs. -/
def overlaidRoot (patches : List Json) (node : Json) : Json :=
  withChildren (overlaid patches node) (·.map (overlaid patches))

/-- Whether an entry that counts is for an id. -/
def Addresses (patches : List Json) (id : String) : Prop :=
  ∃ entry ∈ patches, ∃ new, patchEntry? entry = some (id, new)

/-- Whether an entry for an id changes a field. -/
def Changes (patches : List Json) (id : Option String) (name : String) : Prop :=
  ∃ entry ∈ patches, ∃ target new,
    patchEntry? entry = some (target, new) ∧ id = some target ∧ name ∈ new.map (·.1)

section
variable {patches : List Json} {entry : Json} {id : String}

theorem not_addresses_nil : ¬ Addresses [] id := by
  rintro ⟨entry, hentry, -⟩
  cases hentry

theorem addresses_concat : Addresses (patches ++ [entry]) id ↔
    Addresses patches id ∨ ∃ new, patchEntry? entry = some (id, new) := by
  simp only [Addresses, List.mem_append, List.mem_singleton, or_and_right, exists_or,
    exists_eq_left]

theorem changes_concat {address : Option String} {name : String} :
    Changes (patches ++ [entry]) address name ↔ Changes patches address name ∨
      ∃ target new, patchEntry? entry = some (target, new) ∧ address = some target ∧
        name ∈ new.map (·.1) := by
  simp only [Changes, List.mem_append, List.mem_singleton, or_and_right, exists_or,
    exists_eq_left]

theorem layEntries_concat (address : Option String) (fs : Fields) :
    layEntries address (patches ++ [entry]) fs
      = layEntry address (layEntries address patches fs) entry := by
  rw [layEntries, List.foldl_append, ← layEntries]
  rfl

/-- What no entry is for takes nothing. -/
theorem layEntries_of_unaddressed {address : Option String}
    (h : ∀ id, address = some id → ¬ Addresses patches id) (fs : Fields) :
    layEntries address patches fs = fs := by
  induction patches using List.reverseRecOn with
  | nil => rfl
  | append_singleton patches entry ih =>
    simp only [addresses_concat, not_or] at h
    rw [layEntries_concat, ih fun id hid => (h id hid).1, layEntry]
    split
    · rename_i target new hentry
      exact if_neg fun haddress => (h target haddress).2 ⟨new, hentry⟩
    · rfl

theorem layEntries_none (patches : List Json) (fs : Fields) : layEntries none patches fs = fs := by
  refine layEntries_of_unaddressed (fun id hid => ?_) fs
  cases hid

theorem layEntries_of_not_addresses (h : ¬ Addresses patches id) (fs : Fields) :
    layEntries (some id) patches fs = fs := by
  refine layEntries_of_unaddressed (fun other hother => ?_) fs
  rwa [← Option.some.inj hother]

end

/-! ## The table of changes -/

section
variable (patches : List Json) (entry : Json) (id : String)

/-- What one more entry does to the changes for an id. -/
theorem get?_changesById_concat :
    Entries.get? (changesById (patches ++ [entry])) id = match patchEntry? entry with
      | some (target, new) =>
        if id = target then
          some (Entries.overlay ((Entries.get? (changesById patches) id).getD []) new)
        else Entries.get? (changesById patches) id
      | none => Entries.get? (changesById patches) id := by
  rw [changesById, List.filterMap_append, List.foldl_append, ← changesById]
  cases hentry : patchEntry? entry with
  | none => simp [hentry]
  | some counted =>
    obtain ⟨target, new⟩ := counted
    simp only [List.filterMap_cons, hentry, List.filterMap_nil, List.foldl_cons, List.foldl_nil]
    by_cases htarget : id = target
    · subst htarget
      rw [if_pos rfl, Entries.get?_put_self]
    · rw [if_neg htarget, Entries.get?_put_of_ne _ htarget]

/-- There are changes for an id if an entry is for it, be they none. -/
theorem get?_changesById_eq_none :
    Entries.get? (changesById patches) id = none ↔ ¬ Addresses patches id := by
  induction patches using List.reverseRecOn with
  | nil => exact iff_of_true rfl not_addresses_nil
  | append_singleton patches entry ih =>
    rw [get?_changesById_concat, addresses_concat, not_or, ← ih]
    cases patchEntry? entry with
    | none => simp
    | some counted =>
      obtain ⟨target, new⟩ := counted
      by_cases htarget : id = target
      · simp [htarget]
      · simp [htarget, Ne.symm htarget]

/-- The changes for an id, put together, are laid over an object like the entries one by one. -/
theorem overlay_changesById (fs : Fields) :
    Entries.overlay fs ((Entries.get? (changesById patches) id).getD [])
      = layEntries (some id) patches fs := by
  induction patches using List.reverseRecOn with
  | nil => rfl
  | append_singleton patches entry ih =>
    rw [get?_changesById_concat, layEntries_concat, ← ih, layEntry]
    cases patchEntry? entry with
    | none => rfl
    | some counted =>
      obtain ⟨target, new⟩ := counted
      by_cases htarget : id = target
      · have hnames : (((Entries.get? (changesById patches) id).getD []).map (·.1)).Nodup := by
          cases hget : Entries.get? (changesById patches) id with
          | none => exact List.nodup_nil
          | some old => exact (tidy_of_changesById hget).names
        simp only [if_pos htarget, if_pos (congrArg some htarget), Option.getD_some]
        exact Entries.overlay_assoc hnames fs new
      · have hother : ¬ some id = some target := fun heq => htarget (Option.some.inj heq)
        simp only [if_neg htarget, if_neg hother]

end

/-! ## What a patch list makes of a layout -/

/-- A value after the entries that reach it, one by one: those for its id, or for the empty id if
it has none. -/
def reached (patches : List Json) : Json → Json
  | .obj fs => .obj (layEntries (some ((Node.idOf fs).getD "")) patches fs)
  | v => v

def reachedRoot (patches : List Json) (node : Json) : Json :=
  withChildren (reached patches node) (·.map (reached patches))

/-- A root node and the children that it holds once it is patched are objects. -/
def OnlyObjects (patches : List Json) (node : Json) : Prop :=
  node.isObj = true ∧
    ∀ child ∈ (Node.childList? (reached patches node)).getD [], child.isObj = true

section
variable {patches : List Json}

theorem reached_eq_overlaid (h : ¬ Addresses patches "") : reached patches = overlaid patches := by
  funext node
  cases node with
  | obj fs =>
    rw [reached, overlaid]
    cases Node.idOf fs with
    | none => rw [Option.getD_none, layEntries_of_not_addresses h, layEntries_none]
    | some id => rfl
  | _ => rfl

theorem reached_of_not_obj {v : Json} (h : v.isObj = false) : reached patches v = v := by
  cases v with
  | obj fs => cases h
  | _ => rfl

/-- What is no object goes through only if nothing is to be laid over it. -/
theorem patchNode_of_not_obj {v : Json} (h : v.isObj = false) (changes : Entries String Fields) :
    patchNode changes v = match Entries.get? changes "" with
      | none => .ok v
      | some _ => .error (.notMapping v.typeName) := by
  cases v with
  | obj fs => cases h
  | _ => rfl

/-- A value is refused if an entry has the empty id and the value is no object. -/
theorem patchNode_eq_ok {node node' : Json} :
    patchNode (changesById patches) node = .ok node' ↔
      (Addresses patches "" → node.isObj = true) ∧ node' = reached patches node := by
  cases hobj : node.isObj with
  | true =>
    obtain ⟨fs, rfl⟩ := Json.exists_obj_of_isObj hobj
    rw [patchNode_obj, newFields, overlay_changesById, reached, Except.ok.injEq, eq_comm]
    exact (and_iff_right fun _ => rfl).symm
  | false =>
    rw [patchNode_of_not_obj hobj, reached_of_not_obj hobj]
    cases hget : Entries.get? (changesById patches) "" with
    | none =>
      have hunaddressed := (get?_changesById_eq_none patches "").mp hget
      rw [Except.ok.injEq, eq_comm]
      exact (and_iff_right fun haddressed => (hunaddressed haddressed).elim).symm
    | some new =>
      have haddressed : Addresses patches "" := by
        by_contra hno
        rw [(get?_changesById_eq_none patches "").mpr hno] at hget
        cases hget
      exact ⟨nofun, fun h => absurd (h.1 haddressed) Bool.false_ne_true⟩

/-- What goes through comes out like the entries make it, and is refused nowhere. -/
theorem Patched.eq_reachedRoot {node node' : Json} (h : Patched (changesById patches) node node') :
    (Addresses patches "" → OnlyObjects patches node) ∧ node' = reachedRoot patches node := by
  rw [reachedRoot]
  cases h with
  | leaf hnode hleaf =>
    obtain ⟨hobj, rfl⟩ := patchNode_eq_ok.mp hnode
    rw [withChildren_of_none hleaf]
    refine ⟨fun haddressed => ⟨hobj haddressed, ?_⟩, rfl⟩
    rw [hleaf]
    exact List.forall_mem_nil _
  | @container fs children children' hnode hchildren hpatched =>
    -- the children that are patched are those of the patched root
    obtain ⟨hobj, hfs⟩ := patchNode_eq_ok.mp hnode
    obtain ⟨hitems, rfl⟩ := (Checked.mapM_eq_ok fun _ _ => patchNode_eq_ok).mp hpatched
    rw [← hfs, withChildren_of_some hchildren]
    refine ⟨fun haddressed => ⟨hobj haddressed, ?_⟩, rfl⟩
    rw [← hfs, hchildren]
    exact fun child hchild => hitems child hchild haddressed

theorem patched_reachedRoot {node : Json} (h : Addresses patches "" → OnlyObjects patches node) :
    Patched (changesById patches) node (reachedRoot patches node) := by
  have hnode : patchNode (changesById patches) node = .ok (reached patches node) :=
    patchNode_eq_ok.mpr ⟨fun haddressed => (h haddressed).1, rfl⟩
  rw [reachedRoot]
  cases hchildren : Node.childList? (reached patches node) with
  | none =>
    rw [withChildren_of_none hchildren]
    exact .leaf hnode hchildren
  | some children =>
    have hobjects : ∀ child ∈ children, Addresses patches "" → child.isObj = true := by
      intro child hchild haddressed
      refine (h haddressed).2 child ?_
      rwa [hchildren]
    obtain ⟨fs, hfs⟩ := Node.exists_obj_of_childList? hchildren
    rw [hfs] at hnode hchildren ⊢
    rw [withChildren_of_some hchildren]
    exact .container hnode hchildren
      ((Checked.mapM_eq_ok fun _ _ => patchNode_eq_ok).mpr ⟨hobjects, rfl⟩)

theorem patchRoot_changesById {node node' : Json} :
    patchRoot (changesById patches) node = .ok node' ↔
      (Addresses patches "" → OnlyObjects patches node) ∧ node' = reachedRoot patches node := by
  rw [patchRoot_eq_ok]
  constructor
  · exact Patched.eq_reachedRoot
  · rintro ⟨hobjects, rfl⟩
    exact patched_reachedRoot hobjects

theorem patch_eq_ok {layout layout' : Layout} :
    layout.patch patches = .ok layout' ↔
      (Addresses patches "" → ∀ node ∈ layout, OnlyObjects patches node) ∧
        layout' = layout.map (reachedRoot patches) := by
  rw [patch_eq, Checked.mapM_eq_ok fun _ _ => patchRoot_changesById]
  exact and_congr_left fun _ => ⟨fun h hblank node hnode => h node hnode hblank,
    fun h node hnode hblank => h hblank node hnode⟩

end

/-! ## What stays -/

section
variable {patches : List Json} {address : Option String} {name : String}

/-- Where no entry changes a field, the last one lays something over an object, be it nothing, that
the field is not part of. -/
theorem not_changes_concat {entry : Json} (h : ¬ Changes (patches ++ [entry]) address name) :
    ¬ Changes patches address name ∧ ∃ new : Fields, name ∉ new.map (·.1) ∧
      ∀ fs, layEntry address fs entry = Entries.overlay fs new := by
  rw [changes_concat, not_or] at h
  refine ⟨h.1, ?_⟩
  cases hentry : patchEntry? entry with
  | none => exact ⟨[], List.not_mem_nil, fun fs => by rw [layEntry, hentry, Entries.overlay_nil]⟩
  | some counted =>
    obtain ⟨target, new⟩ := counted
    by_cases haddress : address = some target
    · refine ⟨new, fun hname => h.2 ⟨target, new, hentry, haddress, hname⟩, fun fs => ?_⟩
      simp only [layEntry, hentry, if_pos haddress]
    · refine ⟨[], List.not_mem_nil, fun fs => ?_⟩
      simp only [layEntry, hentry, if_neg haddress, Entries.overlay_nil]

/-- A field that no entry for the id changes stays. -/
theorem get?_layEntries (h : ¬ Changes patches address name) (fs : Fields) :
    Entries.get? (layEntries address patches fs) name = Entries.get? fs name := by
  induction patches using List.reverseRecOn with
  | nil => rfl
  | append_singleton patches entry ih =>
    obtain ⟨hbefore, new, hname, hlaid⟩ := not_changes_concat h
    rw [layEntries_concat, hlaid, Entries.get?_overlay_of_not_mem hname, ih hbefore]

theorem idOf_layEntries (address : Option String) (patches : List Json) (fs : Fields) :
    Node.idOf (layEntries address patches fs) = Node.idOf fs := by
  have hid : ¬ Changes patches address "id" := by
    rintro ⟨entry, -, target, new, hentry, -, hname⟩
    exact id_not_mem_of_entry hentry hname
  rw [Node.idOf, Fields.get, get?_layEntries hid, ← Fields.get, ← Node.idOf]

/-- No patch readdresses a node. -/
theorem id_overlaid (patches : List Json) (node : Json) :
    Node.id (overlaid patches node) = Node.id node := by
  cases node with
  | obj fs => exact idOf_layEntries _ _ fs
  | _ => rfl

theorem not_addresses_empty (hnamed : ∀ fs, .obj fs ∈ patches → Fields.get fs "id" ≠ .str "") :
    ¬ Addresses patches "" := by
  rintro ⟨entry, hentry, new, hcounts⟩
  obtain ⟨fs, -, rfl, -, hid, -⟩ := patchEntry?_eq_some.mp hcounts
  exact hnamed fs hentry (Json.text_eq_empty hid.symm)

theorem patch_eq_map (h : ¬ Addresses patches "") (layout : Layout) :
    layout.patch patches = .ok (layout.map (overlaidRoot patches)) := by
  refine patch_eq_ok.mpr ⟨fun haddressed => (h haddressed).elim, ?_⟩
  refine List.map_congr_left fun node _ => ?_
  rw [reachedRoot, reached_eq_overlaid h, overlaidRoot]

/-- Patches none of which has the empty id are never refused. They leave every root node where it
is, overlaid with the changes for its id one entry after the other, and the children of what is a
container by then overlaid with those for theirs; the ids stay. -/
theorem patch_entry_by_entry
    (hnamed : ∀ fs, .obj fs ∈ patches → Fields.get fs "id" ≠ .str "") (layout : Layout) :
    layout.patch patches = .ok (layout.map (overlaidRoot patches)) ∧
      (layout.map (overlaidRoot patches)).map Node.id = layout.map Node.id := by
  refine ⟨patch_eq_map (not_addresses_empty hnamed) layout, ?_⟩
  rw [List.map_map]
  refine List.map_congr_left fun node _ => ?_
  rw [Function.comp_apply, overlaidRoot, id_withChildren, id_overlaid]

end

/-- A card and a row that share an id, though one has it as a number; the row holds a child, and a
value that is no node stands beside them. -/
def sharedLayout : Layout :=
  [.obj [("id", .int 1), ("kind", .str "card"), ("title", .str "A")],
    .obj [("kind", .str "row"), ("id", .str "1"), ("children", .arr [.null])],
    .bool true]

/-- The nodes become stacks with a child of another id, which has two entries of its own; of the
entries without an id and without an object of changes nothing is seen. -/
def reshaping : List Json :=
  [.obj [("id", .str "1"), ("changes", .obj [("id", .str "2"), ("kind", .str "stack"),
      ("children", .arr [.obj [("id", .str "c")], .null])])],
    .obj [("id", .str "c"), ("changes", .obj [("text", .str "x"), ("kind", .str "text")])],
    .obj [("changes", .obj [("text", .str "lost")])],
    .obj [("id", .int 1), ("changes", .obj [("title", .str "B")])],
    .obj [("id", .str "c"), ("changes", .obj [("text", .str "y"), ("size", .str "sm")])],
    .obj [("id", .str "c"), ("changes", .str "lost")]]

theorem reshaped_entry_by_entry :
    let child : Json := .obj [("id", .str "c"), ("text", .str "y"), ("kind", .str "text"),
      ("size", .str "sm")]
    sharedLayout.patch reshaping = .ok
      [.obj [("id", .int 1), ("kind", .str "stack"), ("title", .str "B"),
          ("children", .arr [child, .null])],
        .obj [("kind", .str "stack"), ("id", .str "1"), ("children", .arr [child, .null]),
          ("title", .str "B")],
        .bool true] := by
  have hnamed : ∀ fs, .obj fs ∈ reshaping → Fields.get fs "id" ≠ .str "" := by
    simp [reshaping, Fields.get, Entries.get?]
  exact (patch_entry_by_entry hnamed sharedLayout).1

end Layout
end DecisionBoard
