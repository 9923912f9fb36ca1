import DecisionBoard.Proofs.Board.Numbering
import DecisionBoard.Proofs.Board.Parts
import DecisionBoard.Proofs.Board.Reads
import DecisionBoard.Proofs.Checked

/-!
# What is expanded and what is drawn

Which details are shown is all that a view says of parts. A leaf is drawn alike in two views that
agree on its own parts (`Leaf.draw_expanding`). When they agree on all parts of a list but one, the
items down to that one are the same parts as before, and so are those below it that have an id; an
item without an id is named by the number of lines above it, and may get another key
(`Leaf.parts_expanding`).
-/

namespace DecisionBoard

/-! ## Views in which other details are shown -/

/-- A session in whose view the details under certain keys are shown. -/
def Session.expanding (s : Session) (keys : List String) : Session :=
  { s with view := { s.view with expanded := keys } }

/-- A session in which the detail under a key is shown if it was hidden, and hidden if it was
shown. -/
def Session.toggled (s : Session) (key : String) : Session :=
  if s.isExpanded key then s.collapse key else s.expand key

namespace Session

variable (s : Session) (key : String)

theorem exists_expanding_toggled : ∃ keys, s.toggled key = s.expanding keys := by
  unfold toggled
  by_cases h : s.isExpanded key = true
  · rw [if_pos h]
    exact ⟨_, rfl⟩
  · rw [if_neg h, expand, if_neg h]
    exact ⟨_, rfl⟩

theorem isExpanded_toggled (other : String) : (s.toggled key).isExpanded other =
    if other = key then !s.isExpanded key else s.isExpanded other := by
  unfold toggled
  by_cases h : s.isExpanded key = true
  · rw [if_pos h, h, Bool.eq_iff_iff]
    by_cases hkey : other = key <;> simp [collapse, isExpanded, hkey]
  · rw [if_neg h, expand, if_neg h, (Bool.not_eq_true _).mp h, Bool.eq_iff_iff]
    by_cases hkey : other = key <;> simp [isExpanded, hkey]

end Session

variable {s : Session} {keys : List String}

/-- Two views agree on a part: its detail is shown in both or in neither. -/
def Part.Same (s t : Session) (part : Option Part) : Prop := ∀ p ∈ part, p.shows t = p.shows s

theorem Part.shows_toggled {p : Part} (hdetail : p.detail.isSome) (s : Session) :
    p.shows (s.toggled p.key) = !p.shows s := by
  rw [shows, shows, hdetail, Session.isExpanded_toggled, if_pos rfl, Bool.true_and, Bool.true_and]

/-- A part without a detail shows none under any key. -/
theorem Part.shows_toggled_of_ne {p : Part} {key : String} (h : p.detail.isSome → p.key ≠ key)
    (s : Session) : p.shows (s.toggled key) = p.shows s := by
  unfold shows
  cases hdetail : p.detail.isSome with
  | false => rfl
  | true => rw [Session.isExpanded_toggled, if_neg (h hdetail)]

theorem Part.lines_of_same {t : Session} {p : Part} (h : p.shows t = p.shows s) (lead : String) :
    p.lines t lead = p.lines s lead := by
  rw [lines, lines, h]

theorem Part.height_of_same {t : Session} {part : Option Part} (h : Same s t part) :
    height t part = height s part := by
  cases part with
  | none => rfl
  | some p => simp only [height, Option.elim_some, lines_of_same (h p rfl)]

/-! ## Leaves that are drawn alike -/

namespace Leaf

variable {node : Fields} {key : String}

theorem cardLines_expanding {item : Fields} {id : Option String}
    (h : Part.Same s (s.expanding keys) (some (cardPart id key item))) (dismissId : Option String) :
    cardLines (s.expanding keys) key item dismissId = cardLines s key item dismissId := by
  have hshows := h _ rfl
  unfold cardLines
  cases hdetail : (item.get "detail").truthy with
  | false => simp only [hdetail, Bool.false_and]
  | true =>
    simp only [Part.shows, cardPart, hdetail, if_true, Option.isSome_some, Bool.true_and] at hshows
    simp only [hshows]

theorem cardListItem_expanding {drawn : Nat} {item : Json} {part : Option Part}
    (hpart : itemPart? s key drawn item = .ok part) (h : Part.Same s (s.expanding keys) part) :
    cardListItem (s.expanding keys) key drawn item = cardListItem s key drawn item := by
  unfold itemPart? at hpart
  have hstate : (s.expanding keys).state = s.state := rfl
  unfold cardListItem
  rw [hstate]
  by_cases hdismissed : (Node.id item).any (WidgetState.isDismissed s.state) = true
  · simp only [if_pos hdismissed]
  · simp only [if_neg hdismissed] at hpart ⊢
    obtain ⟨fields, hfields, hpart⟩ := Checked.bind_eq_ok hpart
    cases hpart
    simp only [hfields, Draw.check_ok, pure_bind, cardLines_expanding h]

theorem foldlM_expanding {items : List Json} {above : List String} {ps : List (Option Part)}
    (hps : listParts s key above.length items = .ok ps)
    (h : ∀ part ∈ ps, Part.Same s (s.expanding keys) part) (c : Canvas) :
    (items.foldlM (fun (lines : List String) item =>
        return lines ++ (← cardListItem (s.expanding keys) key lines.length item)) above).run c =
      (items.foldlM (fun (lines : List String) item =>
        return lines ++ (← cardListItem s key lines.length item)) above).run c := by
  induction items generalizing above ps c with
  | nil => rw [List.foldlM_nil, List.foldlM_nil]
  | cons item items ih =>
    rw [listParts] at hps
    obtain ⟨part, hpart, hps⟩ := Checked.bind_eq_ok hps
    obtain ⟨rest, hrest, hps⟩ := Checked.bind_eq_ok hps
    cases hps
    rw [List.foldlM_cons, List.foldlM_cons, bind_assoc, bind_assoc,
      cardListItem_expanding hpart (h part List.mem_cons_self)]
    have hitem := along_cardListItem s key above.length item c
    rw [hpart] at hitem
    rcases hrun : (cardListItem s key above.length item).run c with ⟨fault | ls, c'⟩
    · rw [Draw.run_bind_error hrun, Draw.run_bind_error hrun]
    · rw [hrun] at hitem
      rw [Draw.run_bind_ok hrun, Draw.run_bind_ok hrun, pure_bind, pure_bind]
      refine ih ?_ (fun part hpart => h part (List.mem_cons_of_mem _ hpart)) c'
      rw [List.length_append, hitem.of_ok.2]
      exact hrest

/-- The detail of a scored item is its reasoning. -/
theorem shows_scorePart {p : Part} (h : scorePart s node key = .ok p) (t : Session) :
    p.shows t = ((node.get "reasoning").truthy && t.isExpanded key) := by
  unfold scorePart at h
  obtain ⟨low, -, h⟩ := Checked.bind_eq_ok h
  obtain ⟨high, -, h⟩ := Checked.bind_eq_ok h
  obtain ⟨stated, -, h⟩ := Checked.bind_eq_ok h
  obtain ⟨score, -, h⟩ := Checked.bind_eq_ok h
  obtain ⟨bar, -, h⟩ := Checked.bind_eq_ok h
  cases h
  cases (node.get "reasoning").truthy <;> simp [Part.shows]

theorem scoreableItem_expanding {p : Part} (hp : scorePart s node key = .ok p)
    (h : Part.Same s (s.expanding keys) (some p)) :
    scoreableItem (s.expanding keys) node key = scoreableItem s node key := by
  have hstate : (s.expanding keys).state = s.state := rfl
  have hshows := h p rfl
  rw [shows_scorePart hp, shows_scorePart hp] at hshows
  unfold scoreableItem
  simp only [hstate, hshows]

/-- A leaf of a kind without parts is drawn alike whatever is expanded. -/
theorem drawing_of_not_parted {kind : LeafKind} (h : kind ∉ partedKinds) (s : Session)
    (keys : List String) : drawing kind (s.expanding keys) = drawing kind s := by
  cases kind with
  | card | cardList | scoreableItem => exact absurd (by decide) h
  | _ => rfl

/-- A leaf is drawn alike in views that agree on its parts. -/
theorem drawing_expanding {kind : LeafKind} {ps : List (Option Part)}
    (hps : kindParts s node key kind = .ok ps)
    (h : ∀ part ∈ ps, Part.Same s (s.expanding keys) part) (c : Canvas) :
    (drawing kind (s.expanding keys) node key).run c = (drawing kind s node key).run c := by
  cases kind with
  | card =>
    cases hps
    have hlines := fun dismissId => cardLines_expanding (h _ List.mem_cons_self) dismissId
    unfold drawing card
    simp only [hlines]
  | cardList =>
    obtain ⟨items, hitems, hps⟩ := Checked.bind_eq_ok hps
    show (cardList _ node key).run c = (cardList s node key).run c
    unfold cardList
    rw [hitems, Draw.check_ok, pure_bind, pure_bind]
    exact foldlM_expanding hps h c
  | scoreableItem =>
    obtain ⟨p, hp, hps⟩ := Checked.bind_eq_ok hps
    cases hps
    show (scoreableItem _ node key).run c = (scoreableItem s node key).run c
    rw [scoreableItem_expanding hp (h _ List.mem_cons_self)]
  | _ => rw [drawing_of_not_parted (by decide)]

end Leaf

/-! ## Parts that keep their keys -/

/-- The same part, or one without an id under another key. -/
inductive Part.Renamed : Option Part → Option Part → Prop where
  | same (part : Option Part) : Renamed part part
  | unnamed {p : Part} (h : p.id = none) (key : String) : Renamed (some p) (some { p with key })

namespace Part

theorem Renamed.symm {part part' : Option Part} (h : Renamed part part') : Renamed part' part := by
  cases h with
  | same => exact .same part
  | @unnamed p hid key => exact .unnamed (p := { p with key }) hid p.key

theorem Renamed.symm_all {ps ps' : List (Option Part)} (h : List.Forall₂ Renamed ps ps') :
    List.Forall₂ Renamed ps' ps := (h.imp fun _ _ h => h.symm).flip

/-- A part with an id is the same. -/
theorem Renamed.eq_of_id {p : Part} {part : Option Part} (h : Renamed (some p) part)
    (hid : p.id ≠ none) : part = some p := by
  cases h with
  | same => rfl
  | unnamed hnone => exact absurd hnone hid

/-- At a place of one list there is what is at that place of the other, perhaps renamed. -/
theorem Renamed.getElem? {ps ps' : List (Option Part)} (h : List.Forall₂ Renamed ps ps') {j : Nat}
    {part : Option Part} (hget : ps[j]? = some part) :
    ∃ part', ps'[j]? = some part' ∧ Renamed part part' := by
  obtain ⟨hj, rfl⟩ := List.getElem?_eq_some_iff.mp hget
  have hj' : j < ps'.length := h.length_eq ▸ hj
  exact ⟨ps'[j], List.getElem?_eq_getElem hj', h.get hj hj'⟩

end Part

namespace Leaf

variable {node : Fields} {key : String}

open Draw (Matching)

/-- Below any number of lines an item is the same part, or has another key. -/
theorem matching_itemPart (s : Session) (keys : List String) (key : String) (drawn drawn' : Nat)
    (item : Json) : Matching Part.Renamed (itemPart? s key drawn item)
      (itemPart? (s.expanding keys) key drawn' item) := by
  have hstate : (s.expanding keys).state = s.state := rfl
  unfold itemPart?
  simp only [hstate]
  by_cases hdismissed : (Node.id item).any (WidgetState.isDismissed s.state) = true
  · simp only [if_pos hdismissed]
    exact .ok (.same none)
  · simp only [if_neg hdismissed]
    cases item.members with
    | error fault => exact .error fault fault
    | ok fields =>
      refine .ok ?_
      cases hid : Node.id item with
      | none => exact .unnamed rfl _
      | some id => exact .same _

/-- The items of a list are the same parts below any number of lines, but for the keys of those
without an id. -/
theorem matching_listParts (s : Session) (keys : List String) (key : String) (drawn drawn' : Nat)
    (items : List Json) : Matching (List.Forall₂ Part.Renamed) (listParts s key drawn items)
      (listParts (s.expanding keys) key drawn' items) := by
  induction items generalizing drawn drawn' with
  | nil => exact .ok .nil
  | cons item items ih =>
    rw [listParts, listParts]
    refine (matching_itemPart s keys key drawn drawn' item).bind fun part part' hpart => ?_
    refine (ih _ _).bind fun ps ps' hps => .ok (.cons hpart hps)

/-- The parts of a list in a view that agrees on all of them but one: down to that one they are the
same, and below it they may have other keys. -/
theorem listParts_expanding {drawn : Nat} {items : List Json} {ps : List (Option Part)}
    (hps : listParts s key drawn items = .ok ps) (i : Nat)
    (h : ∀ j part, ps[j]? = some part → j ≠ i → Part.Same s (s.expanding keys) part) :
    ∃ ps', listParts (s.expanding keys) key drawn items = .ok ps' ∧
      List.Forall₂ Part.Renamed ps ps' ∧ ∀ j ≤ i, ps'[j]? = ps[j]? := by
  induction items generalizing drawn ps i with
  | nil =>
    cases hps
    exact ⟨[], rfl, .nil, fun _ _ => rfl⟩
  | cons item items ih =>
    have hitem : itemPart? (s.expanding keys) key drawn item = itemPart? s key drawn item := rfl
    rw [listParts] at hps
    obtain ⟨part, hpart, hps⟩ := Checked.bind_eq_ok hps
    obtain ⟨rest, hrest, hps⟩ := Checked.bind_eq_ok hps
    cases hps
    rw [listParts, hitem, hpart]
    cases i with
    | zero =>
      -- the part that may differ is this one, so the others may stand below more or fewer lines
      have hbelow := matching_listParts s keys key (drawn + Part.height s part)
        (drawn + Part.height (s.expanding keys) part) items
      rw [hrest] at hbelow
      obtain ⟨rest', hrest', hrenamed⟩ := hbelow.exists_right
      refine ⟨part :: rest', bind_of_ok rfl (bind_of_ok hrest' rfl),
        .cons (.same part) hrenamed, fun j hj => ?_⟩
      rw [Nat.le_zero.mp hj]
      rfl
    | succ i =>
      -- above that one the views agree, so the items below stand below as many lines in both
      have hheight := Part.height_of_same (h 0 part rfl (Nat.succ_ne_zero i).symm)
      obtain ⟨rest', hrest', hrenamed, hkept⟩ := ih hrest i fun j part hget hj =>
        h (j + 1) part hget (by omega)
      rw [← hheight] at hrest'
      refine ⟨part :: rest', bind_of_ok rfl (bind_of_ok hrest' rfl),
        .cons (.same part) hrenamed, fun j hj => ?_⟩
      cases j with
      | zero => rfl
      | succ j => exact hkept j (by omega)

/-- The parts of a leaf are the same in all views, but for the keys of items without an id. -/
theorem matching_parts (s : Session) (keys : List String) (node : Fields) (path : String) :
    Matching (List.Forall₂ Part.Renamed) (parts s node path)
      (parts (s.expanding keys) node path) := by
  have hsame : ∀ v : Checked (List (Option Part)), Matching (List.Forall₂ Part.Renamed) v v := by
    rintro (fault | ps)
    · exact .error fault fault
    · exact .ok (List.forall₂_same.mpr fun part _ => .same part)
  unfold parts
  cases LeafKind.ofName? (Node.kindOf node) with
  | none => exact hsame _
  | some kind =>
    cases kind with
    | cardList =>
      show Matching _ (itemsOf node "items" >>= _) (itemsOf node "items" >>= _)
      cases itemsOf node "items" with
      | error fault => exact .error fault fault
      | ok items => exact matching_listParts s keys _ 0 0 items
    | _ => exact hsame _

/-- The parts of a leaf in a view that agrees on all of them but one: down to that one they are the
same, and below it those without an id may have other keys. -/
theorem parts_expanding {path : String} {ps : List (Option Part)}
    (hps : parts s node path = .ok ps) (i : Nat)
    (h : ∀ j part, ps[j]? = some part → j ≠ i → Part.Same s (s.expanding keys) part) :
    ∃ ps', parts (s.expanding keys) node path = .ok ps' ∧
      List.Forall₂ Part.Renamed ps ps' ∧ ∀ j ≤ i, ps'[j]? = ps[j]? := by
  unfold parts at hps ⊢
  have hsame : ∀ ps : List (Option Part), List.Forall₂ Part.Renamed ps ps :=
    fun ps => List.forall₂_same.mpr fun part _ => .same part
  cases hkind : LeafKind.ofName? (Node.kindOf node) with
  | none => exact ⟨ps, by rw [hkind] at hps; exact hps, hsame ps, fun _ _ => rfl⟩
  | some kind =>
    rw [hkind] at hps
    cases kind with
    | cardList =>
      obtain ⟨items, hitems, hps⟩ := Checked.bind_eq_ok hps
      obtain ⟨ps', hps', hrest⟩ := listParts_expanding hps i h
      exact ⟨ps', bind_of_ok hitems hps', hrest⟩
    | _ => exact ⟨ps, hps, hsame ps, fun _ _ => rfl⟩

/-- A leaf is drawn alike in views that agree on its parts, whether it is refused or not. -/
theorem draw_expanding {path : String}
    (h : ∀ ps, parts s node path = .ok ps → ∀ part ∈ ps, Part.Same s (s.expanding keys) part) :
    draw (s.expanding keys) node path = draw s node path := by
  cases hkind : LeafKind.ofName? (Node.kindOf node) with
  | none => rw [draw, draw, hkind]
  | some kind =>
    cases hparts : parts s node path with
    | ok ps =>
      have hdrawing : drawing kind (s.expanding keys) node (Leaf.key node path)
          = drawing kind s node (Leaf.key node path) :=
        funext fun c => drawing_expanding (parts_of_kind s node hkind path ▸ hparts) (h ps hparts) c
      rw [draw, draw, hkind]
      dsimp only
      rw [hdrawing]
    | error fault =>
      have hrefused := matching_parts s keys node path
      cases hparts' : parts (s.expanding keys) node path with
      | ok ps =>
        rw [hparts, hparts'] at hrefused
        cases hrefused
      | error fault' =>
        -- what a refused leaf had drawn is dropped, whatever was expanded
        funext c
        exact (draw_of_refused _ node hkind hparts' c).trans
          (draw_of_refused s node hkind hparts c).symm

end Leaf

/-! ## Boards -/

namespace Drawing

/-- A board is drawn alike in views in which the same details are shown. -/
theorem ofSession_expanding (h : ∀ key, (s.expanding keys).isExpanded key = s.isExpanded key)
    (refs : Option Refs) : ofSession (s.expanding keys) refs = ofSession s refs := by
  have halike : (s.expanding keys).DrawnAlike s := {
    leaves := by
      funext node path
      refine Leaf.draw_expanding fun ps _ part _ p _ => ?_
      rw [Part.shows, Part.shows, h]
    headers := by
      funext kind
      cases kind <;> rfl
    children := rfl
    footer := rfl
    actions := rfl
    verdict := rfl }
  have hheld : (s.expanding keys).spec = s.spec := rfl
  have hwaiting : waitingLines (s.expanding keys) = waitingLines s := rfl
  unfold ofSession
  simp only [hheld, hwaiting, drawSpec_of_drawnAlike halike]

end Drawing

namespace Session

/-- The leaves that are drawn do not depend on what is expanded. -/
theorem leaves_expanding (s : Session) (keys : List String) :
    (s.expanding keys).leaves = s.leaves := rfl

section
variable {spot : Part.Spot}
  (h : ∀ other p, (other, p) ∈ s.parts → other ≠ spot → Part.Same s (s.expanding keys) (some p))
include h

/-- The parts of a leaf of a board in a view that agrees on all parts but one. -/
theorem parts_of_leaf {node : Fields} {path : String} {ps : List (Option Part)}
    (hleaf : (node, path) ∈ s.leaves) (hps : Leaf.parts s node path = .ok ps) :
    ∃ ps', Leaf.parts (s.expanding keys) node path = .ok ps' ∧
      List.Forall₂ Part.Renamed ps ps' ∧
      ∀ j, path ≠ spot.path ∨ j ≤ spot.place → ps'[j]? = ps[j]? := by
  have hsame : ∀ j part, ps[j]? = some part → (⟨path, j⟩ : Part.Spot) ≠ spot →
      Part.Same s (s.expanding keys) part := by
    rintro j (- | p) hget hne
    · exact nofun
    · exact h ⟨path, j⟩ p (mem_parts.mpr ⟨node, ps, hleaf, hps, hget⟩) hne
  by_cases hpath : path = spot.path
  · obtain ⟨ps', hps', hrenamed, hkept⟩ := Leaf.parts_expanding hps spot.place fun j part hget hj =>
      hsame j part hget fun hspot => hj (congrArg Part.Spot.place hspot)
    exact ⟨ps', hps', hrenamed, fun j hj => hkept j (hj.resolve_left (not_not_intro hpath))⟩
  · -- all parts of the leaf are agreed on, so any place can be taken for the one that is not
    have hall := fun i => Leaf.parts_expanding hps i fun j part hget _ =>
      hsame j part hget fun hspot => hpath (congrArg Part.Spot.path hspot)
    obtain ⟨ps', hps', hrenamed, -⟩ := hall 0
    refine ⟨ps', hps', hrenamed, fun j _ => ?_⟩
    obtain ⟨ps'', hps'', -, hkept⟩ := hall j
    cases hps'.symm.trans hps''
    exact hkept j le_rfl

/-- The parts of a board in a view that agrees on all of them but one: they are the same but for
those without an id that stand below that one in its list. -/
theorem mem_parts_expanding {other : Part.Spot} {p : Part}
    (hkept : p.id ≠ none ∨ other.path ≠ spot.path ∨ other.place ≤ spot.place) :
    (other, p) ∈ (s.expanding keys).parts ↔ (other, p) ∈ s.parts := by
  rw [mem_parts, mem_parts, leaves_expanding]
  constructor
  · rintro ⟨node, ps', hleaf, hps', hget⟩
    have hmatching := Leaf.matching_parts s keys node other.path
    rw [hps'] at hmatching
    obtain ⟨ps, hps, -⟩ := hmatching.exists_left
    obtain ⟨ps'', hps'', hrenamed, hsame⟩ := parts_of_leaf h hleaf hps
    cases hps'.symm.trans hps''
    refine ⟨node, ps, hleaf, hps, ?_⟩
    rcases hkept with hid | hplace
    · obtain ⟨part, hpart, hback⟩ := Part.Renamed.getElem? (Part.Renamed.symm_all hrenamed) hget
      rwa [hback.eq_of_id hid] at hpart
    · rw [← hsame _ hplace, hget]
  · rintro ⟨node, ps, hleaf, hps, hget⟩
    obtain ⟨ps', hps', hrenamed, hsame⟩ := parts_of_leaf h hleaf hps
    refine ⟨node, ps', hleaf, hps', ?_⟩
    rcases hkept with hid | hplace
    · obtain ⟨part, hpart, hthere⟩ := Part.Renamed.getElem? hrenamed hget
      rwa [hthere.eq_of_id hid] at hpart
    · rw [hsame _ hplace, hget]

/-- What was drawn is drawn still, perhaps under another key. -/
theorem exists_parts_expanding {other : Part.Spot} {p : Part} (hpart : (other, p) ∈ s.parts) :
    ∃ key, (other, { p with key }) ∈ (s.expanding keys).parts := by
  obtain ⟨node, ps, hleaf, hps, hget⟩ := mem_parts.mp hpart
  obtain ⟨ps', hps', hrenamed, -⟩ := parts_of_leaf h hleaf hps
  obtain ⟨part, hpart', hthere⟩ := Part.Renamed.getElem? hrenamed hget
  have hkey : ∃ key, part = some { p with key } := by
    cases hthere with
    | same => exact ⟨p.key, rfl⟩
    | unnamed _ key => exact ⟨key, rfl⟩
  obtain ⟨key, rfl⟩ := hkey
  exact ⟨key, mem_parts.mpr ⟨node, ps', hleaf, hps', hpart'⟩⟩

/-- The leaves but the one with that part are drawn alike. -/
theorem draw_leaf_expanding {node : Fields} {path : String} (hleaf : (node, path) ∈ s.leaves)
    (hpath : path ≠ spot.path) :
    Leaf.draw (s.expanding keys) node path = Leaf.draw s node path := by
  refine Leaf.draw_expanding fun ps hps part hpart => ?_
  obtain ⟨j, hget⟩ := List.mem_iff_getElem?.mp hpart
  cases part with
  | none => exact nofun
  | some p =>
    exact h ⟨path, j⟩ p (mem_parts.mpr ⟨node, ps, hleaf, hps, hget⟩) fun hspot =>
      hpath (congrArg Part.Spot.path hspot)

end
end Session
end DecisionBoard
