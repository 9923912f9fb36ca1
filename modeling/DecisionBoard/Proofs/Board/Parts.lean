import DecisionBoard.Proofs.Board.Composed
import DecisionBoard.Proofs.Entries

/-!
# Parts with a detail

Cards, the items of card lists and scored items may have a detail, which is drawn or not. A `Part`
is one of them, with the lines it takes in either case; which case it is, its key tells. The lines
of a leaf that has parts are those of its parts, with refs in front, and a part with a detail is a
control (`Leaf.draws_parts`). The parts of a board are those of the leaves that are drawn on it.
-/

namespace DecisionBoard

/-- A card, an item of a list of cards or a scored item. -/
structure Part where
  id : Option String
  /-- The control key, under which it is remembered whether the detail is shown. -/
  key : String
  /-- The first line behind the ref while the detail is hidden. -/
  closed : String
  /-- The first line behind the ref while the detail is shown. -/
  opened : String
  /-- The lines below the first one that are there in any case. -/
  below : List String
  /-- The lines of the detail, none if there is no detail. -/
  detail : Option (List String)
  deriving DecidableEq

namespace Part

variable (session : Session)

/-- The detail of a part is shown. -/
def shows (p : Part) : Bool := p.detail.isSome && session.isExpanded p.key

/-- The lines of a part, with a ref or nothing in front. -/
def lines (lead : String) (p : Part) : List String :=
  if p.shows session then (lead ++ p.opened) :: (p.below ++ p.detail.getD [])
  else (lead ++ p.closed) :: p.below

/-- The number of lines that a part takes, none if it is left out. -/
def height (part : Option Part) : Nat := part.elim 0 fun p => (p.lines session "").length

theorem length_lines (lead : String) (p : Part) :
    (p.lines session lead).length = height session (some p) := by
  simp only [height, Option.elim_some, lines]
  split <;> rfl

end Part

/-- There is a control under a key. -/
def Canvas.Has (c : Canvas) (key : String) : Prop := (Entries.get? c.controls key).isSome

namespace Part

variable (session : Session)

/-- Parts are drawn one below the other from one canvas to another, each with something in front of
its lines. One that is left out takes no line; one with a detail leaves a control under its key. -/
inductive Drawn : List (Option Part) → List String → Canvas → Canvas → Prop where
  | nil (c : Canvas) : Drawn [] [] c c
  | skip {ps : List (Option Part)} {ls : List String} {c c' : Canvas} (h : Drawn ps ls c c') :
      Drawn (none :: ps) ls c c'
  | part {ps : List (Option Part)} {ls : List String} {c c' c'' : Canvas} (p : Part) (lead : String)
      (hover : ∀ key, c.Has key → c'.Has key) (hcontrol : p.detail.isSome → c'.Has p.key)
      (h : Drawn ps ls c' c'') : Drawn (some p :: ps) (p.lines session lead ++ ls) c c''

namespace Drawn

variable {session} {ps : List (Option Part)} {ls : List String} {c c' : Canvas}

theorem one {p : Part} (lead : String) (hlines : ls = p.lines session lead)
    (hover : ∀ key, c.Has key → c'.Has key) (hcontrol : p.detail.isSome → c'.Has p.key) :
    Drawn session [some p] ls c c' := by
  rw [hlines]
  simpa using Drawn.part p lead hover hcontrol (.nil c')

theorem cons {part : Option Part} {ls' : List String} {c'' : Canvas}
    (h : Drawn session [part] ls c c') (hrest : Drawn session ps ls' c' c'') :
    Drawn session (part :: ps) (ls ++ ls') c c'' := by
  cases h with
  | skip h =>
    cases h
    exact .skip hrest
  | part p lead hover hcontrol h =>
    cases h
    simpa using Drawn.part p lead hover hcontrol hrest

/-- No control goes while parts are drawn. -/
theorem has_of_has (h : Drawn session ps ls c c') {key : String} (hkey : c.Has key) :
    c'.Has key := by
  induction h with
  | nil => exact hkey
  | skip _ ih => exact ih hkey
  | part _ _ hover _ _ ih => exact ih (hover key hkey)

/-- Every part with a detail is a control. -/
theorem has_key (h : Drawn session ps ls c c') {p : Part} (hp : some p ∈ ps)
    (hdetail : p.detail.isSome) : c'.Has p.key := by
  induction h with
  | nil => cases hp
  | skip _ ih =>
    rcases List.mem_cons.mp hp with hnone | hp
    · cases hnone
    · exact ih hp
  | part p' lead _ hcontrol hrest ih =>
    rcases List.mem_cons.mp hp with hsame | hp
    · cases hsame
      exact hrest.has_of_has (hcontrol hdetail)
    · exact ih hp

end Drawn
end Part

/-! ## Drawing what is read -/

namespace Draw

variable {α β γ δ : Type}

/-- A value is there, and a drawing gives a result and leads to a canvas that are related to it, or
both are refused. -/
inductive Along (R : α → β → Canvas → Prop) : Checked α → Checked β × Canvas → Prop where
  | ok {a : α} {b : β} {c : Canvas} (h : R a b c) : Along R (.ok a) (.ok b, c)
  | error (fault fault' : Fault) (c : Canvas) : Along R (.error fault) (.error fault', c)

namespace Along

variable {R : α → β → Canvas → Prop}

theorem check (v : Checked α) (c : Canvas) :
    Along (fun a b c' => a = b ∧ c = c') v ((check v).run c) := by
  cases v with
  | error fault => exact .error fault fault c
  | ok a => exact .ok ⟨rfl, rfl⟩

theorem bind {S : γ → δ → Canvas → Prop} {v : Checked α} {f : α → Checked γ} {m : Draw β}
    {g : β → Draw δ} {c : Canvas} (h : Along R v (m.run c))
    (hmore : ∀ a b c', R a b c' → Along S (f a) ((g b).run c')) :
    Along S (v >>= f) ((m >>= g).run c) := by
  rcases hrun : m.run c with ⟨fault | b, c'⟩
  · rw [hrun] at h
    rw [run_bind_error hrun]
    cases h with
    | error fault' => exact .error fault' fault c'
  · rw [hrun] at h
    rw [run_bind_ok hrun]
    cases h with
    | ok h => exact hmore _ b c' h

/-- More is read, and nothing drawn. -/
theorem map {S : γ → β → Canvas → Prop} {v : Checked α} {f : α → γ} {w : Checked β × Canvas}
    (h : Along R v w) (hf : ∀ a b c, R a b c → S (f a) b c) :
    Along S (v >>= fun a => pure (f a)) w := by
  cases h with
  | ok h => exact .ok (hf _ _ _ h)
  | error fault fault' c => exact .error fault fault' c

theorem of_ok {a : α} {b : β} {c : Canvas} (h : Along R (.ok a) (.ok b, c)) : R a b c := by
  cases h with
  | ok h => exact h

end Along
end Draw

/-- A control that is registered is there, with all that was there before. -/
theorem Draw.exists_run_addControl (control : Control) (c : Canvas) :
    ∃ lead c', (addControl control).run c = (.ok lead, c') ∧
      ∀ key, c'.Has key ↔ key = control.key ∨ c.Has key := by
  refine ⟨_, _, run_addControl control c, fun key => ?_⟩
  by_cases hkey : key = control.key
  · rw [Canvas.Has, hkey, Entries.get?_put_self]
    simp
  · rw [Canvas.Has, Entries.get?_put_of_ne _ hkey]
    simp [hkey, Canvas.Has]

/-! ## The parts of a leaf -/

namespace Leaf

/-- A card with an id, if it has one, under a key. -/
def cardPart (id : Option String) (key : String) (item : Fields) : Part :=
  let detail := item.get "detail"
  let marks := if (item.get "dismissible").truthy && id.isSome then ["dismissible"] else []
  { id, key
    closed := "[card] " ++ textOf item "title"
      ++ marksText (marks ++ if detail.truthy then ["more"] else [])
    opened := "[card] " ++ textOf item "title" ++ marksText marks
    below := []
    detail := if detail.truthy then some ((Text.lines detail.text).map ("    " ++ ·)) else none }

/-- An item of a list of cards with `drawn` lines above it, none if the item is dismissed. -/
def itemPart? (session : Session) (key : String) (drawn : Nat) (item : Json) :
    Checked (Option Part) := do
  let id := Node.id item
  if id.any (WidgetState.isDismissed session.state) then return none
  return some (cardPart id (id.getD s!"{key}/{drawn}") (← item.members))

/-- The items of a list of cards from one with `drawn` lines above it on. -/
def listParts (session : Session) (key : String) : Nat → List Json → Checked (List (Option Part))
  | _, [] => return []
  | drawn, item :: items => do
    let part ← itemPart? session key drawn item
    return part :: (← listParts session key (drawn + Part.height session part) items)

def scorePart (session : Session) (node : Fields) (key : String) : Checked Part := do
  let id := Node.idOf node
  let stateKey := WidgetState.compositeKey [textOf node "stateKey" "scores", id.getD key]
  let low ← Bar.number (node.get "scoreMin") 0
  let high ← Bar.number (node.get "scoreMax") 100
  let score ← Bar.number (← session.state.resolve (.str stateKey) (node.get "score")) low
  let line := textOf node "title" ++ ": " ++ Bar.numberText score ++ " "
    ++ (← Bar.single (Bar.progress low high score))
    ++ (if (node.get "dismissible").truthy then " (dismissible)" else "")
  let description := node.get "description"
  let reasoning := node.get "reasoning"
  return {
    id, key, closed := line, opened := line
    below := if description.truthy then ["    " ++ description.text] else []
    detail := if reasoning.truthy then some ["    Why: " ++ reasoning.text] else none }

/-- The kinds of leaves that have parts. -/
def partedKinds : List LeafKind := [.card, .cardList, .scoreableItem]

/-- The parts of a leaf of a kind. -/
def kindParts (session : Session) (node : Fields) (key : String) :
    LeafKind → Checked (List (Option Part))
  | .card => return [some (cardPart (Node.idOf node) key node)]
  | .cardList => do listParts session key 0 (← itemsOf node "items")
  | .scoreableItem => do return [some (← scorePart session node key)]
  | _ => return []

/-- The parts of a leaf under a path. -/
def parts (session : Session) (node : Fields) (path : String) : Checked (List (Option Part)) :=
  match LeafKind.ofName? (Node.kindOf node) with
  | none => return []
  | some kind => kindParts session node (key node path) kind

/-! ## The lines of a leaf -/

open Draw (Along)

variable (session : Session) (node : Fields) (key : String)

/-- The line of a card, and those of its detail if that is shown. -/
theorem lines_cardPart (id : Option String) (item : Fields) (lead : String) :
    (cardPart id key item).lines session lead =
      (lead ++ "[card] " ++ textOf item "title" ++ marksText
        ((if (item.get "dismissible").truthy && id.isSome then ["dismissible"] else [])
          ++ (if (item.get "detail").truthy && !session.isExpanded key then ["more"] else [])))
      :: (if (item.get "detail").truthy && session.isExpanded key
          then Text.lines (item.get "detail").text else []).map ("    " ++ ·) := by
  cases hdetail : (item.get "detail").truthy <;> cases hexpanded : session.isExpanded key <;>
    simp [cardPart, Part.lines, Part.shows, hdetail, hexpanded, String.append_assoc]

/-- A card is drawn as its part. -/
theorem drawn_cardLines (id : Option String) (item : Fields) (c : Canvas) :
    ∃ lead c', (cardLines session key item
        (if (item.get "dismissible").truthy then id else none)).run c =
      (.ok ((cardPart id key item).lines session lead), c') ∧
      (∀ key, c.Has key → c'.Has key) ∧ ((cardPart id key item).detail.isSome → c'.Has key) := by
  have hsome : (if (item.get "dismissible").truthy then id else none).isSome
      = ((item.get "dismissible").truthy && id.isSome) := by
    split <;> simp [*]
  have hlines := lines_cardPart session key id item
  unfold cardLines
  simp only [hsome]
  by_cases hcontrol :
      ((item.get "dismissible").truthy && id.isSome || (item.get "detail").truthy) = true
  · rw [if_pos hcontrol]
    obtain ⟨lead, c', hrun, hhas⟩ := Draw.exists_run_addControl _ c
    refine ⟨lead, c', (Draw.run_bind_ok hrun _).trans ?_,
      fun key hkey => (hhas key).mpr (.inr hkey), fun _ => (hhas key).mpr (.inl rfl)⟩
    rw [hlines, Draw.run_pure]
  · rw [if_neg hcontrol, pure_bind]
    refine ⟨"", c, ?_, fun _ h => h, fun hdetail => ?_⟩
    · rw [hlines, Draw.run_pure]
    · -- a card that is no control has no detail
      rw [Bool.or_eq_true, not_or] at hcontrol
      simp [cardPart, hcontrol.2] at hdetail

/-- An item of a list is drawn as its part, or refused with it. -/
theorem along_cardListItem (drawn : Nat) (item : Json) (c : Canvas) :
    Along (fun part ls c' => Part.Drawn session [part] ls c c' ∧
        ls.length = Part.height session part)
      (itemPart? session key drawn item) ((cardListItem session key drawn item).run c) := by
  unfold itemPart? cardListItem
  by_cases hdismissed : (Node.id item).any (WidgetState.isDismissed session.state) = true
  · simp only [if_pos hdismissed]
    exact .ok ⟨.skip (.nil c), rfl⟩
  · simp only [if_neg hdismissed]
    refine (Along.check item.members c).bind ?_
    rintro fields _ _ ⟨rfl, rfl⟩
    obtain ⟨lead, c', hrun, hover, hcontrol⟩ := drawn_cardLines session
      ((Node.id item).getD s!"{key}/{drawn}") (Node.id item) fields
      { c with elements := c.elements ++ [_] }
    rw [Draw.run_bind_ok (Draw.run_addElement _ c), hrun]
    exact .ok ⟨.one lead rfl hover hcontrol, Part.length_lines session lead _⟩

/-- The items of a list are drawn as their parts, below the lines that are there already. -/
theorem along_items (items : List Json) (above : List String) (c : Canvas) :
    Along (fun ps lines c' => ∃ ls, lines = above ++ ls ∧ Part.Drawn session ps ls c c')
      (listParts session key above.length items)
      ((items.foldlM (fun (lines : List String) item =>
        return lines ++ (← cardListItem session key lines.length item)) above).run c) := by
  induction items generalizing above c with
  | nil => exact .ok ⟨[], by simp, .nil c⟩
  | cons item items ih =>
    -- the part and the lines of an item have one height, so what follows stands below as many lines
    rw [listParts, List.foldlM_cons, bind_assoc]
    refine (along_cardListItem session key above.length item c).bind ?_
    rintro part ls c' ⟨hdrawn, hlength⟩
    have hrest := ih (above ++ ls) c'
    rw [List.length_append, hlength] at hrest
    rw [pure_bind]
    refine hrest.map ?_
    rintro ps lines c'' ⟨ls', rfl, hrest⟩
    exact ⟨ls ++ ls', List.append_assoc .., hdrawn.cons hrest⟩

theorem along_scoreableItem (c : Canvas) :
    Along (fun p ls c' => Part.Drawn session [some p] ls c c')
      (scorePart session node key) ((scoreableItem session node key).run c) := by
  unfold scorePart scoreableItem
  refine (Along.check _ c).bind ?_
  rintro low _ _ ⟨rfl, rfl⟩
  refine (Along.check _ c).bind ?_
  rintro high _ _ ⟨rfl, rfl⟩
  refine (Along.check _ c).bind ?_
  rintro stated _ _ ⟨rfl, rfl⟩
  refine (Along.check _ c).bind ?_
  rintro score _ _ ⟨rfl, rfl⟩
  obtain ⟨lead, c', hrun, hhas⟩ := Draw.exists_run_addControl _ c
  rw [Draw.run_bind_ok hrun, Draw.run_bind_ok (Draw.run_addElement _ _)]
  refine (Along.check _ _).bind ?_
  rintro bar _ _ ⟨rfl, rfl⟩
  refine .ok (.one lead ?_ (fun other hother => (hhas other).mpr (.inr hother))
    fun _ => (hhas key).mpr (.inl rfl))
  cases (node.get "reasoning").truthy <;> cases hexpanded : session.isExpanded key <;>
    simp [Part.lines, Part.shows, hexpanded, String.append_assoc]

/-- A leaf of a kind that has parts is drawn as its parts, or refused with them. -/
theorem along_drawing {kind : LeafKind} (hkind : kind ∈ partedKinds) (c : Canvas) :
    Along (fun ps ls c' => Part.Drawn session ps ls c c') (kindParts session node key kind)
      ((drawing kind session node key).run c) := by
  simp only [partedKinds, List.mem_cons, List.not_mem_nil, or_false] at hkind
  rcases hkind with rfl | rfl | rfl
  · obtain ⟨lead, c', hrun, hover, hcontrol⟩ := drawn_cardLines session key (Node.idOf node) node
      { c with elements := c.elements ++ [_] }
    have hdrawn : (card session node key).run c = _ :=
      (Draw.run_bind_ok (Draw.run_addElement _ c) _).trans hrun
    rw [drawing, hdrawn]
    exact .ok (.one lead rfl hover hcontrol)
  · refine (Along.check (itemsOf node "items") c).bind ?_
    rintro items _ _ ⟨rfl, rfl⟩
    have hitems := along_items session key items [] c
    simp only [List.nil_append, exists_eq_left'] at hitems
    exact hitems
  · exact (along_scoreableItem session node key c).map fun p ls c' h => h

theorem parts_of_kind {kind : LeafKind} (hkind : LeafKind.ofName? (Node.kindOf node) = some kind)
    (path : String) :
    parts session node path = kindParts session node (Leaf.key node path) kind := by
  rw [parts, hkind]

/-- A leaf with parts that is not refused is drawn as its parts. -/
theorem draws_parts {kind : LeafKind} {path : String} {ps : List (Option Part)}
    (hkind : LeafKind.ofName? (Node.kindOf node) = some kind) (hparted : kind ∈ partedKinds)
    (hparts : parts session node path = .ok ps) (c : Canvas) :
    ∃ ls c', (draw session node path).run c = (.ok ls, c') ∧ Part.Drawn session ps ls c c' := by
  have hdrawn := along_drawing session node (Leaf.key node path) hparted c
  rw [← parts_of_kind session node hkind path, hparts] at hdrawn
  rw [draw, hkind]
  dsimp only
  rcases hrun : (drawing kind session node (Leaf.key node path)).run c with ⟨fault | ls, c'⟩
  · rw [hrun] at hdrawn
    cases hdrawn
  · rw [hrun] at hdrawn
    exact ⟨ls, c', Draw.run_isolate_ok hrun, hdrawn.of_ok⟩

/-- A leaf whose parts cannot be made out leaves its placeholder. -/
theorem draw_of_refused {kind : LeafKind} {path : String} {fault : Fault}
    (hkind : LeafKind.ofName? (Node.kindOf node) = some kind)
    (hparts : parts session node path = .error fault) (c : Canvas) :
    (draw session node path).run c = (.ok [s!"[! {kind.name} failed to render]"],
      { c with failures := c.failures ++ [kind.name] }) := by
  rw [parts_of_kind session node hkind path] at hparts
  -- a kind without parts is not refused for want of them
  have hparted : kind ∈ partedKinds := by
    cases kind with
    | card | cardList | scoreableItem => decide
    | _ => cases hparts
  have hdrawn := along_drawing session node (Leaf.key node path) hparted c
  rw [hparts] at hdrawn
  rw [draw, hkind]
  dsimp only
  rcases hrun : (drawing kind session node (Leaf.key node path)).run c with ⟨fault' | ls, c'⟩
  · exact Draw.run_isolate_error hrun
  · rw [hrun] at hdrawn
    cases hdrawn

end Leaf

/-! ## The parts of a board -/

/-- The leaves that are drawn on a board, each with its path. -/
def Session.leaves (s : Session) : List (Fields × String) :=
  s.layout.zipIdx.flatMap fun (root, i) =>
    match root with
    | .obj fs =>
      match Node.container? root with
      | none => [(fs, toString i)]
      | some kind =>
        ((Container.visibleChildren s kind fs (Container.key fs i)).toOption.getD []).map
          fun (child, j) => (child, s!"{i}/{j}")
    | _ => []

/-- A place among the parts of a board: the path of a leaf, and a place among its parts. -/
structure Part.Spot where
  path : String
  place : Nat
  deriving DecidableEq

/-- The parts that are drawn on a board. -/
def Session.parts (s : Session) : List (Part.Spot × Part) :=
  s.leaves.flatMap fun (node, path) =>
    ((Leaf.parts s node path).toOption.getD []).zipIdx.filterMap fun (part, i) =>
      part.map (⟨path, i⟩, ·)

theorem Session.mem_parts {s : Session} {spot : Part.Spot} {p : Part} :
    (spot, p) ∈ s.parts ↔ ∃ node ps, (node, spot.path) ∈ s.leaves ∧
      Leaf.parts s node spot.path = .ok ps ∧ ps[spot.place]? = some (some p) := by
  rw [parts, List.mem_flatMap]
  constructor
  · rintro ⟨⟨node, path⟩, hleaf, hmem⟩
    obtain ⟨⟨part, i⟩, hpart, hmade⟩ := List.mem_filterMap.mp hmem
    obtain ⟨p', rfl, heq⟩ := Option.map_eq_some_iff.mp hmade
    cases heq
    have hget := List.mem_zipIdx_iff_getElem?.mp hpart
    cases hparts : Leaf.parts s node path with
    | error fault =>
      rw [hparts] at hget
      cases hget
    | ok ps =>
      rw [hparts] at hget
      exact ⟨node, ps, hleaf, hparts, hget⟩
  · rintro ⟨node, ps, hleaf, hparts, hget⟩
    refine ⟨(node, spot.path), hleaf, List.mem_filterMap.mpr ⟨(some p, spot.place), ?_, rfl⟩⟩
    rw [hparts]
    exact List.mem_zipIdx_iff_getElem?.mpr hget

end DecisionBoard
