import DecisionBoard.Proofs.Board.Expanded
import DecisionBoard.Proofs.Host.Runs

/-!
# Expanding one part

The tool that expands a card remembers the key of the control that it finds. `expand_touches_one`
says what this does to the board if no other part has that key: the detail of that part is
switched, all other leaves are drawn as before, and in its own list so are the items above it, and
below it those with an id. An item without an id is keyed by the number of lines above it, which the
detail has changed, so below the part that was switched such an item may lose its detail or get one.
-/

namespace DecisionBoard

/-- The detail of one part of a board is switched, and all that the rest of the board shows is as
before, but for what items without an id show that stand below it in the same list. -/
structure Session.SwitchedAt (before after : Session) (spot : Part.Spot) (p : Part) : Prop where
  own : (spot, p) ∈ after.parts
  switched : p.shows after = !p.shows before
  /-- Every other part is there if it was, and shows its detail if it did. -/
  others : ∀ other q, other ≠ spot →
    q.id ≠ none ∨ other.path ≠ spot.path ∨ other.place < spot.place →
    ((other, q) ∈ after.parts ↔ (other, q) ∈ before.parts) ∧
      ((other, q) ∈ before.parts → q.shows after = q.shows before)
  /-- An item without an id is there as well, but its key may be another. -/
  unnamed : ∀ other q, (other, q) ∈ before.parts → ∃ key, (other, { q with key }) ∈ after.parts
  leaves : ∀ node path, (node, path) ∈ before.leaves → path ≠ spot.path →
    Leaf.draw after node path = Leaf.draw before node path

/-- A part that is the only one with its key is switched when that key is. -/
theorem Session.switchedAt_toggled {s : Session} {spot : Part.Spot} {p : Part}
    (hpart : (spot, p) ∈ s.parts) (hdetail : p.detail.isSome)
    (halone : ∀ other q, (other, q) ∈ s.parts → q.detail.isSome → q.key = p.key → other = spot) :
    s.SwitchedAt (s.toggled p.key) spot p := by
  -- no other part with a detail has the key that is switched
  have hsame : ∀ other q, (other, q) ∈ s.parts → other ≠ spot →
      q.shows (s.toggled p.key) = q.shows s := by
    intro other q hother hne
    exact Part.shows_toggled_of_ne (fun hq hkey => hne (halone other q hother hq hkey)) s
  have hswitched := Part.shows_toggled hdetail s
  obtain ⟨keys, hkeys⟩ := s.exists_expanding_toggled p.key
  rw [hkeys] at hsame hswitched ⊢
  have hagree : ∀ other q, (other, q) ∈ s.parts → other ≠ spot →
      Part.Same s (s.expanding keys) (some q) := by
    intro other q hother hne q' hq
    cases hq
    exact hsame other q hother hne
  exact {
    own := (mem_parts_expanding hagree (.inr (.inr le_rfl))).mpr hpart
    switched := hswitched
    others := fun other q hne hplace =>
      ⟨mem_parts_expanding hagree (hplace.imp_right (.imp_right le_of_lt)),
        fun hother => hsame other q hother hne⟩
    unnamed := fun other q hother => exists_parts_expanding hagree hother
    leaves := fun node path hleaf hpath => draw_leaf_expanding hagree hleaf hpath }

/-- A key that is switched twice is where it was. -/
theorem Drawing.ofSession_toggled_twice (s : Session) (key : String) (refs : Option Refs) :
    ofSession ((s.toggled key).toggled key) refs = ofSession s refs := by
  have hback : ∀ other, ((s.toggled key).toggled key).isExpanded other = s.isExpanded other := by
    intro other
    rw [Session.isExpanded_toggled, Session.isExpanded_toggled, if_pos rfl]
    split
    · rename_i hother
      rw [Bool.not_not, hother]
    · rename_i hother
      rw [Session.isExpanded_toggled, if_neg hother]
  obtain ⟨keys, hkeys⟩ := s.exists_expanding_toggled key
  obtain ⟨keys', hkeys'⟩ := (s.toggled key).exists_expanding_toggled key
  have htwice : (s.toggled key).toggled key = s.expanding keys' := by
    rw [hkeys', hkeys]
    rfl
  rw [htwice] at hback ⊢
  exact ofSession_expanding hback refs

namespace Host

/-- Drawing the board leaves the session as it is, whether the board can be drawn or not. -/
theorem ends_boardText_session (host : Host) : Ends boardText host
    (fun _ h => h.session = host.session) (fun _ h => h.session = host.session) := by
  have hrun : draw.run host = ((Drawing.ofSession host.session (some {})).1,
      { host with refs := (Drawing.ofSession host.session (some {})).2.getD {} }) := rfl
  unfold boardText
  rcases hdrawn : (Drawing.ofSession host.session (some {})).1 with fault | drawing
  · rw [hdrawn] at hrun
    exact .bind (.of_error hrun rfl)
  · rw [hdrawn] at hrun
    exact .bind_of_ok hrun (.pure rfl)

/-- The tool switches the key of the control that it finds. -/
theorem session_expand {host : Host} {args : Fields} {target : Json} {control : Control}
    (htarget : Entries.get? args "target" = some target)
    (hfound : host.found target = .ok (some control)) :
    (host.step (.call Tool.expand.name args)).session = host.session.toggled control.key := by
  have hrequired : (requireControl target).run host = (.ok control, host) := by
    rw [run_requireControl, hfound]
    rfl
  have hends : Ends (callExpand args) host
      (fun _ h => h.session = host.session.toggled control.key)
      (fun _ h => h.session = host.session.toggled control.key) := by
    unfold callExpand
    refine .bind_of_ok (run_required host htarget) (.bind_of_ok hrequired ?_)
    -- the key is switched before the board is drawn, which may be refused
    refine .bind_of_ok rfl (.bind_of_ok rfl (.bind ?_))
    refine (ends_boardText_session _).mono (fun text h hsession => ?_) fun fault h hsession => ?_
    · exact .pure hsession
    · exact hsession
  show (host.call _ args).2.session = _
  rw [call_eq_perform (ofName?_name _)]
  rcases hrun : (perform .expand args).run host with ⟨fault | contents, after⟩
  · exact hends.error fault after hrun
  · exact hends.ok contents after hrun

/-- Expanding a drawn part with a detail switches that part and nothing else, but for items without
an id below it in its list, as long as no other part with a detail is drawn under its key; any such
part would be a second control under that key. Whatever target then finds the part again, expanding
it once more brings the board back. -/
theorem expand_touches_one {host : Host} {args : Fields} {target : Json} {control : Control}
    {spot : Part.Spot} {p : Part} (htarget : Entries.get? args "target" = some target)
    (hfound : host.found target = .ok (some control)) (hpart : (spot, p) ∈ host.session.parts)
    (hdetail : p.detail.isSome) (hkey : control.key = p.key)
    (halone : ∀ other q, (other, q) ∈ host.session.parts → q.detail.isSome → q.key = p.key →
      other = spot) :
    ∃ after, host.step (.call Tool.expand.name args) = after ∧
      host.session.SwitchedAt after.session spot p ∧
      ∀ again target' control', Entries.get? again "target" = some target' →
        after.found target' = .ok (some control') → control'.key = p.key →
        ∀ refs, Drawing.ofSession (after.step (.call Tool.expand.name again)).session refs =
          Drawing.ofSession host.session refs := by
  have hsession := session_expand htarget hfound
  rw [hkey] at hsession
  refine ⟨_, rfl, ?_, ?_⟩
  · rw [hsession]
    exact Session.switchedAt_toggled hpart hdetail halone
  · intro again target' control' htarget' hfound' hkey' refs
    rw [session_expand htarget' hfound', hsession, hkey']
    exact Drawing.ofSession_toggled_twice host.session p.key refs

/-! ### A list of cards without ids -/

/-- A board with a list of two cards and a card beside it. -/
def carded : Host := new.step (.call "forge_view"
  [("spec", .obj [("title", .str "T"), ("layout", .arr [
    .obj [("kind", .str "card_list"), ("id", .str "k"), ("items", .arr [
      .obj [("title", .str "A"), ("detail", .str "a")],
      .obj [("title", .str "B"), ("detail", .str "b")]])],
    .obj [("kind", .str "card"), ("id", .str "c"), ("title", .str "C"), ("detail", .str "c")]])])])

/-- The arguments that name what is found under a key. -/
def atKey (key : String) : Fields := [("target", .str key)]

/-- The host after a card under a key was expanded. -/
def expandedAt (host : Host) (key : String) : Host :=
  host.step (.call Tool.expand.name (atKey key))

/-- The control under a key is found under it. -/
theorem exists_found (host : Host) (key : String)
    (h : (host.found (.str key)).toOption.join.any (·.key == key) = true) :
    ∃ control, host.found (.str key) = .ok (some control) ∧ control.key = key := by
  obtain ⟨control, hcontrol, hkey⟩ := (Option.any_eq_true _ _).mp h
  exact ⟨control, eq_ok_of_toOption (Option.join_eq_some_iff.mp hcontrol), beq_iff_eq.mp hkey⟩

/-- The second card of the list is switched and back. -/
theorem last_card_switched : ∃ p,
    carded.session.SwitchedAt (carded.expandedAt "k/1").session ⟨"0", 1⟩ p ∧
    p.shows (carded.expandedAt "k/1").session = true ∧
    ∀ refs, Drawing.ofSession ((carded.expandedAt "k/1").expandedAt "k/1").session refs =
      Drawing.ofSession carded.session refs := by
  have hknown : (carded.session.parts.any fun e => e.1 = ⟨"0", 1⟩ && e.2.key = "k/1" &&
      e.2.detail.isSome && !e.2.shows carded.session) = true := by decide +kernel
  have halone : ∀ e ∈ carded.session.parts, e.2.detail.isSome → e.2.key = "k/1" →
      e.1 = ⟨"0", 1⟩ := by decide +kernel
  obtain ⟨⟨spot, p⟩, hpart, hknown⟩ := List.any_eq_true.mp hknown
  simp only [Bool.and_eq_true, decide_eq_true_eq, Bool.not_eq_true'] at hknown
  obtain ⟨⟨⟨rfl, hkey⟩, hdetail⟩, hhidden⟩ := hknown
  obtain ⟨control, hfound, hcontrol⟩ := exists_found carded "k/1" (by decide +kernel)
  obtain ⟨control', hfound', hcontrol'⟩ :=
    exists_found (carded.expandedAt "k/1") "k/1" (by decide +kernel)
  have htarget : Entries.get? (atKey "k/1") "target" = some (.str "k/1") := rfl
  obtain ⟨_, rfl, hswitched, hback⟩ := expand_touches_one htarget hfound hpart hdetail
    (hcontrol.trans hkey.symm)
    fun other q hq hdetail hsame => halone (other, q) hq hdetail (hsame.trans hkey)
  refine ⟨p, hswitched, ?_, hback _ _ control' htarget hfound' (hcontrol'.trans hkey.symm)⟩
  exact hswitched.switched.trans (by rw [hhidden]; rfl)

/-- The parts of a board, with whether their details are shown. -/
def shownParts (host : Host) : List (String × Nat × Bool) :=
  host.session.parts.map fun (spot, p) => (spot.path, spot.place, p.shows host.session)

/-- When the first card is expanded after it, the second one is keyed anew and its detail is
forgotten. -/
theorem last_card_forgotten :
    shownParts (carded.expandedAt "k/1") = [("0", 0, false), ("0", 1, true), ("1", 0, false)] ∧
    shownParts ((carded.expandedAt "k/1").expandedAt "k/0") =
      [("0", 0, true), ("0", 1, false), ("1", 0, false)] := by
  constructor <;> decide +kernel

end Host
end DecisionBoard
