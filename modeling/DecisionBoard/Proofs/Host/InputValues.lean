import DecisionBoard.Proofs.Board.Shown
import DecisionBoard.Proofs.Host.Runs

/-!
# What is set is what is drawn

A value that is set goes through two pieces of code that know nothing of each other: the control
that a target finds turns it into what is stored, and the leaf of that control, drawn again, turns
what is stored into what it shows. `set_shown` says that they fit: within its bounds an input stores
the nearest number, and whatever it has stored is shown by the leaf that registered it.
-/

namespace DecisionBoard
namespace Host

/-- An input with bounds stores the number within them that is nearest to the one it is given, whole
if that is whole, and takes what it has stored as it is. Whatever an input has stored under its state
key is what its control shows when its leaf is drawn again without being refused, with refs or
without. -/
theorem set_shown {host : Host} {target v w : Json} {control : Control} {name : String}
    (hfound : host.found target = .ok (some control)) (hstate : control.stateKey = .str name)
    (hname : name ≠ "") (haccept : control.accept v = .ok w) (hw : w ≠ .null) :
    (∀ low high, control.bounds = some (low, high) → low.le high = true →
      low.isFinite = true ∧ high.isFinite = true ∧ ∃ x q, v.toDouble = .ok x ∧
        w.amount? = some q ∧ q = Double.nearestWithin low.value high.value x ∧
        low.value ≤ q ∧ q ≤ high.value ∧ ((∃ n, w = .int n) ↔ ∃ n : ℤ, q = n) ∧
        control.accept w = .ok w) ∧
    ∃ stored, host.session.set (.str name) w = .ok stored ∧
      (∃ node path, Node.Stands host.session.layout node path ∧
        Draw.control? (Leaf.draw host.session node path) control.key = some control) ∧
      ∀ node path, Draw.control? (Leaf.draw host.session node path) control.key = some control →
        ∀ canvas lines drawn, (Leaf.draw stored node path).run canvas = (.ok lines, drawn) →
          drawn.failures = canvas.failures →
          ∃ shown, Entries.get? drawn.controls control.key = some shown ∧ shown.value.Same w := by
  have hgiven : control.stateKey ≠ .null := by
    rw [hstate]
    exact nofun
  obtain ⟨controls, own, hcontrols, hget⟩ := exists_controls_of_found hfound
  obtain ⟨node, path, hstands, hcontrol⟩ := exists_leaf_of_controlsOf hcontrols hget (.inl hgiven)
  obtain ⟨kind, -, hinput⟩ := Leaf.exists_input hcontrol
  cases hinput.key_eq hgiven
  refine ⟨fun low high hbounds hle => ?_, ?_⟩
  · obtain ⟨hlow, hhigh⟩ := hinput.bounds_finite hgiven hbounds
    rw [Control.accept, hbounds] at haccept
    obtain ⟨x, q, hspec⟩ := Control.boundedValue_spec hlow hhigh hle haccept
    rw [Control.accept, hbounds]
    exact ⟨hlow, hhigh, x, q, hspec⟩
  · have hset : host.session.set (.str name) w = .ok
        { host.session with state := Entries.put host.session.state (.str name) w } := by
      have htruthy : (Json.str name).truthy = true := decide_eq_true hname
      rw [Session.set, htruthy]
      rfl
    refine ⟨_, hset, ⟨node, path, hstands, hcontrol⟩, ?_⟩
    intro node path hcontrol canvas lines drawn hrun hdone
    obtain ⟨kind, hkind, hinput⟩ := Leaf.exists_input hcontrol
    exact Leaf.shows_draw hkind (hinput.shows hstate hname haccept hw rfl) hrun hdone

/-- A board with a slider. -/
def weighed : Host := new.step (.call "forge_view"
  [("spec", .obj [("title", .str "T"), ("layout", .arr [
    .obj [("kind", .str "slider"), ("stateKey", .str "w"), ("max", .int 8)]])])])

theorem weight_shown : ∃ control w stored node path,
    weighed.found (.str "w") = .ok (some control) ∧ control.accept (.str "99.5") = .ok w ∧
    w.text = "8" ∧ weighed.session.set (.str "w") w = .ok stored ∧
    ∀ lines drawn, (Leaf.draw stored node path).run {} = (.ok lines, drawn) →
      drawn.failures = [] →
      ∃ shown, Entries.get? drawn.controls control.key = some shown ∧ shown.value.Same w := by
  have hknown : ((weighed.found (.str "w")).toOption.join.any fun control =>
      control.stateKey.string? == some "w" &&
        (control.accept (.str "99.5")).toOption.any fun w => w.text == "8" && !w.isNull) = true := by
    decide +kernel
  obtain ⟨control, hcontrol, hknown⟩ := (Option.any_eq_true _ _).mp hknown
  have hfound := eq_ok_of_toOption (Option.join_eq_some_iff.mp hcontrol)
  rw [Bool.and_eq_true, beq_iff_eq, string?_eq_some_iff] at hknown
  obtain ⟨hstate, hknown⟩ := hknown
  obtain ⟨w, hw, hknown⟩ := (Option.any_eq_true _ _).mp hknown
  rw [Bool.and_eq_true, beq_iff_eq, Bool.not_eq_true'] at hknown
  obtain ⟨htext, hgiven⟩ := hknown
  have haccept := eq_ok_of_toOption hw
  have hnull : w ≠ .null := by
    rintro rfl
    cases hgiven
  obtain ⟨-, stored, hset, ⟨node, path, -, hregistered⟩, hshown⟩ :=
    set_shown hfound hstate (by decide) haccept hnull
  exact ⟨control, w, stored, node, path, hfound, haccept, htext, hset,
    hshown node path hregistered {}⟩

end Host
end DecisionBoard
