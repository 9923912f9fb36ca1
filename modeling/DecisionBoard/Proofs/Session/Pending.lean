import DecisionBoard.Proofs.Key
import DecisionBoard.Proofs.Session.Redelivery

/-!
# Tools that are waited for

Tools are told apart by their keys, and two keys that agree are one tool. A tool is pending from
when it is added until it is settled, and of all that a payload does to a session only the tool
that sent it matters here.
-/

namespace DecisionBoard
namespace Session

/-! ## What is pending -/

section
variable (s : Session) (tool other : Key)

theorem isPending_congr {tool other : Key} (h : (tool == other) = true) :
    s.isPending tool = s.isPending other := by
  unfold isPending
  exact congrArg (List.any s.pending) (funext fun t => BEq.congr_left h)

theorem isPending_addPending :
    (s.addPending tool).isPending other = (tool == other || s.isPending other) := by
  unfold addPending
  split
  · rename_i hpending
    -- a tool that is pending already is not added a second time
    cases hsame : tool == other with
    | false => rw [Bool.false_or]
    | true => rw [← s.isPending_congr hsame, hpending, Bool.true_or]
  · rw [isPending, List.any_append, List.any_cons, List.any_nil, Bool.or_false, BEq.comm,
      Bool.or_comm]
    rfl

theorem isPending_settle :
    (s.settle tool).isPending other = (!(tool == other) && s.isPending other) := by
  unfold isPending settle
  rw [List.any_filter]
  cases hsame : tool == other with
  | false =>
    refine congrArg (List.any s.pending) (funext fun t => ?_)
    cases ht : other == t with
    | false => rw [Bool.and_false]
    | true => rw [Bool.and_true, BEq.congr_right (BEq.symm ht), hsame, Bool.not_false]
  | true =>
    refine List.any_eq_false.mpr fun t _ => ?_
    rw [BEq.congr_left (BEq.symm hsame)]
    simp

end

/-! ## What a payload settles -/

theorem Received.notices {s t : Session} {directive : Directive} (h : Received s directive t) :
    t.notices = s.notices := by
  cases h with
  | render spec =>
    simp only [showing]
    split <;> rfl
  | _ => rfl

/-- A payload settles the tool that sent it and leaves no notice. -/
theorem deliver_eq (s : Session) (d : Delivery) :
    (s.deliver d).pending = (s.settleSource d.source).pending ∧
    (s.deliver d).notices = s.notices := by
  have hnotices := s.settleSource_notices d.source
  unfold deliver
  rcases s.apply_cases d.payload d.source with ⟨hrefused, -⟩ | ⟨directive, -, hreceived⟩
  · rw [hrefused]
    exact ⟨rfl, hnotices⟩
  · exact ⟨hreceived.pending, hreceived.notices.trans hnotices⟩

theorem deliverAll_notices (s : Session) (ds : List Delivery) :
    (s.deliverAll ds).notices = s.notices := by
  induction ds generalizing s with
  | nil => rfl
  | cons d ds ih => exact (ih (s.deliver d)).trans (s.deliver_eq d).2

theorem pending_apply (s : Session) (payload : Json) (source : Option Key) :
    (s.apply payload source).2.pending = (s.settleSource source).pending :=
  (s.deliver_eq ⟨payload, source⟩).1

theorem pending_apply_from (s : Session) (payload : Json) {tool : Key}
    (htool : tool.toJson.truthy = true) :
    (s.apply payload (some tool)).2.pending = (s.settle tool).pending := by
  rw [pending_apply, settleSource_some, if_pos htool]

/-- Whether a payload comes from a tool, one that counts as given. -/
def Delivery.isFrom (d : Delivery) (tool : Key) : Bool :=
  d.source.any fun source => source.toJson.truthy && source == tool

theorem isPending_deliver (s : Session) (d : Delivery) (tool : Key) :
    (s.deliver d).isPending tool = (!d.isFrom tool && s.isPending tool) := by
  have hpending : (s.deliver d).isPending tool = (s.settleSource d.source).isPending tool :=
    congrArg (List.any · (tool == ·)) (s.deliver_eq d).1
  rw [hpending, Delivery.isFrom]
  cases d.source with
  | none => rfl
  | some source =>
    rw [settleSource_some]
    cases hgiven : source.toJson.truthy with
    | false => simp [hgiven]
    | true => simpa [hgiven] using s.isPending_settle source tool

theorem isPending_deliverAll (s : Session) (ds : List Delivery) (tool : Key) :
    (s.deliverAll ds).isPending tool = (!ds.any (·.isFrom tool) && s.isPending tool) := by
  induction ds generalizing s with
  | nil => rfl
  | cons d ds ih =>
    calc (s.deliverAll (d :: ds)).isPending tool
        = (!ds.any (·.isFrom tool) && (s.deliver d).isPending tool) := ih (s.deliver d)
      _ = (!ds.any (·.isFrom tool) && (!d.isFrom tool && s.isPending tool)) := by
        rw [isPending_deliver]
      _ = (!(d :: ds).any (·.isFrom tool) && s.isPending tool) := by
        rw [List.any_cons, Bool.not_or, Bool.and_left_comm, Bool.and_assoc]

/-- A tool that is not pending is pending only until it is settled. -/
theorem pending_settle_addPending {s : Session} {tool : Key} (h : ¬ s.isPending tool = true) :
    ((s.addPending tool).settle tool).pending = s.pending := by
  have hothers : ∀ t ∈ s.pending, (!(tool == t)) = true := by
    intro t ht
    cases hsame : tool == t with
    | false => rfl
    | true => exact (h (List.any_eq_true.mpr ⟨t, ht, hsame⟩)).elim
  rw [addPending, if_neg h, settle, List.filter_append, List.filter_eq_self.mpr hothers]
  simp

theorem settle_settle (s : Session) (tool : Key) :
    ((s.settle tool).settle tool).pending = (s.settle tool).pending := by
  simp [settle]

end Session
end DecisionBoard
