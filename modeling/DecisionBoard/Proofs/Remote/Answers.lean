import DecisionBoard.Remote.Client
import Mathlib.Data.List.Forall2

/-!
# What a client answers

A client is called any number of times, and anything may come of each request. A call succeeds just
when the response that comes in holds an object that reports no error, or is an event stream without
events, which counts as an empty object. It gives no answer at all just when the server reports an
error that cannot be put into words: by a response whose text cannot be decoded, or by a result whose
content is a number. How a response is decoded is whatever the HTTP package makes of it.
-/

namespace DecisionBoard
namespace Remote

/-! ## Calls of a client -/

/-- What a client is called for. There are no arguments if they cannot be written in plain JSON. -/
inductive Ask where
  | listTools
  | callTool (tool : Json) (arguments : Option Json)

/-- The method that a call asks for. -/
def Ask.method : Ask → String
  | listTools => "tools/list"
  | callTool .. => "tools/call"

/-- The parameters that a call sends along, if they can be written in plain JSON. -/
def Ask.params : Ask → Option Json
  | listTools => some (.obj [])
  | callTool tool arguments =>
    arguments.bind fun v => Json.plain? (.obj [("name", tool), ("arguments", v.orElse (.obj []))])

variable {http : Http}

namespace Client

/-- One call over a network. -/
def perform (client : Client) (http : Http) (network : Network) :
    Ask → Checked Answer × Client × Network
  | .listTools => client.listTools http network
  | .callTool tool arguments => client.callTool http network tool arguments

/-- What some calls give, one after the other, each over the network as it is at that time. -/
def answers (client : Client) (http : Http) : List (Ask × Network) → List (Checked Answer)
  | [] => []
  | (ask, network) :: calls =>
    (client.perform http network ask).1 :: answers (client.perform http network ask).2.1 http calls

theorem perform_eq (client : Client) (network : Network) (ask : Ask) :
    client.perform http network ask = client.exchange http network ask.method ask.params := by
  cases ask <;> rfl

/-- A call only takes the next number for its request. -/
theorem client_exchange (client : Client) (network : Network) (method : String)
    (params : Option Json) : (client.exchange http network method params).2.1
      = { client with nextId := client.nextId + 1 } := by
  unfold exchange
  split <;> rfl

end Client

/-- What comes of a request to an address. -/
def Network.replyFrom (network : Network) (url : String) : Reply :=
  match Entries.get? network.replies url with
  | some (reply :: _) => reply
  | _ => .refused "refused"

theorem Network.reply_send (network : Network) (request : Request) :
    (network.send request).1 = network.replyFrom request.url := by
  rw [send, replyFrom]
  rcases Entries.get? network.replies request.url with _ | _ | ⟨reply, rest⟩ <;> rfl

/-- The response that a call takes in, if its request can be sent and a response comes of it that is
not refused. -/
def Ask.taken? (http : Http) (url : Json) (network : Network) (ask : Ask) : Option Response :=
  match http.target url, ask.params with
  | .ok address, some _ =>
    match network.replyFrom address.text with
    | .response r => if address.refusal.isNone then some r else none
    | _ => none
  | _, _ => none

/-! ## What a response holds -/

/-- What the events of a stream say. -/
def eventTexts (text : String) : List String := (Text.lines text).filterMap eventData?

/-- A response holds a JSON value: in its body, or in the last event of a stream all of whose events
can be read. -/
inductive Response.Holds (http : Http) (r : Response) (v : Json) : Prop where
  | body (hkind : r.isEventStream = false) (hread : http.json r = .ok v)
  | event {text : String} {before : List String} {last : String}
      (hkind : r.isEventStream = true) (htext : http.text r = .ok text)
      (hevents : eventTexts text = before ++ [last])
      (hbefore : ∀ data ∈ before, ∃ w, Json.read data = .ok w) (hlast : Json.read last = .ok v)

/-- A response is an event stream without any event. -/
def Response.IsSilent (http : Http) (r : Response) : Prop :=
  r.isEventStream = true ∧ ∃ text, http.text r = .ok text ∧ eventTexts text = []

/-- A stream is read to its end just when every event can be read. -/
theorem exists_foldlM_read {texts : List String} {first : Json} :
    (∃ v, texts.foldlM (fun _ data => Json.read data) first = .ok v) ↔
      ∀ data ∈ texts, ∃ w, Json.read data = .ok w := by
  induction texts generalizing first with
  | nil => exact ⟨fun _ => List.forall_mem_nil _, fun _ => ⟨first, rfl⟩⟩
  | cons data texts ih =>
    rw [List.foldlM_cons, List.forall_mem_cons]
    cases hread : Json.read data with
    | error e =>
      constructor
      · rintro ⟨v, hv⟩
        cases hv
      · rintro ⟨⟨w, hw⟩, -⟩
        cases hw
    | ok w =>
      show (∃ v, texts.foldlM (fun _ data => Json.read data) w = .ok v) ↔ _
      rw [ih, and_iff_right ⟨w, rfl⟩]

/-- The events of a stream are all read, and the last one counts. -/
theorem foldlM_read_eq_ok {texts : List String} {first v : Json} :
    texts.foldlM (fun _ data => Json.read data) first = .ok v ↔
      (texts = [] ∧ v = first) ∨ ∃ before last, texts = before ++ [last] ∧
        (∀ data ∈ before, ∃ w, Json.read data = .ok w) ∧ Json.read last = .ok v := by
  -- only the last event counts, so the stream is taken apart at its end
  rcases List.eq_nil_or_concat' texts with rfl | ⟨front, data, rfl⟩
  · constructor
    · intro h
      cases h
      exact .inl ⟨rfl, rfl⟩
    · rintro (⟨-, rfl⟩ | ⟨before, last, hsplit, -⟩)
      · rfl
      · simp at hsplit
  · have hlast : ∀ w, [data].foldlM (fun _ data => Json.read data) w = Json.read data := by
      intro w
      rw [List.foldlM_cons]
      cases Json.read data <;> rfl
    rw [List.foldlM_append]
    simp only [hlast]
    constructor
    · intro h
      cases hfront : front.foldlM (fun _ data => Json.read data) first with
      | error e =>
        rw [hfront] at h
        cases h
      | ok w =>
        rw [hfront] at h
        exact .inr ⟨front, data, rfl, exists_foldlM_read.mp ⟨w, hfront⟩, h⟩
    · rintro (⟨hnil, -⟩ | ⟨before, last, hsplit, hbefore, hread⟩)
      · simp at hnil
      · obtain ⟨rfl, hsame⟩ := List.append_inj' hsplit rfl
        cases hsame
        obtain ⟨w, hw⟩ := exists_foldlM_read.mpr hbefore
        rw [hw]
        exact hread

theorem eventMessage_eq_ok {text : String} {v : Json} : eventMessage text = .ok v ↔
    (eventTexts text = [] ∧ v = .obj []) ∨ ∃ before last, eventTexts text = before ++ [last] ∧
      (∀ data ∈ before, ∃ w, Json.read data = .ok w) ∧ Json.read last = .ok v :=
  foldlM_read_eq_ok

theorem mapError_eq_ok {ε ε' α : Type} {f : ε → ε'} {e : Except ε α} {a : α} :
    e.mapError f = .ok a ↔ e = .ok a := by
  cases e <;> simp [Except.mapError]

theorem Response.message_of_stream {r : Response} (hkind : r.isEventStream = true) {v : Json} :
    r.message http = .ok v ↔ ∃ text, http.text r = .ok text ∧ eventMessage text = .ok v := by
  rw [message, if_pos hkind]
  cases http.text r with
  | error e => simp
  | ok text => simp [mapError_eq_ok]

theorem Response.message_of_body {r : Response} (hkind : r.isEventStream = false) {v : Json} :
    r.message http = .ok v ↔ http.json r = .ok v := by
  rw [message, hkind, if_neg Bool.false_ne_true]

/-- The message in a response is the value that it holds; that of a silent stream is empty. -/
theorem Response.message_eq_ok {r : Response} {v : Json} :
    r.message http = .ok v ↔ r.Holds http v ∨ (r.IsSilent http ∧ v = .obj []) := by
  cases hkind : r.isEventStream with
  | true =>
    rw [message_of_stream hkind]
    constructor
    · rintro ⟨text, htext, hmessage⟩
      rcases eventMessage_eq_ok.mp hmessage with ⟨hnone, rfl⟩ | ⟨before, last, hevents, hread, hlast⟩
      · exact .inr ⟨⟨hkind, text, htext, hnone⟩, rfl⟩
      · exact .inl (.event hkind htext hevents hread hlast)
    · rintro ((⟨hbody, -⟩ | ⟨-, htext, hevents, hread, hlast⟩) | ⟨⟨-, text, htext, hnone⟩, rfl⟩)
      · simp [hkind] at hbody
      · exact ⟨_, htext, eventMessage_eq_ok.mpr (.inr ⟨_, _, hevents, hread, hlast⟩)⟩
      · exact ⟨text, htext, eventMessage_eq_ok.mpr (.inl ⟨hnone, rfl⟩)⟩
  | false =>
    rw [message_of_body hkind]
    constructor
    · exact fun hread => .inl (.body hkind hread)
    · rintro ((⟨-, hread⟩ | ⟨hstream, -⟩) | ⟨⟨hstream, -⟩, -⟩)
      · exact hread
      · simp [hkind] at hstream
      · simp [hkind] at hstream

/-! ## What a message tells -/

/-- A message reports no error: it has none, and its result is not marked as one. -/
structure IsGood (message : Fields) : Prop where
  noError : (message.get "error").truthy = false
  unmarked : ∀ result : Fields, message.get "result" = .obj result →
    (result.get "isError").truthy = false

/-- The content of a result is a number other than zero, or the word for true: it counts as given,
and there is nothing in it to go through. -/
def IsNumeric (content : Json) : Prop :=
  content = .bool true ∨ (∃ n, content = .int n ∧ n ≠ 0) ∨
    ∃ x, content = .float x ∧ x.isZero = false

/-- A result is marked as an error, and has no structured content, and content that is numeric. -/
structure IsMute (result : Fields) : Prop where
  marked : (result.get "isError").truthy = true
  unstructured : result.get "structuredContent" = .null
  numeric : IsNumeric (result.get "content")

theorem isNumeric_iff {content : Json} : IsNumeric content ↔
    content.truthy = true ∧ ∃ fault, content.elements = .error fault := by
  cases content with
  | bool b => cases b <;> simp [IsNumeric, Json.truthy, Json.elements]
  | _ => simp [IsNumeric, Json.truthy, Json.elements]

theorem truthy_of_get {fs : Fields} {name : String} (h : (fs.get name).truthy = true) :
    (Json.obj fs).truthy = true := by
  cases fs with
  | nil => cases h
  | cons f fs => rfl

/-- The payload of a result is refused just when its content is numeric, and there is no structured
content before it. -/
theorem resultPayload_eq_error {result : Fields} (h : (Json.obj result).truthy = true) :
    (∃ fault, resultPayload (.obj result) = .error fault) ↔
      result.get "structuredContent" = .null ∧ IsNumeric (result.get "content") := by
  rw [resultPayload, h, isNumeric_iff]
  cases hstructured : result.get "structuredContent" with
  | null =>
    by_cases hcontent : (result.get "content").truthy = true
    · cases helements : (result.get "content").elements <;>
        simp [Json.members, hstructured, hcontent, helements, bind, Except.bind, pure, Except.pure]
    · simp [Json.members, hstructured, hcontent, bind, Except.bind, pure, Except.pure]
  | _ => simp [Json.members, hstructured, bind, Except.bind, pure, Except.pure]

/-- A message without an error, and with a result that is marked as one, fails with what the payload
of the result says. -/
theorem answerOf_marked {fs result : Fields} (herror : (fs.get "error").truthy = false)
    (hresult : fs.get "result" = .obj result) (hmarked : (result.get "isError").truthy = true) :
    answerOf (.obj fs) = (resultPayload (.obj result)).map fun told =>
      { success := false, data := some result
        error := .str (told.orElse (.str "Tool reported an error")).text } := by
  rw [answerOf]
  dsimp only
  rw [herror, if_neg Bool.false_ne_true, hresult]
  dsimp only
  rw [if_pos hmarked]
  rfl

/-- A message that is good succeeds with its result. -/
theorem answerOf_good {fs : Fields} (h : IsGood fs) : answerOf (.obj fs) =
    .ok { success := true, data := some (((fs.get "result").fields?).getD []) } := by
  rw [answerOf]
  dsimp only
  rw [h.noError, if_neg Bool.false_ne_true]
  cases hresult : fs.get "result" with
  | obj result =>
    have hunmarked := h.unmarked result hresult
    dsimp only
    rw [hunmarked]
    rfl
  | _ => rfl

theorem answerOf_error {fs : Fields} (h : (fs.get "error").truthy = true) : answerOf (.obj fs) =
    .ok { success := false, error := errorText (fs.get "error") } := by
  rw [answerOf]
  dsimp only
  rw [if_pos h]

theorem answerOf_no_object {message : Json} (h : ∀ fs, message ≠ .obj fs) :
    answerOf message = .ok (.failed "Malformed JSON-RPC response") := by
  cases message with
  | obj fs => exact (h fs rfl).elim
  | _ => rfl

/-- An object has an error, or a result that is marked as one, or is good. -/
theorem isGood_cases (fs : Fields) : (fs.get "error").truthy = true ∨
    ((fs.get "error").truthy = false ∧ ∃ result : Fields, fs.get "result" = .obj result ∧
      (result.get "isError").truthy = true) ∨ IsGood fs := by
  by_cases herror : (fs.get "error").truthy = true
  · exact .inl herror
  rw [Bool.not_eq_true] at herror
  by_cases hmarked : ∃ result : Fields, fs.get "result" = .obj result ∧
      (result.get "isError").truthy = true
  · exact .inr (.inl ⟨herror, hmarked⟩)
  · refine .inr (.inr ⟨herror, fun result hresult => ?_⟩)
    rw [← Bool.not_eq_true]
    exact fun h => hmarked ⟨result, hresult, h⟩

/-- A message gives no answer just when it has no error and a result that is mute. -/
theorem answerOf_eq_error {message : Json} : (∃ fault, answerOf message = .error fault) ↔
    ∃ fs result : Fields, message = .obj fs ∧ (fs.get "error").truthy = false ∧
      fs.get "result" = .obj result ∧ IsMute result := by
  constructor
  · rintro ⟨fault, hfault⟩
    by_cases hobject : ∃ fs, message = .obj fs
    · obtain ⟨fs, rfl⟩ := hobject
      rcases isGood_cases fs with herror | ⟨herror, result, hresult, hmarked⟩ | hgood
      · rw [answerOf_error herror] at hfault
        cases hfault
      · rw [answerOf_marked herror hresult hmarked] at hfault
        cases hpayload : resultPayload (.obj result) with
        | error fault' =>
          have hmute := (resultPayload_eq_error (truthy_of_get hmarked)).mp ⟨fault', hpayload⟩
          exact ⟨fs, result, rfl, herror, hresult, hmarked, hmute.1, hmute.2⟩
        | ok told =>
          rw [hpayload] at hfault
          cases hfault
      · rw [answerOf_good hgood] at hfault
        cases hfault
    · rw [answerOf_no_object fun fs h => hobject ⟨fs, h⟩] at hfault
      cases hfault
  · rintro ⟨fs, result, rfl, herror, hresult, hmute⟩
    obtain ⟨fault, hfault⟩ := (resultPayload_eq_error (truthy_of_get hmute.marked)).mpr
      ⟨hmute.unstructured, hmute.numeric⟩
    refine ⟨fault, ?_⟩
    rw [answerOf_marked herror hresult hmute.marked, hfault]
    rfl

example : answerOf (.obj [("result", .obj [("isError", .bool true), ("content", .int 5)])])
    = .error (.notIterable "int") := rfl

/-- A message succeeds just when it is an object that is good. -/
theorem answerOf_succeeds {message : Json} :
    (∃ answer, answerOf message = .ok answer ∧ answer.success = true) ↔
      ∃ fs, message = .obj fs ∧ IsGood fs := by
  constructor
  · rintro ⟨answer, hanswer, hsuccess⟩
    by_cases hobject : ∃ fs, message = .obj fs
    · obtain ⟨fs, rfl⟩ := hobject
      refine ⟨fs, rfl, ?_⟩
      rcases isGood_cases fs with herror | ⟨herror, result, hresult, hmarked⟩ | hgood
      · rw [answerOf_error herror] at hanswer
        cases hanswer
        cases hsuccess
      · rw [answerOf_marked herror hresult hmarked] at hanswer
        cases hpayload : resultPayload (.obj result) with
        | error fault =>
          rw [hpayload] at hanswer
          cases hanswer
        | ok told =>
          rw [hpayload] at hanswer
          cases hanswer
          cases hsuccess
      · exact hgood
    · rw [answerOf_no_object fun fs h => hobject ⟨fs, h⟩] at hanswer
      cases hanswer
      cases hsuccess
  · rintro ⟨fs, rfl, hgood⟩
    exact ⟨_, answerOf_good hgood, rfl⟩

/-! ## What a response comes to -/

namespace Response

/-- A response is taken for a success: it carries a good object, or a stream without events. -/
def Succeeds (http : Http) (r : Response) : Prop :=
  r.isSuccess = true ∧ ((∃ fs, r.Holds http (.obj fs) ∧ IsGood fs) ∨ r.IsSilent http)

/-- A response tells of an error for which there are no words: its text cannot be decoded, or the
result that it carries is mute. -/
inductive IsMute (http : Http) (r : Response) : Prop where
  | unreadable (hstatus : r.isSuccess = false) {e : ForeignError} (htext : http.text r = .error e)
  | result (hstatus : r.isSuccess = true) {fs result : Fields} (hholds : r.Holds http (.obj fs))
      (herror : (fs.get "error").truthy = false) (hresult : fs.get "result" = .obj result)
      (hmute : Remote.IsMute result)

variable {r : Response} {client : Client} {address : Address}

theorem answer_of_success (hstatus : r.isSuccess = true) (haddress : address.refusal = none) :
    client.answer http address (.response r) = match r.message http with
      | .ok message => answerOf message
      | .error reason => .ok (.failed reason) := by
  rw [Client.answer, haddress, hstatus]
  rfl

theorem answer_of_failure (hstatus : r.isSuccess = false) (haddress : address.refusal = none) :
    client.answer http address (.response r) = match http.text r with
      | .ok text => .ok (.failed s!"API error: {r.status} - {text}")
      | .error e => .error (.foreign e) := by
  rw [Client.answer, haddress, hstatus]
  rfl

theorem answer_of_refusal {reason : String} (haddress : address.refusal = some reason) :
    client.answer http address (.response r) = .ok (.failed reason) := by
  rw [Client.answer, haddress]

/-- A response gives no answer just when it is mute. -/
theorem answer_eq_error (haddress : address.refusal = none) :
    (∃ fault, client.answer http address (.response r) = .error fault) ↔ r.IsMute http := by
  cases hstatus : r.isSuccess with
  | true =>
    rw [answer_of_success hstatus haddress]
    constructor
    · rintro ⟨fault, hfault⟩
      cases hmessage : r.message http with
      | error e =>
        rw [hmessage] at hfault
        cases hfault
      | ok message =>
        rw [hmessage] at hfault
        obtain ⟨fs, result, rfl, herror, hresult, hmute⟩ := answerOf_eq_error.mp ⟨fault, hfault⟩
        rcases message_eq_ok.mp hmessage with hholds | ⟨-, hempty⟩
        · exact .result hstatus hholds herror hresult hmute
        · cases hempty
          cases hresult
    · rintro (⟨hfailure, -⟩ | ⟨-, hholds, herror, hresult, hmute⟩)
      · simp [hstatus] at hfailure
      · rw [message_eq_ok.mpr (.inl hholds)]
        exact answerOf_eq_error.mpr ⟨_, _, rfl, herror, hresult, hmute⟩
  | false =>
    rw [answer_of_failure hstatus haddress]
    constructor
    · rintro ⟨fault, hfault⟩
      cases htext : http.text r with
      | error e => exact .unreadable hstatus htext
      | ok text =>
        rw [htext] at hfault
        cases hfault
    · rintro (⟨-, htext⟩ | ⟨hsuccess, -⟩)
      · rw [htext]
        exact ⟨_, rfl⟩
      · simp [hstatus] at hsuccess

theorem isGood_nil : IsGood [] := ⟨rfl, fun _ h => nomatch h⟩

/-- A response succeeds just when it is taken for a success. -/
theorem answer_succeeds (haddress : address.refusal = none) :
    (∃ answer, client.answer http address (.response r) = .ok answer ∧ answer.success = true) ↔
      r.Succeeds http := by
  cases hstatus : r.isSuccess with
  | true =>
    rw [answer_of_success hstatus haddress]
    constructor
    · rintro ⟨answer, hanswer, hsuccess⟩
      refine ⟨hstatus, ?_⟩
      cases hmessage : r.message http with
      | error e =>
        rw [hmessage] at hanswer
        cases hanswer
        cases hsuccess
      | ok message =>
        rw [hmessage] at hanswer
        obtain ⟨fs, rfl, hgood⟩ := answerOf_succeeds.mp ⟨answer, hanswer, hsuccess⟩
        rcases message_eq_ok.mp hmessage with hholds | ⟨hsilent, -⟩
        · exact .inl ⟨fs, hholds, hgood⟩
        · exact .inr hsilent
    · rintro ⟨-, ⟨fs, hholds, hgood⟩ | hsilent⟩
      · rw [message_eq_ok.mpr (.inl hholds)]
        exact answerOf_succeeds.mpr ⟨fs, rfl, hgood⟩
      · rw [message_eq_ok.mpr (.inr ⟨hsilent, rfl⟩)]
        exact answerOf_succeeds.mpr ⟨[], rfl, isGood_nil⟩
  | false =>
    rw [answer_of_failure hstatus haddress]
    constructor
    · rintro ⟨answer, hanswer, hsuccess⟩
      cases htext : http.text r with
      | error e =>
        rw [htext] at hanswer
        cases hanswer
      | ok text =>
        rw [htext] at hanswer
        cases hanswer
        cases hsuccess
    · rintro ⟨hsuccess, -⟩
      simp [hstatus] at hsuccess

end Response

/-! ## Calls -/

/-- What came of a call: it gave no answer just when a mute response came in, and succeeded just
when a response came in that is taken for a success. -/
structure CameOf (http : Http) (url : Json) (call : Ask × Network) (result : Checked Answer) :
    Prop where
  refused : (∃ fault, result = .error fault) ↔
    ∃ r, call.1.taken? http url call.2 = some r ∧ r.IsMute http
  succeeded : (∃ answer, result = .ok answer ∧ answer.success = true) ↔
    ∃ r, call.1.taken? http url call.2 = some r ∧ r.Succeeds http

/-- A call that takes no response in fails. -/
theorem cameOf_failed {url : Json} {call : Ask × Network}
    (h : call.1.taken? http url call.2 = none) (text : String) :
    CameOf http url call (.ok (.failed text)) where
  refused := by simp [h]
  succeeded := by simp [h, Answer.failed]

/-- What is sent is answered by the reply that comes from its address. -/
theorem exchange_sent (client : Client) (network : Network) (method : String) {address : Address}
    (htarget : http.target client.url = .ok address) (params : Json) :
    (client.exchange http network method (some params)).1
      = client.answer http address (network.replyFrom address.text) := by
  unfold Client.exchange
  rw [htarget]
  dsimp only
  rw [network.reply_send]

theorem cameOf_perform (client : Client) (call : Ask × Network) :
    CameOf http client.url call (client.perform http call.2 call.1).1 := by
  obtain ⟨ask, network⟩ := call
  dsimp only
  rw [Client.perform_eq]
  cases htarget : http.target client.url with
  | error reason =>
    unfold Client.exchange
    rw [htarget]
    exact cameOf_failed (by rw [Ask.taken?, htarget]) _
  | ok address =>
    cases hparams : ask.params with
    | none =>
      unfold Client.exchange
      rw [htarget]
      exact cameOf_failed (by rw [Ask.taken?, htarget, hparams]) _
    | some params =>
      have htaken : ask.taken? http client.url network = match network.replyFrom address.text with
          | .response r => if address.refusal.isNone then some r else none
          | _ => none := by
        rw [Ask.taken?, htarget, hparams]
      rw [exchange_sent client network ask.method htarget]
      cases hreply : network.replyFrom address.text with
      | response r =>
        rw [hreply] at htaken
        cases haddress : address.refusal with
        | none =>
          have htaken : ask.taken? http client.url network = some r := by
            rw [htaken, haddress]
            rfl
          constructor
          · rw [Response.answer_eq_error haddress]
            simp [htaken]
          · rw [Response.answer_succeeds haddress]
            simp [htaken]
        | some reason =>
          rw [Response.answer_of_refusal haddress]
          refine cameOf_failed ?_ _
          rw [htaken, haddress]
          rfl
      | _ =>
        rw [hreply] at htaken
        exact cameOf_failed htaken _

/-- Whatever comes of the requests of a client, every call gives an answer, unless a mute response
came in for it; and it succeeds just when a response came in that is taken for a success. -/
theorem calls_answered (http : Http) (client : Client) (calls : List (Ask × Network)) :
    List.Forall₂ (CameOf http client.url) calls (client.answers http calls) := by
  -- the client goes on with another number; all that counts of it is the address
  induction calls generalizing client with
  | nil => exact .nil
  | cons call calls ih =>
    obtain ⟨ask, network⟩ := call
    have hurl : (client.perform http network ask).2.1.url = client.url := by
      rw [Client.perform_eq, Client.client_exchange]
    have hrest := ih (client.perform http network ask).2.1
    rw [hurl] at hrest
    exact .cons (cameOf_perform client (ask, network)) hrest

end Remote
end DecisionBoard
