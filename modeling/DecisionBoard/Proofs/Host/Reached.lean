import DecisionBoard.Proofs.Host.Servers
import Mathlib.Data.List.TakeWhile

/-!
# Tools of connected servers that a click calls

A button calls a tool of a connected server by a name that is qualified: the name of the server, a
dot and the name of the tool. The server is looked up by what stands before the first dot. So a
server whose name has no dot gets one request for each click, at the address where it was registered
last and with the name of the tool. A server whose own name has a dot is not found that way: it is
reached only where it is the one server, and then by a name that begins with the rest of its own.
-/

namespace DecisionBoard

/-! ## Requests -/

namespace Json

theorem isPlainFields_eq_true {fs : Fields} :
    isPlainFields fs = true ↔ ∀ e ∈ fs, e.2.isPlain = true := by
  induction fs with
  | nil => simp [isPlainFields]
  | cons e fs ih => simp [isPlainFields, ih]

end Json

namespace Arguments

/-- Arguments that can be written in plain JSON make a plain object. -/
theorem plain?_eq_some {args : Arguments} {v : Json} (h : args.plain? = some v) :
    ∃ fs, v = .obj fs ∧ v.isPlain = true := by
  rw [plain?] at h
  split at h
  · rename_i hplain
    cases h
    refine ⟨_, rfl, Json.isPlainFields_eq_true.mpr ?_⟩
    rintro ⟨name, v⟩ hmem
    obtain ⟨⟨name', a⟩, ha, heq⟩ := List.mem_map.mp hmem
    cases heq
    have hattachment : a.isPlain = true := List.all_eq_true.mp hplain _ ha
    cases a with
    | json v => exact hattachment
    | state s =>
      refine Json.isPlainFields_eq_true.mpr ?_
      rintro ⟨key, v⟩ hmem
      obtain ⟨⟨key', v'⟩, hv', heq⟩ := List.mem_map.mp hmem
      cases heq
      exact (Bool.and_eq_true_iff.mp (List.all_eq_true.mp hattachment _ hv')).2
  · cases h

end Arguments

namespace Remote

/-- The request by which a tool of a server is called. -/
def callRequest (address : Address) (id : Nat) (tool : String) (arguments : Json) : Request where
  url := address.text
  body := .obj [("jsonrpc", .str "2.0"), ("id", .int id), ("method", .str "tools/call"),
    ("params", .obj [("name", .str tool), ("arguments", arguments)])]

namespace Client

variable {client : Client} {http : Http} {network : Network} {address : Address}

/-- A call of a tool is one request at the address of its server, if its arguments can be written in
plain JSON. -/
theorem sent_callTool (haddress : http.target client.url = .ok address) (network : Network)
    (tool : String) (args : Arguments) :
    (client.callTool http network (.str tool) args.plain?).2.2.sent
      = network.sent ++ (args.plain?.map (callRequest address client.nextId tool)).toList := by
  unfold callTool exchange
  rw [haddress]
  cases hplain : args.plain? with
  | none => exact (List.append_nil _).symm
  | some v =>
    obtain ⟨fs, rfl, hv⟩ := Arguments.plain?_eq_some hplain
    have harguments : (Json.obj fs).orElse (.obj []) = .obj fs := by
      cases fs <;> rfl
    have hparams : Json.plain? (.obj [("name", .str tool), ("arguments", .obj fs)])
        = some (.obj [("name", .str tool), ("arguments", .obj fs)]) := by
      rw [Json.plain?, if_pos]
      simp [Json.isPlain, Json.isPlainFields] at hv ⊢
      exact hv
    rw [Option.bind_some, harguments, hparams]
    dsimp only
    rw [Network.send]
    split <;> rfl

/-- A client that is answered with success has an address that requests go to. -/
theorem address_of_success {answer : Answer}
    (hanswer : (client.listTools http network).1 = .ok answer) (hsuccess : answer.success = true) :
    ∃ address, http.target client.url = .ok address := by
  unfold listTools exchange at hanswer
  cases haddress : http.target client.url with
  | ok address => exact ⟨address, rfl⟩
  | error e =>
    rw [haddress] at hanswer
    cases hanswer
    cases hsuccess

end Client
end Remote

/-! ## Qualified names -/

namespace Entries

/-- The first entry of a key, with its place, has the value that is found under the key. -/
theorem find?_zipIdx {α : Type} (es : Entries Key α) (key : Key) (start : Nat) :
    ((es.zipIdx start).find? fun e => key == e.1.1).map (·.1.2) = Entries.get? es key := by
  induction es generalizing start with
  | nil => rfl
  | cons e es ih =>
    obtain ⟨key', v⟩ := e
    rw [List.zipIdx_cons, get?]
    by_cases h : (key == key') = true
    · rw [List.find?_cons_of_pos (by exact h), if_pos h]
      rfl
    · rw [List.find?_cons_of_neg (by exact h), if_neg h]
      exact ih (start + 1)

end Entries

namespace Links

/-- What stands in a text before its first dot. -/
def beforeDot (text : String) : String := String.ofList (text.toList.takeWhile (· != '.'))

/-- What stands in a text behind its first dot. -/
def behindDot (text : String) : String := String.ofList ((text.toList.dropWhile (· != '.')).drop 1)

/-- A text is cut at its first dot. -/
theorem cut_at_dot {text before behind : String}
    (h : text.toList = before.toList ++ '.' :: behind.toList) (hbefore : '.' ∉ before.toList) :
    beforeDot text = before ∧ behindDot text = behind := by
  have hall : ∀ c ∈ before.toList, (c != '.') = true := by
    intro c hc
    rw [bne_iff_ne]
    rintro rfl
    exact hbefore hc
  rw [beforeDot, behindDot, h, List.takeWhile_append_of_pos hall, List.dropWhile_append_of_pos hall,
    List.takeWhile_cons_of_neg (by simp), List.dropWhile_cons_of_neg (by simp), List.append_nil]
  exact ⟨String.ofList_toList, String.ofList_toList⟩

/-- A text with a dot is put together again from what stands before it and behind it. -/
theorem toList_of_mem {text : String} (h : '.' ∈ text.toList) :
    text.toList = (beforeDot text).toList ++ '.' :: (behindDot text).toList := by
  have hcut : ∀ cs : List Char, '.' ∈ cs →
      cs = cs.takeWhile (· != '.') ++ '.' :: (cs.dropWhile (· != '.')).drop 1 := by
    intro cs hcs
    induction cs with
    | nil => cases hcs
    | cons c cs ih =>
      by_cases hc : c = '.'
      · subst hc
        simp
      · have hcs' : '.' ∈ cs := (List.mem_cons.mp hcs).resolve_left (Ne.symm hc)
        simpa [hc] using ih hcs'
  rw [beforeDot, behindDot, String.toList_ofList, String.toList_ofList]
  exact hcut text.toList h

theorem notMem_beforeDot (text : String) : '.' ∉ (beforeDot text).toList := by
  rw [beforeDot, String.toList_ofList]
  intro h
  have hdot := List.mem_takeWhile_imp h
  simp at hdot

theorem toList_qualified (name tool : String) :
    (name ++ "." ++ tool).toList = name.toList ++ '.' :: tool.toList := by
  simp

theorem mem_qualified (name tool : String) : '.' ∈ (name ++ "." ++ tool).toList := by
  simp

/-- A server that is called by a qualified name is looked up by what stands in its own name before
the first dot, and asked for what stands behind the first dot of them all. -/
theorem cut_qualified (name tool : String) :
    beforeDot (name ++ "." ++ tool) = (if '.' ∈ name.toList then beforeDot name else name) ∧
      behindDot (name ++ "." ++ tool) =
        if '.' ∈ name.toList then behindDot name ++ "." ++ tool else tool := by
  by_cases h : '.' ∈ name.toList
  · rw [if_pos h, if_pos h]
    refine cut_at_dot ?_ (notMem_beforeDot name)
    rw [toList_qualified, toList_qualified, toList_of_mem h, List.append_assoc, List.cons_append]
  · rw [if_neg h, if_neg h]
    exact cut_at_dot (toList_qualified name tool) h

/-- The server for a text with a dot is the first one under what stands before the dot, or else the
only one. -/
theorem serverFor_of_mem {text : String} (h : '.' ∈ text.toList) (links : Links) :
    links.serverFor (.str text) =
      match links.connected.zipIdx.find? fun e => Key.str (beforeDot text) == e.1.1,
        links.connected with
      | some found, _ => .ok found
      | none, [only] => .ok (only, 0)
      | none, _ => .error (.noServer text) := by
  have hlength : (text.toList.takeWhile (· != '.')).length < text.length := by
    have hcut := congrArg List.length (toList_of_mem h)
    rw [List.length_append, List.length_cons, beforeDot, String.toList_ofList,
      String.length_toList] at hcut
    omega
  rw [serverFor]
  dsimp only
  rw [if_pos hlength]
  rfl

theorem serverFor_of_named {links : Links} {text : String} (h : '.' ∈ text.toList)
    {client : Remote.Client}
    (hclient : Entries.get? links.connected (.str (beforeDot text)) = some client) :
    ∃ key place, links.serverFor (.str text) = .ok ((key, client), place) := by
  rw [← Entries.find?_zipIdx links.connected _ 0] at hclient
  obtain ⟨⟨⟨key, client'⟩, place⟩, hfound, rfl⟩ := Option.map_eq_some_iff.mp hclient
  refine ⟨key, place, ?_⟩
  rw [serverFor_of_mem h, hfound]

theorem serverFor_of_unnamed {links : Links} {text : String} (h : '.' ∈ text.toList)
    (hnone : Entries.get? links.connected (.str (beforeDot text)) = none) :
    links.serverFor (.str text) =
      match links.connected with
      | [only] => .ok (only, 0)
      | _ => .error (.noServer text) := by
  rw [← Entries.find?_zipIdx links.connected _ 0, Option.map_eq_none_iff] at hnone
  rw [serverFor_of_mem h, hnone]
  rcases links.connected with _ | ⟨only, _ | ⟨other, rest⟩⟩ <;> rfl

/-- A server is asked for what stands behind the first dot of a name that is qualified by its
own. -/
theorem toolOn_qualified {client : Remote.Client} {name : String} (h : client.name = .str name)
    (tool : String) : toolOn client (name ++ "." ++ tool) = behindDot (name ++ "." ++ tool) := by
  have hstarts : WidgetState.startsWith (name ++ "." ++ tool) (client.name.text ++ ".") = true := by
    rw [h, WidgetState.startsWith, List.isPrefixOf_iff_prefix]
    exact ⟨tool.toList, by simp [Json.text]⟩
  rw [toolOn, if_pos hstarts]
  rfl

/-! ## Calls by a qualified name -/

/-- What the server under a name is asked for when a tool is called by a name that is qualified by
it. If the name of the server has a dot, the tool goes by the rest of that name too, and the call
comes to no server unless there is just one. -/
def askedFor? (links : Links) (name tool : String) : Option String :=
  if '.' ∈ name.toList then
    if links.connected.length = 1 then some (behindDot name ++ "." ++ tool) else none
  else some tool

/-- A call by a qualified name comes to the server under the name if it comes to any. -/
theorem serverFor_qualified {links : Links} {name : String} {client : Remote.Client}
    (hclient : Entries.get? links.connected (.str name) = some client)
    (hname : client.name = .str name) (hother : '.' ∈ name.toList →
      Entries.get? links.connected (.str (beforeDot name)) = none) (tool : String) :
    (∃ key place, links.serverFor (.str (name ++ "." ++ tool)) = .ok ((key, client), place) ∧
      links.askedFor? name tool = some (toolOn client (name ++ "." ++ tool))) ∨
    (∃ fault, links.serverFor (.str (name ++ "." ++ tool)) = .error fault) ∧
      links.askedFor? name tool = none := by
  have hdot := mem_qualified name tool
  obtain ⟨hbefore, hbehind⟩ := cut_qualified name tool
  rw [toolOn_qualified hname, hbehind, askedFor?]
  by_cases h : '.' ∈ name.toList
  · rw [if_pos h] at hbefore
    have hfree : Entries.get? links.connected (.str (beforeDot (name ++ "." ++ tool))) = none := by
      rw [hbefore]
      exact hother h
    have hnone := serverFor_of_unnamed hdot hfree
    rw [if_pos h, if_pos h, hnone]
    -- the fallback is for one server, which then is the one under the name
    rcases hconnected : links.connected with _ | ⟨only, _ | ⟨other, rest⟩⟩
    · exact .inr ⟨⟨_, rfl⟩, rfl⟩
    · rw [hconnected] at hclient
      obtain ⟨key, client'⟩ := only
      have honly : client' = client := by
        rw [Entries.get?] at hclient
        split at hclient
        · exact Option.some.inj hclient
        · cases hclient
      exact .inl ⟨key, 0, by rw [honly], rfl⟩
    · exact .inr ⟨⟨_, rfl⟩, rfl⟩
  · rw [if_neg h] at hbefore
    rw [← hbefore] at hclient
    obtain ⟨key, place, hserver⟩ := serverFor_of_named hdot hclient
    rw [if_neg h, if_neg h]
    exact .inl ⟨key, place, hserver, rfl⟩

/-- What a call sends to servers is the call of the tool at its server. -/
theorem network_callRemote {links : Links} {name : Key} {key : Key} {client : Remote.Client}
    {place : Nat} (h : links.serverFor name = .ok ((key, client), place)) (args : Arguments)
    (s : Session) : (callRemote name args s links).2.2.network =
      (client.callTool links.http links.network (.str (toolOn client name.text))
        args.plain?).2.2 := by
  unfold callRemote
  rw [h]
  dsimp only
  split
  · rfl
  · split
    · rfl
    · split <;> rfl

theorem network_callRemote_of_error {links : Links} {name : Key} {fault : Fault}
    (h : links.serverFor name = .error fault) (args : Arguments) (s : Session) :
    (callRemote name args s links).2.2.network = links.network := by
  unfold callRemote
  rw [h]

/-- No directive has a qualified name. -/
theorem call_qualified (name tool : String) (args : Arguments) (s : Session) (links : Links) :
    call (.str (name ++ "." ++ tool)) args (s, links)
      = callRemote (.str (name ++ "." ++ tool)) args s links := by
  have hnone : Envelope.directiveTool? (name ++ "." ++ tool) = none := by
    have hdot := mem_qualified name tool
    rw [Envelope.directiveTool?, List.find?_eq_none]
    intro directive hdirective hname
    rw [← beq_iff_eq.mp hname] at hdot
    have hplain : ∀ directive ∈ Envelope.directiveTools, '.' ∉ directive.name.toList := by decide
    exact hplain directive hdirective hdot
  unfold call
  dsimp only
  rw [hnone]

/-- The requests that a call by a qualified name makes: one to the address of the server, if the
call comes to the server and its arguments can be written in plain JSON. -/
theorem sent_call_qualified {links : Links} {name : String} {client : Remote.Client}
    (hclient : Entries.get? links.connected (.str name) = some client)
    (hname : client.name = .str name) (hother : '.' ∈ name.toList →
      Entries.get? links.connected (.str (beforeDot name)) = none) {address : Remote.Address}
    (haddress : links.http.target client.url = .ok address)
    (tool : String) (args : Arguments) (s : Session) :
    (call (.str (name ++ "." ++ tool)) args (s, links)).2.2.network.sent = links.network.sent ++
      ((links.askedFor? name tool).bind fun asked =>
        args.plain?.map (Remote.callRequest address client.nextId asked)).toList := by
  rw [call_qualified]
  rcases serverFor_qualified hclient hname hother tool with
    ⟨key, place, hserver, hasked⟩ | ⟨⟨fault, hserver⟩, hasked⟩
  · rw [network_callRemote hserver, hasked]
    exact client.sent_callTool haddress links.network _ args
  · rw [network_callRemote_of_error hserver, hasked]
    exact (List.append_nil _).symm

end Links

/-! ## Clicks -/

namespace Dispatch

/-- The network that a click leaves is the one that its call leaves, unless the arguments of the call
cannot be put together. -/
theorem CallsTool.network {node : Fields} {tool : String} (h : CallsTool node tool)
    (hnamed : tool ≠ "") {s : Session} (hidle : ¬ s.isPending (.str tool) = true)
    (clock : Quantity) (links : Links) :
    ((Interaction.click clock (.obj node)).outcome s links).2.2.1.network =
      match toolArguments s node with
      | .ok args => (Links.call (.str tool) args (s.addPending (.str tool), links)).2.2.network
      | .error _ => links.network := by
  rw [Interaction.outcome, Interaction.dispatch]
  cases hargs : toolArguments s node with
  | error fault => rw [h.run_click_of_error Links.logged hnamed hidle clock hargs]
  | ok args =>
    have hcall := Links.logged_call (.str tool) args (s.addPending (.str tool)) links []
    dsimp only
    generalize Links.call (.str tool) args (s.addPending (.str tool), links) = called at hcall ⊢
    obtain ⟨result, t, links'⟩ := called
    cases result with
    | ok answer =>
      rw [h.run_click_of_ok Links.logged hnamed hidle clock hargs
        (run_deliver_of_ok Links.logged hidle hcall)]
    | error fault =>
      rw [h.run_click_of_ok Links.logged hnamed hidle clock hargs
        (run_deliver_of_error Links.logged hidle hcall)]

end Dispatch

/-! ## Hosts -/

namespace Host

open Dispatch (Interaction)
open Remote (Address)

/-- A call of the tool for clicks clicks a button or an action that calls a tool. -/
inductive ClicksTool (host : Host) (args : Fields) (node : Fields) (tool : String) : Prop where
  | intro {target : Json} (htarget : Entries.get? args "target" = some target) {control : Control}
      (hfound : host.found target = .ok (some control))
      (hkind : (control.kind = "button" || control.kind = "action") = true)
      (hnode : control.node = node) (hcalls : Dispatch.CallsTool node tool)

theorem ClicksTool.interaction {host : Host} {args node : Fields} {tool : String}
    (h : host.ClicksTool args node tool) :
    host.interaction? args .click = some (host.session, .click host.clock (.obj node)) := by
  obtain ⟨htarget, hfound, hkind, rfl, -⟩ := h
  exact interaction?_click htarget hfound hkind

/-- A call leaves the network as its interaction does. -/
theorem network_step {host : Host} {args : Fields} {tool : Tool} {session : Session}
    {interaction : Interaction}
    (h : host.interaction? args tool = some (session, interaction)) :
    (host.step (.call tool.name args)).links.network
      = (interaction.outcome session host.links).2.2.1.network := by
  obtain ⟨between, hchange, htold⟩ := changed_call (ofName?_name tool) host args
  have hsame : (host.step (.call tool.name args)).links.network = between.links.network := by
    generalize host.step (.call tool.name args) = after at htold
    cases htold
    rfl
  rw [hsame]
  cases hchange with
  | interaction hinteraction =>
    cases h.symm.trans hinteraction
    rfl
  | nothing _ hnone =>
    cases h.symm.trans hnone
  | directive htool =>
    cases tool with
    | click | dismiss | submit => exact absurd htool (by decide)
    | _ => cases h
  | view htool => rcases htool with rfl | rfl <;> cases h
  | servers htool => rcases htool with rfl | rfl <;> cases h
  | load hloaded =>
    obtain ⟨rfl, -⟩ := exists_record_of_loaded? hloaded
    cases h
  | _ => cases h

/-- The tools that are pending on a host that carries out calls are no tools of servers. -/
theorem idle_of_new {host : Host} (hnew : host.session.pending = []) (moves : List Move)
    {tool : String} (htool : tool ≠ Tool.conclude.name) :
    ¬ (host.run moves).session.isPending (.str tool) = true := by
  have honly : OnlyConclusion (host.run moves).session := by
    induction moves using List.reverseRecOn with
    | nil =>
      intro key hkey
      rw [run, List.foldl_nil, hnew] at hkey
      cases hkey
    | append_singleton moves m ih =>
      intro key hkey
      rw [run_concat] at hkey
      exact ((mem_pending_step ih m).mp hkey).1
  intro hpending
  obtain ⟨key, hkey, hsame⟩ := List.any_eq_true.mp hpending
  rw [honly key hkey, Key.str_beq] at hsame
  exact htool (Key.str.inj hsame).symm

/-- A server that was registered is at an address that requests go to. -/
theorem RegisteredLast.address {host : Host} {moves : List Move} {name : String} {url : Json}
    (h : host.RegisteredLast moves name url) :
    ∃ address, host.links.http.target url = .ok address := by
  obtain ⟨before, m, after, -, ⟨hname, hurl, hanswer, hsuccess⟩, -⟩ := h
  rw [← (host.given_run before).2]
  exact Remote.Client.address_of_success hanswer hsuccess

section
variable {new : Host} (hnone : new.links.connected = []) {moves : List Move} {name : String}
include hnone

/-- The client under a name is the one that was registered last, but for the number of its next
request. -/
theorem RegisteredLast.client {url : Json} (h : new.RegisteredLast moves name url) :
    ∃ client, Entries.get? (new.run moves).links.connected (.str name) = some client ∧
      client.name = .str name ∧ client.url = url := by
  have hregistered := (get?_servers_run hnone moves name _).mpr ⟨url, h, rfl⟩
  rw [Links.get?_servers] at hregistered
  obtain ⟨client, hclient, hsame⟩ := Option.map_eq_some_iff.mp hregistered
  exact ⟨client, hclient, congrArg Remote.Client.name hsame, congrArg Remote.Client.url hsame⟩

theorem connected_of_not_registeredLast (h : ∀ url, ¬ new.RegisteredLast moves name url) :
    Entries.get? (new.run moves).links.connected (.str name) = none := by
  cases hclient : Entries.get? (new.run moves).links.connected (.str name) with
  | none => rfl
  | some client =>
    have hregistered := Links.get?_servers (new.run moves).links (.str name)
    rw [hclient, Option.map_some] at hregistered
    obtain ⟨url, hlast, -⟩ := (get?_servers_run hnone moves name _).mp hregistered
    exact (h url hlast).elim

end

/-- A click on a button that calls a tool by a qualified name, on a host that has come to be in any
way: the server registered last under the name gets one request at its address, with the name of the
tool, if the server's name has no dot. A server whose name has one gets no request, unless it is the
only server; then the name of the tool goes behind the rest of the server's own. In each case the
arguments must be ones that can be put together and written in plain JSON, as nothing is sent
else. -/
theorem qualified_call_sent (settings : Settings) (display : Display) (storage : Storage)
    (sessionId now : String) (clock : Quantity) (http : Remote.Http) (network : Remote.Network)
    (moves : List Move) {name : String} {url : Json} {tool : String} {args node : Fields} :
    let new : Host :=
      { settings, display, storage, sessionId, links := { http, network }, now, clock }
    let host := new.run moves
    new.RegisteredLast moves name url →
    (∀ other otherUrl, new.RegisteredLast moves other otherUrl →
      (other ++ ".").toList <+: (name ++ ".").toList → other = name) →
    host.ClicksTool args node (name ++ "." ++ tool) →
    ∃ address id, http.target url = .ok address ∧
      (new.run (moves ++ [.call Tool.click.name args])).links.network.sent =
        host.links.network.sent ++ ((host.links.askedFor? name tool).bind fun asked =>
          ((Dispatch.toolArguments host.session node).toOption.bind Arguments.plain?).map
            (Remote.callRequest address id asked)).toList := by
  intro new host hlast hown hclick
  obtain ⟨address, haddress⟩ := hlast.address
  obtain ⟨client, hclient, hname, rfl⟩ := hlast.client rfl
  -- what stands before the dot in the server's own name is no server, as its name would begin this
  have hother : '.' ∈ name.toList →
      Entries.get? host.links.connected (.str (Links.beforeDot name)) = none := by
    intro hdot
    refine connected_of_not_registeredLast rfl fun otherUrl hotherLast => ?_
    have hbefore : Links.beforeDot name = name := by
      refine hown _ otherUrl hotherLast ?_
      rw [String.toList_append, String.toList_append, Links.toList_of_mem hdot]
      exact ⟨(Links.behindDot name).toList ++ ['.'], by simp⟩
    have hundotted := Links.notMem_beforeDot name
    rw [hbefore] at hundotted
    exact hundotted hdot
  have hdot := Links.mem_qualified name tool
  have hidle : ¬ host.session.isPending (.str (name ++ "." ++ tool)) = true := by
    have hnew : new.session.pending = [] := rfl
    refine idle_of_new hnew moves fun hconclude => ?_
    rw [hconclude] at hdot
    exact absurd hdot (by decide)
  have hnamed : name ++ "." ++ tool ≠ "" := by
    intro hempty
    rw [hempty] at hdot
    cases hdot
  refine ⟨address, client.nextId, haddress, ?_⟩
  -- a click is an interaction, and that sends what the call of its tool sends
  rw [run_concat, network_step hclick.interaction]
  obtain ⟨-, -, -, -, hcalls⟩ := hclick
  rw [hcalls.network hnamed hidle]
  cases hargs : Dispatch.toolArguments host.session node with
  | error fault => simp [Except.toOption]
  | ok passed =>
    rw [← (new.given_run moves).2] at haddress
    exact Links.sent_call_qualified hclient hname hother haddress tool passed _

/-! A server whose own name has a dot -/

/-- A response with an empty object. -/
def emptyObject : Remote.Response := { body := "\x7b\x7d".toUTF8 }

/-- A host that can reach one server, whose first reply is an empty object. -/
def scoring : Host := { new with
  links := { new.links with
    network := { replies := [("http://a.test", [.response emptyObject])] } } }

/-- A call that connects the server under a name with a dot. -/
def connectScorer : Fields := [("name", .str "my.server"), ("url", .str "http://a.test")]

/-- A board with an action that calls a tool of the server. -/
def viewScorer : Fields :=
  [("spec", .obj [("title", .str "T"), ("layout", .arr []), ("actions", .arr [.obj
    [("label", .str "Go"), ("action", .str "call_tool"), ("toolName", .str "my.server.score")]])])]

/-- The host once it has connected the server. -/
def scoringConnected : Host := { scoring with
  links := { scoring.links with
    connected := [(.str "my.server",
      { scoring.newClient (.str "my.server") (.str "http://a.test") with nextId := 2 })]
    network := {
      replies := [("http://a.test", [])]
      sent := [⟨"http://a.test", .obj [("jsonrpc", .str "2.0"), ("id", .int 1),
        ("method", .str "tools/list"), ("params", .obj [])]⟩] } } }

theorem listTools_scorer :
    (scoring.newClient (.str "my.server") (.str "http://a.test")).listTools scoring.links.http
      scoring.links.network = (.ok { success := true, data := some [] },
      { scoring.newClient (.str "my.server") (.str "http://a.test") with nextId := 2 },
      scoringConnected.links.network) := by
  have haddress : scoring.links.http.target
      (scoring.newClient (.str "my.server") (.str "http://a.test")).url
        = .ok { text := "http://a.test" } := rfl
  have hsend : ∀ body, scoring.links.network.send ⟨"http://a.test", body⟩ =
      (.response emptyObject,
        { replies := [("http://a.test", [])], sent := [⟨"http://a.test", body⟩] }) := by
    intro body
    rw [Remote.Network.send, scoring]
    simp [Entries.get?, Entries.put]
  have hread : Json.read "\x7b\x7d" = .ok (.obj []) := by
    have hwritten : Json.write (.obj []) = "\x7b\x7d" := rfl
    rw [← hwritten]
    exact Json.read_write rfl (by decide)
  have hmessage : emptyObject.message scoring.links.http = .ok (.obj []) := by
    unfold Remote.Response.message
    rw [if_neg (by decide)]
    exact Remote.Http.readsUtf8_utf8.json rfl hread
  have hanswer : ∀ client : Remote.Client, client.answer scoring.links.http
      { text := "http://a.test" } (.response emptyObject)
        = .ok { success := true, data := some [] } := by
    intro client
    unfold Remote.Client.answer
    dsimp only
    rw [if_pos (by decide), hmessage]
    rfl
  unfold Remote.Client.listTools Remote.Client.exchange
  rw [haddress]
  dsimp only
  rw [hsend, hanswer]
  rfl

theorem step_connectScorer :
    scoring.step (.call Tool.connect.name connectScorer) = scoringConnected := by
  show (scoring.call Tool.connect.name connectScorer).2 = _
  rw [call_eq_perform (ofName?_name _)]
  suffices hends : Ends (callConnect connectScorer) scoring (fun _ after => after = scoringConnected)
    (fun _ after => after = scoringConnected) from hends.after
  unfold callConnect
  refine .bind_of_ok (run_required _ rfl) (.bind_of_ok (run_required _ rfl) (.bind_of_ok rfl ?_))
  rw [listTools_scorer]
  exact .of_after rfl

/-- The server is connected, and the board is viewed. -/
def scorerMoves : List Move :=
  [.call Tool.connect.name connectScorer, .call Tool.view.name viewScorer]

/-- A click on the action. -/
def clickScorer : Fields := [("target", .str "action:0")]

theorem run_scorerMoves :
    scoring.run scorerMoves = scoringConnected.step (.call Tool.view.name viewScorer) :=
  congrArg (·.step (.call Tool.view.name viewScorer)) step_connectScorer

theorem servers_scorerMoves : (scoring.run scorerMoves).links.servers = [(.str "my.server",
    scoring.newClient (.str "my.server") (.str "http://a.test"))] := by
  have hview : Tool.view ≠ .connect := nofun
  rw [run_scorerMoves, servers_call scoringConnected viewScorer hview]
  rfl

/-- The one server that is connected is asked for a tool by the rest of its own name. -/
theorem scorer_asked_for_rest :
    scoring.RegisteredLast scorerMoves "my.server" (.str "http://a.test") ∧
    (∀ other otherUrl, scoring.RegisteredLast scorerMoves other otherUrl →
      (other ++ ".").toList <+: ("my.server" ++ ".").toList → other = "my.server") ∧
    ∃ node, (scoring.run scorerMoves).ClicksTool clickScorer node ("my.server" ++ "." ++ "score") ∧
      ∃ address id arguments,
        (scoring.run (scorerMoves ++ [.call Tool.click.name clickScorer])).links.network.sent =
          (scoring.run scorerMoves).links.network.sent
            ++ [Remote.callRequest address id "server.score" arguments] := by
  have hnone : scoring.links.connected = [] := rfl
  have hservers := get?_servers_run hnone scorerMoves
  have hlast : scoring.RegisteredLast scorerMoves "my.server" (.str "http://a.test") := by
    obtain ⟨url, hlast, hurl⟩ := (hservers "my.server" _).mp (by rw [servers_scorerMoves]; rfl)
    obtain rfl : Json.str "http://a.test" = url := congrArg Remote.Client.url hurl
    exact hlast
  have hown : ∀ other otherUrl, scoring.RegisteredLast scorerMoves other otherUrl →
      (other ++ ".").toList <+: ("my.server" ++ ".").toList → other = "my.server" := by
    intro other otherUrl hother _
    have hfound := (hservers other _).mpr ⟨otherUrl, hother, rfl⟩
    rw [servers_scorerMoves, Entries.get?] at hfound
    split at hfound
    · rename_i hname
      exact Key.str.inj ((Key.str_beq other _).mp hname).symm
    · cases hfound
  have hcontrol : (((scoring.run scorerMoves).found (.str "action:0")).toOption.join.any
      fun control => (control.kind = "button" || control.kind = "action") &&
        (!(control.node.get "disabled").truthy &&
        ((control.node.get "action").string? == some "call_tool" &&
        ((control.node.get "toolName").string? == some "my.server.score" &&
        ((Dispatch.toolArguments (scoring.run scorerMoves).session control.node).toOption.bind
          Arguments.plain?).isSome)))) = true := by
    rw [run_scorerMoves]
    decide +kernel
  have honly : (scoring.run scorerMoves).links.askedFor? "my.server" "score"
      = some "server.score" := by
    rw [run_scorerMoves]
    decide +kernel
  -- the control that was found is not computed: what matters is the tool that it calls
  obtain ⟨control, hfound, hcalls⟩ := (Option.any_eq_true _ _).mp hcontrol
  simp only [Bool.and_eq_true, Bool.not_eq_true', beq_iff_eq] at hcalls
  obtain ⟨hkind, henabled, haction, htool, harguments⟩ := hcalls
  obtain ⟨arguments, harguments⟩ := Option.isSome_iff_exists.mp harguments
  have hclick : (scoring.run scorerMoves).ClicksTool clickScorer control.node
      ("my.server" ++ "." ++ "score") :=
    .intro rfl (eq_ok_of_toOption (Option.join_eq_some_iff.mp hfound)) hkind rfl
      ⟨henabled, string?_eq_some_iff.mp haction, string?_eq_some_iff.mp htool⟩
  obtain ⟨address, id, -, hsent⟩ := qualified_call_sent {} .plain {} "s" _ (.whole 0) .utf8
    scoring.links.network scorerMoves hlast hown hclick
  have hrequest : ((scoring.run scorerMoves).links.askedFor? "my.server" "score").bind (fun asked =>
      ((Dispatch.toolArguments (scoring.run scorerMoves).session control.node).toOption.bind
        Arguments.plain?).map (Remote.callRequest address id asked))
      = some (Remote.callRequest address id "server.score" arguments) := by
    rw [honly, harguments]
    rfl
  exact ⟨hlast, hown, control.node, hclick, address, id, arguments, hsent.trans
    (congrArg (fun request => (scoring.run scorerMoves).links.network.sent ++ request.toList)
      hrequest)⟩

end Host
end DecisionBoard
