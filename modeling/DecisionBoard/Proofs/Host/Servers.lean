import DecisionBoard.Proofs.Host.PendingTools
import Mathlib.Data.List.Induction

/-!
# Servers that are registered

A call that can list the tools of a server registers it under a name, in place of the one that had
the name before. Nothing else that happens to a host changes which servers are registered, except
that a host that is started again has none.
-/

namespace DecisionBoard

/-! ## Tables of servers -/

namespace Entries

variable {α : Type}

/-- A key that is dropped and added at the end is found there. -/
theorem get?_erase_concat_self (es : Entries Key α) (name : String) (v : α) :
    Entries.get? (Entries.erase es (.str name) ++ [(.str name, v)]) (.str name) = some v := by
  induction es with
  | nil => simp [erase, get?]
  | cons e es ih =>
    obtain ⟨k', v'⟩ := e
    rw [erase] at ih ⊢
    by_cases hname : (Key.str name == k') = true
    · rw [List.filter_cons_of_neg (by simp [hname])]
      exact ih
    · rw [List.filter_cons_of_pos (by simp [hname]), List.cons_append, get?, if_neg hname]
      exact ih

/-- The other keys stay. -/
theorem get?_erase_concat_of_ne (es : Entries Key α) {k : Key} {name : String} (h : k ≠ .str name)
    (v : α) : Entries.get? (Entries.erase es k ++ [(k, v)]) (.str name)
      = Entries.get? es (.str name) := by
  have hother : ¬ (Key.str name == k) = true := mt (Key.str_beq name k).mp h
  induction es with
  | nil => simp [erase, get?, hother]
  | cons e es ih =>
    obtain ⟨k', v'⟩ := e
    rw [erase] at ih ⊢
    by_cases hname : (Key.str name == k') = true
    · have hkept : ¬ (k == k') = true := by
        rw [(Key.str_beq name k').mp hname, Key.beq_str]
        exact h
      rw [List.filter_cons_of_pos (by simp [hkept]), List.cons_append, get?, get?, if_pos hname,
        if_pos hname]
    · rw [get?, if_neg hname]
      by_cases hkept : (k == k') = true
      · rw [List.filter_cons_of_neg (by simp [hkept])]
        exact ih
      · rw [List.filter_cons_of_pos (by simp [hkept]), List.cons_append, get?, if_neg hname]
        exact ih

end Entries

namespace Links

theorem get?_servers (links : Links) (key : Key) : Entries.get? links.servers key
    = (Entries.get? links.connected key).map Remote.Client.registered :=
  Entries.get?_map Remote.Client.registered (fun _ _ => rfl) links.connected key

theorem http_callRemote (name : Key) (args : Arguments) (s : Session) (links : Links) :
    (callRemote name args s links).2.2.http = links.http := by
  unfold callRemote
  split
  · rfl
  · dsimp only
    split
    · rfl
    · split
      · rfl
      · split <;> rfl

theorem http_call (tool : Key) (args : Arguments) (s : Session) (links : Links) :
    (call tool args (s, links)).2.2.http = links.http := by
  unfold call
  dsimp only
  split
  · split
    · exact http_callRemote _ args s links
    · split
      · split <;> rfl
      · split <;> rfl
  · exact http_callRemote tool args s links

end Links

/-! ## Interactions -/

namespace Dispatch

/-- What every call leaves and the outbox has no part in stays through an interaction. -/
theorem kept_outcome {α : Type} {part : Links → α}
    (hcall : ∀ tool args s links, part (Links.call tool args (s, links)).2.2 = part links)
    (houtbox : ∀ links texts, part { links with outbox := texts } = part links)
    (interaction : Interaction) (s : Session) (links : Links) :
    part (interaction.outcome s links).2.2.1 = part links := by
  have hdeliver : ∀ tool args, Keeps (fun y => part y.2.1 = part links)
      (deliver Links.logged tool args) := by
    rintro tool args ⟨t, links', log⟩ h
    by_cases hpending : t.isPending tool = true
    · rw [run_deliver_of_pending Links.logged hpending args]
      exact h
    · have hkept := hcall tool args (t.addPending tool) links'
      have hlogged := Links.logged_call tool args (t.addPending tool) links' log
      generalize Links.call tool args (t.addPending tool, links') = called at hkept hlogged
      obtain ⟨result, t', links''⟩ := called
      cases result with
      | ok answer =>
        rw [run_deliver_of_ok Links.logged hpending hlogged]
        exact hkept.trans h
      | error fault =>
        rw [run_deliver_of_error Links.logged hpending hlogged]
        exact hkept.trans h
  have hlasting : Lasting Links.logged (fun y => part y.2.1 = part links) :=
    ⟨hdeliver, fun text y h => (houtbox y.2.1 _).trans h, fun _ _ h => h⟩
  exact hlasting.dispatch interaction (s, links, []) rfl

/-- Whatever an interaction delivers, the servers stay those that are registered. -/
theorem servers_outcome (interaction : Interaction) (s : Session) (links : Links) :
    (interaction.outcome s links).2.2.1.servers = links.servers :=
  kept_outcome (fun tool args s links => (Links.moved_call tool args (s, links)).servers)
    (fun _ _ => rfl) interaction s links

theorem http_outcome (interaction : Interaction) (s : Session) (links : Links) :
    (interaction.outcome s links).2.2.1.http = links.http :=
  kept_outcome Links.http_call (fun _ _ => rfl) interaction s links

end Dispatch

/-! ## Moves -/

namespace Host

/-- What a call registers that asks for the tools of a server: a client under the name that is
given, if the server answers. -/
def registration? (host : Host) (args : Fields) : Option (Key × Remote.Client) :=
  (Entries.get? args "name").bind fun name => (Entries.get? args "url").bind fun url =>
    match ((host.newClient name url).listTools host.links.http host.links.network).1 with
    | .ok answer =>
      if answer.success then (Key.ofJson name).toOption.map (·, host.newClient name url) else none
    | .error _ => none

/-- The servers of a host, one of them being registered. -/
def serversWith (host : Host) : Option (Key × Remote.Client) → Entries Key Remote.Client
  | some (key, client) => Entries.erase host.links.servers key ++ [(key, client)]
  | none => host.links.servers

theorem servers_register (links : Links) (key : Key) (client : Remote.Client) :
    (register links key client).servers
      = Entries.erase links.servers key ++ [(key, client.registered)] := by
  rw [Links.servers, register, List.map_append, Links.servers, Entries.erase, Entries.erase,
    List.filter_map]
  rfl

/-- The client that is registered is the one that has asked for the tools. -/
theorem registered_listTools (client : Remote.Client) (http : Remote.Http)
    (network : Remote.Network) :
    (client.listTools http network).2.1.registered = client.registered :=
  client.registered_exchange http network _ _

theorem servers_callConnect (host : Host) (args : Fields) :
    ((callConnect args).run host).2.links.servers = host.serversWith (host.registration? args) := by
  let After (h : Host) : Prop := h.links.servers = host.serversWith (host.registration? args)
  suffices hends : Ends (callConnect args) host (fun _ => After) (fun _ => After) from hends.after
  have hmissing : ∀ {name : String} {f : Json → HostStep (List Content)},
      Entries.get? args name = none → host.registration? args = none →
      Ends (required args name >>= f) host (fun _ => After) (fun _ => After) := by
    intro name f hnone hregistration
    have hrefused : (required args name).run host = (.error (.missingField name), host) := by
      rw [required, hnone]
      rfl
    refine .bind (.of_error hrefused ?_)
    show _ = host.serversWith (host.registration? args)
    rw [hregistration]
    rfl
  unfold callConnect
  cases hname : Entries.get? args "name" with
  | none => exact hmissing hname (by rw [registration?, hname]; rfl)
  | some name =>
    refine .bind_of_ok (run_required host hname) ?_
    cases hurl : Entries.get? args "url" with
    | none => exact hmissing hurl (by rw [registration?, hname, hurl]; rfl)
    | some url =>
      have hregistration : host.registration? args =
          match ((host.newClient name url).listTools host.links.http host.links.network).1 with
          | .ok answer =>
            if answer.success then (Key.ofJson name).toOption.map (·, host.newClient name url)
            else none
          | .error _ => none := by
        rw [registration?, hname, hurl]
        rfl
      have hregistered :=
        registered_listTools (host.newClient name url) host.links.http host.links.network
      refine .bind_of_ok (run_required host hurl) (.bind_of_ok rfl ?_)
      generalize (host.newClient name url).listTools host.links.http host.links.network = listed
        at hregistered hregistration ⊢
      obtain ⟨result, client, network⟩ := listed
      -- nothing is registered unless the server answers and the name is one
      refine .bind_of_ok rfl (.check_bind (fun answer hanswer => ?_) fun fault hfault => ?_)
      · obtain rfl : result = .ok answer := hanswer
        refine .ite (fun hfailed => .pure ?_) fun hsuccess => ?_
        · have hsuccess : answer.success = false := by simpa using hfailed
          show _ = host.serversWith (host.registration? args)
          rw [hregistration]
          dsimp only
          rw [hsuccess]
          rfl
        · have hsuccess : answer.success = true := by simpa using hsuccess
          dsimp only at hregistration
          rw [if_pos hsuccess] at hregistration
          refine .check_bind (fun key hkey => .bind_of_ok rfl ?_) fun fault hfault => ?_
          · have hafter : After { host with
                links := register { host.links with network } key client } := by
              show Links.servers _ = host.serversWith (host.registration? args)
              rw [hregistration, hkey, servers_register, hregistered]
              rfl
            refine .check_bind (fun names _ => .check_bind (fun line _ => .pure hafter) ?_) ?_
            · exact fun _ _ => hafter
            · exact fun _ _ => hafter
          · show _ = host.serversWith (host.registration? args)
            rw [hregistration, hfault]
            rfl
      · obtain rfl : result = .error fault := hfault
        show _ = host.serversWith (host.registration? args)
        rw [hregistration]
        rfl

/-- A move registers a server under a name, at an address: it asks for the server's tools, and
the server answers with success. -/
inductive Registers (host : Host) (name url : Json) : Move → Prop where
  | intro {args : Fields} (hname : Entries.get? args "name" = some name)
      (hurl : Entries.get? args "url" = some url) {answer : Remote.Answer}
      (hanswer :
        ((host.newClient name url).listTools host.links.http host.links.network).1 = .ok answer)
      (hsuccess : answer.success = true) : Registers host name url (.call Tool.connect.name args)

/-- A move after which the server under a name is not the one from before: another one takes its
place, or the host is started again. -/
def Unregisters (host : Host) (name : String) (m : Move) : Prop :=
  (∃ url, host.Registers (.str name) url m) ∨
    ∃ id after, m = .restart id ∧ host.restart id = .ok after

/-- A call for the tools of a server registers it under a name just when it is what is
registered. -/
theorem registration?_eq_some {host : Host} {args : Fields} {name : String}
    {client : Remote.Client} : host.registration? args = some (.str name, client) ↔
      ∃ url, host.Registers (.str name) url (.call Tool.connect.name args) ∧
        client = host.newClient (.str name) url := by
  constructor
  · intro h
    obtain ⟨name', hname, h⟩ := Option.bind_eq_some_iff.mp h
    obtain ⟨url, hurl, h⟩ := Option.bind_eq_some_iff.mp h
    split at h
    · rename_i answer hanswer
      split at h
      · rename_i hsuccess
        obtain ⟨key, hkey, heq⟩ := Option.map_eq_some_iff.mp h
        cases heq
        obtain rfl := Key.ofJson_eq_str (eq_ok_of_toOption hkey)
        exact ⟨url, .intro hname hurl hanswer hsuccess, rfl⟩
      · cases h
    · cases h
  · rintro ⟨url, ⟨hname, hurl, hanswer, hsuccess⟩, rfl⟩
    rw [registration?, hname, Option.bind_some, hurl, Option.bind_some, hanswer]
    dsimp only
    rw [if_pos hsuccess]
    rfl

/-- No call but one for the tools of a server changes which servers are registered. -/
theorem servers_call (host : Host) (args : Fields) {tool : Tool} (htool : tool ≠ .connect) :
    (host.step (.call tool.name args)).links.servers = host.links.servers := by
  obtain ⟨between, hchange, htold⟩ := changed_call (ofName?_name tool) host args
  by_cases hconnected : tool = .connectedCall
  · subst hconnected
    show (host.call Tool.connectedCall.name args).2.links.servers = _
    rw [call_eq_perform (ofName?_name _)]
    have hkept : Kept host ((callConnected args).run host).2 := (ends_callConnected args).after
    exact congrArg Durable.servers hkept.durable
  · have hsame : (host.step (.call tool.name args)).links.servers = between.links.servers := by
      generalize host.step (.call tool.name args) = after at htold
      cases htold
      rfl
    rw [hsame]
    cases hchange with
    | interaction hinteraction => exact Dispatch.servers_outcome _ _ host.links
    | servers hservers => exact (hservers.elim htool hconnected).elim
    | _ => rfl

theorem servers_connect (host : Host) (args : Fields) :
    (host.step (.call Tool.connect.name args)).links.servers
      = host.serversWith (host.registration? args) := by
  show (host.call Tool.connect.name args).2.links.servers = _
  rw [call_eq_perform (ofName?_name _)]
  exact servers_callConnect host args

/-- After a call for the tools of a server it is the one under its name, and all other names have
the servers that they had. -/
theorem get?_servers_connect (host : Host) (args : Fields) (name : String)
    (client : Remote.Client) :
    Entries.get? (host.step (.call Tool.connect.name args)).links.servers (.str name) = some client ↔
      (∃ url, host.Registers (.str name) url (.call Tool.connect.name args) ∧
        client = host.newClient (.str name) url) ∨
      Entries.get? host.links.servers (.str name) = some client ∧
        ¬ host.Unregisters name (.call Tool.connect.name args) := by
  have hunregisters : host.Unregisters name (.call Tool.connect.name args) ↔
      ∃ other, host.registration? args = some (.str name, other) := by
    constructor
    · rintro (⟨url, hregisters⟩ | ⟨id, after, hm, -⟩)
      · exact ⟨_, registration?_eq_some.mpr ⟨url, hregisters, rfl⟩⟩
      · cases hm
    · rintro ⟨other, hother⟩
      obtain ⟨url, hregisters, -⟩ := registration?_eq_some.mp hother
      exact .inl ⟨url, hregisters⟩
  rw [← registration?_eq_some, hunregisters, servers_connect]
  cases hregistration : host.registration? args with
  | none => simp [serversWith]
  | some registered =>
    obtain ⟨key, other⟩ := registered
    by_cases hkey : key = .str name
    · subst hkey
      rw [serversWith, Entries.get?_erase_concat_self]
      simp
    · rw [serversWith, Entries.get?_erase_concat_of_ne _ hkey]
      simp [hkey]

/-- A move that keeps the servers, and takes none away under a name, registers none under it. -/
theorem get?_servers_of_kept {host : Host} {m : Move} {name : String}
    (hsame : (host.step m).links.servers = host.links.servers) (hstays : ¬ host.Unregisters name m)
    (client : Remote.Client) :
    Entries.get? (host.step m).links.servers (.str name) = some client ↔
      (∃ url, host.Registers (.str name) url m ∧ client = host.newClient (.str name) url) ∨
        Entries.get? host.links.servers (.str name) = some client ∧ ¬ host.Unregisters name m := by
  rw [hsame, and_iff_left hstays]
  constructor
  · exact .inr
  · rintro (⟨url, hregisters, -⟩ | hfound)
    · exact (hstays (.inl ⟨url, hregisters⟩)).elim
    · exact hfound

/-- After a move a server is registered under a name if the move has registered it, or if it was
registered before and the move has not taken it away. -/
theorem get?_servers_step (host : Host) (m : Move) (name : String) (client : Remote.Client) :
    Entries.get? (host.step m).links.servers (.str name) = some client ↔
      (∃ url, host.Registers (.str name) url m ∧ client = host.newClient (.str name) url) ∨
        Entries.get? host.links.servers (.str name) = some client ∧ ¬ host.Unregisters name m := by
  cases m with
  | call called args =>
    cases htool : Tool.ofName? called with
    | none =>
      refine get?_servers_of_kept (by rw [step_of_unknown htool]) ?_ client
      rintro (⟨url, hregisters⟩ | ⟨id, after, hm, -⟩)
      · cases hregisters
        rw [ofName?_name] at htool
        cases htool
      · cases hm
    | some tool =>
      obtain rfl := name_of_ofName? htool
      by_cases hconnect : tool = .connect
      · subst hconnect
        exact get?_servers_connect host args name client
      · refine get?_servers_of_kept (servers_call host args hconnect) ?_ client
        rintro (⟨url, hregisters⟩ | ⟨id, after, hm, -⟩)
        · generalize hm : Move.call tool.name args = m at hregisters
          cases hregisters
          exact hconnect (name_injective (Move.call.inj hm).1)
        · cases hm
  | restart id =>
    cases hrestart : host.restart id with
    | error fault =>
      have hsame : host.step (.restart id) = host := by
        rw [step, hrestart]
        rfl
      refine get?_servers_of_kept (by rw [hsame]) ?_ client
      rintro (⟨url, hregisters⟩ | ⟨id', after, hm, hok⟩)
      · cases hregisters
      · cases hm
        rw [hrestart] at hok
        cases hok
    | ok after =>
      have hempty : (host.step (.restart id)).links.servers = [] := by
        rw [step, hrestart]
        obtain ⟨storage, -, hafter⟩ := Checked.bind_eq_ok hrestart
        cases hafter
        rfl
      rw [hempty]
      constructor
      · intro hfound
        cases hfound
      · rintro (⟨url, hregisters, -⟩ | ⟨-, hstays⟩)
        · cases hregisters
        · exact (hstays (.inr ⟨id, after, rfl, hrestart⟩)).elim
  | wait | listen =>
    refine get?_servers_of_kept rfl ?_ client
    rintro (⟨url, hregisters⟩ | ⟨id, after, hm, -⟩)
    · cases hregisters
    · cases hm

/-! ## Runs -/

/-- In a run of moves, a server was registered under a name, at an address, and no move since has
put another one in its place or started the host again. -/
def RegisteredLast (host : Host) (moves : List Move) (name : String) (url : Json) : Prop :=
  host.Since (fun before m => before.Registers (.str name) url m)
    (fun before m => before.Unregisters name m) moves

/-- What a host is given at its start stays with it. -/
theorem given_step (host : Host) (m : Move) :
    (host.step m).settings = host.settings ∧ (host.step m).links.http = host.links.http := by
  cases m with
  | call name args =>
    cases htool : Tool.ofName? name with
    | none =>
      rw [step_of_unknown htool]
      exact ⟨rfl, rfl⟩
    | some tool =>
      obtain ⟨between, hchange, htold⟩ := changed_call htool host args
      have hsame : (host.step (.call name args)).settings = between.settings ∧
          (host.step (.call name args)).links.http = between.links.http := by
        generalize host.step (.call name args) = after at htold
        cases htold
        exact ⟨rfl, rfl⟩
      rw [hsame.1, hsame.2]
      cases hchange with
      | interaction hinteraction => exact ⟨rfl, Dispatch.http_outcome _ _ host.links⟩
      | _ => exact ⟨rfl, rfl⟩
  | restart id =>
    rw [step]
    cases hrestart : host.restart id with
    | error fault => exact ⟨rfl, rfl⟩
    | ok after =>
      obtain ⟨storage, -, hafter⟩ := Checked.bind_eq_ok hrestart
      cases hafter
      exact ⟨rfl, rfl⟩
  | wait => exact ⟨rfl, rfl⟩
  | listen => exact ⟨rfl, rfl⟩

theorem given_run (host : Host) (moves : List Move) :
    (host.run moves).settings = host.settings ∧ (host.run moves).links.http = host.links.http := by
  induction moves using List.reverseRecOn with
  | nil => exact ⟨rfl, rfl⟩
  | append_singleton moves m ih =>
    obtain ⟨hsettings, hhttp⟩ := (host.run moves).given_step m
    rw [run_concat]
    exact ⟨hsettings.trans ih.1, hhttp.trans ih.2⟩

/-- Of a host without servers, after any moves, the server under a name is the one that was
registered last under it. -/
theorem get?_servers_run {host : Host} (hnone : host.links.connected = []) (moves : List Move)
    (name : String) (client : Remote.Client) :
    Entries.get? (host.run moves).links.servers (.str name) = some client ↔
      ∃ url, host.RegisteredLast moves name url ∧ client = host.newClient (.str name) url := by
  induction moves using List.reverseRecOn with
  | nil =>
    have hempty : (host.run []).links.servers = [] := congrArg (List.map _) hnone
    rw [hempty]
    constructor
    · exact fun h => nomatch h
    · rintro ⟨url, hlast, -⟩
      exact (not_since_nil hlast).elim
  | append_singleton moves m ih =>
    have hclient : ∀ url, (host.run moves).newClient (.str name) url
        = host.newClient (.str name) url := by
      intro url
      rw [newClient, (host.given_run moves).1]
      rfl
    -- what is registered last over one more move: the move has done it, or it was done before and
    -- the move has not undone it
    simp only [run_concat, get?_servers_step, ih, RegisteredLast, since_concat, hclient]
    constructor
    · rintro (⟨url, hregisters, hurl⟩ | ⟨⟨url, hlast, hurl⟩, hstays⟩)
      · exact ⟨url, .inl hregisters, hurl⟩
      · exact ⟨url, .inr ⟨hlast, hstays⟩, hurl⟩
    · rintro ⟨url, hregisters | ⟨hlast, hstays⟩, hurl⟩
      · exact .inl ⟨url, hregisters, hurl⟩
      · exact .inr ⟨⟨url, hlast, hurl⟩, hstays⟩

end Host
end DecisionBoard
