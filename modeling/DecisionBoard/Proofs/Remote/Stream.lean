import DecisionBoard.Proofs.Checked
import DecisionBoard.Proofs.Json.Extent
import DecisionBoard.Proofs.Packages
import DecisionBoard.Proofs.Remote.Answers

/-!
# Event streams and plain bodies

A message that comes as the one event of a stream is answered like the same message in a plain body,
unless a character within it ends a line: a stream is cut at every line boundary of Unicode, and
what stands in front of such a character is no document. Both come in UTF-8 and are decoded as such.
-/

namespace DecisionBoard

namespace Text

/-! ## Lines that are put together -/

/-- The ways in which a line may end. -/
def IsEnding (ending : List Char) : Prop :=
  ending = ['\n'] ∨ ending = ['\r', '\n'] ∨ ending = ['\r']

/-- Some characters stand on one line. -/
def OnOneLine (cs : List Char) : Prop := ∀ c ∈ cs, isLineEnd c = false

theorem onOneLine_iff {cs : List Char} : OnOneLine cs ↔ cs.any isLineEnd = false := by
  simp [OnOneLine]

instance (cs : List Char) : Decidable (OnOneLine cs) := decidable_of_iff _ onOneLine_iff.symm

/-- A line goes on up to the first character that ends it. -/
theorem cutLines_append (line : List Char) {cs : List Char} (hcs : OnOneLine cs)
    (rest : List Char) : cutLines line (cs ++ rest) = cutLines (cs.reverse ++ line) rest := by
  induction cs generalizing line with
  | nil => rfl
  | cons c cs ih =>
    obtain ⟨hc, hcs⟩ := List.forall_mem_cons.mp hcs
    have hreturn : c ≠ '\r' := by
      rintro rfl
      cases hc
    rw [List.cons_append, cutLines, hc, if_neg Bool.false_ne_true, ih (c :: line) hcs,
      List.reverse_cons, List.append_assoc, List.singleton_append]
    intro more heq
    exact absurd heq hreturn

/-- A character that ends lines ends one, but for a carriage return in front of a line feed. -/
theorem cutLines_cons (line : List Char) {c : Char} (hc : isLineEnd c = true) {rest : List Char}
    (hrest : c = '\r' → ∀ cs, rest ≠ '\n' :: cs) :
    cutLines line (c :: rest) = line.reverse :: cutLines [] rest := by
  rw [cutLines, hc, if_pos rfl]
  intro more hreturn
  exact hrest hreturn more

theorem cutLines_ending (line : List Char) {ending : List Char} (h : IsEnding ending)
    {rest : List Char} (hrest : ending = ['\r'] → ∀ cs, rest ≠ '\n' :: cs) :
    cutLines line (ending ++ rest) = line.reverse :: cutLines [] rest := by
  rcases h with rfl | rfl | rfl
  · exact cutLines_cons line (by decide) fun h => absurd h (by decide)
  · rw [List.cons_append, List.singleton_append, cutLines]
  · exact cutLines_cons line (by decide) fun _ => hrest rfl

/-- Lines that are put together, each with its ending, are cut apart again. -/
theorem cutLines_flatMap {ending : List Char} (h : IsEnding ending) {lines : List (List Char)}
    (hlines : ∀ line ∈ lines, OnOneLine line) {rest : List Char}
    (hrest : ∀ cs, rest ≠ '\n' :: cs) :
    cutLines [] (lines.flatMap (· ++ ending) ++ rest) = lines ++ cutLines [] rest := by
  induction lines with
  | nil => rfl
  | cons line lines ih =>
    obtain ⟨hline, hlines⟩ := List.forall_mem_cons.mp hlines
    -- a carriage return is not taken together with what the next line begins with
    have hnext : ending = ['\r'] → ∀ cs, lines.flatMap (· ++ ending) ++ rest ≠ '\n' :: cs := by
      rintro rfl cs
      cases lines with
      | nil => exact hrest cs
      | cons next lines =>
        obtain ⟨hnext, -⟩ := List.forall_mem_cons.mp hlines
        intro heq
        cases next with
        | nil => cases heq
        | cons c next =>
          have hc := hnext c List.mem_cons_self
          cases heq
          cases hc
    rw [List.flatMap_cons, List.append_assoc, List.append_assoc, cutLines_append [] hline,
      cutLines_ending _ h hnext, ih hlines, List.append_nil, List.reverse_reverse, List.cons_append]

/-- The first character that ends a line, and what stands in front of it. -/
theorem exists_cut {cs : List Char} (h : ∃ c ∈ cs, isLineEnd c = true) :
    ∃ before c after, cs = before ++ c :: after ∧ OnOneLine before ∧ isLineEnd c = true := by
  cases hfind : cs.find? isLineEnd with
  | none =>
    obtain ⟨c, hc, hend⟩ := h
    exact absurd hend (List.find?_eq_none.mp hfind c hc)
  | some c =>
    obtain ⟨hend, before, after, hsplit, hbefore⟩ := List.find?_eq_some_iff_append.mp hfind
    exact ⟨before, c, after, hsplit, fun d hd => by simpa using hbefore d hd, hend⟩

end Text

namespace Remote

open Text (IsEnding OnOneLine)

/-! ## Streams with one event -/

/-- A line of a stream that is no data: it is named otherwise, or has no name. -/
structure IsNote (line : String) : Prop where
  named : ["event:", "id:", ":"].any (fun name => name.toList.isPrefixOf line.toList) = true
  oneLine : OnOneLine line.toList

/-- The body of a stream with one event between notes, and a blank line at the end. -/
def streamBody (ending : String) (before after : List String) (data : String) : String :=
  String.join ((before ++ ("data: " ++ data) :: (after ++ [""])).map (· ++ ending))

/-- The response that carries a message as the one event of a stream. -/
def streamed (ending : String) (before after : List String) (data : String) : Response where
  contentType := some "text/event-stream"
  body := (streamBody ending before after data).toUTF8

/-- The response that carries a message as its body. -/
def plain (data : String) : Response where
  contentType := some "application/json"
  body := data.toUTF8

/-- Lines that are put together are the lines of that text. -/
theorem lines_join {ending : String} (hending : IsEnding ending.toList) {lines : List String}
    (hlines : ∀ line ∈ lines, OnOneLine line.toList) :
    Text.lines (String.join (lines.map (· ++ ending))) = lines := by
  have hlists : ∀ line ∈ lines.map String.toList, OnOneLine line := List.forall_mem_map.mpr hlines
  have hcut : Text.cutLines [] ((lines.map String.toList).flatMap (· ++ ending.toList) ++ [])
      = lines.map String.toList ++ Text.cutLines [] [] := Text.cutLines_flatMap hending hlists nofun
  have htext : (String.join (lines.map (· ++ ending))).toList
      = (lines.map String.toList).flatMap (· ++ ending.toList) ++ [] := by
    simp [String.toList_join, List.flatMap_map]
  rw [Text.lines, htext, hcut]
  simp [Text.cutLines]

/-- A note says nothing. -/
theorem IsNote.eventData? {line : String} (h : IsNote line) : eventData? line = none := by
  have hnamed := h.named
  simp only [List.any_cons, List.any_nil, Bool.or_false, Bool.or_eq_true,
    List.isPrefixOf_iff_prefix] at hnamed
  have hother : "data:".toList.isPrefixOf line.toList = false := by
    rcases hnamed with ⟨rest, hrest⟩ | ⟨rest, hrest⟩ | ⟨rest, hrest⟩ <;> rw [← hrest] <;> rfl
  rw [Remote.eventData?, hother]
  rfl

theorem filterMap_notes {notes : List String} (h : ∀ note ∈ notes, IsNote note) :
    notes.filterMap eventData? = [] :=
  List.filterMap_eq_nil_iff.mpr fun note hnote => (h note hnote).eventData?

/-- The line of an event says what stands on it without the blanks at its ends. -/
theorem eventData?_data {cs : List Char} (h : Text.trimWhere Text.isBlank (' ' :: cs) ≠ []) :
    eventData? (String.ofList ("data: ".toList ++ cs))
      = some (String.ofList (Text.trimWhere Text.isBlank (' ' :: cs))) := by
  have hne : String.ofList (Text.trimWhere Text.isBlank (' ' :: cs)) ≠ "" := by
    intro heq
    have hnil := congrArg String.toList heq
    rw [String.toList_ofList] at hnil
    exact h hnil
  have hdata : "data:".toList.isPrefixOf ("data: ".toList ++ cs) = true := by
    rw [List.isPrefixOf_iff_prefix]
    exact ⟨' ' :: cs, rfl⟩
  have hrest : ("data: ".toList ++ cs).drop 5 = ' ' :: cs := rfl
  have htext : (String.ofList ("data: ".toList ++ cs)).toList = "data: ".toList ++ cs :=
    String.toList_ofList
  have htrim : Text.trim (String.ofList (' ' :: cs))
      = String.ofList (Text.trimWhere Text.isBlank (' ' :: cs)) := by
    rw [Text.trim, String.toList_ofList]
  rw [eventData?, htext, if_pos hdata, hrest]
  dsimp only
  rw [htrim, if_neg hne]

theorem onOneLine_data {cs : List Char} (h : OnOneLine cs) : OnOneLine ("data: ".toList ++ cs) := by
  have hname : OnOneLine "data: ".toList := by decide
  exact List.forall_mem_append.mpr ⟨hname, h⟩

/-- A message on one line is what the one event of its stream says. -/
theorem eventTexts_oneLine {ending : String} {before after : List String} {data : String}
    (hending : IsEnding ending.toList) (hbefore : ∀ note ∈ before, IsNote note)
    (hafter : ∀ note ∈ after, IsNote note) (hdata : OnOneLine data.toList)
    (hne : Text.trimWhere Text.isBlank (' ' :: data.toList) ≠ []) :
    eventTexts (streamBody ending before after data)
      = [String.ofList (Text.trimWhere Text.isBlank (' ' :: data.toList))] := by
  have hlines : ∀ line ∈ before ++ ("data: " ++ data) :: (after ++ [""]),
      OnOneLine line.toList := by
    intro line hline
    simp only [List.mem_append, List.mem_cons, List.not_mem_nil, or_false] at hline
    rcases hline with hline | rfl | hline | rfl
    · exact (hbefore line hline).oneLine
    · rw [String.toList_append]
      exact onOneLine_data hdata
    · exact (hafter line hline).oneLine
    · exact nofun
  have hdata' : "data: " ++ data = String.ofList ("data: ".toList ++ data.toList) := by
    rw [String.ofList_append, String.ofList_toList, String.ofList_toList]
  have hlast : [""].filterMap eventData? = [] := by decide
  rw [eventTexts, streamBody, lines_join hending hlines, List.filterMap_append,
    filterMap_notes hbefore, hdata', List.filterMap_cons, eventData?_data hne,
    List.filterMap_append, filterMap_notes hafter, hlast]
  rfl

/-- A message that does not stand on one line is cut where the first line ends. -/
theorem eventTexts_cut {ending : String} {before : List String} (after : List String)
    {data : String} (hbefore : ∀ note ∈ before, IsNote note) (hending : IsEnding ending.toList)
    {front back : List Char} {c : Char} (hsplit : data.toList = front ++ c :: back)
    (hfront : OnOneLine front) (hc : Text.isLineEnd c = true) (hreturn : c ≠ '\r')
    (hne : Text.trimWhere Text.isBlank (' ' :: front) ≠ []) :
    ∃ more, eventTexts (streamBody ending before after data)
      = String.ofList (Text.trimWhere Text.isBlank (' ' :: front)) :: more := by
  have hnotes : ∀ line ∈ before.map String.toList, OnOneLine line :=
    List.forall_mem_map.mpr fun note hnote => (hbefore note hnote).oneLine
  have hline : OnOneLine ("data: ".toList ++ front) := onOneLine_data hfront
  obtain ⟨rest, hbody⟩ : ∃ rest, (streamBody ending before after data).toList
      = (before.map String.toList).flatMap (· ++ ending.toList) ++
        ("data: ".toList ++ front ++ c :: rest) := by
    refine ⟨back ++ ending.toList ++
      ((after ++ [""]).map String.toList).flatMap (· ++ ending.toList), ?_⟩
    rw [streamBody, String.toList_join]
    simp [List.flatMap_map, hsplit]
  have hcut : Text.cutLines [] ("data: ".toList ++ front ++ c :: rest)
      = ("data: ".toList ++ front) :: Text.cutLines [] rest := by
    rw [Text.cutLines_append [] hline, Text.cutLines_cons _ hc fun h => absurd h hreturn,
      List.append_nil, List.reverse_reverse]
  have hstart : ∀ cs, "data: ".toList ++ front ++ c :: rest ≠ '\n' :: cs := by
    intro cs heq
    cases (List.cons.inj heq).1
  refine ⟨((Text.cutLines [] rest).map String.ofList).filterMap eventData?, ?_⟩
  rw [eventTexts, Text.lines, hbody, Text.cutLines_flatMap hending hnotes hstart, hcut,
    List.map_append, List.map_cons, List.filterMap_append, List.filterMap_cons,
    eventData?_data hne, List.map_map]
  have hsame : before.map (String.ofList ∘ String.toList) = before := by
    simp [Function.comp_def]
  rw [hsame, filterMap_notes hbefore]
  rfl

/-! ## What is made of them -/

/-- A stream that holds a message holds nothing that is not read. -/
theorem exists_read_of_eventMessage {v : Json} {text : String} (h : eventMessage text = .ok v)
    {data : String} (hdata : data ∈ eventTexts text) : ∃ w, Json.read data = .ok w := by
  rcases eventMessage_eq_ok.mp h with ⟨hnone, -⟩ | ⟨before, last, hevents, hbefore, hlast⟩
  · rw [hnone] at hdata
    cases hdata
  · rw [hevents] at hdata
    rcases List.mem_append.mp hdata with hdata | hdata
    · exact hbefore data hdata
    · rw [List.mem_singleton.mp hdata]
      exact ⟨v, hlast⟩

theorem isBlank_of_isLineEnd {c : Char} (h : Text.isLineEnd c = true) : Text.isBlank c = true := by
  simp only [Text.isLineEnd, Text.isBlank, Bool.or_eq_true, Bool.and_eq_true, decide_eq_true_eq,
    beq_iff_eq] at h ⊢
  omega

section

variable {http : Http} (hreads : http.ReadsUtf8)
variable {ending : String} {before after : List String} {t : String} {v : Json}

include hreads

/-- The message in a stream is read from the text as it came. -/
theorem message_streamed : (streamed ending before after t).message http
    = (eventMessage (streamBody ending before after t)).mapError (·.message) := by
  have hkind : (streamed ending before after t).isEventStream = true := by
    show "text/event-stream".toList.isPrefixOf "text/event-stream".toList = true
    decide
  have htext : http.text (streamed ending before after t)
      = .ok (streamBody ending before after t) := by
    refine hreads.text rfl ?_
    rintro kind ⟨⟩
    decide
  rw [Response.message, if_pos hkind, htext]

theorem message_plain (hread : Json.read t = .ok v) : (plain t).message http = .ok v := by
  have hkind : (plain t).isEventStream = false := by
    show "text/event-stream".toList.isPrefixOf "application/json".toList = false
    decide
  exact (Response.message_of_body hkind).mpr (hreads.json rfl hread)

/-- A stream on whose data line a message stands whole holds that message. -/
theorem message_oneLine (hending : IsEnding ending.toList) (hbefore : ∀ note ∈ before, IsNote note)
    (hafter : ∀ note ∈ after, IsNote note) (hread : Json.read t = .ok v)
    (hdata : OnOneLine t.toList) : (streamed ending before after t).message http = .ok v := by
  have hspace : ∀ c ∈ [' '], Text.isBlank c = true := List.forall_mem_singleton.mpr rfl
  obtain ⟨⟨c, cs, hcons, hc⟩, hscan⟩ :=
    Json.scanDocument_trim hspace (Json.read_eq_ok.mp hread).2
  rw [List.singleton_append] at hcons hscan
  have hne : Text.trimWhere Text.isBlank (' ' :: t.toList) ≠ [] := by
    rw [hcons]
    exact List.cons_ne_nil c cs
  have hevent :
      Json.read (String.ofList (Text.trimWhere Text.isBlank (' ' :: t.toList))) = .ok v := by
    refine Json.read_eq_ok.mpr ⟨?_, ?_⟩
    · rw [String.toList_ofList, hcons]
      exact fun ds heq => Json.ne_of_opensValue hc rfl (List.cons.inj heq).1
    · rw [String.toList_ofList]
      exact hscan
  have htexts := eventTexts_oneLine hending hbefore hafter hdata hne
  rw [message_streamed hreads, mapError_eq_ok]
  exact eventMessage_eq_ok.mpr (.inr ⟨[], _, htexts, nofun, hevent⟩)

/-- A stream in which a message is cut holds no message. -/
theorem message_cut (after : List String) (hending : IsEnding ending.toList)
    (hbefore : ∀ note ∈ before, IsNote note) (hread : Json.read t = .ok v)
    (hreturn : '\r' ∉ t.toList) (hfeed : '\n' ∉ t.toList) (hdata : ¬ OnOneLine t.toList) :
    ∃ e : Json.ReadError, (streamed ending before after t).message http = .error e.message := by
  have hcut : ∃ c ∈ t.toList, Text.isLineEnd c = true := by
    by_contra hnone
    exact hdata fun c hc => Bool.eq_false_iff.mpr fun hend => hnone ⟨c, hc, hend⟩
  obtain ⟨front, c, back, hsplit, hfront, hend⟩ := Text.exists_cut hcut
  have hmem : c ∈ t.toList := by
    rw [hsplit]
    exact List.mem_append_right front List.mem_cons_self
  have hne_return : c ≠ '\r' := fun h => hreturn (h ▸ hmem)
  have hspacing : Json.isSpacing c = false := by
    have hne_feed : c ≠ '\n' := fun h => hfeed (h ▸ hmem)
    have hspace : c ≠ ' ' := by
      rintro rfl
      cases hend
    have htab : c ≠ '\t' := by
      rintro rfl
      cases hend
    simp [Json.isSpacing, hspace, htab, hne_feed, hne_return]
  -- what stands in front of the cut is no document, so the first event is not read
  have hscan := (Json.read_eq_ok.mp hread).2
  rw [hsplit] at hscan
  have hblanks : ∀ c ∈ [' '], Text.isBlank c = true := List.forall_mem_singleton.mpr rfl
  obtain ⟨hne, hfails⟩ :=
    Json.not_scanDocument_cut hblanks (isBlank_of_isLineEnd hend) hspacing hscan
  rw [List.singleton_append] at hne hfails
  obtain ⟨more, htexts⟩ := eventTexts_cut after hbefore hending hsplit hfront hend
    hne_return hne
  rw [message_streamed hreads]
  cases hmessage : eventMessage (streamBody ending before after t) with
  | error e => exact ⟨e, rfl⟩
  | ok w =>
    have hfirst := exists_read_of_eventMessage hmessage (by rw [htexts]; exact List.mem_cons_self)
    obtain ⟨u, hu⟩ := hfirst
    have hscan := (Json.read_eq_ok.mp hu).2
    rw [String.toList_ofList] at hscan
    exact (hfails u hscan).elim

/-- A message that is the one event of a stream is answered like the same message in a plain body if
it stands on one line. Otherwise, although there is no carriage return and no line feed in it, it is
not read. -/
theorem stream_answered_like_body (hending : IsEnding ending.toList)
    (hbefore : ∀ note ∈ before, IsNote note) (hafter : ∀ note ∈ after, IsNote note)
    (hread : Json.read t = .ok v) (hreturn : '\r' ∉ t.toList) (hfeed : '\n' ∉ t.toList)
    (client : Client) (address : Address) :
    (OnOneLine t.toList → client.answer http address (.response (streamed ending before after t))
      = client.answer http address (.response (plain t))) ∧
    (address.refusal = none → client.answer http address (.response (plain t)) = answerOf v ∧
      (¬ OnOneLine t.toList → ∃ e : Json.ReadError,
        client.answer http address (.response (streamed ending before after t))
          = .ok (.failed e.message))) := by
  have hstatus : (plain t).isSuccess = true := rfl
  have hstatus' : (streamed ending before after t).isSuccess = true := rfl
  refine ⟨fun hdata => ?_, fun haddress => ⟨?_, fun hdata => ?_⟩⟩
  · cases haddress : address.refusal with
    | none =>
      rw [Response.answer_of_success hstatus haddress, Response.answer_of_success hstatus' haddress,
        message_plain hreads hread, message_oneLine hreads hending hbefore hafter hread hdata]
    | some reason =>
      rw [Response.answer_of_refusal haddress, Response.answer_of_refusal haddress]
  · rw [Response.answer_of_success hstatus haddress, message_plain hreads hread]
  · obtain ⟨e, he⟩ := message_cut hreads after hending hbefore hread hreturn hfeed hdata
    rw [Response.answer_of_success hstatus' haddress, he]
    exact ⟨e, rfl⟩

end

/-- A message with a line separator in a text. -/
def separated : String := "\x7b\"result\": \x7b\"note\": \"a\u2028b\"\x7d\x7d"

/-- A client of a server, and the address that it asks. -/
def noteClient : Client := { name := .str "notes", url := .str "http://a.test/mcp" }

def noteAddress : Address := { text := "http://a.test/mcp" }

theorem separated_read_in_body_only :
    (∃ answer, noteClient.answer .utf8 noteAddress (.response (plain separated)) = .ok answer ∧
      answer.success = true ∧ ((answer.data.getD []).get "note").string? = some "a\u2028b") ∧
    ∃ e : Json.ReadError,
      noteClient.answer .utf8 noteAddress (.response (streamed "\n" ["event: message"] [] separated))
        = .ok (.failed e.message) := by
  have hshape : ((Json.read separated).toOption.any fun v => (answerOf v).toOption.any fun answer =>
      answer.success && ((answer.data.getD []).get "note").string? == some "a\u2028b") = true := by
    decide +kernel
  obtain ⟨v, hread, htold⟩ := (Option.any_eq_true _ _).mp hshape
  obtain ⟨answer, hanswer, hnote⟩ := (Option.any_eq_true _ _).mp htold
  obtain ⟨hsuccess, hnote⟩ := Bool.and_eq_true_iff.mp hnote
  have hnotes : ∀ note ∈ ["event: message"], IsNote note :=
    List.forall_mem_singleton.mpr ⟨by decide, by decide⟩
  have hcut : ¬ OnOneLine separated.toList := by decide
  have hending : IsEnding "\n".toList := .inl (by decide)
  have hnone : ∀ note ∈ [], IsNote note := List.forall_mem_nil _
  obtain ⟨-, haccepted⟩ := stream_answered_like_body Http.readsUtf8_utf8 hending hnotes hnone
    (eq_ok_of_toOption hread) (by decide) (by decide) noteClient noteAddress
  obtain ⟨hplain, hstream⟩ := haccepted rfl
  exact ⟨⟨answer, hplain.trans (eq_ok_of_toOption hanswer), hsuccess, beq_iff_eq.mp hnote⟩,
    hstream hcut⟩

end Remote
end DecisionBoard
