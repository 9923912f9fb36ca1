import DecisionBoard.Host.Basic

/-!
# The packages of a host

What a colour is called, how a value that is no text is refused, where requests go and how responses
are decoded is left to packages. What is assumed of them is stated here, and holds of the packages
at the end.
-/

namespace DecisionBoard

namespace Remote

/-- Responses in UTF-8 are decoded as they are meant, if their content type says nothing else. -/
structure Http.ReadsUtf8 (http : Http) : Prop where
  text : ∀ {r : Response} {s : String}, r.body = s.toUTF8 →
    (∀ kind, r.contentType = some kind → '=' ∉ kind.toList) → http.text r = .ok s
  json : ∀ {r : Response} {s : String} {v : Json}, r.body = s.toUTF8 → Json.read s = .ok v →
    http.json r = .ok v

namespace Http

/-- The text of a response that is taken to be in UTF-8. -/
def utf8Text (r : Response) : Except ForeignError String :=
  match String.fromUTF8? r.body with
  | some s => .ok s
  | none => .error ⟨"UnicodeDecodeError", "invalid start byte"⟩

/-- A package that takes every response to be in UTF-8, and asks every address that is a text. -/
def utf8 : Http where
  target
    | .str url => .ok ⟨url, none⟩
    | _ => .error "Invalid type for url."
  text := utf8Text
  json r := do
    let s ← (utf8Text r).mapError (·.message)
    (Json.read s).mapError (·.message)

theorem utf8Text_eq {r : Response} {s : String} (hbody : r.body = s.toUTF8) :
    utf8Text r = .ok s := by
  have hdecoded : String.fromUTF8? s.toUTF8 = some s := dif_pos s.isValidUTF8
  rw [utf8Text, hbody, hdecoded]

theorem readsUtf8_utf8 : utf8.ReadsUtf8 where
  text := fun hbody _ => utf8Text_eq hbody
  json := by
    intro r s v hbody hread
    show ((utf8Text r).mapError _ >>= fun s => (Json.read s).mapError _) = _
    rw [utf8Text_eq hbody]
    show (Json.read s).mapError _ = _
    rw [hread]
    rfl

end Http

end Remote

/-- Packages that know no colour but that of boards without a theme. -/
def Display.plain : Display where
  colour accent :=
    if accent.string? == some Preview.defaultAccent then .ok ⟨0x25, 0x63, 0xEB⟩
    else .error ⟨"ValueError", s!"unknown color specifier: {accent.quoted}"⟩
  notText _ := ⟨"ValidationError", "Input should be a valid string"⟩

/-- A new host over these packages. -/
def Host.new : Host where
  display := .plain
  sessionId := "s"
  links := { http := .utf8 }
  clock := .whole 0

end DecisionBoard
